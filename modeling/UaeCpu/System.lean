import UaeCpu.Run

/-!
# UaeCpu.System

The machine and its host as a transition system: nested calls of `uae_host_run` and
`uae_host_step`, each somewhere in its loop, and between any two steps of the code whatever a
hook, an opcode handler or a memory handler does.

* `Sys μ`    — the CPU, the calls in progress, and whom a pending `SPCFLAG_BRK` is meant for.
* `Event`    — what happens in one step.
* `Step h`   — the steps of a host's machine.

`UaeCpu.Simulation` shows that every call of `uae_host_run` is a run of this system.
-/

namespace UaeCpu

open Fault FaultM Trans

variable {μ : Type}

/-! ## States -/

/-- The entry point a call came through; the outermost `uae_host_run` may run translated code. -/
inductive CallKind where
  | run (target : Int)
  | step
  | jit
  deriving DecidableEq, Repr

/-- Why a call is about to return. -/
inductive ExitReason where
  | guard | modeChange | request | stepped | fault
  deriving DecidableEq, Repr

/-- Where a call is: at the head of its loop, in `do_specialties` with the flags that were read
at its start and are still to be served, in `do_interrupt` with a level, about to execute an
instruction, in an instruction, in translated code or in a `CATCH` block, or about to return. -/
inductive Phase where
  | head
  | serving (spc : SpcFlags)
  | taking (spc : SpcFlags) (nr : Level)
  | ready
  | busy
  | done (r : ExitReason)
  deriving DecidableEq, Repr

/-- The phases in which code outside the loop runs. -/
def Phase.inside : Phase → Bool
  | .serving _ | .taking _ _ | .busy => true
  | .head | .ready | .done _ => false

structure Call where
  kind : CallKind
  phase : Phase
  deriving DecidableEq, Repr

/-- Hooks and handlers run, or no call is in progress. -/
def Inside : List Call → Prop
  | [] => True
  | k :: _ => k.phase.inside = true

/-- The machine with its calls, innermost first, and the depth of the call a pending
`SPCFLAG_BRK` was raised for. -/
structure Sys (μ : Type) where
  cpu : Cpu μ
  calls : List Call
  want : Option Nat

namespace Sys

/-- The machine with no call in progress. -/
def idle (c : Cpu μ) : Sys μ := { cpu := c, calls := [], want := none }

def depth (s : Sys μ) : Nat := s.calls.length

def brk (s : Sys μ) : Bool := s.cpu.regs.spc.brk

/-- Replaces the CPU; a flag that `do_cycles` raised asks the outermost call, the one on the JIT
path, to return. -/
def charge (c : Cpu μ) (s : Sys μ) : Sys μ :=
  { s with cpu := c, want := if c.regs.spc.brk && !s.brk then some 1 else s.want }

end Sys

/-! ## Effects -/

/-- A change to the CPU that concerns neither the clock nor the requests, and at most raises the
interrupt flags. -/
structure Quiet (c c' : Cpu μ) : Prop where
  pending : c'.pending = c.pending
  clock : c'.clock = c.clock
  depth : c'.executeDepth = c.executeDepth
  intmask : c'.regs.intmask = c.regs.intmask
  brk : c'.regs.spc.brk = c.regs.spc.brk
  int : c.regs.spc.int = true → c'.regs.spc.int = true
  doInt : c.regs.spc.doInt = true → c'.regs.spc.doInt = true

/-- `x_do_cycles` of the cycle-exact cores. -/
def Cpu.addTicks (n : Int) (c : Cpu μ) : Cpu μ :=
  { c with clock := { c.clock with currcycle := c.clock.currcycle + n } }

/-- The end of a compiled block of `n` ticks. -/
def Cpu.jitBlock (n : Nat) (c : Cpu μ) : Cpu μ :=
  let c := { c with clock := { c.clock with pissoff := c.clock.pissoff - BitVec.ofNat 32 n } }
  if c.clock.pissoff.msb then c.doCycles 0 else c

/-- `do_specialties` finds a level: both flags go down. -/
def Cpu.clearInts (c : Cpu μ) : Cpu μ := c.mapSpc fun f => { f with int := false, doInt := false }

/-- The flags `do_specialties` has read, once it has served `SPCFLAG_INT`. -/
def SpcFlags.served (f : SpcFlags) : SpcFlags := { f with int := false }

/-- The level is one `do_specialties` takes. -/
def Regs.takes (r : Regs) (l : Level) : Bool :=
  decide (r.intmask < l ∨ (l = 7 ∧ r.ipl.lastipl < l))

/-- The end of `do_specialties`: `SPCFLAG_DOINT` becomes `SPCFLAG_INT`. -/
def Cpu.promote (spc : SpcFlags) (c : Cpu μ) : Cpu μ :=
  if spc.doInt && !spc.mmuRestart then c.mapSpc fun f => { f with doInt := false, int := true }
  else c

def Cpu.clearBrk (c : Cpu μ) : Cpu μ := c.mapSpc fun f => { f with brk := false }

/-- The head of the JIT path. -/
def Cpu.jitStart (cycles : Int) (c : Cpu μ) : Cpu μ :=
  { c with clock := (JitClock.start c.clock cycles).clock }

/-- The end of the JIT path. -/
def Cpu.jitFinish (c : Cpu μ) : Cpu μ :=
  { c with clock := { c.clock with
    currcycle := c.clock.currcycle + c.clock.consumed, pissoffValue := 0, pissoff := 0,
    jitRunActive := false } }

/-- The end of a call, after its loop. -/
def CallKind.close (k : CallKind) (c : Cpu μ) : Cpu μ :=
  match k with
  | .jit => leaveRun c.jitFinish
  | _ => leaveRun c

/-- The guard of a call's loop. -/
def CallKind.opens (k : CallKind) (c : Cpu μ) : Bool :=
  match k with
  | .run target => runnable target c
  | .step | .jit => true

/-! ## Steps -/

inductive Event where
  | quiet
  | ticks (n : Nat)
  | exactTicks (n : Nat)
  | resetClock
  | block (n : Nat)
  | writeSR (k : SrWrite) (v : Word)
  | setIrq (level : Long)
  | setVirq (level : Long) (active : Bool)
  | endTimeslice
  | raiseMask (l : Level)
  | enterRun (cycles : Int)
  | enterJit (cycles : Int)
  | enterStep
  | pass
  | sample (l : Level)
  | sampleExact (l : Level)
  | again (l : Level)
  | took
  | served
  | exit (r : ExitReason)
  | resume
  | drop
  | begin
  | finish
  | fault
  | leave
  deriving DecidableEq, Repr

/-- What one call does next, with the CPU and the pending request it leaves. -/
inductive CallStep (h : Host μ) : Call → Sys μ → Event → Call → Cpu μ → Option Nat → Prop where
  | pass {k s} : k.opens s.cpu = true →
      CallStep h ⟨k, .head⟩ s .pass
        ⟨k, if s.cpu.regs.spc.any then .serving s.cpu.regs.spc else .ready⟩ s.cpu s.want
  | closed {target s} : runnable target s.cpu = false →
      CallStep h ⟨.run target, .head⟩ s (.exit .guard) ⟨.run target, .done .guard⟩ s.cpu s.want
  | sample {k spc s l} : spc.int = true → spc.mmuRestart = false →
      (h.getIrq = none → l = s.cpu.pending.level) →
      CallStep h ⟨k, .serving spc⟩ s (.sample l)
        ⟨k, if s.cpu.regs.takes l then .taking spc.served l else .serving spc.served⟩
        s.cpu.clearInts s.want
  | sampleExact {k spc s l} : h.prefs.accurateIpl = true →
      CallStep h ⟨k, .serving spc⟩ s (.sampleExact l) ⟨k, .taking spc l⟩
        (s.cpu.mapSpc fun f => { f with int := false }) s.want
  | again {k spc nr s l} : h.prefs.cpuCompatible = true →
      CallStep h ⟨k, .taking spc nr⟩ s (.again l) ⟨k, .taking spc l⟩ s.cpu s.want
  | took {k spc nr s} : CallStep h ⟨k, .taking spc nr⟩ s .took ⟨k, .serving spc⟩ s.cpu s.want
  | served {k spc s} : spc.modeChange = false → spc.brk = false →
      (spc.int = true → spc.mmuRestart = true ∨ h.prefs.accurateIpl = true) →
      CallStep h ⟨k, .serving spc⟩ s .served ⟨k, .ready⟩ (s.cpu.promote spc) s.want
  | request {k spc s} : spc.modeChange = false → spc.brk = true →
      (spc.int = true → spc.mmuRestart = true ∨ h.prefs.accurateIpl = true) →
      CallStep h ⟨k, .serving spc⟩ s (.exit .request) ⟨k, .done .request⟩
        (s.cpu.promote spc).clearBrk none
  | modeChange {k spc s} : spc.modeChange = true →
      CallStep h ⟨k, .serving spc⟩ s (.exit .modeChange) ⟨k, .done .modeChange⟩ s.cpu s.want
  | begin {k s} : CallStep h ⟨k, .ready⟩ s .begin ⟨k, .busy⟩ s.cpu s.want
  | finish {k s} : k ≠ .step → CallStep h ⟨k, .busy⟩ s .finish ⟨k, .head⟩ s.cpu s.want
  | fault {k ph s} : ph.inside = true → CallStep h ⟨k, ph⟩ s .fault ⟨k, .busy⟩ s.cpu s.want
  | stepped {s} :
      CallStep h ⟨.step, .busy⟩ s (.exit .stepped) ⟨.step, .done .stepped⟩ s.cpu s.want
  | jitFault {s} : CallStep h ⟨.jit, .busy⟩ s (.exit .fault) ⟨.jit, .done .fault⟩ s.cpu s.want
  | resume {r s} : CallStep h ⟨.jit, .done r⟩ s .resume ⟨.jit, .busy⟩ s.cpu s.want
  | drop {s} : CallStep h ⟨.jit, .ready⟩ s .drop ⟨.jit, .ready⟩ s.cpu.clearBrk none

/-- A step of the system: something happens in a hook or a handler, a call begins, the innermost
call goes on, or it returns. -/
inductive Step (h : Host μ) : Sys μ → Event → Sys μ → Prop where
  | quiet {s c'} : Inside s.calls → Quiet s.cpu c' → Step h s .quiet { s with cpu := c' }
  | ticks {s} (n : Nat) : Inside s.calls → Step h s (.ticks n) (s.charge (s.cpu.doCycles n))
  | exactTicks {s} (n : Nat) : Inside s.calls → h.prefs.cpuCycleExact = true →
      Step h s (.exactTicks n) { s with cpu := s.cpu.addTicks n }
  | resetClock {s} : Inside s.calls → h.prefs.cpuCycleExact = true →
      h.prefs.cpuModel.num ≤ 68010 → Step h s .resetClock (s.charge (ce000ResetClock s.cpu))
  | block {s} (n : Nat) : Inside s.calls → s.cpu.clock.jitRunActive = true → 0 < n →
      (n : Int) ≤ intMax → Step h s (.block n) (s.charge (s.cpu.jitBlock n))
  | writeSR {s} (k : SrWrite) (v : Word) : Inside s.calls →
      Step h s (.writeSR k v) { s with cpu := s.cpu.writeSR h.prefs k v }
  | setIrq {s} (l : Long) : Inside s.calls → Step h s (.setIrq l) { s with cpu := setIrq l s.cpu }
  | setVirq {s} (l : Long) (a : Bool) : Inside s.calls →
      Step h s (.setVirq l a) { s with cpu := setVirq l a s.cpu }
  | endTimeslice {s} : Inside s.calls →
      Step h s .endTimeslice { s with cpu := endTimeslice s.cpu, want := some s.depth }
  | raiseMask {s k spc l rest} : s.calls = ⟨k, .taking spc l⟩ :: rest →
      Step h s (.raiseMask l)
        { s with cpu := s.cpu.mapRegs fun r => { r with intmask := l } }
  | enterRun {s} (cycles : Int) : Inside s.calls → (h.prefs.jit = true → s.calls ≠ []) →
      Step h s (.enterRun cycles)
        { s with
          cpu := enterRun h s.cpu
          calls := ⟨.run (s.cpu.clock.currcycle + cycles * cycleUnit), .head⟩ :: s.calls }
  | enterJit {s} (cycles : Int) : s.calls = [] → h.prefs.jit = true →
      Step h s (.enterJit cycles)
        { s with cpu := (enterRun h s.cpu).jitStart cycles, calls := [⟨.jit, .head⟩] }
  | enterStep {s} : Inside s.calls →
      Step h s .enterStep
        { s with
          cpu := { s.cpu with executeDepth := s.cpu.executeDepth + 1 }
          calls := ⟨.step, .head⟩ :: s.calls }
  | call {s e k k' rest c' w'} : s.calls = k :: rest → CallStep h k s e k' c' w' →
      Step h s e { cpu := c', calls := k' :: rest, want := w' }
  | leave {s k r rest} : s.calls = ⟨k, .done r⟩ :: rest →
      Step h s .leave { s with cpu := k.close s.cpu, calls := rest }

end UaeCpu
