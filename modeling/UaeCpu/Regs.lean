import UaeCpu.Lib.Fault

/-!
# UaeCpu.Regs

The data model: configuration (`struct uae_prefs`), special flags, `struct regstruct`, the
lazily kept condition codes (`regflags`), the pushed interrupt requests and the clock.

`Cpu μ` is generic in `μ`, everything outside the core: guest memory, devices, the host.
-/

namespace UaeCpu

open Fault

abbrev Long := BitVec 32
abbrev Word := BitVec 16
abbrev Byte := BitVec 8

/-- An interrupt level or mask, `0` to `7`. -/
abbrev Level := BitVec 3

/-! Register numbers, the ways of an ATC set, the ATC lines of a 68030. -/

theorem neZero_eight : @NeZero Nat Zero.ofOfNat0 8 := ⟨by decide⟩

theorem neZero_four : @NeZero Nat Zero.ofOfNat0 4 := ⟨by decide⟩

theorem neZero_twentyTwo : @NeZero Nat Zero.ofOfNat0 22 := ⟨by decide⟩

attribute [instance] neZero_eight neZero_four neZero_twentyTwo

theorem reg_lt (i : Fin 8) : i.val < 8 := i.isLt

/-! ## Configuration -/

inductive Model where
  | m68000 | m68010 | m68020 | m68030 | m68040 | m68060
  deriving DecidableEq, Repr

/-- `currprefs.cpu_model`. -/
def Model.num : Model → Nat
  | .m68000 => 68000
  | .m68010 => 68010
  | .m68020 => 68020
  | .m68030 => 68030
  | .m68040 => 68040
  | .m68060 => 68060

/-- `currprefs.fpu_model`. -/
inductive FpuModel where
  | none | m68881 | m68882 | m68040 | m68060
  deriving DecidableEq, Repr

/-- The part of `currprefs` the core reads; `timing_mode` 1 sets `cpuCompatible`, 2 also
`cpuCycleExact`. -/
structure Prefs where
  cpuModel : Model
  fpuModel : FpuModel
  cpuCompatible : Bool
  cpuCycleExact : Bool
  mmuModel : Bool
  cachesize : Nat
  deriving DecidableEq, Repr

namespace Prefs

/-- `timing_mode` 0 with neither FPU, MMU nor JIT, what `default_prefs` gives. -/
def plain (m : Model) : Prefs :=
  { cpuModel := m, fpuModel := .none, cpuCompatible := false, cpuCycleExact := false,
    mmuModel := false, cachesize := 0 }

/-- `tbl` is a cycle-exact table when `build_cpufunctbl` compares it: 13, 14, 21 and 23 are those
up to the 68030 without MMU or JIT. An FPU on a 68000 or 68010 has pointed `tbl` at table 3. -/
def cycleExactTable (p : Prefs) : Bool :=
  p.cpuCycleExact && p.cachesize == 0 && !p.mmuModel && decide (p.cpuModel.num ≤ 68030) &&
    !(p.fpuModel != .none && decide (p.cpuModel.num < 68020))

/-- `m68k_interrupt_delay`, as `build_cpufunctbl` sets it; `m68k_speed` stays 0 in this build. -/
def interruptDelay (p : Prefs) : Bool :=
  if p.cpuCycleExact then p.cycleExactTable
  else p.cpuCompatible && decide (p.cpuModel.num ≤ 68010)

/-- `m68k_accurate_ipl`: only tables 13 and 14. -/
def accurateIpl (p : Prefs) : Bool :=
  p.cycleExactTable && decide (p.cpuModel.num ≤ 68010)

end Prefs

/-! ## Registers -/

/-- `regs.spcflags`, one field for each flag something in this build can set. -/
structure SpcFlags where
  int : Bool
  doInt : Bool
  trace : Bool
  doTrace : Bool
  brk : Bool
  modeChange : Bool
  check : Bool
  endCompile : Bool
  mmuRestart : Bool
  deriving DecidableEq, Repr

/-- `if (regs.spcflags)`. -/
def SpcFlags.any (f : SpcFlags) : Bool :=
  f.int || f.doInt || f.trace || f.doTrace || f.brk || f.modeChange || f.check ||
    f.endCompile || f.mmuRestart

def SpcFlags.none : SpcFlags :=
  { int := false, doInt := false, trace := false, doTrace := false, brk := false,
    modeChange := false, check := false, endCompile := false, mmuRestart := false }

/-- `regs.stopped`: 0, or the kind of instruction that stopped the CPU. -/
inductive Stopped where
  | no | stop | lpstop
  deriving DecidableEq, Repr

/-- The condition codes, kept in `regflags` and not in `regs`. -/
structure Flags where
  x : Bool
  n : Bool
  z : Bool
  v : Bool
  c : Bool
  deriving DecidableEq, Repr

/-- The FPU part of `struct regstruct`. -/
structure FpuRegs where
  fp : Vector (BitVec 80) 8
  fpcr : Long
  fpsr : Long
  fpiar : Long
  deriving DecidableEq

/-- `A7` and the banked stack pointers `regs.usp`, `regs.isp` and `regs.msp`. -/
@[ext] structure StackPtrs where
  a7 : Long
  usp : Long
  isp : Long
  msp : Long
  deriving DecidableEq, Repr

/-- The sampled interrupt level: `regs.ipl`, `regs.ipl_pin` with its history, `regs.lastipl`. -/
structure IplState where
  ipl0 : Level
  ipl1 : Level
  pin : Level
  pinP : Level
  lastipl : Level
  changeEvt : Int
  changeEvtP : Int
  evtPre : Int
  evtPreMode : Bool
  deriving DecidableEq, Repr

/-- `struct regstruct`. `pc` is the logical program counter `m68k_getpc` computes. -/
structure Regs where
  d : Vector Long 8
  a : Vector Long 7
  sp : StackPtrs
  pc : Long
  opcode : Word
  instructionPc : Long
  instructionPcUserException : Long
  tracePc : Long
  ir : Word
  irc : Word
  ird : Word
  spc : SpcFlags
  loopMode : Int
  instructionCnt : Int
  sr : Word
  t1 : Bool
  t0 : Bool
  s : Bool
  m : Bool
  stopped : Stopped
  halted : Int
  exception : Int
  intmask : Level
  ipl : IplState
  vbr : Long
  sfc : Long
  dfc : Long
  fpu : FpuRegs
  deriving DecidableEq

/-- `m68k_setpc`, `m68k_setpci` and `m68k_setpc_normal`: they differ in the host pointer they keep
beside the PC, not in the PC. -/
def Regs.setpc (r : Regs) (newpc : Long) : Regs := { r with pc := newpc, instructionPc := newpc }

/-- The requests pushed by `m68k_set_irq` (`pending_irq_level`) and `m68k_set_virq`
(`pendingInterrupts`, one bit a level). -/
structure Pending where
  irqLevel : Level
  virq : Byte
  deriving DecidableEq, Repr

/-- The clock in ticks (`CYCLE_UNIT` of them a CPU cycle) and the JIT countdown. `countdown`
is the macro compiled code knows `pissoff` by. -/
structure Clock where
  currcycle : Int
  pissoffValue : BitVec 32
  pissoff : BitVec 32
  jitRunActive : Bool
  jitRunTarget : Int
  deriving DecidableEq, Repr

/-- The part of the machine `MakeSR` and `MakeFromSR` work on. -/
structure Core where
  regs : Regs
  flags : Flags
  deriving DecidableEq

/-- `CYCLE_UNIT`. -/
def cycleUnit : Int := 512

end UaeCpu
