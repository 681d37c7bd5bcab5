import UaeCpu.Rte
import UaeCpu.Lib.ByteMem

/-!
# UaeCpu.Ram

Memory that behaves as RAM, and a machine that has nothing else: the host with no hook
installed, and the CPU right after a reset.
-/

namespace UaeCpu

open Fault FaultM Mem

variable {μ : Type}

/-- A port whose accesses never fault and read and write the bytes of `M`, and whose prefetch
touches neither the stacks nor memory. -/
structure RamPort (M : ByteMem μ) (q : Port μ) : Prop where
  getLong : ∀ a c, q.getLong a c = .ret (rd32 M c.world a) c
  getWord : ∀ a c, q.getWord a c = .ret (rd16 M c.world a) c
  putLong : ∀ a v c, q.putLong a v c = .ret () { c with world := wr32 M c.world a v }
  putWord : ∀ a v c, q.putWord a v c = .ret () { c with world := wr16 M c.world a v }
  fillPrefetch : ∀ c, Returns q.fillPrefetch c fun _ c' => ∃ ir irc ird,
    c' = c.mapRegs fun r => { r with ir := ir, irc := irc, ird := ird }

/-- The access functions of a CPU without prefetch over RAM banks only. -/
def ramPort (M : ByteMem μ) : Port μ where
  getLong a := reads fun c => rd32 M c.world a
  getWord a := reads fun c => rd16 M c.world a
  getIword := reads fun c => rd16 M c.world c.regs.pc
  physGetLong a := reads fun c => rd32 M c.world a
  putLong a v := update fun c => { c with world := wr32 M c.world a v }
  putWord a v := update fun c => { c with world := wr16 M c.world a v }
  fillPrefetch := pure ()

theorem ramPort_ram (M : ByteMem μ) : RamPort M (ramPort M) where
  getLong _ _ := rfl
  getWord _ _ := rfl
  putLong _ _ _ := rfl
  putWord _ _ _ := rfl
  fillPrefetch c := .of_eq rfl ⟨c.regs.ir, c.regs.irc, c.regs.ird, rfl⟩

/-- A host without hooks over RAM, with the opcode table `cpufunctbl`. -/
def Host.ram (p : Prefs) (M : ByteMem μ) (cpufunctbl : Word → FaultM (Cpu μ) Long) : Host μ where
  prefs := p
  port := ramPort M
  getIrq := none
  intAck := none
  trap := none
  instr := none
  exception := none
  group1 _ _ := false
  cpufunctbl := cpufunctbl
  compiled := pure ()

/-- The NOP handler of a table without prefetch. -/
def opNop : FaultM (Cpu μ) Long := do
  update fun c => c.mapRegs fun r => { r with pc := r.pc + 2 }
  return 0

/-- The latches before anything has been latched. -/
def Latch.zero : Latch where
  last := { addr := 0, fault := 0, op := 0, writeaccess := false, fc := 0, notinstruction := false
            size := 0, di := 0, sr := 0 }
  mmu := { faultAddr := 0, effectiveAddr := 0, ssw := 0, fslw := 0, wb2Address := 0, wb3Data := 0
           wb2Status := 0, wb3Status := 0, move16 := .replicate 4 0 }
  log := { idx := 0, idxDone := 0, ad := fun _ => 0, state0 := 0, state1 := 0, state2 := 0
           dataBufferOut := 0, fmovemStore0 := 0, fmovemStore1 := 0, dispStore0 := 0
           dispStore1 := 0, opcode := 0, stagebAddress := 0 }
  pipe := { prefetch020 := .replicate 4 0, prefetch020Valid := .replicate 4 false
            r8 := .replicate 2 0, pos := 0, stop := 0, readBuffer := 0, writeBuffer := 0 }
  fpu := { ea := 0, opword := 0, unimpIns := false, unimpPend := 0, expPre := false
           disabled := false }
  exceptionInException := 0
  hardwareBusError := false

/-- The machine after `uae_cpu_reset` with the given initial stack and program counter. -/
def Cpu.reset (p : Prefs) (ssp pc : Long) (w : μ) : Cpu μ :=
  { uaeCpuReset p ssp pc Core.zero with
    pending := { irqLevel := 0, virq := 0 }
    clock := { currcycle := 0, pissoffValue := 0, pissoff := 0, jitRunActive := false
               jitRunTarget := 0 }
    latch := .zero
    executeDepth := 0
    currentInstrCycles := 0
    world := w }

end UaeCpu
