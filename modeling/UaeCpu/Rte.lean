import UaeCpu.Exception

/-!
# UaeCpu.Rte

The RTE instruction of the 68020 and later, as `gencpu` writes it for the tables without
cycle-exact timing: a loop over stack frames that goes on after a throwaway frame.
-/

namespace UaeCpu

open Fault FaultM

variable {μ : Type}

/-- What RTE does with a frame: take it off and return, take it off and look at the next one,
restore MMU state from it first, leave everything to `m68k_do_rte_mmu030`, or refuse it. -/
inductive RteFrame where
  | pop (size : Long)
  | again
  | mmu (size : Long)
  | restart
  | bad
  deriving DecidableEq, Repr

/-- The frame formats a model takes back. -/
def rteFrame (p : Prefs) (frame : Word) : RteFrame :=
  let m020 := p.cpuModel = .m68020 ∨ p.cpuModel = .m68030
  if frame = 0x0 then .pop 8
  else if frame = 0x1 then .again
  else if frame = 0x2 then .pop (8 + 4)
  else if frame = 0x3 ∧ 68040 ≤ p.cpuModel.num then .pop (8 + 4)
  else if frame = 0x4 ∧ 68040 ≤ p.cpuModel.num then
    if p.mmuModel ∧ p.cpuModel = .m68060 then .mmu (8 + 8) else .pop (8 + 8)
  else if frame = 0x7 ∧ p.cpuModel = .m68040 then
    if p.mmuModel then .mmu (8 + 52) else .pop (8 + 52)
  else if frame = 0x9 ∧ m020 then .pop (8 + 12)
  else if frame = 0xA ∧ m020 then if p.mmuModel then .restart else .pop (8 + 24)
  else if frame = 0xB ∧ m020 then if p.mmuModel then .restart else .pop (8 + 84)
  else .bad

@[simp] theorem rteFrame_fourWord (p : Prefs) : rteFrame p 0 = .pop 8 := rfl

@[simp] theorem rteFrame_throwaway (p : Prefs) : rteFrame p 1 = .again := by
  simp [rteFrame]

/-- How a round of the loop ends. -/
inductive RteRound where
  | next
  | found (newsr : Word) (newpc : Long)
  | ended
  deriving DecidableEq, Repr

def popStack (n : Long) : FaultM (Cpu μ) Unit :=
  update fun c => c.setA7 (c.regs.sp.a7 + n)

/-- One round of the `for (;;)` loop. `doRteMmu` stands for the `m68k_do_rte_mmu*` function of
the model. -/
def rteRound (h : Host μ) (doRteMmu : Long → FaultM (Cpu μ) Unit) : FaultM (Cpu μ) RteRound := do
  let a ← reads (·.regs.sp.a7)
  let sr ← h.port.getWord a
  let pc ← h.port.getLong (a + 2)
  let format ← h.port.getWord (a + 6)
  match rteFrame h.prefs (format >>> 12) with
  | .pop n =>
    popStack n
    return .found sr pc
  | .mmu n =>
    doRteMmu a
    popStack n
    return .found sr pc
  | .restart =>
    doRteMmu a
    return .ended
  | .again =>
    popStack 8
    update (Cpu.writeSR h.prefs .t0 sr)
    return .next
  | .bad =>
    if h.prefs.cpuModel = .m68030 then
      update fun c => c.mapRegs fun r => { r with t1 := false, t0 := false }
    exceptionCpu h 14
    return .ended

/-- The loop, for at most `fuel` frames, and what follows it. `oldsr` is the status register in
force before the last frame. -/
def rteLoop (h : Host μ) (doRteMmu : Long → FaultM (Cpu μ) Unit) (opcode : Word) :
    Nat → Word → FaultM (Cpu μ) Unit
  | 0, _ => fun _ => .diverge
  | fuel + 1, oldsr => do
    match ← rteRound h doRteMmu with
    | .ended => pure ()
    | .next =>
      let sr ← reads (·.regs.sr)
      rteLoop h doRteMmu opcode fuel sr
    | .found newsr newpc =>
      update (Cpu.writeSR h.prefs .t0 newsr)
      if newpc.getLsbD 0 then
        let nested := fun nr => exceptionX h nr none
        match h.prefs.cpuModel with
        | .m68060 =>
          update (Cpu.writeSR h.prefs .plain (oldsr &&& 0xFF00))
          update fun c => { c with flags := { c.flags with
            z := decide (newsr = 0), n := newsr.getLsbD 15 } }
          exception3ReadPrefetch h nested (opcode.setWidth 32) newpc 0
        | .m68040 =>
          update (Cpu.writeSR h.prefs .plain newsr)
          exception3ReadPrefetch h nested (opcode.setWidth 32 ||| 0x10000) newpc oldsr
        | _ => exception3ReadPrefetch h nested (opcode.setWidth 32) newpc 0
      else
        update fun c => c.mapRegs fun r => r.setpc newpc
        h.port.fillPrefetch

/-- RTE: a privileged instruction. -/
def rte (h : Host μ) (doRteMmu : Long → FaultM (Cpu μ) Unit) (opcode : Word) (fuel : Nat) :
    FaultM (Cpu μ) Unit := do
  let r ← reads (·.regs)
  if !r.s then exception h 8 else rteLoop h doRteMmu opcode fuel r.sr

end UaeCpu
