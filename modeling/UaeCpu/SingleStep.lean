import UaeCpu.Ram
import UaeCpu.Run

/-!
# UaeCpu.SingleStep

`uae_host_step` and one round of the loop of `uae_host_run`: two copies of the same code.

* `stepRound`, `hostRound` — the `TRY` of the one and the `TRY` of the other.
* `AdmitsOne`             — the budget is gone after the first round.
* `run_one_step`          — where the copies agree.
-/

namespace UaeCpu

open Fault FaultM

variable {μ : Type}

/-! ## One round of each -/

/-- `g_execute_depth++`. -/
def enterStep (c : Cpu μ) : Cpu μ := { c with executeDepth := c.executeDepth + 1 }

/-- The `TRY` of `uae_host_step`; `true` when a special condition has returned. -/
def stepRound (h : Host μ) (fuel : Nat) : FaultM (Cpu μ) Bool :=
  tryCatch
    (do if ← checkSpecialties h fuel then return true
        else do stepInstr h; return false)
    fun _ => do busError h; return false

/-- The `TRY` of `uae_host_run`; `true` to go on. -/
def hostRound (h : Host μ) (fuel : Nat) (target : Int) : FaultM (Cpu μ) Bool :=
  tryCatch (runPass h fuel target) fun _ => do busError h; return true

/-- A special condition makes the call return before an instruction. -/
def LeavesFirst (h : Host μ) (fuel : Nat) (c : Cpu μ) : Prop :=
  ∃ c', checkSpecialties h fuel (enterStep c) = .ret true c'

/-- `cycles` lets `uae_host_run` into its first round and not into a second one. -/
def AdmitsOne (h : Host μ) (fuel : Nat) (cycles : Int) (c : Cpu μ) : Prop :=
  let target := c.clock.currcycle + cycles * cycleUnit
  0 < cycles ∧ ∀ c', hostRound h fuel target (enterRun h c) = .ret true c' → runnable target c' = false

/-- The two calls end the same way, with the same state and the same number of cycles. -/
def StepIsRun (h : Host μ) (fuel : Nat) (c : Cpu μ) : Prop :=
  ∀ cycles, AdmitsOne h fuel cycles c → uaeHostRun h fuel cycles c = uaeHostStep h fuel c

/-- The same, but `uae_host_step` reports nothing where a special condition returns. -/
def StepIsRunButLeaving (h : Host μ) (fuel : Nat) (c : Cpu μ) : Prop :=
  ∀ cycles, AdmitsOne h fuel cycles c →
    (¬ LeavesFirst h fuel c → uaeHostRun h fuel cycles c = uaeHostStep h fuel c) ∧
    (LeavesFirst h fuel c → ∃ n c', uaeHostRun h fuel cycles c = .ret n c' ∧ uaeHostStep h fuel c = .ret 0 c')

/-- The opcode is fetched the same way by both. -/
def Prefs.sharedFetch (p : Prefs) : Prop := p.cpuCompatible = true → p.cpuModel.num ≤ 68010

/-- The instruction of `uae_host_step` up to its handler. -/
def fetchInstr (h : Host μ) : FaultM (Cpu μ) Word := do
  callInstrHook h
  let opcode ←
    if h.prefs.cpuCompatible then
      if h.prefs.cpuModel.num ≤ 68010 then reads (·.regs.ir) else reads (·.regs.irc)
    else h.port.getIword
  update fun c => c.mapRegs fun r => { r with instructionPc := r.pc, opcode := opcode }
  return opcode

/-- The handler of the instruction that a round from `c` executes returns what it takes. Those of the
cycle-exact tables return nothing, and one that has raised an exception need not. -/
def Host.Charges (h : Host μ) (fuel : Nat) (c : Cpu μ) : Prop :=
  ∀ c₁ op c₂ cyc c₃, checkSpecialties h fuel c = .ret false c₁ → fetchInstr h c₁ = .ret op c₂ →
    h.cpufunctbl op c₂ = .ret cyc c₃ → cyc &&& 0xFFFF ≠ 0

section Rounds

variable {h : Host μ} {fuel : Nat} {cycles target : Int} {c : Cpu μ}

theorem stepInstr_eq (h : Host μ) : stepInstr h = (do
    let op ← fetchInstr h
    let cyc ← h.cpufunctbl op
    update fun c => c.doCycles (cyc &&& 0xFFFF).toNat
    update fun c => c.mapRegs fun r => { r with instructionCnt := r.instructionCnt + 1 }) := by
  unfold stepInstr fetchInstr
  cases h.prefs.cpuCompatible <;> by_cases hm : h.prefs.cpuModel.num ≤ 68010 <;>
    simp only [Bool.false_eq_true, if_false, if_true, hm, bind_assoc, pure_bind]

theorem executeInstr_fetch (hf : h.prefs.sharedFetch) : executeInstr h = (do
    let op ← fetchInstr h
    let cyc ← h.cpufunctbl op
    update fun c => c.doCycles (chargedTicks c cyc)
    update fun c => c.mapRegs fun r => { r with instructionCnt := r.instructionCnt + 1 }) := by
  unfold executeInstr fetchInstr
  cases hp : h.prefs.cpuCompatible with
  | false => simp only [Bool.false_eq_true, false_and, if_false, bind_assoc, pure_bind]
  | true => simp only [hf hp, and_self, if_true, bind_assoc, pure_bind]

/-- The two copies of an instruction whose handler returns what it takes. -/
theorem executeInstr_eq (hf : h.prefs.sharedFetch)
    (hc : ∀ op c₂ cyc c₃, fetchInstr h c = .ret op c₂ → h.cpufunctbl op c₂ = .ret cyc c₃ → cyc &&& 0xFFFF ≠ 0) :
    executeInstr h c = stepInstr h c := by
  rw [executeInstr_fetch hf, stepInstr_eq]
  refine bind_congr_ret fun op c₂ hop => bind_congr_ret fun cyc c₃ hcyc => ?_
  have hne : (cyc &&& 0xFFFF).toNat ≠ 0 := fun hz => hc op c₂ cyc c₃ hop hcyc (BitVec.eq_of_toNat_eq hz)
  have hticks : chargedTicks c₃ cyc = (cyc &&& 0xFFFF).toNat := if_neg hne
  rw [update_bind_apply, update_bind_apply, hticks]

/-- A round of the loop that is entered does what `uae_host_step` does. -/
theorem hostRound_eq (hf : h.prefs.sharedFetch) (hc : h.Charges fuel c) (hgo : runnable target c = true) :
    hostRound h fuel target c = (stepRound h fuel >>= fun b => pure !b) c := by
  have hpass : runPass h fuel target c = ((checkSpecialties h fuel >>= fun b =>
      if b = true then pure true else stepInstr h >>= fun _ => pure false) >>= fun b => pure !b) c := by
    rw [runPass, reads_bind_apply, hgo, bind_assoc]
    simp only [Bool.not_true, Bool.false_eq_true, if_false]
    refine bind_congr_ret fun b c₁ hs => ?_
    cases b with
    | true => rfl
    | false =>
      rw [if_neg Bool.false_ne_true, if_neg Bool.false_ne_true, bind_assoc]
      exact bind_congr_apply (executeInstr_eq hf fun op c₂ cyc c₃ => hc c₁ op c₂ cyc c₃ hs)
  have hcaught : (fun _ : Int => (do busError h; return true : FaultM (Cpu μ) Bool)) =
      fun _ => (do busError h; return false) >>= fun b => pure !b := by
    funext _
    rw [bind_assoc]
    rfl
  rw [hostRound, hcaught, tryCatch_congr_apply hpass, stepRound, tryCatch_bind_pure]

/-- The guard fails. -/
theorem hostRound_stop (h : Host μ) (fuel : Nat) (hstop : runnable target c = false) : hostRound h fuel target c = .ret false c := by
  have hpass : runPass h fuel target c = .ret false c := by
    rw [runPass, reads_bind_apply, hstop]
    rfl
  exact tryCatch_ret hpass

/-- The loop, where the budget is gone after one round. -/
theorem runLoop_once (hfuel : 2 ≤ fuel) (hf : h.prefs.sharedFetch) (hc : h.Charges fuel c) (hgo : runnable target c = true)
    (hone : ∀ c', hostRound h fuel target c = .ret true c' → runnable target c' = false) :
    runLoop h fuel target c = (stepRound h fuel >>= fun _ => pure ()) c := by
  obtain ⟨n, rfl⟩ : ∃ n, fuel = n + 2 := ⟨fuel - 2, by omega⟩
  have hround := hostRound_eq hf hc hgo
  have hloop : runLoop h (n + 2) target = loop (hostRound h (n + 2) target) (n + 2) := rfl
  rw [hloop, loop_succ]
  cases hs : stepRound h (n + 2) c with
  | ret b c' =>
    rw [bind_ret hs] at hround
    rw [bind_ret hround, bind_ret hs]
    cases b with
    | true => rfl
    | false =>
      have hstop := hostRound_stop h (n + 2) (hone c' hround)
      rw [Bool.not_false, if_pos rfl, loop_succ, bind_ret hstop]
      rfl
  | thrown e c' =>
    rw [bind_thrown hs] at hround
    rw [bind_thrown hround, bind_thrown hs]
  | diverge =>
    rw [bind_apply, hs] at hround
    rw [bind_apply, hround, bind_apply, hs]

/-- `uae_host_step`, from its round on. -/
theorem uaeHostStep_eq (c : Cpu μ) : uaeHostStep h fuel c = (stepRound h fuel >>= fun exited => do
    update leaveRun
    let now ← reads (·.clock.currcycle)
    return if exited then 0 else toCInt ((now - c.clock.currcycle).tdiv cycleUnit)) (enterStep c) := rfl

/-- `uae_host_run`, from its loop on. -/
theorem uaeHostRun_eq (hjit : h.prefs.jit = false ∨ 0 < c.executeDepth) :
    uaeHostRun h fuel cycles c = (runLoop h fuel (c.clock.currcycle + cycles * cycleUnit) >>= fun _ => do
      update leaveRun
      let now ← reads (·.clock.currcycle)
      return toCInt ((now - c.clock.currcycle).tdiv cycleUnit)) (enterRun h c) := by
  have hdepth : (enterRun h c).executeDepth = c.executeDepth + 1 := by
    unfold enterRun
    split <;> rfl
  have hnot : ¬ (h.prefs.jit = true ∧ (enterRun h c).executeDepth = 1) := by
    rw [hdepth]
    rintro ⟨hj, hd⟩
    rcases hjit with hno | hpos
    · rw [hj] at hno
      cases hno
    · omega
  rw [uaeHostRun, reads_bind_apply, update_bind_apply, reads_bind_apply, if_neg hnot]

/-- Raising an interrupt flag that is up already. -/
theorem enterRun_eq (hirq : h.getIrq = none ∨ c.regs.spc.int = true) : enterRun h c = enterStep c := by
  unfold enterRun
  rcases hirq with hno | hint
  · rw [hno]
    rfl
  · cases h.getIrq with
    | none => rfl
    | some hook =>
      have hsame : ({ c.regs.spc with int := true } : SpcFlags) = c.regs.spc := by rw [← hint]
      simp only [Option.isSome_some, if_true, signalIrq, Cpu.mapSpc, hsame]
      rfl

/-- `uae_host_step` notes a special condition where there is one. -/
theorem leaves_iff : LeavesFirst h fuel c ↔ ∃ c', stepRound h fuel (enterStep c) = .ret true c' := by
  constructor
  · rintro ⟨c', hs⟩
    have hbody : (do if ← checkSpecialties h fuel then return true
                     else do stepInstr h; return false : FaultM (Cpu μ) Bool) (enterStep c) = .ret true c' :=
      bind_ret hs
    exact ⟨c', tryCatch_ret hbody⟩
  · rintro ⟨c', hs⟩
    rcases ret_of_tryCatch hs with hbody | ⟨e, d, -, hcaught⟩
    · obtain ⟨b, d, hspec, hrest⟩ := ret_of_bind hbody
      cases b with
      | true => exact ⟨d, hspec⟩
      | false =>
        obtain ⟨u, d', -, hret⟩ := ret_of_bind hrest
        cases hret
    · obtain ⟨u, d', -, hret⟩ := ret_of_bind hcaught
      cases hret

theorem runnable_enterStep (hpos : 0 < cycles) (hlive : c.regs.stopped = .no ∧ c.regs.halted = 0) :
    runnable (c.clock.currcycle + cycles * cycleUnit) (enterStep c) = true := by
  have hlt : c.clock.currcycle < c.clock.currcycle + cycles * cycleUnit := by
    simp only [cycleUnit]
    omega
  simp [runnable, enterStep, hlive.1, hlive.2, hlt]

/-- Where the interpreter runs, the CPU is neither stopped nor halted, no interrupt flag is newly
raised and the opcode is fetched alike, a step is a run of one instruction that returns its cycles. -/
theorem run_one_step (hfuel : 2 ≤ fuel) (hjit : h.prefs.jit = false ∨ 0 < c.executeDepth)
    (hirq : h.getIrq = none ∨ c.regs.spc.int = true) (hlive : c.regs.stopped = .no ∧ c.regs.halted = 0)
    (hf : h.prefs.sharedFetch) (hc : h.Charges fuel (enterStep c)) : StepIsRunButLeaving h fuel c := by
  rintro cycles ⟨hpos, hone⟩
  have henter := enterRun_eq hirq
  rw [henter] at hone
  have hloop := runLoop_once hfuel hf hc (runnable_enterStep hpos hlive) hone
  rw [uaeHostRun_eq hjit, henter, uaeHostStep_eq, bind_congr_apply hloop, bind_assoc]
  cases hs : stepRound h fuel (enterStep c) with
  | ret b c' =>
    rw [bind_ret hs, bind_ret hs]
    cases b with
    | true =>
      exact ⟨fun hno => absurd (leaves_iff.mpr ⟨c', hs⟩) hno, fun _ => ⟨_, _, rfl, rfl⟩⟩
    | false =>
      refine ⟨fun _ => rfl, fun hleave => ?_⟩
      obtain ⟨d, hd⟩ := leaves_iff.mp hleave
      rw [hs] at hd
      cases hd
  | thrown e c' =>
    rw [bind_thrown hs, bind_thrown hs]
    refine ⟨fun _ => rfl, fun hleave => ?_⟩
    obtain ⟨d, hd⟩ := leaves_iff.mp hleave
    rw [hs] at hd
    cases hd
  | diverge =>
    rw [bind_apply, hs, bind_apply, hs]
    refine ⟨fun _ => rfl, fun hleave => ?_⟩
    obtain ⟨d, hd⟩ := leaves_iff.mp hleave
    rw [hs] at hd
    cases hd

end Rounds

/-! ## Where they differ -/

/-- The budget is gone, or the loop is left. -/
def spent (target : Int) : Outcome (Cpu μ) Bool → Bool
  | .ret true c => !runnable target c
  | _ => true

theorem admitsOne_of_spent {h : Host μ} {fuel : Nat} {cycles : Int} {c : Cpu μ} (hpos : 0 < cycles)
    (hs : spent (c.clock.currcycle + cycles * cycleUnit)
      (hostRound h fuel (c.clock.currcycle + cycles * cycleUnit) (enterRun h c)) = true) :
    AdmitsOne h fuel cycles c := by
  refine ⟨hpos, fun c' hr => ?_⟩
  rw [hr] at hs
  simpa [spent] using hs

/-- What a machine has done: the instructions counted, and where it is. -/
def progress (c : Cpu μ) : Int × Long := (c.regs.instructionCnt, c.regs.pc)

theorem not_stepIsRun {h : Host μ} {fuel : Nat} {c : Cpu μ} (cycles : Int) (hpos : 0 < cycles)
    (hs : spent (c.clock.currcycle + cycles * cycleUnit)
      (hostRound h fuel (c.clock.currcycle + cycles * cycleUnit) (enterRun h c)) = true)
    (hne : (uaeHostRun h fuel cycles c).mapState progress ≠ (uaeHostStep h fuel c).mapState progress) :
    ¬ StepIsRun h fuel c :=
  fun hsame => hne (congrArg (Outcome.mapState progress) (hsame cycles (admitsOne_of_spent hpos hs)))

/-- `op_4e71_5`: NOP, with the four cycles it takes. -/
def opNopCounted : FaultM (Cpu μ) Long := do
  update fun c => c.mapRegs fun r => { r with pc := r.pc + 2 }
  return 4 * 256

/-- `op_46fc_5`: `MOVE #imm,SR`, which is privileged. -/
def opMoveToSr (h : Host μ) : FaultM (Cpu μ) Long := do
  let r ← reads (·.regs)
  if r.s then
    let src ← h.port.getWord (r.pc + 2)
    update fun c => c.writeSR h.prefs .t0 src
    update fun c => c.mapRegs fun r => { r with pc := r.pc + 4 }
    return 16 * 256
  else
    exception h 8
    return 0

/-- A 68000 over RAM that comes across these two. -/
def simple68000 : Host (Long → Byte) :=
  let h : Host (Long → Byte) := .ram (.plain .m68000) Mem.ofFun fun _ => opNopCounted
  { h with cpufunctbl := fun op => if op = 0x46FC then opMoveToSr h else opNopCounted }

/-- After a reset, before `MOVE #$2700,SR`. -/
def reset68000 : Cpu (Long → Byte) :=
  Cpu.reset (.plain .m68000) 0x1000 0x400 fun a =>
    if a = 0x400 then 0x46 else if a = 0x401 then 0xFC else if a = 0x402 then 0x27 else 0

/-- The same in user mode. -/
def user68000 : Cpu (Long → Byte) := reset68000.mapRegs fun r => { r with s := false }

theorem simple68000_sharedFetch : simple68000.prefs.sharedFetch := fun _ => by decide

theorem reset68000_charges : simple68000.Charges 2 (enterStep reset68000) := by
  intro c₁ op c₂ cyc c₃ hs hf hr
  cases hs
  cases hf
  cases hr
  decide

/-- The instruction after the reset. -/
theorem run_one_step_moveToSr : AdmitsOne simple68000 2 1 reset68000 ∧ StepIsRunButLeaving simple68000 2 reset68000 :=
  ⟨admitsOne_of_spent (by decide) (by decide +kernel), run_one_step (by decide) (.inl (by decide)) (.inl rfl)
    ⟨rfl, rfl⟩ simple68000_sharedFetch reset68000_charges⟩

/-- Stopped: `uae_host_run` does nothing, `uae_host_step` executes. -/
def stopped68000 : Cpu (Long → Byte) := reset68000.mapRegs fun r => { r with stopped := .stop }

/-- Halted: the same. -/
def halted68000 : Cpu (Long → Byte) := reset68000.mapRegs fun r => { r with halted := 1 }

/-- A trace exception is due, and the timeslice is over: `uae_host_step` does not report it. -/
def traced68000 : Cpu (Long → Byte) :=
  reset68000.mapSpc fun f => { f with doTrace := true, brk := true }

/-- The host has pulled level 7: only `uae_host_run` asks for it. -/
def pulled68000 : Host (Long → Byte) := { simple68000 with getIrq := some (pure 7) }

/-- Translated code of two instructions, which ends the timeslice. -/
def translated68020 : Host (Long → Byte) :=
  { simple68000 with
    prefs := { Prefs.plain .m68020 with cachesize := 8 }
    compiled := update fun c => c.mapRegs fun r => { r with pc := r.pc + 4, spc := { r.spc with brk := true } } }

/-- A prefetching 68020 whose `irc` is not what the fetch function reads. -/
def prefetching68020 : Host (Long → Byte) :=
  { simple68000 with
    prefs := { Prefs.plain .m68020 with cpuCompatible := true }
    cpufunctbl := fun op => do
      update fun c => c.mapRegs fun r => { r with pc := r.pc + 2 + op.setWidth 32 }
      return 1024 }

def stale68020 : Cpu (Long → Byte) := reset68000.mapRegs fun r => { r with irc := 2 }

theorem step_is_not_run :
    ¬ StepIsRun simple68000 2 stopped68000 ∧ ¬ StepIsRun simple68000 2 halted68000 ∧
    ¬ StepIsRun simple68000 2 traced68000 ∧ ¬ StepIsRun pulled68000 2 reset68000 ∧
    ¬ StepIsRun translated68020 2 reset68000 ∧ ¬ StepIsRun simple68000 2 user68000 ∧
    ¬ StepIsRun prefetching68020 2 stale68020 := by
  refine ⟨?_, ?_, ?_, ?_, ?_, ?_, ?_⟩
  all_goals exact not_stepIsRun 1 (by decide) (by decide +kernel) (by decide +kernel)

end UaeCpu
