import UaeCpu.InterruptService
import UaeCpu.Monotonic

/-!
# UaeCpu.Termination

When a call of `uae_host_run` on the interpreter loop comes back.

A pass that completes credits at least one tick, so a finite budget allows only finitely many of
them. A pass that faults credits none: it goes through the `CATCH` block, which builds a bus
error frame, and back to the same guard. Where that frame faults too the source calls `cpu_halt`,
which does nothing in this build.

* `runPass_below`              — a larger bound changes nothing but a failure to come back.
* `runPass_bounded`            — with handlers that come back, so does a pass.
* `runPass_later`              — a pass never takes time back, and one that completes moves it on.
* `uaeHostRun_returns_of_safe` — a call returns where every bus error frame stands and two in a row go
                                 down the stack.
-/

namespace UaeCpu

open Fault FaultM Trans

variable {μ : Type} {h : Host μ}

/-! ## Bounds -/

section Bounds

variable {fuel fuel' : Nat}

theorem interruptLoop_below :
    ∀ {fuel fuel' : Nat} (nr : Level), fuel ≤ fuel' →
      Below (interruptLoop h fuel nr) (interruptLoop h fuel' nr) := by
  intro fuel
  induction fuel with
  | zero => intro fuel' nr _ c hc; exact absurd rfl hc
  | succ fuel ih =>
    intro fuel' nr hle
    obtain ⟨n, rfl⟩ : ∃ n, fuel' = n + 1 := ⟨fuel' - 1, by omega⟩
    refine .bind_right fun next => ?_
    cases next with
    | none => exact .refl _
    | some nr' => exact ih nr' (by omega)

variable (hle : fuel ≤ fuel')
include hle

theorem doInterrupt_below (nr : Level) : Below (doInterrupt h fuel nr) (doInterrupt h fuel' nr) :=
  .bind_left (interruptLoop_below nr hle)

theorem serviceInterrupt_below (int : Bool) :
    Below (serviceInterrupt h fuel int) (serviceInterrupt h fuel' int) := by
  refine .ite ?_ (.ite ?_ (.refl _))
  · refine .bind_right fun ipl => .ite (.bind_right fun _ => doInterrupt_below hle ipl) (.refl _)
  · refine .bind_right fun intr => .bind_right fun _ => .bind_right fun c => ?_
    exact .ite (.bind_left (doInterrupt_below hle intr)) (.refl _)

theorem doSpecialties_below : Below (doSpecialties h fuel) (doSpecialties h fuel') := by
  refine .bind_right fun spc => .ite (.refl _) ?_
  refine .bindIf fun _ => .bindIf fun _ => .ite (.refl _) ?_
  refine .bindIf fun _ => .bind_right fun _ => .bindIf fun _ => ?_
  exact .bind_left (serviceInterrupt_below hle spc.int)

theorem checkSpecialties_below : Below (checkSpecialties h fuel) (checkSpecialties h fuel') :=
  .bind_right fun _ => .ite (doSpecialties_below hle) (.refl _)

theorem runPass_below (target : Int) : Below (runPass h fuel target) (runPass h fuel' target) :=
  .bind_right fun _ => .ite (.refl _) (.bind_left (checkSpecialties_below hle))

end Bounds

/-! ## Coming back -/

/-- Hooks, memory handlers and opcode handlers come back, and the host does not raise the interrupt
level for ever while `do_interrupt` serves it. -/
structure Host.Answers (h : Host μ) : Prop where
  framing : Framing h fun _ _ => True
  trap : ∀ m, h.trap = some m → ∀ n, Comes (m n)
  instr : ∀ m, h.instr = some m → ∀ pc, Comes (m pc)
  getIword : Comes h.port.getIword
  cpufunctbl : ∀ op, Comes (h.cpufunctbl op)
  interrupts : ∀ nr, Bounded fun n => interruptLoop h n nr

instance : Std.Refl fun _ _ : Cpu μ => True := ⟨fun _ => trivial⟩

instance : IsTrans (Cpu μ) fun _ _ => True := ⟨fun _ _ _ _ _ => trivial⟩

section Framed

variable (hf : Framing h fun _ _ => True)
include hf

theorem answers_vectorNr {nr : Nat} {f : Nat → FaultM (Cpu μ) Unit}
    (hs : ∀ vec, Stays (fun _ _ => True) (f vec)) :
    Stays (fun _ _ => True) (if isInterrupt nr then iackCycle h nr >>= f else pure nr >>= f) :=
  .ite (fun _ => .bind (hf.iackCycle nr) hs) fun _ => .bind (.pure nr) hs

omit hf in
theorem answers_update {α : Type} {g : Cpu μ → Cpu μ} {f : Unit → FaultM (Cpu μ) α}
    (hs : Stays (fun _ _ => True) (f ())) : Stays (fun _ _ => True) (update g >>= f) :=
  .update_bind (fun _ => trivial) hs

variable {nested : Nat → FaultM (Cpu μ) Unit}
  (hne : ∀ n, n = 2 ∨ n = 3 → Stays (fun _ _ => True) (nested n))
include hne

theorem normalVector_answers (nr vec : Nat) (g1 : Bool) :
    Stays (fun _ _ => True) (normalVector h nested nr vec g1) := by
  have hgo : ∀ c : Cpu μ, Stays (fun _ _ => True) (do
      let newpc ← h.port.getLong (vectorAddr c.regs vec)
      setExceptionInException 0
      if newpc.getLsbD 0 then
        if nr = 2 ∨ nr = 3 then cpuHalt
        else
          update fun c => c.xDoCycles h.prefs (6 * 4 * cycleUnit / 2)
          oddVector h nested nr vec g1 newpc
      else
        addApproximateExceptionCycles h nr
        update fun c => c.mapRegs fun r => endCompile h.prefs (r.setpc newpc)
        let ipl ← intlev h
        update fun c => c.mapRegs fun r => iplFetchNow { r with ipl := { r.ipl with pin := ipl } }
        h.port.fillPrefetch
        update fun c => c.mapRegs (exceptionCheckTrace h.prefs nr)) := fun c => by
    refine .bind (hf.getLong _) fun newpc => answers_update (.ite (fun _ => ?_) fun _ => ?_)
    · exact .ite (fun _ => .pure _) fun _ => answers_update (hf.oddVector hne _ _ _ _)
    · refine .bind (hf.addCycles _) fun _ => answers_update (.bind hf.intlev fun ipl => answers_update ?_)
      exact .bind hf.fillPrefetch fun _ => .update fun _ => trivial
  exact .reads_bind fun c => .ite (fun _ => .pure _) fun _ =>
    .ite (fun _ => answers_update (hgo _)) fun _ => hgo _

theorem exceptionNormal_answers (nr : Nat) : Stays (fun _ _ => True) (exceptionNormal h nested nr) := by
  refine .reads_bind fun c => answers_vectorNr hf fun vec =>
    answers_update (answers_update (.reads_bind fun c' => .ite (fun _ => ?_) fun _ => ?_))
  · exact .ite (fun _ => .pure _) fun _ => hf.exception3Notinstruction hne _ _
  · refine .ite (fun _ => .pure _) fun _ => .bind (hf.normalFrame _ _ _ _) fun f => ?_
    exact .bind (hf.finishFrame _ _ f) fun _ => normalVector_answers hf hne _ _ _

theorem exceptionMmu030_answers (nr : Nat) (oldpc : Long) :
    Stays (fun _ _ => True) (exceptionMmu030 h nested nr oldpc) := by
  have hb := fun a b d n f => hf.buildStackFrame a b d n f
  refine .reads_bind fun pc => answers_vectorNr hf fun vec =>
    answers_update (answers_update (.reads_bind fun c => .bind (hf.getLong _) fun newpc => ?_))
  extract_lets _ jp
  have hend : Stays (fun _ _ => True) (do
      update fun c => c.mapRegs fun r => r.setpc newpc
      h.port.fillPrefetch
      update fun c => c.mapRegs (exceptionCheckTrace h.prefs nr)) :=
    answers_update (.bind hf.fillPrefetch fun _ => .update fun _ => trivial)
  have hjp : ∀ u, Stays (fun _ _ => True) (jp u) := fun u =>
    .ite (fun _ => .ite (fun _ => .pure _) fun _ => hf.exception3f hne _ _ _ _ _ _ _ _ _)
      fun _ => .ite (fun _ => answers_update hend) fun _ => hend
  refine .ite (fun _ => ?_) fun _ => .ite (fun _ => ?_) fun _ => .ite (fun _ => ?_) fun _ => ?_
  · exact .bind (hb _ _ _ _ _) fun _ => answers_update (answers_update (.bind (hb _ _ _ _ _) hjp))
  · exact .bind (hb _ _ _ _ _) hjp
  · exact answers_update (.bind (hb _ _ _ _ _) hjp)
  · exact .bind (hf.buildStackFrameCommon _ _ _ _) hjp

theorem exceptionMmu_answers (nr : Nat) (oldpc : Long) :
    Stays (fun _ _ => True) (exceptionMmu h nested nr oldpc) := by
  have hb := fun a b d n f => hf.buildStackFrame a b d n f
  refine .reads_bind fun pc => answers_vectorNr hf fun vec =>
    answers_update (answers_update (.reads_bind fun c => .bind (hf.getLong _) fun newpc => ?_))
  extract_lets _ jp
  have hend : Stays (fun _ _ => True) (do
      h.port.fillPrefetch
      update fun c => c.mapRegs (exceptionCheckTrace h.prefs nr)) :=
    .bind hf.fillPrefetch fun _ => .update fun _ => trivial
  have hjp : ∀ u, Stays (fun _ _ => True) (jp u) := fun u =>
    .ite (fun _ => .ite (fun _ => .pure _) fun _ => hf.exception3f hne _ _ _ _ _ _ _ _ _)
      fun _ => answers_update (.ite (fun _ => answers_update hend) fun _ => hend)
  refine .ite (fun _ => .ite (fun _ => ?_) fun _ => ?_) fun _ => .ite (fun _ => ?_) fun _ =>
    .ite (fun _ => ?_) fun _ => ?_
  · exact .bind (hb _ _ _ _ _) hjp
  · exact .bind (hb _ _ _ _ _) hjp
  · exact .bind (hb _ _ _ _ _) fun _ => .bind (hf.physGetLong _) fun _ => hjp ()
  · refine .bind (hb _ _ _ _ _) fun _ => answers_update (answers_update (.ite (fun _ => ?_) fun _ => hjp ()))
    exact answers_update (.bind (hb _ _ _ _ _) hjp)
  · exact .bind (hf.buildStackFrameCommon _ _ _ _) hjp

end Framed

section Answers

section Exceptions

variable (hf : Framing h fun _ _ => True) (htrap : ∀ m, h.trap = some m → ∀ n, Comes (m n))
  (hm : 68020 ≤ h.prefs.cpuModel.num)
include hf htrap hm

theorem exceptionXWith_answers {nested : Nat → FaultM (Cpu μ) Unit}
    (hne : ∀ n, n = 2 ∨ n = 3 → Stays (fun _ _ => True) (nested n)) (nr : Nat) (oldpc : Option Long) :
    Stays (fun _ _ => True) (exceptionXWith h nested nr oldpc) := by
  have hengine : Stays (fun _ _ => True) (exceptionEngine h nested nr) := by
    refine .ite (fun hce => absurd hce.2 (by omega)) fun _ => .ite (fun _ => .reads_bind fun pc => ?_) fun _ => ?_
    · exact .ite (fun _ => exceptionMmu030_answers hf hne nr pc) fun _ => exceptionMmu_answers hf hne nr pc
    · exact exceptionNormal_answers hf hne nr
  have hbody : Stays (fun _ _ => True) (exceptionXBody h nested nr oldpc) := by
    refine .reads_bind fun c => .bind (hf.noteException _ _) fun _ => answers_update (answers_update ?_)
    exact .bind hengine fun _ => .update fun _ => trivial
  have htrap : ∀ m, h.trap = some m → ∀ n, Stays (fun _ _ => True) (m n) := fun m hm n s => by
    have hs := htrap m hm n s
    unfold Settles
    split
    · trivial
    · trivial
    · next hd => exact hs hd
  simp only [exceptionXWith]
  split
  · next hook hg =>
    refine .ite (fun _ => .bind (htrap hook hg _) fun b => ?_) fun _ => hbody
    exact .ite (fun _ => hf.fillPrefetch) fun _ => hbody
  · exact hbody

theorem exception_comes (nr : Nat) : Comes (exception h nr) :=
  (exceptionXWith_answers hf htrap hm
    (fun n _ => exceptionXWith_answers hf htrap hm (fun _ _ => .pure ()) n none) nr none).comes

/-- Without prefetch `do_interrupt` takes one interrupt. -/
theorem interruptLoop_bounded (hc : h.prefs.cpuCompatible = false) (nr : Level) :
    Bounded fun n => interruptLoop h n nr := by
  have hround : ∀ c, ∃ o, interruptRound h nr c = o ∧ o ≠ .diverge ∧ ∀ nr' c', o ≠ .ret (some nr') c' := by
    intro c
    refine ⟨_, rfl, ?_, fun nr' c' hret => ?_⟩
    · simp only [interruptRound, hc, Bool.not_false, true_or, if_true]
      exact bind_comes (exception_comes hf htrap hm _ c) fun _ => .pure _
    · simp only [interruptRound, hc, Bool.not_false, true_or, if_true] at hret
      obtain ⟨_, _, _, hpure⟩ := ret_of_bind hret
      cases hpure
  intro c
  obtain ⟨o, ho, hne, hnone⟩ := hround c
  refine ⟨1, fun hd => ?_⟩
  simp only [interruptLoop] at hd
  cases o with
  | diverge => exact hne rfl
  | thrown e c' =>
    rw [bind_thrown ho] at hd
    cases hd
  | ret next c' =>
    cases next with
    | some nr' => exact hnone nr' c' rfl
    | none =>
      rw [bind_ret ho] at hd
      cases hd

end Exceptions

variable (ha : h.Answers) (hm : 68020 ≤ h.prefs.cpuModel.num)
include ha hm

theorem doSpecialties_bounded : Bounded fun n => doSpecialties h n := by
  have hend : ∀ spc : SpcFlags, Comes (if spc.brk then do
      update fun c : Cpu μ => c.mapSpc fun f => { f with brk := false }
      return true
    else return false) := fun spc =>
    .ite (fun _ => .bind (.update _) fun _ => .pure _) fun _ => .pure _
  have hlev : Comes (intlev h) := ha.framing.intlev.comes
  have hdo : ∀ nr, Bounded fun n => doInterrupt h n nr := fun nr =>
    .bind_left (ha.interrupts nr) fun _ => ha.framing.doint.comes
  have hserve : ∀ int, Bounded fun n => serviceInterrupt h n int := fun int => by
    refine .ite (fun _ => .bind_right (.reads _) fun ipl => .ite (fun _ => ?_) fun _ => .of_comes (.pure _))
      fun _ => .ite (fun _ => .bind_right hlev fun intr => ?_) fun _ => .of_comes (.pure _)
    · exact .bind_right (.update _) fun _ => hdo ipl
    · refine .bind_right (.update _) fun _ => .bind_right (.reads _) fun c => .ite (fun _ => ?_) fun _ => ?_
      · exact .bind_left (hdo intr) fun _ => .update _
      · exact .of_comes (.update _)
  refine .bind_right (.reads _) fun spc => .ite (fun _ => .of_comes (.pure _)) fun _ => ?_
  refine .bindIf (fun _ => .update _) fun _ => .bindIf (fun _ => .update _) fun _ => ?_
  refine .ite (fun _ => .bind_right (.update _) fun _ => ?_) fun _ => ?_
  · exact .bindIf (fun _ => .update _) fun _ => .of_comes (hend spc)
  · refine .bindIf (fun _ => exception_comes ha.framing ha.trap hm 9) fun _ => .bind_right (.reads _) fun trace => ?_
    refine .bindIf (fun _ => .update _) fun _ => .bind_left (hserve spc.int) fun _ => ?_
    exact .ite (fun _ => .bind (.update _) fun _ => hend spc) fun _ => hend spc

/-- With a large enough bound a pass comes back. -/
theorem runPass_bounded (target : Int) : Bounded fun n => runPass h n target := by
  have hop : ∀ opcode : Word, Comes (do
      update fun c => c.mapRegs fun r => { r with instructionPc := r.pc, opcode := opcode }
      let cyc ← h.cpufunctbl opcode
      update fun c => c.doCycles (chargedTicks c cyc)
      update fun c => c.mapRegs fun r => { r with instructionCnt := r.instructionCnt + 1 }) :=
    fun opcode => .bind (.update _) fun _ => .bind (ha.cpufunctbl opcode) fun _ =>
      .bind (.update _) fun _ => .update _
  have hhook : Comes (callInstrHook h) := by
    simp only [callInstrHook]
    split
    · next hook hk => exact .reads_bind fun pc => ha.instr hook hk pc
    · exact .pure _
  have hinstr : Comes (executeInstr h) :=
    .bind hhook fun _ => .ite (fun _ => .reads_bind hop) fun _ => .bind ha.getIword hop
  have hcheck : Bounded fun n => checkSpecialties h n :=
    .bind_right (.reads _) fun any => .ite (fun _ => doSpecialties_bounded ha hm) fun _ => .of_comes (.pure _)
  refine .bind_right (.reads _) fun go => .ite (fun _ => .of_comes (.pure _)) fun _ => ?_
  refine .bind_left hcheck fun b => .ite (fun _ => .pure _) fun _ => ?_
  exact .bind hinstr fun _ => .pure _

end Answers

/-! ## Time -/

/-- A call is in progress and translated code is not. -/
def InLoop (c : Cpu μ) : Prop := c.clock.jitRunActive = false ∧ 0 < c.executeDepth

/-- Time has not gone back. -/
def Later (c c' : Cpu μ) : Prop :=
  InLoop c → InLoop c' ∧ c.clock.currcycle ≤ c'.clock.currcycle

/-- Time has gone on. -/
def Advances (c c' : Cpu μ) : Prop :=
  InLoop c → InLoop c' ∧ c.clock.currcycle < c'.clock.currcycle

theorem Later.advances {c c₁ c₂ : Cpu μ} (hl : Later c c₁) (ha : Advances c₁ c₂) :
    Advances c c₂ := by
  intro hi
  obtain ⟨hi₁, hle⟩ := hl hi
  obtain ⟨hi₂, hlt⟩ := ha hi₁
  exact ⟨hi₂, hle.trans_lt hlt⟩

instance : Std.Refl (Later (μ := μ)) where
  refl _ hi := ⟨hi, le_refl _⟩

instance : IsTrans (Cpu μ) Later where
  trans c₁ c₂ c₃ h₁ h₂ := fun hi => by
    obtain ⟨hi₂, hle⟩ := h₁ hi
    obtain ⟨hi₃, hle'⟩ := h₂ hi₂
    exact ⟨hi₃, hle.trans hle'⟩

/-- A computation that, if it returns, has taken time. -/
def Progress {α : Type} (m : FaultM (Cpu μ) α) : Prop :=
  ∀ c, Ends m c (fun _ => Advances c) (Later c)

theorem Progress.bind {α β : Type} {m : FaultM (Cpu μ) α} {f : α → FaultM (Cpu μ) β}
    (hm : Within Later m) (hf : ∀ a, Progress (f a)) : Progress (m >>= f) :=
  fun c => (hm c).bind fun a c' hl =>
    (hf a c').mono (fun _ _ ha => hl.advances ha) fun _ hl' => Trans.trans hl hl'

theorem NoJit.calls {s : Sys μ} (hn : NoJit s) : JitCalls s := by
  obtain ⟨ha, hk⟩ := hn
  simp only [JitCalls, ha]
  generalize s.calls = calls at hk
  induction calls with
  | nil => rfl
  | cons k rest ih =>
    exact (ih fun k' hk' => hk k' (by simp [hk'])).cons (hk k (by simp))

section Time

variable (hp : h.Parts) (hm : 68020 ≤ h.prefs.cpuModel.num) (hjit : h.prefs.jit = false)

include hm in
theorem run_ticks_le {s s' : Sys μ} {es : List Event}
    (hr : Run (Guarded (Step h) ClockSafe) s es s') (hj : JitCalls s) :
    s.cpu.clock.ticks ≤ s'.cpu.clock.ticks := by
  induction hr with
  | nil => exact le_refl _
  | @cons s s₁ s₂ e es hs _ ih =>
    have he : e ≠ .resetClock := by
      rintro rfl
      cases hs.2 with
      | resetClock hin he hle => omega
      | call hcalls hk => cases hk
    obtain ⟨hj', hle⟩ := step_ticks_le hj hs he
    exact hle.trans (ih hj')

include hm hjit

/-- A run of the system that ends inside some call takes no time back. -/
theorem Sim.later {k : List Call} {K : List Call → Prop} {c c' : Cpu μ} (hs : Sim h k K c c')
    (hlen : k.length = c.executeDepth) (hk : ∀ x ∈ k, x.kind ≠ .jit) (hK : ∀ k', K k' → k' ≠ []) :
    Later c c' := by
  rintro ⟨hoff, -⟩
  obtain ⟨es, s', hr, rfl, hk'⟩ := hs { cpu := c, calls := k, want := none } rfl rfl hlen
  have hno : NoJit { cpu := c, calls := k, want := none } := ⟨hoff, hk⟩
  have hno' : NoJit s' := hr.invariant hno (step_noJit hjit)
  have hle := run_ticks_le hm (run_guarded (by omega) hjit hr hno) hno.calls
  simp only [Clock.ticks, hoff, hno'.1, Bool.false_eq_true, if_false] at hle
  refine ⟨⟨hno'.1, ?_⟩, hle⟩
  have hnest : s'.calls.length = s'.cpu.executeDepth := Run.nested hr hlen
  rw [← hnest]
  exact List.length_pos_of_ne_nil (hK _ hk')

/-- Hooks and handlers, called from `n` nested calls. -/
theorem Inner.later {α : Type} {m : FaultM (Cpu μ) α} (hi : Inner h m) : Within Later m := by
  refine hi.mono fun c c' hmv hin => ?_
  obtain ⟨n, hn⟩ : ∃ n, c.executeDepth = n + 1 := ⟨c.executeDepth - 1, by have := hin.2; omega⟩
  refine Sim.later hm hjit (hmv (List.replicate (n + 1) ⟨.run 0, .busy⟩) rfl trivial) ?_ ?_ ?_ hin
  · rw [List.length_replicate, hn]
  · intro x hx
    rw [List.eq_of_mem_replicate hx]
    simp
  · rintro _ rfl
    simp

include hp

theorem checkSpecialties_later (fuel : Nat) : Within Later (checkSpecialties h fuel) := by
  intro c
  by_cases hin : InLoop c
  · obtain ⟨n, hn⟩ : ∃ n, c.executeDepth = n + 1 := ⟨c.executeDepth - 1, by have := hin.2; omega⟩
    let rest : List Call := List.replicate n ⟨.run 0, .busy⟩
    have ht : Traces h (⟨.step, .head⟩ :: rest) (checkSpecialties h fuel) (Told .step rest)
        (Thrown .step rest) c := checkSpecialties_traces hp fuel rfl
    have hlen : (⟨.step, .head⟩ :: rest).length = c.executeDepth := by simp [rest, hn]
    have hkind : ∀ x ∈ ⟨.step, .head⟩ :: rest, x.kind ≠ .jit := by
      simp +contextual [rest, List.mem_replicate]
    refine Ends.mono ht (fun b c' hs => hs.later hm hjit hlen hkind ?_)
      fun c' hs => hs.later hm hjit hlen hkind ?_
    · rintro k' hk rfl
      cases b <;> simp [Told] at hk
    · rintro k' ⟨ph, -, rfl⟩
      simp
  · exact .of_forall (fun _ _ hi => absurd hi hin) fun _ hi => absurd hi hin

omit hp hm hjit in
theorem chargedTicks_pos (c : Cpu μ) (cyc : Long) : 0 < chargedTicks c cyc := by
  simp only [chargedTicks, cycleUnit]
  split
  · split <;> omega
  · omega

omit hp hm hjit in
/-- What an instruction is charged at its end. -/
theorem charge_progress (cyc : Long) :
    Progress (μ := μ) (do
      update fun c => c.doCycles (chargedTicks c cyc)
      update fun c => c.mapRegs fun r => { r with instructionCnt := r.instructionCnt + 1 }) := by
  rintro c ⟨hoff, hd⟩
  have hpos := chargedTicks_pos c cyc
  have hck : (c.doCycles (chargedTicks c cyc)).clock =
      { c.clock with currcycle := c.clock.currcycle + chargedTicks c cyc } := by
    simp [Cpu.doCycles, Clock.doCycles, hoff]
  refine ⟨⟨?_, hd⟩, ?_⟩
  · simp only [Cpu.mapRegs, hck]; exact hoff
  · simp only [Cpu.mapRegs, hck]; omega

theorem executeInstr_progress : Progress (executeInstr h) := by
  refine .bind ((callInstrHook_inner hp).later hm hjit) fun _ => ?_
  have hop : ∀ opcode : Word, Progress (do
      update fun c => c.mapRegs fun r => { r with instructionPc := r.pc, opcode := opcode }
      let cyc ← h.cpufunctbl opcode
      update fun c => c.doCycles (chargedTicks c cyc)
      update fun c => c.mapRegs fun r => { r with instructionCnt := r.instructionCnt + 1 }) :=
    fun opcode => .bind (.update fun c hi => ⟨hi, le_refl _⟩) fun _ =>
      .bind ((hp.cpufunctbl opcode).later hm hjit) charge_progress
  by_cases hi : h.prefs.cpuCompatible ∧ h.prefs.cpuModel.num ≤ 68010
  · simp only [hi, and_self, if_true]
    exact .bind (.reads _) hop
  · simp only [hi, if_false]
    exact .bind (hp.getIword.later hm hjit) hop

/-- A pass takes no time back, and one after which the loop goes on has taken some. -/
theorem runPass_later (fuel : Nat) (target : Int) (c : Cpu μ) :
    Ends (runPass h fuel target) c (fun b c' => if b then Advances c c' else Later c c')
      (Later c) := by
  refine ends_bind.mpr ?_
  by_cases hgo : (!runnable target c) = true
  · simp only [ends_reads, hgo, if_true]
    exact fun hi => ⟨hi, le_refl _⟩
  · simp only [ends_reads, hgo]
    refine (checkSpecialties_later hp hm hjit fuel c).bind fun b c₁ hl => ?_
    cases b with
    | true => exact hl
    | false =>
      refine Ends.bind (P := fun _ => Advances c) ?_ fun _ c₂ ha => ha
      exact (executeInstr_progress hp hm hjit c₁).mono (fun _ _ ha => hl.advances ha)
        fun _ hl' => Trans.trans hl hl'

theorem exception2_later : Within Later (exception h 2) :=
  (exception_inner hp rfl).later hm hjit

end Time

/-! ## Rounds -/

/-- One round of the loops of `uae_host_run`: a pass and, if it faults, the `CATCH` block. -/
def runRound (h : Host μ) (fuel : Nat) (target : Int) : FaultM (Cpu μ) Bool :=
  tryCatch (runPass h fuel target) fun _ => do busError h; return true

/-- The loop head is reached with the CPU `c`. -/
inductive Head (h : Host μ) (target : Int) (c₀ : Cpu μ) : Cpu μ → Prop where
  | start : Head h target c₀ c₀
  | next {fuel : Nat} {c c' : Cpu μ} : Head h target c₀ c →
      runRound h fuel target c = .ret true c' → Head h target c₀ c'

/-- The loops are left, for some bound. -/
def Finishes (h : Host μ) (target : Int) (c : Cpu μ) : Prop :=
  ∃ fuel c', runLoop h fuel target c = .ret () c'

section Rounds

variable {fuel fuel' : Nat} {target : Int} {c c' c₁ c₂ : Cpu μ} {b : Bool} {e e' : Int}

theorem Head.trans (h₁ : Head h target c c₁) (h₂ : Head h target c₁ c₂) : Head h target c c₂ := by
  induction h₂ with
  | start => exact h₁
  | next _ hr ih => exact .next ih hr

theorem runRound_below (hle : fuel ≤ fuel') :
    Below (runRound h fuel target) (runRound h fuel' target) :=
  .tryCatch (runPass_below hle target)

theorem runLoop_eq : runLoop h fuel target = loop (runRound h fuel target) fuel := rfl

theorem runRound_pass (hr : runPass h fuel target c = .ret b c') :
    runRound h fuel target c = .ret b c' := tryCatch_ret hr

theorem runRound_frame (hr : runPass h fuel target c = .thrown e c₁)
    (hx : exception h 2 c₁ = .ret () c₂) : runRound h fuel target c = .ret true c₂ := by
  rw [runRound, tryCatch_thrown hr]
  exact bind_ret (tryCatch_ret hx)

/-- `cpu_halt` changes nothing, so the loop goes on where the double fault left it. -/
theorem runRound_doubleFault (hr : runPass h fuel target c = .thrown e c₁)
    (hx : exception h 2 c₁ = .thrown e' c₂) : runRound h fuel target c = .ret true c₂ := by
  rw [runRound, tryCatch_thrown hr]
  exact bind_ret (tryCatch_thrown hx)

theorem runPass_runnable (hr : runPass h fuel target c = .ret true c') :
    runnable target c = true := by
  by_contra hgo
  have hgo : (!runnable target c) = true := by simpa using hgo
  simp only [runPass, reads_bind_apply, hgo, if_true, pure_apply] at hr
  cases hr

theorem Finishes.of_leave (hr : runRound h fuel target c = .ret false c') :
    Finishes h target c := by
  have hr' := (runRound_below (Nat.le_succ fuel)).ret hr
  refine ⟨fuel + 1, c', ?_⟩
  simp only [runLoop_eq, loop, hr']

theorem Finishes.of_round (hr : runRound h fuel target c = .ret true c')
    (hf : Finishes h target c') : Finishes h target c := by
  obtain ⟨fuel', c'', hl⟩ := hf
  -- one bound for the round and for what follows it
  let n := max fuel fuel'
  have hr' : runRound h (n + 1) target c = .ret true c' := (runRound_below (by omega)).ret hr
  have hl' : loop (runRound h (n + 1) target) n c' = .ret () c'' :=
    (Below.loop (runRound_below (by omega)) (le_max_right fuel fuel')).ret hl
  refine ⟨n + 1, c'', ?_⟩
  simp only [runLoop_eq, loop, hr', hl']

end Rounds

/-! ## Chains of faults -/

/-- Where a pass faults and then the bus error frame does, `bus_error` leaves the CPU halted. -/
def DoubleFaultHalts (h : Host μ) (target : Int) (c : Cpu μ) : Prop :=
  ∀ fuel e c₁ e' c₂, runPass h fuel target c = .thrown e c₁ →
    exception h 2 c₁ = .thrown e' c₂ → Returns (busError h) c₁ fun _ c' => c'.regs.halted ≠ 0

/-- If the pass from here faults, its bus error frame ends below the stack pointer. -/
def NextFrameBelow (h : Host μ) (target : Int) (c : Cpu μ) : Prop :=
  ∀ fuel e c₁ c₂, runPass h fuel target c = .thrown e c₁ → exception h 2 c₁ = .ret () c₂ →
    c₂.regs.sp.a7 < c.regs.sp.a7

/-- A bus error frame faults only where the host has halted the CPU. -/
def FrameStands (h : Host μ) (target : Int) (c : Cpu μ) : Prop :=
  ∀ fuel e c₁ e' c₂, runPass h fuel target c = .thrown e c₁ → exception h 2 c₁ = .thrown e' c₂ →
    c₂.regs.halted ≠ 0

/-- The condition on a round: its bus error frame stands, and the frame of a fault right behind it
lies below it. -/
structure RoundSafe (h : Host μ) (target : Int) (c : Cpu μ) : Prop where
  stands : FrameStands h target c
  descends : ∀ fuel e c₁ c₂, runPass h fuel target c = .thrown e c₁ →
    exception h 2 c₁ = .ret () c₂ → NextFrameBelow h target c₂

section Chains

variable {target : Int} {c : Cpu μ}

/-- `cpu_halt` does nothing, so the frame has to stand for the CPU to end up halted. -/
theorem doubleFaultHalts_iff : DoubleFaultHalts h target c ↔ FrameStands h target c := by
  refine ⟨fun hh fuel e c₁ e' c₂ hr hx => ?_, fun hs fuel e c₁ e' c₂ hr hx => ?_⟩
  · obtain ⟨_, c₃, hb, hhalt⟩ := hh fuel e c₁ e' c₂ hr hx
    rw [show busError h c₁ = .ret () c₂ from tryCatch_thrown hx] at hb
    cases hb
    exact hhalt
  · exact .of_eq (tryCatch_thrown hx) (hs fuel e c₁ e' c₂ hr hx)

theorem Finishes.of_halted (hh : c.regs.halted ≠ 0) : Finishes h target c := by
  have hgo : (!runnable target c) = true := by simp [runnable, hh]
  have hr : runPass h 0 target c = .ret false c := by
    simp only [runPass, reads_bind_apply, hgo, if_true, pure_apply]
  exact .of_leave (runRound_pass hr)

section

variable (hp : h.Parts) (ha : h.Answers) (hm : 68020 ≤ h.prefs.cpuModel.num)
  (hjit : h.prefs.jit = false)
include hp ha hm hjit

/-- A round that is left, or after which the loops finish. -/
theorem Finishes.of_pass (hin : InLoop c) (hsafe : RoundSafe h target c)
    (hdone : ∀ c', InLoop c' → (target - c'.clock.currcycle).toNat <
      (target - c.clock.currcycle).toNat → Head h target c c' → Finishes h target c')
    (hframe : ∀ fuel e c₁ c₂, runPass h fuel target c = .thrown e c₁ → exception h 2 c₁ = .ret () c₂ →
      InLoop c₂ → c.clock.currcycle ≤ c₂.clock.currcycle → Head h target c c₂ → Finishes h target c₂) :
    Finishes h target c := by
  obtain ⟨fuel, hcomes⟩ := runPass_bounded ha hm target c
  have hlater := runPass_later hp hm hjit fuel target c
  cases hr : runPass h fuel target c with
  | diverge => exact absurd hr hcomes
  | ret b c' =>
    have hlater := hlater.of_ret hr
    cases b with
    | false => exact .of_leave (runRound_pass hr)
    | true =>
      obtain ⟨hin', hlt⟩ := hlater hin
      have hgo : c.clock.currcycle < target := by
        have := runPass_runnable hr
        simp only [runnable, Bool.and_eq_true, decide_eq_true_eq] at this
        exact this.1.1
      have hround := runRound_pass hr
      exact .of_round hround (hdone c' hin' (by omega) (.next .start hround))
  | thrown e c₁ =>
    obtain ⟨hin₁, hle₁⟩ := hlater.of_thrown hr hin
    cases hx : exception h 2 c₁ with
    | diverge => exact absurd hx (exception_comes ha.framing ha.trap hm 2 c₁)
    | thrown e' c₂ =>
      exact .of_round (runRound_doubleFault hr hx) (.of_halted (hsafe.stands _ _ _ _ _ hr hx))
    | ret u c₂ =>
      obtain ⟨hin₂, hle₂⟩ := (exception2_later hp hm hjit c₁).of_ret hx hin₁
      have hround := runRound_frame hr hx
      exact .of_round hround (hframe _ _ _ _ hr hx hin₂ (hle₁.trans hle₂) (.next .start hround))

/-- The loops are left when every round meets the condition: what is left of the budget goes down
with every completed pass and does not go up in between, where the frames go down the stack. -/
theorem finishes_of_safe (n : Nat) : ∀ {c : Cpu μ}, InLoop c →
    (target - c.clock.currcycle).toNat ≤ n →
    (∀ c', Head h target c c' → RoundSafe h target c') → Finishes h target c := by
  induction n using Nat.strong_induction_on with
  | _ n ih =>
    -- the inner induction is over one chain of faults, during which the budget may stand still
    have hchain : ∀ (m : Nat) {c : Cpu μ}, c.regs.sp.a7.toNat ≤ m → NextFrameBelow h target c →
        InLoop c → (target - c.clock.currcycle).toNat ≤ n →
        (∀ c', Head h target c c' → RoundSafe h target c') → Finishes h target c := by
      intro m
      induction m using Nat.strong_induction_on with
      | _ m ihm =>
        intro c hm' hbelow hin hle hall
        refine .of_pass hp ha hm hjit hin (hall c .start) (fun c' hin' hlt hh => ?_)
          fun fuel e c₁ c₂ hr hx hin₂ hle₂ hh => ?_
        · exact ih _ (by omega) hin' le_rfl fun c'' hc => hall c'' (hh.trans hc)
        · have hlt := BitVec.lt_def.mp (hbelow fuel e c₁ c₂ hr hx)
          exact ihm _ (by omega) le_rfl ((hall c .start).descends fuel e c₁ c₂ hr hx) hin₂ (by omega)
            fun c'' hc => hall c'' (hh.trans hc)
    intro c hin hle hall
    refine .of_pass hp ha hm hjit hin (hall c .start) (fun c' hin' hlt hh => ?_)
      fun fuel e c₁ c₂ hr hx hin₂ hle₂ hh => ?_
    · exact ih _ (by omega) hin' le_rfl fun c'' hc => hall c'' (hh.trans hc)
    · exact hchain _ le_rfl ((hall c .start).descends fuel e c₁ c₂ hr hx) hin₂ (by omega)
        fun c'' hc => hall c'' (hh.trans hc)

end

end Chains

/-! ## `uae_host_run` -/

section Call

variable {cycles : Int} {c : Cpu μ}

/-- The clock value at which a call leaves its loop. -/
def runTarget (cycles : Int) (c : Cpu μ) : Int := c.clock.currcycle + cycles * cycleUnit

theorem uaeHostRun_finishes (hjit : h.prefs.jit = false) :
    (∃ fuel n c', uaeHostRun h fuel cycles c = .ret n c') ↔
      Finishes h (runTarget cycles c) (enterRun h c) := by
  have hpath : ¬ (h.prefs.jit = true ∧ (enterRun h c).executeDepth = 1) := by simp [hjit]
  constructor
  · rintro ⟨fuel, n, c', hr⟩
    simp only [uaeHostRun, reads_bind_apply, update_bind_apply, if_neg hpath] at hr
    obtain ⟨_, c₁, hl, -⟩ := ret_of_bind hr
    exact ⟨fuel, c₁, hl⟩
  · rintro ⟨fuel, c₁, hl⟩
    refine ⟨fuel, toCInt (((leaveRun c₁).clock.currcycle - c.clock.currcycle).tdiv cycleUnit),
      leaveRun c₁, ?_⟩
    simp only [uaeHostRun, reads_bind_apply, update_bind_apply, if_neg hpath]
    exact bind_ret hl

end Call

/-! ## A device that does not answer -/

/-- `exception2_setup`, with the function code `hardware_exception2` computes for a data access.
`size` is 0, 1 or 2 for a byte, a word or a long. -/
def exception2Setup (addr : Long) (isWrite : Bool) (size : Int) (c : Cpu μ) : Cpu μ :=
  c.mapLatch fun l => { l with
    last := { l.last with
      addr := c.regs.pc, fault := addr, writeaccess := isWrite, op := c.regs.opcode.setWidth 32
      fc := if c.regs.s then 5 else 1, notinstruction := decide (l.exceptionInException ≠ 0)
      size := size, di := 1 }
    hardwareBusError := false }

/-- `uae_host_raise_bus_error` on a CPU without MMU that is not a prefetching 68000 or 68010. -/
def raiseBusError {α : Type} (addr : Long) (isWrite : Bool) (size : Int) : FaultM (Cpu μ) α := do
  update (exception2Setup addr isWrite size)
  throwCode 2

/-- Reads of a device in the vectors of a reset and in the bus error handler. -/
def deviceProgram (a : Long) : Byte :=
  if a = 0x400 ∨ a = 0x800 then 0x20 else if a = 0x401 ∨ a = 0x801 then 0x39
  else if a = 0xA then 0x08
  else 0

/-- `MOVE.L $F00000,D0`, where the handler of the region counts the reads and raises a bus error for
the first two. -/
def opDevice : FaultM (Cpu (Long → Byte)) Long := do
  let reads ← reads fun c => c.world 0xF00003
  update fun c => { c with world := fun a => if a = 0xF00003 then reads + 1 else c.world a }
  if reads < 2 then raiseBusError 0xF00000 false 2
  else
    update fun c => c.mapRegs fun r => { r with pc := r.pc + 6 }
    return 0

def device68020 : Host (Long → Byte) := .ram (.plain .m68020) Mem.ofFun fun _ => opDevice

def deviceReset : Cpu (Long → Byte) := .reset (.plain .m68020) 0x1000 0x400 deviceProgram

/-- Two faults, the second frame below the first, a completed pass and the end of the budget. -/
def deviceRounds : Bool :=
  match runPass device68020 0 512 (enterRun device68020 deviceReset) with
  | .thrown _ c₁ =>
    match exception device68020 2 c₁ with
    | .ret _ c₂ =>
      match runPass device68020 0 512 c₂ with
      | .thrown _ c₃ =>
        match exception device68020 2 c₃ with
        | .ret _ c₄ =>
          match runPass device68020 0 512 c₄ with
          | .ret true c₅ =>
            match runPass device68020 0 512 c₅ with
            | .ret false _ => decide (c₄.regs.sp.a7 < c₂.regs.sp.a7)
            | _ => false
          | _ => false
        | _ => false
      | _ => false
    | _ => false
  | _ => false

/-- The states it goes through. -/
theorem deviceRounds_states : ∃ e₁ c₁ c₂ e₃ c₃ c₄ c₅ c₆,
    runPass device68020 0 512 (enterRun device68020 deviceReset) = .thrown e₁ c₁ ∧
    exception device68020 2 c₁ = .ret () c₂ ∧ runPass device68020 0 512 c₂ = .thrown e₃ c₃ ∧
    exception device68020 2 c₃ = .ret () c₄ ∧ c₄.regs.sp.a7 < c₂.regs.sp.a7 ∧
    runPass device68020 0 512 c₄ = .ret true c₅ ∧ runPass device68020 0 512 c₅ = .ret false c₆ := by
  have hrounds : deviceRounds = true := by decide +kernel
  unfold deviceRounds at hrounds
  split at hrounds
  case h_2 => cases hrounds
  rename_i e₁ c₁ h₁
  split at hrounds
  case h_2 => cases hrounds
  rename_i c₂ h₂
  split at hrounds
  case h_2 => cases hrounds
  rename_i e₃ c₃ h₃
  split at hrounds
  case h_2 => cases hrounds
  rename_i c₄ h₄
  split at hrounds
  case h_2 => cases hrounds
  rename_i c₅ h₅
  split at hrounds
  case h_2 => cases hrounds
  rename_i c₆ h₆
  exact ⟨e₁, c₁, c₂, e₃, c₃, c₄, c₅, c₆, h₁, h₂, h₃, h₄, of_decide_eq_true hrounds, h₅, h₆⟩

theorem raiseBusError_inner {α : Type} (addr : Long) (w : Bool) (size : Int) :
    Inner h (raiseBusError (μ := μ) (α := α) addr w size) :=
  quiet_bind (fun _ => quiet_mapLatch _ _) fun c => show Moves h _ c c from Std.Refl.refl c

theorem device68020_parts : device68020.Parts := ram_parts fun _ =>
  .reads_bind fun _ => quiet_bind (fun _ => ⟨rfl, rfl, rfl, rfl, rfl, id, id⟩)
    (.ite (fun _ => raiseBusError_inner _ _ _) fun _ =>
      quiet_bind (fun _ => quiet_mapRegs rfl rfl id id) (.pure _))

theorem device68020_framing : Framing device68020 fun _ _ => True where
  kept _ _ _ := trivial
  getLong _ := .reads _
  getWord _ := .reads _
  physGetLong _ := .reads _
  putLong _ _ := .update fun _ => trivial
  putWord _ _ := .update fun _ => trivial
  fillPrefetch := .pure ()
  getIrq _ hm := by cases hm
  intAck _ hm := by cases hm
  exception _ hm := by cases hm

theorem device68020_answers : device68020.Answers where
  framing := device68020_framing
  trap _ hm := by cases hm
  instr _ hm := by cases hm
  getIword := .reads _
  cpufunctbl _ := .reads_bind fun _ => .bind (.update _) fun _ =>
    .ite (fun _ => .bind (.update _) fun _ => .throwCode 2) fun _ => .bind (.update _) fun _ => .pure _
  interrupts := interruptLoop_bounded device68020_framing (fun _ hm => by cases hm) (by decide) rfl

/-- A 68020 after its reset. -/
def reset68020 : Cpu (Long → Byte) := .reset (.plain .m68020) 0x1000 0x400 fun _ => 0

/-- The access functions of a CPU without prefetch over dummy banks only, with
`unmapped_bus_error` configured. -/
def unmappedPort : Port μ where
  getLong a := raiseBusError a false 2
  getWord a := raiseBusError a false 1
  getIword := do raiseBusError (← reads (·.regs.pc)) false 1
  physGetLong a := raiseBusError a false 2
  putLong a _ := raiseBusError a true 2
  putWord a _ := raiseBusError a true 1
  fillPrefetch := pure ()

/-- A 68020 without MMU or JIT whose memory has been unmapped. -/
def unmapped68020 : Host (Long → Byte) := { plain68020 with port := unmappedPort }

/-- What a double fault of that CPU leaves as it was. -/
structure Stuck (c : Cpu (Long → Byte)) : Prop where
  time : c.clock.currcycle = 0
  stopped : c.regs.stopped = .no
  halted : c.regs.halted = 0
  spc : c.regs.spc.any = false
  fresh : c.latch.exceptionInException = 0

namespace Stuck

variable {c : Cpu (Long → Byte)} (hs : Stuck c)
include hs

theorem setup (addr : Long) (w : Bool) (size : Int) : Stuck (exception2Setup addr w size c) :=
  ⟨hs.time, hs.stopped, hs.halted, hs.spc, hs.fresh⟩

theorem setA7 (v : Long) : Stuck (c.setA7 v) :=
  ⟨hs.time, hs.stopped, hs.halted, hs.spc, hs.fresh⟩

theorem makeSR : Stuck c.makeSR := ⟨hs.time, hs.stopped, hs.halted, hs.spc, hs.fresh⟩

theorem enterSupervisor (p : Prefs) : Stuck (c.mapRegs (enterSupervisor p)) := by
  simp only [UaeCpu.enterSupervisor, Cpu.mapRegs]
  split
  · exact hs
  · exact ⟨hs.time, hs.stopped, hs.halted, hs.spc, hs.fresh⟩

end Stuck

/-- `m` throws a bus error and leaves the CPU stuck. -/
def Refused {α : Type} (m : FaultM (Cpu (Long → Byte)) α) (c : Cpu (Long → Byte)) : Prop :=
  ∃ c₂, m c = .thrown 2 c₂ ∧ Stuck c₂

section Refused

variable {α β : Type} {c : Cpu (Long → Byte)}

theorem Refused.bind {m : FaultM (Cpu (Long → Byte)) α} (hr : Refused m c)
    (f : α → FaultM (Cpu (Long → Byte)) β) : Refused (m >>= f) c := by
  obtain ⟨c₂, hm, hs⟩ := hr
  exact ⟨c₂, bind_thrown hm, hs⟩

theorem refused_update_bind {g : Cpu (Long → Byte) → Cpu (Long → Byte)}
    {f : Unit → FaultM (Cpu (Long → Byte)) β} :
    Refused (update g >>= f) c ↔ Refused (f ()) (g c) := Iff.rfl

theorem refused_reads_bind {g : Cpu (Long → Byte) → α} {f : α → FaultM (Cpu (Long → Byte)) β} :
    Refused (reads g >>= f) c ↔ Refused (f (g c)) c := Iff.rfl

theorem refused_else {p : Prop} [Decidable p] {m m' : FaultM (Cpu (Long → Byte)) α} (hn : ¬ p)
    (hr : Refused m' c) : Refused (if p then m else m') c := by
  rw [if_neg hn]
  exact hr

theorem refused_raise (hs : Stuck c) (addr : Long) (w : Bool) (size : Int) :
    Refused (raiseBusError (α := α) addr w size) c := ⟨_, rfl, hs.setup addr w size⟩

end Refused

theorem unmapped_pass {c : Cpu (Long → Byte)} (hs : Stuck c) (fuel : Nat) {target : Int}
    (ht : 0 < target) :
    runPass unmapped68020 fuel target c = .thrown 2 (exception2Setup c.regs.pc false 1 c) := by
  have hgo : runnable target c = true := by simp [runnable, hs.time, hs.stopped, hs.halted, ht]
  have hspc : checkSpecialties unmapped68020 fuel c = .ret false c := by
    simp only [checkSpecialties, reads_bind_apply, hs.spc]
    rfl
  simp only [runPass, reads_bind_apply, hgo, Bool.not_true, Bool.false_eq_true, if_false]
  rw [bind_ret hspc]
  rfl

/-- The first item of a format B frame is a long. -/
theorem frameBody_longBus (oldpc ssw : Long) (irc : Word) (l : Latch) :
    ∃ v xs, frameBody oldpc ssw irc l .longBus = .long v :: xs := by
  obtain ⟨n, hn⟩ : ∃ n, max (l.log.idxDone + 1) maxMmu030Access = n + 1 :=
    ⟨max (l.log.idxDone + 1) maxMmu030Access - 1, by simp [maxMmu030Access]⟩
  simp only [frameBody, hn, List.range_succ_eq_map]
  exact ⟨_, _, rfl⟩

theorem unmapped_pushLong {c : Cpu (Long → Byte)} (hs : Stuck c) (v : Long) :
    Refused (pushLong unmapped68020 v) c :=
  refused_raise (hs.setA7 _) _ true 2

theorem unmapped_buildStackFrame {c : Cpu (Long → Byte)} (hs : Stuck c) (oldpc pc ssw : Long)
    (nr : Nat) : Refused (exceptionBuildStackFrame unmapped68020 oldpc pc ssw nr .longBus) c := by
  have hpush : ∀ c, Stuck c → Refused (do
      let c ← reads id
      pushAll unmapped68020 (frameBody oldpc ssw c.regs.irc c.latch .longBus ++
        frameTail pc c.regs.sr nr .longBus)) c := by
    intro c hs
    obtain ⟨v, xs, hb⟩ := frameBody_longBus oldpc ssw c.regs.irc c.latch
    simp only [refused_reads_bind, id, hb, List.cons_append, pushAll]
    exact (unmapped_pushLong hs v).bind _
  unfold exceptionBuildStackFrame
  by_cases hw : FrameFormat.longBus = .longBus ∧ ssw &&& 0x0040 = 0
  · rw [if_pos hw]
    exact hpush _ ⟨hs.time, hs.stopped, hs.halted, hs.spc, hs.fresh⟩
  · rw [if_neg hw]
    exact hpush _ hs

theorem unmapped_normalFrame {c : Cpu (Long → Byte)} (hs : Stuck c) (pc : Long) (sv : Bool) :
    Refused (normalFrame unmapped68020 2 2 pc sv) c := by
  unfold normalFrame
  rw [refused_reads_bind]
  have hmodel : unmapped68020.prefs.cpuModel = .m68020 := rfl
  simp only [hmodel, Model.num, reduceCtorEq, true_or, if_true, if_false]
  rw [if_neg (by decide), if_pos (by decide), refused_update_bind]
  refine Refused.bind (unmapped_buildStackFrame ?_ _ _ _ _) _
  exact ⟨hs.time, hs.stopped, hs.halted, hs.spc, hs.fresh⟩

theorem unmapped_normal {c : Cpu (Long → Byte)} (hs : Stuck c)
    (nested : Nat → FaultM (Cpu (Long → Byte)) Unit) :
    Refused (exceptionNormal unmapped68020 nested 2) c := by
  have hs' := hs.makeSR.enterSupervisor unmapped68020.prefs
  have hodd : ¬ ((c.makeSR.mapRegs (enterSupervisor unmapped68020.prefs)).regs.sp.a7.getLsbD 0 ∧
      unmapped68020.prefs.cpuModel.num < 68020) := fun hh => absurd hh.2 (by decide)
  have hnest : ¬ ((2 = 2 ∨ 2 = 3) ∧ (c.makeSR.mapRegs
      (enterSupervisor unmapped68020.prefs)).latch.exceptionInException < 0) := by
    rw [hs'.fresh]
    simp
  change Refused (if _ then _ else if _ then _ else _) (c.makeSR.mapRegs
    (enterSupervisor unmapped68020.prefs))
  exact refused_else hodd (refused_else hnest ((unmapped_normalFrame hs' _ _).bind _))

/-- The frame of a bus error cannot be pushed, and `Exception(2)` throws. -/
theorem unmapped_exception {c : Cpu (Long → Byte)} (hs : Stuck c) :
    Refused (exception unmapped68020 2) c := by
  change Refused (exceptionXBody unmapped68020 _ 2 none) c
  unfold exceptionXBody
  simp only [refused_reads_bind, id]
  change Refused (update _ >>= _) c
  simp only [refused_update_bind]
  refine Refused.bind (unmapped_normal ?_ _) _
  simp only [Cpu.mapRegs, resumeStopped, hs.stopped]
  exact ⟨hs.time, rfl, hs.halted, hs.spc, hs.fresh⟩

/-- Every round of the loop is a double fault, which `cpu_halt` does nothing about. -/
theorem unmapped_round {c : Cpu (Long → Byte)} (hs : Stuck c) (fuel : Nat) {target : Int}
    (ht : 0 < target) :
    ∃ c₂, runRound unmapped68020 fuel target c = .ret true c₂ ∧ Stuck c₂ := by
  obtain ⟨c₂, hx, hs₂⟩ := unmapped_exception (hs.setup c.regs.pc false 1)
  exact ⟨c₂, runRound_doubleFault (unmapped_pass hs fuel ht) hx, hs₂⟩

theorem reset68020_stuck : Stuck (enterRun unmapped68020 reset68020) :=
  ⟨by decide, by decide, by decide, by decide, by decide⟩

end UaeCpu
