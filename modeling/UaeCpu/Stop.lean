import UaeCpu.MasterStack
import UaeCpu.System

/-!
# UaeCpu.Stop

What a look at the special flags does for a CPU that waits in a STOP or LPSTOP when an unmasked
interrupt is pending.

* `interruptStack_ram`     — the frame an interrupt leaves on top of the stack, on every 68020+.
* `exception_interrupt`    — an interrupt takes the CPU out of the stopped state.
* `doSpecialties_stopped`  — with `SPCFLAG_INT` up `do_specialties` takes it.
* `doSpecialties_waiting`  — without, the CPU goes on waiting.
-/

namespace UaeCpu

open Fault FaultM Mem

variable {μ : Type}

/-! ## Interrupt entry -/

section Interrupt

variable {M : ByteMem μ} {h : Host μ} {nr vec : Nat} {c : Cpu μ}

/-- What the stacking of an interrupt leaves: a frame with the program counter on top of the
stack, everything else as it was except for memory under the two stacks. -/
structure Stacked (M : ByteMem μ) (pc : Long) (c c' : Cpu μ) : Prop where
  stackedPc : rd32 M c'.world (c'.regs.sp.a7 + 2) = pc
  stopped : c'.regs.stopped = c.regs.stopped
  vbr : c'.regs.vbr = c.regs.vbr
  kept : ∀ x, ¬ Covers (c.regs.sp.a7 - 8) 8 x →
    (c.regs.m = true → ¬ Covers (c.regs.sp.isp - 8) 8 x) →
    M.rd c'.world x = M.rd c.world x

/-- The end of `finishFrame` concerns neither memory nor the stack. -/
theorem finishFrame_used (hnr : nr ≠ 3) (nextpc : Long) :
    finishFrame h nr nextpc (some true) c =
      .ret () (c.mapRegs fun r => { r with
        m := r.m && !decide (h.prefs.cpuModel = .m68060 ∧ isInterrupt nr = true) }) := by
  by_cases hp : h.prefs.cpuModel = .m68060 ∧ isInterrupt nr = true
  · simp only [finishFrame, hp, hnr, Bool.not_true, Bool.false_eq_true, if_false, false_and,
      and_self, decide_true, Bool.and_false, if_true]
    rfl
  · simp only [finishFrame, hp, hnr, Bool.not_true, Bool.false_eq_true, if_false, false_and,
      and_false, decide_false, Bool.not_false, Bool.and_true]
    rfl

theorem finishFrame_unused (hq : RamPort M h.port) (nextpc : Long) :
    finishFrame h nr nextpc (some false) c =
      finishFrame h nr nextpc (some true) (c.stacked (c.regs.sp.a7 - 4 - 2)
        (wr16 M (wr32 M c.world (c.regs.sp.a7 - 4) nextpc) (c.regs.sp.a7 - 4 - 2) c.regs.sr)) := by
  simp only [finishFrame, Bool.not_false, if_true, Bool.not_true, Bool.false_eq_true, if_false]
  rw [bind_ret (pushLong_ram hq nextpc c)]
  simp only [reads_bind_apply]
  rw [bind_ret (pushWord_ram hq _ _)]
  rfl

/-- A frame that ends at `A7`, over memory that is otherwise as it was. -/
theorem Stacked.of_frame {w : μ} {a : Long} {sr fv : Word} {pc : Long} {c' : Cpu μ}
    (hw : c'.world = writeFrame M w a sr pc fv) (ha : c'.regs.sp.a7 = a)
    (hs : c'.regs.stopped = c.regs.stopped) (hv : c'.regs.vbr = c.regs.vbr)
    (hcov : ∀ x, ¬ Covers (c.regs.sp.a7 - 8) 8 x →
      (c.regs.m = true → ¬ Covers (c.regs.sp.isp - 8) 8 x) →
      ¬ Covers a 8 x ∧ M.rd w x = M.rd c.world x) : Stacked M pc c c' where
  stackedPc := by rw [hw, ha]; exact (frameAt_writeFrame w a sr pc fv).pc
  stopped := hs
  vbr := hv
  kept x h1 h2 := by
    obtain ⟨hna, hrd⟩ := hcov x h1 h2
    rw [hw, rd_writeFrame_of_not_covers hna, hrd]

theorem normalFrame_interrupt (hi : isInterrupt nr = true) (hp : 68020 ≤ h.prefs.cpuModel.num)
    (pc : Long) (sv : Bool) :
    normalFrame h nr vec pc sv c =
      if c.regs.m then (masterInterruptFrame h pc vec >>= fun _ => pure (some false)) c
      else (exceptionBuildStackFrame h c.regs.instructionPc pc (c.latch.mmu.ssw.setWidth 32) vec
        .fourWord >>= fun _ => pure (some true)) c := by
  have hnr : 24 ≤ nr ∧ nr < 32 := by simpa [isInterrupt] using hi
  have h00 : h.prefs.cpuModel ≠ .m68000 := by
    intro hc; rw [hc] at hp; revert hp; decide
  have h23 : ¬ (nr = 2 ∨ nr = 3) := by omega
  have hcommon : exceptionBuildStackFrameCommon h c.regs.instructionPc pc nr vec c =
      exceptionBuildStackFrame h c.regs.instructionPc pc (c.latch.mmu.ssw.setWidth 32) vec
        .fourWord c := by
    simp only [exceptionBuildStackFrameCommon, reads_bind_apply, id_eq]
    rw [if_neg (by omega), if_neg (by omega), if_neg (by omega), if_neg (by omega)]
  cases hm : c.regs.m
  · simp only [normalFrame, reads_bind_apply, id_eq, h00, h23, if_false, hm, Bool.false_eq_true,
      false_and]
    exact bind_congr_apply hcommon
  · simp only [normalFrame, reads_bind_apply, id_eq, h00, h23, if_false, hm, hi, and_self, if_true]

/-- `Exception_normal` stacks an interrupt on every model from the 68020 on. -/
theorem interruptStack_ram (vec : Nat) (hq : RamPort M h.port) (hi : isInterrupt nr = true)
    (hp : 68020 ≤ h.prefs.cpuModel.num) (sv : Bool) :
    Returns (normalFrame h nr vec c.regs.pc sv >>= finishFrame h nr c.regs.pc) c fun _ c' =>
      Stacked M c.regs.pc c c' := by
  have hnr : nr ≠ 3 := by
    have : 24 ≤ nr ∧ nr < 32 := by simpa [isInterrupt] using hi
    omega
  obtain ⟨e1, e2, e3⟩ := frame_addrs c.regs.sp.a7
  cases hm : c.regs.m
  · have hf : normalFrame h nr vec c.regs.pc sv c = _ := normalFrame_interrupt hi hp _ _
    rw [if_neg (by simp [hm]), bind_ret (buildFrame_ram hq (.inl rfl) _ _ _ _ c)] at hf
    refine .bind_eq hf (.of_eq (finishFrame_used hnr _) ?_)
    exact .of_frame rfl rfl rfl rfl fun x h1 _ => ⟨h1, rfl⟩
  · have hf : normalFrame h nr vec c.regs.pc sv c = _ := normalFrame_interrupt hi hp _ _
    rw [if_pos hm] at hf
    by_cases h60 : h.prefs.cpuModel.num < 68060
    · obtain ⟨i1, i2, i3⟩ := frame_addrs c.regs.sp.isp
      rw [bind_ret (masterInterruptFrame_ram hq h60 c.regs.pc c)] at hf
      refine .bind_eq hf (.of_eq ((finishFrame_unused hq _).trans (finishFrame_used hnr _)) ?_)
      simp only [stacked_regs, stacked_world, stacked_stacked, i2, i3]
      refine .of_frame (a := c.regs.sp.isp - 8) rfl rfl rfl rfl fun x h1 h2 => ⟨h2 hm, ?_⟩
      exact rd_writeFrame_of_not_covers h1
    · -- the 68060 has no second frame: its four words go where `A7` points
      have hpush : masterInterruptFrame h c.regs.pc vec c =
          .ret () (c.stacked (c.regs.sp.a7 - 8 + 6)
            (wr16 M c.world (c.regs.sp.a7 - 8 + 6) (BitVec.ofNat 16 (vec * 4)))) := by
        simp only [masterInterruptFrame, h60, if_false]
        rw [bind_ret (pushWord_ram hq _ c), e1]
        rfl
      rw [bind_ret hpush] at hf
      refine .bind_eq hf (.of_eq ((finishFrame_unused hq _).trans (finishFrame_used hnr _)) ?_)
      simp only [stacked_regs, stacked_world, stacked_stacked, e2, e3]
      exact .of_frame (a := c.regs.sp.a7 - 8) rfl rfl rfl rfl fun x h1 _ => ⟨h1, rfl⟩

/-- The stack an exception of a CPU with these registers goes to. -/
def entryStack (p : Prefs) (r : Regs) : Long := (enterSupervisor p r).sp.a7

/-- The program counter after the STOP or LPSTOP the CPU waits in. -/
def afterStop (r : Regs) : Long :=
  match r.stopped with
  | .no => r.pc
  | .stop => r.pc + 4
  | .lpstop => r.pc + 6

/-- An interrupt of level `l` can be processed: memory behaves as RAM, the hooks supply vector and
level without touching the CPU, and the vector is even and not under the stacks. -/
structure Serviceable (M : ByteMem μ) (h : Host μ) (l : Level) (vec : Nat) (c : Cpu μ) : Prop where
  ram : RamPort M h.port
  note : ∀ hook, h.exception = some hook → ∀ i c, hook i c = .ret () c
  ack : ∀ c, iackCycle h (l.toNat + 24) c = .ret vec c
  level : ∀ c, ∃ l, intlev h c = .ret l c
  even : (rd32 M c.world (vectorAddr c.regs vec)).getLsbD 0 = false
  apart : ∀ x, Covers (vectorAddr c.regs vec) 4 x →
    ¬ Covers (entryStack h.prefs c.regs - 8) 8 x ∧
      (c.regs.m = true → ¬ Covers (c.regs.sp.isp - 8) 8 x)

/-- The CPU has taken the interrupt of level `l` out of its stopped state: the frame on top of the
stack returns behind the STOP or LPSTOP. -/
structure InterruptTaken (M : ByteMem μ) (l : Level) (vec : Nat) (c c' : Cpu μ) : Prop where
  stopped : c'.regs.stopped = .no
  stackedPc : rd32 M c'.world (c'.regs.sp.a7 + 2) = afterStop c.regs
  intmask : c'.regs.intmask = l
  pc : c'.regs.pc = rd32 M c.world (vectorAddr c.regs vec)

theorem enterSupervisor_keeps (p : Prefs) (r : Regs) :
    (enterSupervisor p r).pc = r.pc ∧ (enterSupervisor p r).stopped = r.stopped ∧
      (enterSupervisor p r).vbr = r.vbr ∧ (enterSupervisor p r).m = r.m ∧
      (enterSupervisor p r).sp.isp = r.sp.isp := by
  cases hs : r.s <;> simp [enterSupervisor, hs]

theorem entryStack_congr {p : Prefs} {r r' : Regs} (hsp : r'.sp = r.sp) (hs : r'.s = r.s)
    (hm : r'.m = r.m) : entryStack p r' = entryStack p r := by
  cases h : r.s <;> simp [entryStack, enterSupervisor, h, hs, hsp, hm]

theorem isInterrupt_level (l : Level) : isInterrupt (l.toNat + 24) = true := by
  have := l.isLt
  simp only [isInterrupt, decide_eq_true_eq]
  omega

/-- `Exception_normal` takes an interrupt on every model from the 68020 on. -/
theorem exceptionNormal_interrupt {l : Level} {r : Regs} (hs : Serviceable M h l vec c)
    (hp : 68020 ≤ h.prefs.cpuModel.num) (hr : r.stopped = .no) (hpc : r.pc = afterStop c.regs)
    (hsp : r.sp = c.regs.sp) (hsup : r.s = c.regs.s) (hm : r.m = c.regs.m)
    (hvbr : r.vbr = c.regs.vbr) (nested : Nat → FaultM (Cpu μ) Unit) :
    Returns (exceptionNormal h nested (l.toNat + 24)) { c with regs := r } fun _ c' =>
      InterruptTaken M l vec c c' := by
  have hi := isInterrupt_level l
  have h23 : ¬ (l.toNat + 24 = 2 ∨ l.toNat + 24 = 3) := by omega
  have h20 : ¬ h.prefs.cpuModel.num < 68020 := by omega
  have h00 : h.prefs.cpuModel ≠ .m68000 := by
    intro hc; rw [hc] at hp; revert hp; decide
  have hepc : ∀ r, exceptionPc (l.toNat + 24) r = r.pc := by
    intro r; simp only [exceptionPc]; rw [if_neg (by omega)]
  have hlv : BitVec.ofNat 3 (l.toNat + 24 - 24) = l := by simp
  simp only [exceptionNormal, returns_reads_bind, id_eq, hi, if_true]
  refine .bind_eq (hs.ack _) ?_
  simp only [returns_update_bind, returns_reads_bind, id_eq, h20, and_false, h23, false_and,
    if_false, h00, hepc]
  generalize hc₁ : Cpu.mapRegs (enterSupervisor h.prefs) _ = c₁
  have hw₁ : c₁.world = c.world := by rw [← hc₁]; rfl
  have hr₁ : c₁.regs = enterSupervisor h.prefs { r with sr := encodeSR r c.flags } := by
    rw [← hc₁]; rfl
  obtain ⟨hpc₁, hst₁, hvbr₁, hm₁, hisp₁⟩ := enterSupervisor_keeps h.prefs
    { r with sr := encodeSR r c.flags }
  rw [← hr₁] at hpc₁ hst₁ hvbr₁ hm₁ hisp₁
  have ha₁ : c₁.regs.sp.a7 = entryStack h.prefs c.regs := by
    rw [hr₁]; exact entryStack_congr hsp hsup hm
  obtain ⟨_, c₂, hfr, hst⟩ :=
    interruptStack_ram vec hs.ram hi hp r.s (c := c₁)
  obtain ⟨f, c₃, hf, hfin⟩ := ret_of_bind hfr
  rw [hpc₁] at hf hfin
  refine .bind_eq hf (.bind_eq (by rw [hpc₁]; exact hfin) ?_)
  -- neither frame reaches the vector
  have hva : vectorAddr c₂.regs vec = vectorAddr c.regs vec := by
    simp only [vectorAddr, hst.vbr, hvbr₁, hvbr]
  have hvec : rd32 M c₂.world (vectorAddr c₂.regs vec) =
      rd32 M c.world (vectorAddr c.regs vec) := by
    rw [hva, ← hw₁]
    refine rd32_congr M fun x hx => ?_
    obtain ⟨h1, h2⟩ := hs.apart x hx
    refine hst.kept x (by rw [ha₁]; exact h1) fun hm' => ?_
    rw [hisp₁]
    exact hsp ▸ h2 (hm ▸ hm₁ ▸ hm')
  refine .mono (normalVector_ram hs.ram hi hs.level hp nested _ c₂ (by rw [hvec]; exact hs.even)) ?_
  rintro _ c' ⟨hw, hsp', -, -, him, hpc', hst'⟩
  exact ⟨by rw [hst', hst.stopped, hst₁, hr], by rw [hw, hsp', hst.stackedPc, hpc₁, hpc],
    him.trans hlv, hpc'.trans hvec⟩

theorem noteException_quiet (hn : ∀ hook, h.exception = some hook → ∀ i c, hook i c = .ret () c)
    (nr : Nat) (pc : Long) :
    ∃ sr, noteException h nr pc c = .ret () (c.mapRegs fun r => { r with sr := sr }) := by
  cases he : h.exception with
  | none => exact ⟨c.regs.sr, by simp only [noteException, he]; rfl⟩
  | some hook =>
    refine ⟨encodeSR c.regs c.flags, ?_⟩
    simp only [noteException, he, update_bind_apply, reads_bind_apply, hn hook he]
    rfl

theorem resumeStopped_keeps (r : Regs) :
    (resumeStopped r).stopped = .no ∧ (resumeStopped r).pc = afterStop r ∧
      (resumeStopped r).sp = r.sp ∧ (resumeStopped r).s = r.s ∧ (resumeStopped r).m = r.m ∧
      (resumeStopped r).vbr = r.vbr := by
  cases hs : r.stopped <;> simp [resumeStopped, afterStop, hs]

/-- `Exception` takes an interrupt out of the stopped state. -/
theorem exception_interrupt {l : Level} (hs : Serviceable M h l vec c)
    (hp : 68020 ≤ h.prefs.cpuModel.num) (hmmu : h.prefs.mmuModel = false) :
    Returns (exception h (l.toNat + 24)) c fun _ c' => InterruptTaken M l vec c c' := by
  have hl := l.isLt
  have h10 : ¬ (h.prefs.cpuCycleExact = true ∧ h.prefs.cpuModel.num ≤ 68010) := by omega
  have hbody : ∀ nested : Nat → FaultM (Cpu μ) Unit,
      Returns (exceptionXBody h nested (l.toNat + 24) none) c fun _ c' =>
        InterruptTaken M l vec c c' := by
    intro nested
    simp only [exceptionXBody, returns_reads_bind, id_eq]
    obtain ⟨sr, hn⟩ := noteException_quiet (c := c) hs.note (l.toNat + 24)
      (if isInterrupt (l.toNat + 24) then c.regs.pc
        else (none : Option Long).getD c.regs.instructionPc)
    refine .bind_eq hn ?_
    simp only [returns_update_bind, exceptionEngine, h10, if_false, hmmu, Bool.false_eq_true]
    generalize hc₁ : Cpu.mapRegs resumeStopped _ = c₁
    have hr₁ : c₁ = { c with regs := c₁.regs } := by rw [← hc₁]; rfl
    obtain ⟨h1, h2, h3, h4, h5, h6⟩ := resumeStopped_keeps { c.regs with
      sr := sr, exception := (l.toNat + 24 : Nat), loopMode := 0
      instructionPcUserException :=
        if c.regs.s then c.regs.instructionPcUserException else c.regs.pc }
    have hregs : c₁.regs = resumeStopped { c.regs with
      sr := sr, exception := (l.toNat + 24 : Nat), loopMode := 0
      instructionPcUserException :=
        if c.regs.s then c.regs.instructionPcUserException else c.regs.pc } := by
      rw [← hc₁]; rfl
    rw [← hregs] at h1 h2 h3 h4 h5 h6
    refine .bind (P := fun _ c' => InterruptTaken M l vec c c') ?_ fun _ c' ht => ?_
    · rw [hr₁]
      exact exceptionNormal_interrupt hs hp h1 h2 h3 h4 h5 h6 nested
    · exact returns_update.mpr ⟨ht.stopped, ht.stackedPc, ht.intmask, ht.pc⟩
  simp only [exception, exceptionX, exceptionXWith]
  have h32 : ¬ (32 ≤ l.toNat + 24 ∧ l.toNat + 24 < 48) := by omega
  cases ht : h.trap with
  | none => exact hbody _
  | some hook => simp only [h32, if_false]; exact hbody _

end Interrupt

/-! ## `do_specialties` of a stopped CPU -/

section Specialties

variable {M : ByteMem μ} {h : Host μ} {l : Level} {vec : Nat} {c : Cpu μ}

/-- `do_trace` does nothing while the CPU is stopped. -/
theorem doTrace_stopped {p : Prefs} (hst : c.regs.stopped ≠ .no) :
    c.mapRegs (doTrace p) = c := by
  simp [Cpu.mapRegs, doTrace, hst]

theorem Serviceable.mapSpc (hs : Serviceable M h l vec c) (f : SpcFlags → SpcFlags) :
    Serviceable M h l vec (c.mapSpc f) where
  ram := hs.ram
  note := hs.note
  ack := hs.ack
  level := hs.level
  even := hs.even
  apart x hx := by
    have he : entryStack h.prefs (c.mapSpc f).regs = entryStack h.prefs c.regs :=
      entryStack_congr rfl rfl rfl
    rw [he]
    exact hs.apart x hx

theorem InterruptTaken.mapSpc {c' : Cpu μ} (ht : InterruptTaken M l vec c c')
    (f : SpcFlags → SpcFlags) : InterruptTaken M l vec c (c'.mapSpc f) :=
  ⟨ht.stopped, ht.stackedPc, ht.intmask, ht.pc⟩

theorem InterruptTaken.dointWith {c' : Cpu μ} (ht : InterruptTaken M l vec c c') (p : Prefs)
    (ipl : Level) : InterruptTaken M l vec c (dointWith p ipl c') := by
  have hupd : InterruptTaken M l vec c
      (if c'.regs.ipl.pin = ipl then c' else updateIpl p ipl c') := by
    split
    · exact ht
    · simp only [updateIpl, Cpu.mapRegs]
      split
      · split
        · simp only [iplFetchNext]
          split
          · exact ⟨ht.stopped, ht.stackedPc, ht.intmask, ht.pc⟩
          · split <;> exact ⟨ht.stopped, ht.stackedPc, ht.intmask, ht.pc⟩
        · exact ⟨ht.stopped, ht.stackedPc, ht.intmask, ht.pc⟩
      · exact ⟨ht.stopped, ht.stackedPc, ht.intmask, ht.pc⟩
  simp only [UaeCpu.dointWith]
  generalize (if c'.regs.ipl.pin = ipl then c' else updateIpl p ipl c') = c₁ at hupd
  repeat' split
  all_goals first | exact hupd | exact hupd.mapSpc _

/-- The setting of a call that finds the CPU stopped with an interrupt of level `l` pending. -/
structure StoppedEntry (M : ByteMem μ) (h : Host μ) (l : Level) (vec : Nat) (c : Cpu μ) : Prop
    extends Serviceable M h l vec c where
  stopped : c.regs.stopped ≠ .no
  current : ∀ c', c'.pending = c.pending → c'.world = c.world → intlev h c' = .ret l c'
  unmasked : c.regs.intmask < l

theorem StoppedEntry.mapSpc (hs : StoppedEntry M h l vec c) (f : SpcFlags → SpcFlags) :
    StoppedEntry M h l vec (c.mapSpc f) :=
  ⟨hs.toServiceable.mapSpc f, hs.stopped, hs.current, hs.unmasked⟩

theorem jit_prefs {p : Prefs} (hj : p.jit = true) :
    68020 ≤ p.cpuModel.num ∧ p.cpuCompatible = false ∧ p.mmuModel = false ∧
      p.accurateIpl = false := by
  simp only [Prefs.jit, Bool.and_eq_true, decide_eq_true_eq, Bool.not_eq_true',
    bne_iff_ne] at hj
  obtain ⟨⟨⟨-, hm⟩, hc⟩, hmmu⟩ := hj
  refine ⟨hm, hc, hmmu, ?_⟩
  have : ¬ p.cpuModel.num ≤ 68010 := by omega
  simp [Prefs.accurateIpl, this]

theorem serviceInterrupt_stopped (hj : h.prefs.jit = true) (hs : StoppedEntry M h l vec c)
    (fuel : Nat) :
    Returns (serviceInterrupt h (fuel + 1) true) c fun _ c' => InterruptTaken M l vec c c' := by
  obtain ⟨hp, hcomp, hmmu, hacc⟩ := jit_prefs hj
  simp only [serviceInterrupt, hacc, Bool.false_eq_true, and_false, if_false, if_true]
  refine .bind_eq (hs.current c rfl rfl) ?_
  simp only [returns_update_bind, returns_reads_bind, id_eq]
  rw [if_pos (.inl hs.unmasked)]
  have hserv : Serviceable M h l vec (c.mapSpc fun f => { f with int := false, doInt := false }) :=
    hs.toServiceable.mapSpc _
  have hexc := exception_interrupt hserv hp hmmu
  refine .bind (P := fun _ c' => InterruptTaken M l vec c c') ?_ fun _ c' ht => ?_
  · simp only [doInterrupt, interruptLoop, interruptRound]
    refine .bind (P := fun _ c' => InterruptTaken M l vec c c') ?_ fun _ c' ht => ?_
    · refine .bind (P := fun o c' => o = none ∧ InterruptTaken M l vec c c') ?_ ?_
      · refine .bind hexc fun _ c' ht => ?_
        simp only [hcomp, Bool.not_false, true_or, if_true]
        exact returns_pure.mpr ⟨rfl, ht.stopped, ht.stackedPc, ht.intmask, ht.pc⟩
      · rintro _ c' ⟨rfl, ht⟩
        exact returns_pure.mpr ht
    · simp only [doint]
      refine .bind_read (hs.level c') fun l' => ?_
      exact returns_update.mpr (ht.dointWith _ _)
  · exact returns_update.mpr ⟨ht.stopped, ht.stackedPc, ht.intmask, ht.pc⟩

/-- With `SPCFLAG_INT` up, and nothing that makes it return before, `do_specialties` takes the
interrupt. -/
theorem doSpecialties_stopped (hj : h.prefs.jit = true) (hs : StoppedEntry M h l vec c)
    (hmode : c.regs.spc.modeChange = false) (hmmu : c.regs.spc.mmuRestart = false)
    (htr : c.regs.spc.doTrace = false) (hint : c.regs.spc.int = true) (fuel : Nat) :
    Returns (doSpecialties h (fuel + 1)) c fun _ c' => InterruptTaken M l vec c c' := by
  have hserve : ∀ f : SpcFlags → SpcFlags,
      Returns (serviceInterrupt h (fuel + 1) true) (c.mapSpc f) fun _ c' =>
        InterruptTaken M l vec c c' := fun f =>
    (serviceInterrupt_stopped hj (hs.mapSpc f) fuel).mono fun _ c' ht =>
      ⟨ht.stopped, ht.stackedPc, ht.intmask, ht.pc⟩
  have hrest : ∀ c' : Cpu μ, InterruptTaken M l vec c c' →
      Returns (do
        if c.regs.spc.doInt then
          update fun c => c.mapSpc fun f => { f with doInt := false, int := true }
        if c.regs.spc.brk then
          update fun c => c.mapSpc fun f => { f with brk := false }
          return true
        else return false) c' fun _ c' => InterruptTaken M l vec c c' := by
    intro c' ht
    have hbrk : ∀ c', InterruptTaken M l vec c c' → Returns (if c.regs.spc.brk then do
          update fun c => c.mapSpc fun f => { f with brk := false }
          return true
        else return false) c' fun _ c' => InterruptTaken M l vec c c' := by
      intro c' ht
      split
      · exact returns_update_bind.mpr (returns_pure.mpr (ht.mapSpc _))
      · exact returns_pure.mpr ht
    exact .updateIf (fun _ => hbrk _ (ht.mapSpc _)) fun _ => hbrk _ ht
  have hmain : ∀ f : SpcFlags → SpcFlags, Returns (do
        let trace ← reads (·.regs.spc.trace)
        if trace then update fun c => c.mapRegs (doTrace h.prefs)
        serviceInterrupt h (fuel + 1) c.regs.spc.int
        if c.regs.spc.doInt then
          update fun c => c.mapSpc fun f => { f with doInt := false, int := true }
        if c.regs.spc.brk then
          update fun c => c.mapSpc fun f => { f with brk := false }
          return true
        else return false) (c.mapSpc f) fun _ c' => InterruptTaken M l vec c c' := by
    intro f
    rw [hint]
    refine returns_reads_bind.mpr
      (.updateIf (fun _ => ?_) fun _ => (hserve f).bind fun _ => hrest)
    rw [doTrace_stopped (c := c.mapSpc f) hs.stopped]
    exact (hserve f).bind fun _ => hrest
  refine returns_reads_bind.mpr ?_
  rw [if_neg (by simp [hmode])]
  refine .updateIf (fun _ => .updateIf (fun _ => ?_) fun _ => ?_) fun _ =>
    .updateIf (fun _ => ?_) fun _ => ?_
  all_goals
    rw [if_neg (by simp [hmmu])]
    extract_lets _ jp
    rw [if_neg (by simp [htr])]
  · exact hmain fun f => { f with check := false, endCompile := false }
  · exact hmain fun f => { f with check := false }
  · exact hmain fun f => { f with endCompile := false }
  · exact hmain fun f => f

/-- The CPU waits, and no trace exception is due, which would be processed first. -/
def Waits (c : Cpu μ) : Prop := c.regs.stopped ≠ .no ∧ c.regs.spc.doTrace = false

/-- The special flags behind a `do_specialties` that processes no exception. -/
def lookFlags (f : SpcFlags) : SpcFlags :=
  if f.modeChange then f
  else
    { f with
      check := false, endCompile := false, mmuRestart := false, brk := false
      int := f.int || (f.doInt && !f.mmuRestart), doInt := f.doInt && f.mmuRestart }

/-- Where it cannot take an interrupt, `do_specialties` leaves the CPU waiting. -/
theorem doSpecialties_waiting (hj : h.prefs.jit = true) (hw : Waits c)
    (hoff : c.regs.spc.modeChange = true ∨ c.regs.spc.mmuRestart = true ∨ c.regs.spc.int = false)
    (fuel : Nat) :
    doSpecialties h fuel c =
      .ret (c.regs.spc.modeChange || c.regs.spc.brk) (c.mapSpc lookFlags) := by
  obtain ⟨-, -, -, hacc⟩ := jit_prefs hj
  obtain ⟨hst, htr⟩ := hw
  have htrace : ∀ f, (c.mapSpc f).mapRegs (doTrace h.prefs) = c.mapSpc f := fun f =>
    doTrace_stopped (c := c.mapSpc f) hst
  suffices hret : Returns (doSpecialties h fuel) c fun b c' =>
      b = (c.regs.spc.modeChange || c.regs.spc.brk) ∧ c' = c.mapSpc lookFlags by
    obtain ⟨b, c', he, rfl, rfl⟩ := hret
    exact he
  refine returns_reads_bind.mpr ?_
  by_cases hmode : c.regs.spc.modeChange = true
  · rw [if_pos hmode]
    exact returns_pure.mpr ⟨by rw [hmode]; rfl, by simp [Cpu.mapSpc, lookFlags, hmode]⟩
  rw [if_neg hmode]
  have hbrk : ∀ f : SpcFlags → SpcFlags,
      f c.regs.spc = { lookFlags c.regs.spc with brk := c.regs.spc.brk } →
      Returns (if c.regs.spc.brk then do
          update fun c => c.mapSpc fun f => { f with brk := false }
          return true
        else return false) (c.mapSpc f) fun b c' =>
          b = (c.regs.spc.modeChange || c.regs.spc.brk) ∧ c' = c.mapSpc lookFlags := by
    intro f hf
    split
    · next hb =>
      exact returns_update_bind.mpr (returns_pure.mpr
        ⟨by simp [hb], by simp [Cpu.mapSpc, hf, hmode, lookFlags]⟩)
    · next hb =>
      exact returns_pure.mpr ⟨by simp [hb, hmode], by simp [Cpu.mapSpc, hf, hb, hmode, lookFlags]⟩
  -- neither branch of the service reaches an exception
  have hrest : ∀ f : SpcFlags → SpcFlags,
      f c.regs.spc = { c.regs.spc with check := false, endCompile := false } →
      Returns (do
        if c.regs.spc.mmuRestart then
          update fun c => c.mapSpc fun f => { f with mmuRestart := false }
          if c.regs.spc.trace then update fun c => c.mapRegs (doTrace h.prefs)
        else
          if c.regs.spc.doTrace then exception h 9
          let trace ← reads (·.regs.spc.trace)
          if trace then update fun c => c.mapRegs (doTrace h.prefs)
          serviceInterrupt h fuel c.regs.spc.int
          if c.regs.spc.doInt then
            update fun c => c.mapSpc fun f => { f with doInt := false, int := true }
        if c.regs.spc.brk then
          update fun c => c.mapSpc fun f => { f with brk := false }
          return true
        else return false) (c.mapSpc f) fun b c' =>
          b = (c.regs.spc.modeChange || c.regs.spc.brk) ∧ c' = c.mapSpc lookFlags := by
    intro f hf
    by_cases hmmu : c.regs.spc.mmuRestart = true
    · rw [if_pos hmmu]
      have hon := hbrk (fun s => { f s with mmuRestart := false })
        (by simp [hf, lookFlags, hmode, hmmu])
      refine returns_update_bind.mpr (.updateIf (fun _ => ?_) fun _ => hon)
      rw [show (c.mapSpc f).mapSpc _ = c.mapSpc fun s => { f s with mmuRestart := false } from rfl,
        htrace]
      exact hon
    · have hint : c.regs.spc.int = false := hoff.resolve_left hmode |>.resolve_left hmmu
      rw [if_neg hmmu]
      extract_lets _ jp
      rw [if_neg (by simp [htr])]
      have hserve : Returns (do
          serviceInterrupt h fuel c.regs.spc.int
          if c.regs.spc.doInt then
            update fun c => c.mapSpc fun f => { f with doInt := false, int := true }
          if c.regs.spc.brk then
            update fun c => c.mapSpc fun f => { f with brk := false }
            return true
          else return false) (c.mapSpc f) fun b c' =>
            b = (c.regs.spc.modeChange || c.regs.spc.brk) ∧ c' = c.mapSpc lookFlags := by
        have hnone : serviceInterrupt h fuel c.regs.spc.int (c.mapSpc f) = .ret () (c.mapSpc f) := by
          simp [serviceInterrupt, hacc, hint]
        refine .bind_eq hnone (.updateIf (fun hd => ?_) fun hd => ?_)
        · exact hbrk (fun s => { f s with doInt := false, int := true })
            (by simp [hf, lookFlags, hmode, hmmu, hint, hd])
        · exact hbrk f (by simp [hf, lookFlags, hmode, hmmu, hint, hd])
      refine returns_reads_bind.mpr (.updateIf (fun _ => ?_) fun _ => hserve)
      rw [htrace]
      exact hserve
  refine .updateIf (fun _ => .updateIf (fun _ => ?_) fun he => ?_) fun hc =>
    .updateIf (fun _ => ?_) fun he => ?_
  · exact hrest (fun s => { s with check := false, endCompile := false }) rfl
  · exact hrest (fun s => { s with check := false }) (by simp [he])
  · exact hrest (fun s => { s with endCompile := false }) (by simp [hc])
  · have hflags : ∀ s : SpcFlags, s.check = false → s.endCompile = false →
        id s = { s with check := false, endCompile := false } := by
      rintro ⟨⟩ h1 h2
      cases h1
      cases h2
      rfl
    exact hrest id (hflags _ (by simpa using hc) (by simpa using he))

end Specialties

end UaeCpu
