import UaeCpu.FpuFrame
import UaeCpu.FpuMode

/-!
# UaeCpu.FpuAgree

The modes and FPCR. Everything but `fpp_set_fpcr`, `fpu_null` and `uae_cpu_set_fpcr` leaves FPCR
and the modes as they are (`modes`), as what a library call changes it puts back (`Keeps`). The
first of the three writes both, the other two only FPCR, which decides when the two still agree.
-/

namespace UaeCpu.Fpu

open Mem Trans

/-! ## Calls that put the modes back -/

def FloatStatus.modes (fs : FloatStatus) : RoundingMode × Nat :=
  (fs.floatRoundingMode, fs.floatx80RoundingPrecision)

namespace Soft

variable {α β : Type}

/-- The call leaves the modes it finds. -/
def Keeps (m : Soft α) : Prop := ∀ fs, (m fs).2.modes = fs.modes

theorem keeps_pure (a : α) : Keeps (pure a) := fun _ => rfl

theorem keeps_raise (f : FloatStatus → α × Byte) : Keeps (raise f) := fun _ => rfl

theorem Keeps.bind {m : Soft α} {k : α → Soft β} (hm : Keeps m) (hk : ∀ a, Keeps (k a)) :
    Keeps (m >>= k) := fun fs => (hk (m fs).1 (m fs).2).trans (hm fs)

theorem keeps_get_bind {k : FloatStatus → Soft β} (hk : ∀ fs, Keeps (k fs)) : Keeps (get >>= k) :=
  fun fs => hk fs fs

/-- The rounding mode is not the routine's to change, the precision is. -/
theorem keeps_withPrec {m : Soft α} (prec : Prec) (hm : Keeps m) : Keeps (withPrec prec m) := by
  intro fs
  by_cases h : prec = .normal
  · subst h
    have hmode : (m fs).2.floatRoundingMode = fs.floatRoundingMode := congrArg Prod.fst (hm fs)
    exact Prod.ext hmode rfl
  · have hmode : (m { fs with floatx80RoundingPrecision := prectable prec }).2.floatRoundingMode =
        fs.floatRoundingMode := congrArg Prod.fst (hm _)
    have hrun : (withPrec prec m fs).2 =
        { (m { fs with floatx80RoundingPrecision := prectable prec }).2 with
          floatx80RoundingPrecision := fs.floatx80RoundingPrecision } := by
      cases prec with
      | normal => exact absurd rfl h
      | float => rfl
      | double => rfl
    rw [hrun]
    exact Prod.ext hmode rfl

/-- Whatever the routine does to the modes. -/
theorem keeps_extended (m : Soft α) : Keeps (extended m) := fun _ => rfl

theorem keeps_tentoint128 {m : Soft α} (mSign eSign : Bool) (hm : Keeps m) :
    Keeps (tentoint128 mSign eSign m) := by
  intro fs
  have hprec : (m { fs with
      floatRoundingMode := powerMode mSign eSign fs.floatRoundingMode }).2.floatx80RoundingPrecision =
      fs.floatx80RoundingPrecision := congrArg Prod.snd (hm _)
  exact Prod.ext rfl hprec

end Soft

open Soft

namespace SoftFloat

variable (lib : SoftFloat)

theorem keeps_fpsp (op : FpspOp) (b : Float80) : Keeps (lib.fpsp op b) := by
  refine keeps_get_bind fun fs => ?_
  cases lib.fpspSpecial op fs b with
  | some r => exact keeps_raise _
  | none => exact (keeps_extended _).bind fun ab => keeps_raise _

theorem keeps_call (src dst : Float80) (fn : ArithFn) : Keeps (lib.call src dst fn) := by
  cases fn with
  | prec op prec => exact keeps_withPrec prec (keeps_raise _)
  | plain op => exact keeps_raise _
  | fpsp op => exact lib.keeps_fpsp op src
  | unknown => exact keeps_pure dst

theorem keeps_load (source : Source) : Keeps (lib.load source) := by
  cases source with
  | reg x => exact keeps_pure x
  | int v => exact keeps_pure _
  | packed w₁ w₂ w₃ =>
    exact (keeps_tentoint128 _ _ (keeps_raise _)).bind fun power => keeps_raise _
  | single | double | exten => exact keeps_raise _

theorem keeps_store (dest : Dest) (x : Float80) : Keeps (lib.store dest x) := by
  cases dest with
  | packed kfactor => exact (keeps_tentoint128 _ _ (keeps_raise _)).bind fun power => keeps_raise _
  | int | single | double | exten => exact keeps_raise _

end SoftFloat

/-! ## Steps that leave FPCR and the modes -/

/-- The modes, and FPCR they should be those of. -/
def FpuCpu.modes (c : FpuCpu) : (RoundingMode × Nat) × Long := (c.fpu.status.modes, c.regs.fpu.fpcr)

theorem agree_congr {c c' : FpuCpu} (h : c'.modes = c.modes) : Agree c' ↔ Agree c := by
  have hs : c'.fpu.status.modes = c.fpu.status.modes := congrArg Prod.fst h
  have hr : c'.regs.fpu.fpcr = c.regs.fpu.fpcr := congrArg Prod.snd h
  have hm : c'.fpu.status.floatRoundingMode = c.fpu.status.floatRoundingMode := congrArg Prod.fst hs
  have hp : c'.fpu.status.floatx80RoundingPrecision = c.fpu.status.floatx80RoundingPrecision :=
    congrArg Prod.snd hs
  simp only [Agree, hm, hp, hr]

section Ops

variable {p : FpuPrefs} {lib : SoftFloat} (c : FpuCpu)

@[simp] theorem modes_soft {α : Type} {m : Soft α} (h : Keeps m) : (c.soft m).2.modes = c.modes :=
  Prod.ext (h c.fpu.status) rfl

@[simp] theorem modes_orFpsr (bits : Long) : (c.orFpsr bits).modes = c.modes := rfl

@[simp] theorem modes_setFp (i : Fin 8) (x : Float80) : (c.setFp i x).modes = c.modes := rfl

@[simp] theorem modes_clearStatus : (fpsrClearStatus c).modes = c.modes := rfl

@[simp] theorem modes_setResult (x : Float80) : (fpsrSetResult x c).modes = c.modes := rfl

@[simp] theorem modes_besides (f : FpuCpu → FpuCpu) : (besides f c).modes = c.modes := rfl

@[simp] theorem modes_makeStatus : (fpsrMakeStatus p c).2.modes = c.modes := by
  rw [fpsrMakeStatus]
  split <;> rfl

@[simp] theorem modes_checkException (save : SaveData) (oldpc : Long) :
    (fpsrCheckArithmeticException p save oldpc c).2.modes = c.modes := by
  have hfpiar : ∀ c : FpuCpu, (if oldpc ≠ 0xFFFFFFFF then c.mapCtrl fun r => { r with fpiar := oldpc }
      else c).modes = c.modes := by
    intro c
    split <;> rfl
  rw [fpsrCheckArithmeticException]
  extract_lets vector c₁
  by_cases h : (!takesExceptions p) = true ∨ (c.regs.fpu.fpsr &&& c.regs.fpu.fpcr &&& 0xFF00) |||
      (if nonmaskables p then c.regs.fpu.fpsr &&& (fpsrOvfl ||| fpsrUnfl) else 0) = 0
  · rw [if_pos h]
  · rw [if_neg h]
    exact hfpiar _

@[simp] theorem modes_maybeSetFpiar (oldpc : Long) : (maybeSetFpiar p oldpc c).modes = c.modes := by
  rw [maybeSetFpiar]
  split <;> rfl

@[simp] theorem modes_beforeCall (extra : Word) (src dst : Float80) (fn : ArithFn) :
    (beforeCall lib extra src dst c fn).modes = c.modes := by
  cases fn with
  | prec | unknown => rfl
  | plain op => cases op <;> rfl
  | fpsp op => cases op <;> rfl

theorem modes_fpArithmetic (extra : Word) (src dst : Float80) :
    (fpArithmetic p lib extra src dst c).2.modes = c.modes := by
  rw [fpArithmetic]
  by_cases hu : arithFn extra = .unknown
  · simp only [if_pos hu]
  · have hcall := lib.keeps_call src dst (arithFn extra)
    simp only [if_neg hu]
    split
    · simp [hcall]
    · simp [hcall]

theorem modes_fpuopArithmetic (fetch : Fetch) (save : SaveData) (extra : Word) (pc : Long) :
    (fpuopArithmetic p lib fetch save extra pc c).modes = c.modes := by
  have hstate : ∀ c : FpuCpu, (c.mapFpu fun f => { f with fpuState := true }).modes = c.modes :=
    fun _ => rfl
  rw [fpuopArithmetic]
  split
  · exact hstate c
  · extract_lets c₁ c₂
    have hc : c₂.modes = c.modes := hstate c
    cases fetch.operand c₁ with
    | none => exact hc
    | some operand =>
      have hload : ((c₂.soft (lib.load operand)).2).modes = c.modes :=
        (modes_soft c₂ (lib.keeps_load operand)).trans hc
      dsimp only
      split
      · exact hload
      · split <;> simp only [modes_setFp, modes_checkException, modes_fpArithmetic,
          modes_maybeSetFpiar, hload]

theorem modes_fpuGetConstant (save : SaveData) (constant : FpuCpu → Constant) (extra : Word)
    (pc : Long) : (fpuGetConstant p lib save constant extra pc c).modes = c.modes := by
  rw [fpuGetConstant]
  split
  · rfl
  · have hround : ∀ (prec x : _), Keeps (if prec = (0 : Long) then pure x
        else if prec = 0x40 then raise fun fs => lib.round32 fs x
        else raise fun fs => lib.round64 fs x) := by
      intro prec x
      split_ifs
      · exact keeps_pure x
      · exact keeps_raise _
      · exact keeps_raise _
    simp only [modes_checkException, modes_makeStatus, modes_orFpsr, modes_setResult, modes_setFp,
      modes_soft _ (hround _ _), modes_maybeSetFpiar, modes_clearStatus]
    rfl

theorem modes_fpuopStore (put : List Long → FpuCpu → FpuCpu) (ended : FpuCpu → Bool)
    (save : SaveData) (dest : Dest) (extra : Word) (pc : Long) :
    (fpuopStore p lib put ended save dest extra pc c).modes = c.modes := by
  rw [fpuopStore]
  split
  · rfl
  · have hsoft := fun x : Float80 => lib.keeps_store dest x
    dsimp only
    split <;> simp only [modes_checkException, modes_maybeSetFpiar, modes_makeStatus, modes_besides,
      modes_soft _ (hsoft _), modes_clearStatus] <;> rfl

theorem modes_resumeArithmetic (save : SaveData) (et15 fpte15 : Bool) :
    (resumeArithmetic p lib save et15 fpte15 c).modes = c.modes := by
  simp only [resumeArithmetic, modes_checkException]
  split <;> simp only [modes_setFp, modes_fpArithmetic, modes_clearStatus]

/-! ## Frames -/

variable {disp : DispEa} {opcode : Word}

/-- The FPU registers and the status of the library are untouched. -/
structure SameCtrl (c c' : FpuCpu) : Prop where
  ctrl : c'.regs.fpu = c.regs.fpu
  status : c'.fpu.status = c.fpu.status

theorem SameCtrl.trans {c c' c'' : FpuCpu} (h : SameCtrl c c') (h' : SameCtrl c' c'') :
    SameCtrl c c'' :=
  ⟨h'.ctrl.trans h.ctrl, h'.status.trans h.status⟩

theorem SameCtrl.modes {c c' : FpuCpu} (h : SameCtrl c c') : c'.modes = c.modes := by
  rw [FpuCpu.modes, h.ctrl, h.status]
  rfl

theorem fpuopSave_sameCtrl : SameCtrl c (exitState (fpuopSave p disp opcode c)) := by
  rw [fpuopSave]
  split
  · exact ⟨rfl, rfl⟩
  split
  · exact ⟨rfl, rfl⟩
  next ad d hget =>
  obtain ⟨hfpu, -, hregs⟩ := getFpAd_kept hget
  have hd : SameCtrl c d := ⟨hregs, by rw [hfpu]⟩
  have htrace : ∀ r : Regs, (traceT0 p r).fpu = r.fpu := fun r => by
    rw [traceT0]
    split <;> rfl
  have hset : ∀ (r : Regs) (i : Fin 8) (v : Long), (r.setAreg i v).fpu = r.fpu := fun r i v => by
    rw [Regs.setAreg]
    split <;> rfl
  split
  · exact hd
  · refine ⟨?_, ?_⟩
    · split <;> simpa [exitState, FpuCpu.mapFpu, FpuCpu.mapRegs, htrace, hset] using hd.ctrl
    · split <;> exact hd.status

theorem modes_fpuNull : (fpuNull c).modes = (c.fpu.status.modes, 0) := rfl

/-- What a frame leaves: a NULL frame clears FPCR, the others keep it. -/
def framed (null : Prop) [Decidable null] : (RoundingMode × Nat) × Long :=
  if null then (c.fpu.status.modes, 0) else c.modes

/-- The state a frame's outcome carries. -/
def FrameResult.Ends (P : FpuCpu → Prop) : FrameResult → Prop
  | .done c _ => P c
  | .format c => P c
  | .retry _ => True

theorem getFpuVersion_ne_zero {model : FpuModel} (h : model = .m68881 ∨ model = .m68882 ∨
    model = .m68040) : getFpuVersion p model ≠ 0 := by
  rcases h with rfl | rfl | rfl
  · simp [getFpuVersion]
  · simp [getFpuVersion]
  · rw [getFpuVersion]
    split <;> decide

/-- A frame leaves what the resumed operation makes, a null FPU, or the FPU registers as they
were. `null` is whether the frame is a NULL frame. -/
structure Outcomes (resume : FpuCpu → FpuCpu) (null : Prop) (P : FpuCpu → Prop) : Prop where
  kept : ¬ null → ∀ c', SameCtrl c c' → P c'
  resumed : ¬ null → ∀ c', SameCtrl c c' → P (resume c')
  cleared : null → ∀ c', SameCtrl c c' → P (fpuNull c')

theorem Outcomes.congr {c : FpuCpu} {resume : FpuCpu → FpuCpu} {null null' : Prop}
    {P : FpuCpu → Prop} (h : Outcomes c resume null P) (hn : null ↔ null') :
    Outcomes c resume null' P := by
  rwa [← propext hn]

theorem Outcomes.moved {c d : FpuCpu} {resume : FpuCpu → FpuCpu} {null : Prop} {P : FpuCpu → Prop}
    (h : Outcomes c resume null P) (hd : SameCtrl c d) : Outcomes d resume null P where
  kept hn c' hc' := h.kept hn c' (hd.trans hc')
  resumed hn c' hc' := h.resumed hn c' (hd.trans hc')
  cleared hn c' hc' := h.cleared hn c' (hd.trans hc')

section Ends

variable {resume : FpuCpu → FpuCpu} {P : FpuCpu → Prop} {ad d : Long}

theorem restore060_ends (h : Outcomes c resume ((d >>> 8) &&& 0xFF = 0) P) :
    (restore060 ad d c).Ends P := by
  rw [restore060]
  by_cases h60 : (d >>> 8) &&& 0xFF = 0x60
  · rw [if_pos h60]
    exact h.kept (by rw [h60]; decide) _ ⟨rfl, rfl⟩
  rw [if_neg h60]
  by_cases hE0 : (d >>> 8) &&& 0xFF = 0xE0
  · have hne : ¬ (d >>> 8) &&& 0xFF = 0 := by rw [hE0]; decide
    rw [if_pos hE0]
    extract_lets
    split <;> exact h.kept hne _ ⟨rfl, rfl⟩
  rw [if_neg hE0]
  by_cases h0 : (d >>> 8) &&& 0xFF = 0
  · rw [if_neg (not_not.mpr h0)]
    exact h.cleared h0 _ ⟨rfl, rfl⟩
  · rw [if_pos h0]
    exact h.kept h0 _ ⟨rfl, rfl⟩

theorem restoreBusy_ends {null : Prop} (h : Outcomes c resume null P) (hn : ¬ null) :
    (restoreBusy resume ad c).Ends P := by
  simp only [restoreBusy]
  split
  · exact h.resumed hn _ ⟨rfl, rfl⟩
  · exact h.kept hn _ ⟨rfl, rfl⟩

theorem restore040_ends (h : Outcomes c resume ((d >>> 24) &&& 0xFF = 0) P) :
    (restore040 p resume ad d c).Ends P := by
  simp only [restore040]
  by_cases hv : (d >>> 24) &&& 0xFF = getFpuVersion p .m68040
  · have hne : ¬ (d >>> 24) &&& 0xFF = 0 := hv ▸ getFpuVersion_ne_zero (.inr (.inr rfl))
    rw [if_pos hv]
    split
    · exact restoreBusy_ends c h hne
    · split
      · exact h.kept hne _ ⟨rfl, rfl⟩
      · split <;> exact h.kept hne _ ⟨rfl, rfl⟩
  rw [if_neg hv]
  by_cases h0 : (d >>> 24) &&& 0xFF = 0
  · rw [if_pos h0]
    exact h.cleared h0 _ ⟨rfl, rfl⟩
  · rw [if_neg h0]
    split
    · trivial
    · exact h.kept h0 _ ⟨rfl, rfl⟩

theorem restore6888x_ends {model : FpuModel} (hm : model = .m68881 ∨ model = .m68882)
    (h : Outcomes c resume ((d >>> 24) &&& 0xFF = 0) P) :
    (restore6888x p model ad d c).Ends P := by
  simp only [restore6888x]
  by_cases hv : (d >>> 24) &&& 0xFF = getFpuVersion p model
  · have hne : ¬ (d >>> 24) &&& 0xFF = 0 := hv ▸ getFpuVersion_ne_zero (hm.imp_right .inl)
    rw [if_pos hv]
    split
    · split <;> exact h.kept hne _ ⟨rfl, rfl⟩
    · split <;> exact h.kept hne _ ⟨rfl, rfl⟩
  rw [if_neg hv]
  by_cases h0 : (d >>> 24) &&& 0xFF = 0
  · rw [if_pos h0]
    exact h.cleared h0 _ ⟨rfl, rfl⟩
  · rw [if_neg h0]
    split
    · trivial
    · exact h.kept h0 _ ⟨rfl, rfl⟩

theorem restoreFrame_ends (hp : p.fpuModel ≠ .none)
    (h : Outcomes c resume (nullWord p d = true) P) :
    (restoreFrame p resume p.fpuModel ad d c).Ends P := by
  cases hm : p.fpuModel with
  | none => exact absurd hm hp
  | m68060 => exact restore060_ends c (h.congr (by simp [nullWord, hm]))
  | m68040 => exact restore040_ends c (h.congr (by simp [nullWord, hm]))
  | m68881 => exact restore6888x_ends c (.inl rfl) (h.congr (by simp [nullWord, hm]))
  | m68882 => exact restore6888x_ends c (.inr rfl) (h.congr (by simp [nullWord, hm]))

end Ends

/-- A frame is tried again only where it is none of the family's, so no NULL frame. -/
theorem restoreFrame_retry {resume : FpuCpu → FpuCpu} {ad d : Long} {model : FpuModel}
    (h : restoreFrame p resume p.fpuModel ad d c = .retry model) :
    (model = .m68881 ∨ model = .m68040) ∧ p.fpuModel ≠ .m68060 ∧ (d >>> 24) &&& 0xFF ≠ 0 := by
  have hbusy : ∀ ad, restoreBusy resume ad c ≠ .retry model := fun _ h => by
    cases h
  have h060 : restore060 ad d c ≠ .retry model := by
    simp only [restore060]
    split_ifs <;> (intro h; cases h)
  have h040 : restore040 p resume ad d c = .retry model → model = .m68881 ∧ (d >>> 24) &&& 0xFF ≠ 0 := by
    simp only [restore040]
    by_cases hv : (d >>> 24) &&& 0xFF = getFpuVersion p .m68040
    · rw [if_pos hv]
      split_ifs
      · exact fun h => absurd h (hbusy _)
      all_goals (intro h; cases h)
    rw [if_neg hv]
    by_cases h0 : (d >>> 24) &&& 0xFF = 0
    · rw [if_pos h0]
      intro h
      cases h
    · rw [if_neg h0]
      split_ifs
      · exact fun h => ⟨(FrameResult.retry.inj h).symm, h0⟩
      · intro h
        cases h
  have h6888x : restore6888x p p.fpuModel ad d c = .retry model →
      model = .m68040 ∧ (d >>> 24) &&& 0xFF ≠ 0 := by
    simp only [restore6888x]
    by_cases hv : (d >>> 24) &&& 0xFF = getFpuVersion p p.fpuModel
    · rw [if_pos hv]
      split_ifs <;> (intro h; cases h)
    rw [if_neg hv]
    by_cases h0 : (d >>> 24) &&& 0xFF = 0
    · rw [if_pos h0]
      intro h
      cases h
    · rw [if_neg h0]
      split_ifs
      · exact fun h => ⟨(FrameResult.retry.inj h).symm, h0⟩
      · intro h
        cases h
  cases hm : p.fpuModel with
  | m68060 =>
    rw [hm] at h
    exact absurd h h060
  | m68040 =>
    rw [hm] at h
    obtain ⟨rfl, h0⟩ := h040 h
    exact ⟨.inl rfl, by decide, h0⟩
  | none | m68881 | m68882 =>
    rw [hm] at h h6888x
    obtain ⟨rfl, h0⟩ := h6888x h
    exact ⟨.inr rfl, by decide, h0⟩

/-- What holds of each outcome of the frame and does not depend on the address registers, holds of
the state FRESTORE leaves. -/
theorem fpuopRestore_ends {resume : FpuCpu → FpuCpu} {P : FpuCpu → Prop}
    (h : Outcomes c resume (takesNull p disp opcode c = true) P)
    (hset : ∀ c' i v, P c' → P (c'.mapRegs (·.setAreg i v))) :
    P (exitState (fpuopRestore p disp resume opcode c)) := by
  rw [fpuopRestore]
  by_cases hno : faultIfNo6888x p = true
  · rw [if_pos hno]
    exact h.kept (by simp [takesNull, hno]) c ⟨rfl, rfl⟩
  rw [if_neg hno]
  cases hget : getFpAd disp opcode c with
  | none => exact h.kept (by simp [takesNull, hget]) c ⟨rfl, rfl⟩
  | some r =>
    obtain ⟨ad, d⟩ := r
    obtain ⟨hfpu, -, hregs⟩ := getFpAd_kept hget
    have hd : SameCtrl c d := ⟨hregs, by rw [hfpu]⟩
    dsimp only
    by_cases hen : ifNoFpu p d.fpu = true
    · rw [if_pos hen]
      exact h.kept (by simp [takesNull, hget, hen]) d hd
    rw [if_neg hen]
    have hp : p.fpuModel ≠ .none := fun hp => hen (by simp [ifNoFpu, hp])
    have hword : takesNull p disp opcode c = true ↔ nullWord p (d.xCpGetLong ad) = true := by
      simp [takesNull, hno, hget, hen]
    have hout : Outcomes d resume (nullWord p (d.xCpGetLong ad) = true) P :=
      (h.congr hword).moved hd
    have hexit : ∀ r : FrameResult, r.Ends P →
        (∀ model, r = .retry model → ¬ nullWord p (d.xCpGetLong ad) = true) →
        P (exitState (match r with
          | .done c ad => .ok (if eaMode opcode = 3 then c.mapRegs (·.setAreg (eaReg opcode) ad) else c)
          | .format c => .error (.format, c)
          | .retry _ => .error (.format, d))) := by
      intro r hr hretry
      cases r with
      | done c' ad' =>
        dsimp only [exitState]
        split
        · exact hset _ _ _ hr
        · exact hr
      | format c' => exact hr
      | retry model => exact hout.kept (hretry model rfl) d ⟨rfl, rfl⟩
    have hfirst : (restoreFrame p resume p.fpuModel ad (d.xCpGetLong ad) d).Ends P :=
      restoreFrame_ends d hp hout
    cases hr : restoreFrame p resume p.fpuModel ad (d.xCpGetLong ad) d with
    | done | format =>
      rw [hr] at hfirst
      exact hexit _ hfirst fun model h => by cases h
    | retry model =>
      obtain ⟨hm, h60, h0⟩ := restoreFrame_retry d hr
      have hn : nullWord p (d.xCpGetLong ad) = true ↔ (d.xCpGetLong ad >>> 24) &&& 0xFF = 0 := by
        simp [nullWord, h60]
      have hsecond : (restoreFrame p resume model ad (d.xCpGetLong ad) d).Ends P := by
        obtain rfl | rfl := hm
        · exact restore6888x_ends d (.inl rfl) (hout.congr hn)
        · exact restore040_ends d (hout.congr hn)
      simp only
      exact hexit _ hsecond fun _ _ => mt hn.mp h0

/-- FRESTORE clears FPCR where it takes a NULL frame, and never writes the modes. -/
theorem modes_fpuopRestore {resume : FpuCpu → FpuCpu} (hres : ∀ c, (resume c).modes = c.modes) :
    (exitState (fpuopRestore p disp resume opcode c)).modes =
      framed c (takesNull p disp opcode c = true) := by
  refine fpuopRestore_ends (P := fun c' => c'.modes = _) c ⟨fun hn c' hc' => ?_, fun hn c' hc' => ?_,
    fun hn c' hc' => ?_⟩ fun c' i v hc' => ?_
  · rw [framed, if_neg hn]
    exact hc'.modes
  · rw [framed, if_neg hn]
    exact (hres c').trans hc'.modes
  · rw [framed, if_pos hn, modes_fpuNull, hc'.status]
  · rw [← hc']
    simp only [FpuCpu.modes, FpuCpu.mapRegs, Regs.setAreg]
    split <;> rfl

/-! ## Agreement -/

theorem precisionOf_mask (val : Long) : precisionOf (val &&& fpcrMask p) = precisionOf val := by
  have h : (val &&& fpcrMask p) &&& fpcrRoundingPrecision = val &&& fpcrRoundingPrecision := by
    rw [BitVec.and_assoc, fpcrMask]
    split <;> rfl
  simp only [precisionOf, h]

theorem roundingOf_mask (val : Long) : roundingOf (val &&& fpcrMask p) = roundingOf val := by
  have h : (val &&& fpcrMask p) &&& fpcrRoundingMode = val &&& fpcrRoundingMode := by
    rw [BitVec.and_assoc, fpcrMask]
    split <;> rfl
  simp only [roundingOf, h]

/-- The one function that writes both places. -/
theorem agree_setFpcr (val : Long) : Agree (fppSetFpcr p val c) :=
  ⟨(roundingOf_mask val).symm, (precisionOf_mask val).symm⟩

theorem Agree.loadCtrl {c : FpuCpu} (h : Agree c) (vals : List (Option Long)) (rs : List CtrlReg) :
    Agree (loadCtrl p vals rs c) := by
  induction rs generalizing vals c with
  | nil => simpa only [Fpu.loadCtrl] using h
  | cons r rs ih =>
    cases vals with
    | nil => exact h
    | cons val vals =>
      cases val with
      | none => exact h
      | some val =>
        refine ih (?_ : Agree (setCtrlReg p val r c)) vals
        cases r with
        | fpcr => exact agree_setFpcr c val
        | fpsr | fpiar => exact h

theorem agree_reset : Agree (fpuReset p c) := by
  have h : (0 : Long) &&& fpcrMask p = 0 := BitVec.zero_and
  refine ⟨?_, ?_⟩ <;> simp only [fpuReset, fppSetFpcr, fppSetFpsr, fppSetFpiar, FpuCpu.mapCtrl,
    FpuCpu.mapStatus, FpuCpu.mapFpu, FpuCpu.mapRegs, fpSetMode, h]

/-- Another FPCR under the same modes. -/
theorem agree_fpcr_iff {c c' : FpuCpu} {v : Long} (h : Agree c)
    (hc : c'.modes = (c.fpu.status.modes, v)) : Agree c' ↔ SameModes v c.regs.fpu.fpcr := by
  have hs : c'.fpu.status.modes = c.fpu.status.modes := congrArg Prod.fst hc
  have hv : c'.regs.fpu.fpcr = v := congrArg Prod.snd hc
  have hm : c'.fpu.status.floatRoundingMode = c.fpu.status.floatRoundingMode := congrArg Prod.fst hs
  have hp : c'.fpu.status.floatx80RoundingPrecision = c.fpu.status.floatx80RoundingPrecision :=
    congrArg Prod.snd hs
  rw [Agree, hm, hp, hv, h.1, h.2, SameModes]
  exact and_congr eq_comm eq_comm

theorem agree_step_iff (e : FpuEvent) (h : Agree c) :
    Agree (fpuStep p lib disp e c) ↔ KeepsAgreement p disp e c := by
  have hkept : ∀ {c' : FpuCpu}, c'.modes = c.modes → (Agree c' ↔ True) := fun hc =>
    iff_true_intro ((agree_congr hc).mpr h)
  cases e with
  | toCtrl extra vals => exact iff_true_intro (h.loadCtrl vals _)
  | arithmetic fetch save extra pc => exact hkept (modes_fpuopArithmetic c fetch save extra pc)
  | constant save constant extra pc => exact hkept (modes_fpuGetConstant c save constant extra pc)
  | store put ended save dest extra pc =>
    exact hkept (modes_fpuopStore c put ended save dest extra pc)
  | fsave opcode => exact hkept (fpuopSave_sameCtrl c).modes
  | frestore save opcode =>
    have hm : (fpuStep p lib disp (.frestore save opcode) c).modes =
        framed c (takesNull p disp opcode c = true) :=
      modes_fpuopRestore c fun c => modes_resumeArithmetic c save _ _
    by_cases ht : takesNull p disp opcode c = true
    · rw [framed, if_pos ht] at hm
      simp only [KeepsAgreement, ht, true_imp_iff]
      exact agree_fpcr_iff h hm
    · rw [framed, if_neg ht] at hm
      simp only [KeepsAgreement, ht]
      exact (hkept hm).trans (by simp)
  | frestoreFault part => exact hkept (modes_besides c part)
  | reset => exact iff_true_intro (agree_reset c)
  | setFpcr value => exact agree_fpcr_iff h rfl
  | other f => exact hkept (modes_besides c f)

variable (p lib disp)

/-- From a reset on the modes agree with FPCR after every event exactly in the runs that clear
FPCR by a NULL frame, and write it over the API, only where that leaves the modes it stands for. -/
theorem agree_throughout_iff (events : List FpuEvent) :
    Calls.Throughout (fpuStep p lib disp) Agree events (fpuReset p c) ↔
      Calls.AllMeet (fpuStep p lib disp) (KeepsAgreement p disp) events (fpuReset p c) :=
  Calls.throughout_iff (A := fun _ _ => True) (I := fun _ => True) (fun _ _ _ _ => trivial)
    (fun e c _ _ h => agree_step_iff c e h) (Calls.allMeet_of_forall (fun _ _ => trivial) events _)
    trivial (agree_reset c)

end Ops

/-- A library whose routines give back their operand. -/
def SoftFloat.identity : SoftFloat where
  precOp _ _ _ b := (b, 0)
  plainOp _ _ _ b := (b, 0)
  quotient _ _ _ _ q := q
  fpspSpecial _ _ _ := none
  fpspBody _ _ b := ((b, b), 0)
  fpspFinish _ _ ab := (ab.1, 0)
  cosine _ b := b
  fromInt v := v.setWidth 80
  toFormat _ _ := (0, 0)
  fromFormat _ _ _ := ([], 0)
  power _ := (0, 0)
  decimal power _ _ := (power, 0)
  toDecimal _ _ _ _ := ([], 0)
  denormalize x _ := x
  round32 _ x := (x, 0)
  round64 _ x := (x, 0)

/-- `FMOVE.L #$10,FPCR` and `FRESTORE (A0)` of a NULL frame: FPCR is 0, the library still rounds
to zero. -/
theorem nullFrame_keeps_mode :
    ¬ Calls.Throughout (fpuStep (.plain .m68030 .m68881) .identity fun _ a => (a, 0)) Agree
      [.toCtrl 0x9000 [some 0x10], .frestore (fun _ => (.zero, .none)) 0xF350]
      (fpuReset (.plain .m68030 .m68881) (operandError .none 0)) := by
  intro h
  exact absurd h.2.2.first (by decide)

end UaeCpu.Fpu
