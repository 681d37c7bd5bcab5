import UaeCpu.FpuAgree
import UaeCpu.SoftFloatDiv

/-!
# UaeCpu.FpArithmetic

`fp_arithmetic` with the routines of the SoftFloat library behind FADD, FSUB, FMUL and FDIV.

* `SoftFloat.arithmetic`   — a library that has these routines.
* `exactOp`                — the exact result an opmode asks for.
* `fpArithmetic_delivered` — it is rounded as FPCR, or the opmode, asks for.
* `fpArithmetic_reached`   — so it is in every run that does not set the modes apart from FPCR.
-/

namespace UaeCpu.Fpu

open Mem Trans Soft

/-- The routines `fp_add`, `fp_sub`, `fp_mul` and `fp_div` call; a division needs no more than three
rounds of its loops. -/
def SoftFloat.arithmetic (lib : SoftFloat) (sp : SpecialFlags) : SoftFloat :=
  { lib with
    precOp := fun op fs a b =>
      match op with
      | .add => floatx80Add sp fs a b
      | .sub => floatx80Sub sp fs a b
      | .mul => floatx80Mul sp fs a b
      | .div => (floatx80Div 3 sp fs a b).getD (a, 0)
      | op => lib.precOp op fs a b }

def exactOp (op : PrecOp) (mode : RoundingMode) (x y : Datum) : Option Exact :=
  match op with
  | .add => some (exactAdd mode x y)
  | .sub => some (exactAdd mode x y.neg)
  | .mul => some (exactMul x y)
  | .div => some (exactDiv x y)
  | _ => none

/-- The status a routine runs under: the precision is the opmode's, or that of FPCR. -/
def statusOf (prec : Prec) (fpcr : Long) : FloatStatus where
  floatRoundingMode := roundingOf fpcr
  floatx80RoundingPrecision := if prec = .normal then precisionOf fpcr else prectable prec
  floatExceptionFlags := 0

section Arithmetic

variable {p : FpuPrefs} {lib : SoftFloat} {sp : SpecialFlags} {fs fs' : FloatStatus} {extra : Word} {src dst : Float80}
  {c : FpuCpu} {op : PrecOp} {prec : Prec} {e : Exact}

/-- Of a status only the modes matter. -/
theorem Exact.Delivered.congr {a b : Float80} {r : Float80 × Byte} (h : e.Delivered fs a b r)
    (hmode : fs.floatRoundingMode = fs'.floatRoundingMode)
    (hprec : fs.floatx80RoundingPrecision = fs'.floatx80RoundingPrecision) : e.Delivered fs' a b r := by
  cases e with
  | finite s x =>
    rw [Exact.Delivered] at h ⊢
    rwa [← hmode, ← hprec]
  | _ => exact h

theorem precOp_delivered (lib : SoftFloat) (fs : FloatStatus)
    (he : exactOp op fs.floatRoundingMode (datum dst) (datum src) = some e)
    (hswap : op = .sub → ¬ SwapsInfinities sp dst src) :
    e.Delivered fs dst src ((lib.arithmetic sp).precOp op fs dst src) := by
  cases op with
  | add =>
    obtain rfl : _ = e := Option.some.inj he
    exact floatx80Add_delivered sp fs dst src
  | sub =>
    obtain rfl : _ = e := Option.some.inj he
    exact floatx80Sub_delivered sp fs dst src (hswap rfl)
  | mul =>
    obtain rfl : _ = e := Option.some.inj he
    exact floatx80Mul_delivered sp fs dst src
  | div =>
    obtain rfl : _ = e := Option.some.inj he
    obtain ⟨r, hr, hd⟩ := floatx80Div_delivered 0 sp fs dst src
    change (exactDiv _ _).Delivered fs dst src ((floatx80Div 3 sp fs dst src).getD (dst, 0))
    rw [hr]
    exact hd
  | move => cases he
  | abs => cases he
  | neg => cases he
  | sqrt => cases he

/-- `SETPREC` and `RESETPREC` around a routine: it runs under the precision of the opmode. -/
theorem withPrec_raise (prec : Prec) (f : FloatStatus → Float80 × Byte) (fs : FloatStatus) :
    withPrec prec (raise f) fs =
      let r := f { fs with floatx80RoundingPrecision :=
        if prec = .normal then fs.floatx80RoundingPrecision else prectable prec }
      (r.1, { fs with floatExceptionFlags := fs.floatExceptionFlags ||| r.2 }) := by
  cases prec <;> rfl

theorem status_fpsrMakeStatus (p : FpuPrefs) (c : FpuCpu) : (fpsrMakeStatus p c).2.fpu = c.fpu := by
  unfold fpsrMakeStatus
  dsimp only
  split <;> rfl

theorem fpArithmetic_prec (p : FpuPrefs) (lib : SoftFloat) (src dst : Float80) (c : FpuCpu)
    (h : arithFn extra = .prec op prec) :
    (fpArithmetic p lib extra src dst c).1.1 = (withPrec prec (raise fun fs => lib.precOp op fs dst src) c.fpu.status).1 ∧
      (fpArithmetic p lib extra src dst c).2.fpu.status =
        (withPrec prec (raise fun fs => lib.precOp op fs dst src) c.fpu.status).2 := by
  have hknown : ArithFn.prec op prec ≠ .unknown := by
    intro h
    cases h
  have hstored : ¬ (ArithFn.prec op prec = .plain .cmp ∨ ArithFn.prec op prec = .plain .tst) := by
    rintro (h | h)
    · cases h
    · cases h
  rw [fpArithmetic, h, if_neg hknown]
  dsimp only
  rw [if_neg hstored, status_fpsrMakeStatus]
  exact ⟨rfl, rfl⟩

/-- Where the modes are those of FPCR, FADD, FSUB, FMUL and FDIV give the exact result, rounded once, to
the precision of FPCR or of the opmode. -/
theorem fpArithmetic_delivered (hfn : arithFn extra = .prec op prec) (hagree : Agree c)
    (he : exactOp op (roundingOf c.regs.fpu.fpcr) (datum dst) (datum src) = some e)
    (hswap : op = .sub → ¬ SwapsInfinities sp dst src) :
    ∃ r, e.Delivered (statusOf prec c.regs.fpu.fpcr) dst src r ∧
      (fpArithmetic p (lib.arithmetic sp) extra src dst c).1.1 = r.1 ∧
      (fpArithmetic p (lib.arithmetic sp) extra src dst c).2.fpu.status =
        { c.fpu.status with floatExceptionFlags := c.fpu.status.floatExceptionFlags ||| r.2 } := by
  obtain ⟨hmode, hprec⟩ := hagree
  have hcall := withPrec_raise prec (fun fs => (lib.arithmetic sp).precOp op fs dst src) c.fpu.status
  rw [← hmode] at he
  have hr := precOp_delivered lib { c.fpu.status with floatx80RoundingPrecision :=
    if prec = .normal then c.fpu.status.floatx80RoundingPrecision else prectable prec } he hswap
  refine ⟨_, hr.congr hmode (by rw [statusOf, ← hprec]), ?_⟩
  obtain ⟨hvalue, hstatus⟩ := fpArithmetic_prec p (lib.arithmetic sp) src dst c hfn
  rw [hvalue, hstatus, hcall]
  exact ⟨rfl, rfl⟩

/-! ## Runs -/

/-- A state that a run from a reset comes to, whose events keep the modes those of FPCR. -/
def ReachedInAgreement (p : FpuPrefs) (lib : SoftFloat) (disp : DispEa) (c : FpuCpu) : Prop :=
  ∃ c₀ events, Calls.AllMeet (fpuStep p lib disp) (KeepsAgreement p disp) events (fpuReset p c₀) ∧
    Calls.run (fpuStep p lib disp) events (fpuReset p c₀) = c

theorem ReachedInAgreement.agree {disp : DispEa} (h : ReachedInAgreement p lib disp c) : Agree c := by
  obtain ⟨c₀, events, hall, rfl⟩ := h
  have hstart : Agree (fpuReset p c₀) := agree_reset c₀
  generalize fpuReset p c₀ = s at *
  induction events generalizing s with
  | nil => exact hstart
  | cons e events ih => exact ih _ hall.2 ((agree_step_iff _ e hstart).mpr hall.1)

/-- In every run that does not set the modes apart from FPCR, FADD, FSUB, FMUL and FDIV give the exact
result of their operands, rounded once as FPCR or the opmode asks for, and change no mode. -/
theorem fpArithmetic_reached (disp : DispEa) (hreach : ReachedInAgreement p (lib.arithmetic sp) disp c)
    (hfn : arithFn extra = .prec op prec)
    (he : exactOp op (roundingOf c.regs.fpu.fpcr) (datum dst) (datum src) = some e)
    (hswap : op = .sub → ¬ SwapsInfinities sp dst src) :
    ∃ r, e.Delivered (statusOf prec c.regs.fpu.fpcr) dst src r ∧
      (fpArithmetic p (lib.arithmetic sp) extra src dst c).1.1 = r.1 ∧
      (fpArithmetic p (lib.arithmetic sp) extra src dst c).2.fpu.status =
        { c.fpu.status with floatExceptionFlags := c.fpu.status.floatExceptionFlags ||| r.2 } :=
  fpArithmetic_delivered hfn hreach.agree he hswap

/-- `FMOVE.L #$10,FPCR` and `FADD FP1,FP0` with 1 in both. -/
theorem fadd_after_toCtrl :
    let c := fpuStep (.plain .m68030 .m68881) (SoftFloat.identity.arithmetic (fpInitSoftfloat 68881)) (fun _ a => (a, 0))
      (.toCtrl 0x9000 [some 0x10]) (fpuReset (.plain .m68030 .m68881) (operandError .none 0))
    ∃ r, (exactAdd .toZero (datum 0x3FFF8000000000000000) (datum 0x3FFF8000000000000000)).Delivered
        (statusOf .normal c.regs.fpu.fpcr) 0x3FFF8000000000000000 0x3FFF8000000000000000 r ∧
      (fpArithmetic (.plain .m68030 .m68881) (SoftFloat.identity.arithmetic (fpInitSoftfloat 68881)) 0x22
        0x3FFF8000000000000000 0x3FFF8000000000000000 c).1.1 = r.1 ∧
      (fpArithmetic (.plain .m68030 .m68881) (SoftFloat.identity.arithmetic (fpInitSoftfloat 68881)) 0x22
        0x3FFF8000000000000000 0x3FFF8000000000000000 c).2.fpu.status =
        { c.fpu.status with floatExceptionFlags := c.fpu.status.floatExceptionFlags ||| r.2 } :=
  fpArithmetic_reached (fun _ a => (a, 0)) ⟨operandError .none 0, [.toCtrl 0x9000 [some 0x10]], ⟨trivial, trivial⟩, rfl⟩
    (show arithFn 0x22 = .prec .add .normal by decide) rfl (fun h => by cases h)

end Arithmetic

end UaeCpu.Fpu
