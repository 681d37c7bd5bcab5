import UaeCpu.FpuAgree
import UaeCpu.SoftFloatArith

/-!
# UaeCpu.SoftFloatCompare

`floatx80_cmp`: what it gives has the sign of the difference.

* `Datum.place`           — where an operand stands among the numbers and the infinities.
* `floatx80Cmp_compared`  — the result tells how the places of two operands lie.
* `fcmp_conditionCode`    — so do `N` and `Z` after FCMP.
-/

namespace UaeCpu.Fpu

open Rounding

/-- One, with a sign. -/
def signedOne (zSign : Bool) : Float80 := packFloatx80 zSign 0x3FFF 0x8000000000000000

def floatx80Cmp (sp : SpecialFlags) (a b : Float80) : Float80 × Byte :=
  let aSig := extractFloatx80Frac a
  let aExp := extractFloatx80Exp a
  let aSign := extractFloatx80Sign a
  let bSig := extractFloatx80Frac b
  let bExp := extractFloatx80Exp b
  let bSign := extractFloatx80Sign b
  if (aExp = 0x7FFF ∧ aSig <<< 1 ≠ 0) ∨ (bExp = 0x7FFF ∧ bSig <<< 1 ≠ 0) then
    if sp.cmpSignedNan then propagateFloatx80NaN a b
    else propagateFloatx80NaN (packFloatx80 false aExp aSig) (packFloatx80 false bExp bSig)
  else if bExp < aExp then (signedOne aSign, 0)
  else if aExp < bExp then (signedOne (!bSign), 0)
  else if aExp = 0x7FFF then
    if aSign = bSign then (packFloatx80 aSign 0 0, 0) else (signedOne aSign, 0)
  else if bSig < aSig then (signedOne aSign, 0)
  else if aSig < bSig then (signedOne (!bSign), 0)
  else if aSig = 0 then (packFloatx80 aSign 0 0, 0)
  else if aSign = bSign then (packFloatx80 false 0 0, 0)
  else (signedOne aSign, 0)

/-! ## Order -/

def signed (s : Bool) (x : ℚ) : ℚ := if s then -x else x

def signedTop (s : Bool) : WithBot (WithTop ℚ) := if s then ⊥ else ⊤

/-- Where an operand stands. NaNs and invalid encodings have no place. -/
def Datum.place : Datum → Option (WithBot (WithTop ℚ))
  | .infinity s => some (signedTop s)
  | .finite s x => some (((signed s x : ℚ) : WithTop ℚ) : WithBot (WithTop ℚ))
  | _ => none

/-- The sign of the zero two equal operands give: zeros and infinities keep theirs. -/
def Datum.equalSign : Datum → Bool
  | .infinity s => s
  | .finite s x => s && decide (x = 0)
  | _ => false

/-- A result that tells how `u` and `v` lie. -/
structure Compared (d : Datum) (u v : WithBot (WithTop ℚ)) (r : Float80 × Byte) : Prop where
  less : u < v → r = (signedOne true, 0)
  equal : u = v → r = (packFloatx80 d.equalSign 0 0, 0)
  greater : v < u → r = (signedOne false, 0)

section Compare

variable {sp : SpecialFlags} {a b : Float80} {d : Datum} {u v : WithBot (WithTop ℚ)} {s t : Bool} {x y : ℚ}

theorem compared_eq (d : Datum) (u : WithBot (WithTop ℚ)) : Compared d u u (packFloatx80 d.equalSign 0 0, 0) :=
  ⟨fun h => absurd h (lt_irrefl u), fun _ => rfl, fun h => absurd h (lt_irrefl u)⟩

theorem compared_lt (h : u < v) : Compared d u v (signedOne true, 0) :=
  ⟨fun _ => rfl, fun heq => absurd heq h.ne, fun hgt => absurd hgt h.asymm⟩

theorem compared_gt (h : v < u) : Compared d u v (signedOne false, 0) :=
  ⟨fun hlt => absurd hlt h.asymm, fun heq => absurd heq h.ne', fun _ => rfl⟩

theorem place_lt {p q : ℚ} (h : p < q) :
    ((p : WithTop ℚ) : WithBot (WithTop ℚ)) < ((q : WithTop ℚ) : WithBot (WithTop ℚ)) :=
  WithBot.coe_lt_coe.mpr (WithTop.coe_lt_coe.mpr h)

/-- Of the larger operand the sign decides. -/
theorem compared_larger (t : Bool) (hy : 0 ≤ y) (h : y < x) :
    Compared d ((signed s x : ℚ) : WithTop ℚ) ((signed t y : ℚ) : WithTop ℚ) (signedOne s, 0) := by
  cases s with
  | false =>
    refine compared_gt (place_lt ?_)
    cases t with
    | false => exact h
    | true => change -y < x; linarith
  | true =>
    refine compared_lt (place_lt ?_)
    cases t with
    | false => change -x < y; linarith
    | true => exact neg_lt_neg h

theorem compared_smaller (s : Bool) (hx : 0 ≤ x) (h : x < y) :
    Compared d ((signed s x : ℚ) : WithTop ℚ) ((signed t y : ℚ) : WithTop ℚ) (signedOne (!t), 0) := by
  cases t with
  | false =>
    refine compared_lt (place_lt ?_)
    cases s with
    | false => exact h
    | true => change -x < y; linarith
  | true =>
    refine compared_gt (place_lt ?_)
    cases s with
    | false => change -y < x; linarith
    | true => exact neg_lt_neg h

theorem compared_same (hx : 0 ≤ x) :
    Compared (.finite s x) ((signed s x : ℚ) : WithTop ℚ) ((signed t x : ℚ) : WithTop ℚ)
      (if x = 0 then (packFloatx80 s 0 0, 0) else if s = t then (packFloatx80 false 0 0, 0) else (signedOne s, 0)) := by
  by_cases hzero : x = 0
  · have heq : ∀ s : Bool, signed s x = 0 := fun s => by
      rw [hzero]
      cases s
      · rfl
      · exact neg_zero
    have hsign : (Datum.finite s x).equalSign = s := by
      rw [Datum.equalSign, decide_eq_true hzero, Bool.and_true]
    have h := compared_eq (.finite s x) (((0 : ℚ) : WithTop ℚ) : WithBot (WithTop ℚ))
    rw [if_pos hzero, heq s, heq t]
    rwa [hsign] at h
  · have hpos : 0 < x := lt_of_le_of_ne hx (Ne.symm hzero)
    rw [if_neg hzero]
    by_cases hst : s = t
    · have hsign : (Datum.finite s x).equalSign = false := by
        rw [Datum.equalSign, decide_eq_false hzero, Bool.and_false]
      have h := compared_eq (.finite s x) ((signed s x : ℚ) : WithTop ℚ)
      rw [if_pos hst, ← hst]
      rwa [hsign] at h
    · rw [if_neg hst]
      cases s with
      | false =>
        obtain rfl : t = true := Bool.eq_true_of_not_eq_false fun h => hst h.symm
        exact compared_gt (place_lt (show -x < x by linarith))
      | true =>
        obtain rfl : t = false := Bool.eq_false_of_not_eq_true fun h => hst h.symm
        exact compared_lt (place_lt (show -x < x by linarith))

/-! ## Magnitudes -/

theorem magnitude_lt_of_exp (ha : ¬ floatx80InvalidEncoding a = true) (hea : extractFloatx80Exp a ≠ 0x7FFF)
    (h : extractFloatx80Exp b < extractFloatx80Exp a) : magnitude b < magnitude a := by
  have hmsb : (extractFloatx80Frac a).msb = true := by
    by_contra hmsb
    have hzero := exp_eq_zero_of_valid ha hea (Bool.eq_false_iff.mpr hmsb)
    have hnonneg : 0 ≤ extractFloatx80Exp b := Int.natCast_nonneg _
    omega
  have hfrac : ((2 ^ 63 : Nat) : ℚ) ≤ (extractFloatx80Frac a).toNat := by exact_mod_cast (msb_iff _).mp hmsb
  have hfrac' : ((extractFloatx80Frac b).toNat : ℚ) < 2 * (2 ^ 63 : Nat) := by
    exact_mod_cast (extractFloatx80Frac b).isLt
  calc magnitude b < 2 * (2 ^ 63 : Nat) * 2 ^ (extractFloatx80Exp b - 16446) := by
        exact mul_lt_mul_of_pos_right hfrac' (two_zpow_pos _)
    _ = (2 ^ 63 : Nat) * 2 ^ (extractFloatx80Exp b - 16446 + 1) := (mul_zpow_succ _ _).symm
    _ ≤ magnitude a := mul_zpow_le (by positivity) hfrac (by omega)

theorem magnitude_lt_iff (h : extractFloatx80Exp a = extractFloatx80Exp b) :
    magnitude a < magnitude b ↔ extractFloatx80Frac a < extractFloatx80Frac b := by
  rw [magnitude, magnitude, h, mul_lt_mul_iff_left₀ (two_zpow_pos _), Nat.cast_lt, BitVec.lt_def]

/-! ## The routine -/

/-- An operand with a place is an infinity or a number. -/
theorem place_cases (h : (datum a).place = some u) :
    (extractFloatx80Exp a = 0x7FFF ∧ extractFloatx80Frac a <<< 1 = 0 ∧ datum a = .infinity (extractFloatx80Sign a) ∧
        u = signedTop (extractFloatx80Sign a)) ∨
      (extractFloatx80Exp a ≠ 0x7FFF ∧ ¬ floatx80InvalidEncoding a = true ∧
        datum a = .finite (extractFloatx80Sign a) (magnitude a) ∧
        u = ((signed (extractFloatx80Sign a) (magnitude a) : ℚ) : WithTop ℚ)) := by
  by_cases he : extractFloatx80Exp a = 0x7FFF
  · by_cases hnan : extractFloatx80Frac a <<< 1 = 0
    · have hd := datum_special he
      rw [if_neg (not_not.mpr hnan)] at hd
      rw [hd] at h
      exact .inl ⟨he, hnan, hd, (Option.some.inj h).symm⟩
    · rw [datum_special he, if_pos hnan] at h
      cases h
  · by_cases hv : floatx80InvalidEncoding a = true
    · rw [datum_unsupported hv] at h
      cases h
    · have hd := datum_number hv he
      rw [hd] at h
      exact .inr ⟨he, hv, hd, (Option.some.inj h).symm⟩

theorem exp_lt (he : extractFloatx80Exp a ≠ 0x7FFF) : extractFloatx80Exp a < 0x7FFF := by
  have h : extractFloatx80Exp a < 0x8000 := by
    unfold extractFloatx80Exp
    exact_mod_cast (a.extractLsb' 64 15).isLt
  omega

theorem signedTop_ne (h : s ≠ t) : signedTop s ≠ signedTop t := by
  cases s with
  | false =>
    obtain rfl : t = true := (Bool.eq_not_of_ne h.symm)
    exact top_ne_bot
  | true =>
    obtain rfl : t = false := (Bool.eq_not_of_ne h.symm)
    exact bot_ne_top

theorem place_ne_signedTop (x : ℚ) (s : Bool) : ((x : WithTop ℚ) : WithBot (WithTop ℚ)) ≠ signedTop s := by
  cases s with
  | false => exact (WithBot.coe_lt_coe.mpr (WithTop.coe_lt_top x)).ne
  | true => exact WithBot.coe_ne_bot

theorem compared_infinity (s : Bool) (v : WithBot (WithTop ℚ)) (hv : v ≠ signedTop s) :
    Compared d (signedTop s) v (signedOne s, 0) := by
  cases s with
  | false => exact compared_gt (lt_top_iff_ne_top.mpr hv)
  | true => exact compared_lt (bot_lt_iff_ne_bot.mpr hv)

theorem compared_beyond (x : ℚ) (t : Bool) :
    Compared d ((x : WithTop ℚ) : WithBot (WithTop ℚ)) (signedTop t) (signedOne (!t), 0) := by
  cases t with
  | false => exact compared_lt (WithBot.coe_lt_coe.mpr (WithTop.coe_lt_top x))
  | true => exact compared_gt (WithBot.bot_lt_coe (x : WithTop ℚ))

/-- A comparison tells how two operands lie, whatever their exponents. -/
theorem floatx80Cmp_compared (sp : SpecialFlags) (ha : (datum a).place = some u) (hb : (datum b).place = some v) :
    Compared (datum a) u v (floatx80Cmp sp a b) := by
  rw [floatx80Cmp]
  rcases place_cases ha with ⟨hea, hna, hda, rfl⟩ | ⟨hea, hva, hda, rfl⟩
  · rcases place_cases hb with ⟨heb, hnb, hdb, rfl⟩ | ⟨heb, hvb, hdb, rfl⟩
    · rw [if_neg, if_neg (by omega), if_neg (by omega), if_pos hea, hda]
      · by_cases hsign : extractFloatx80Sign a = extractFloatx80Sign b
        · rw [if_pos hsign, ← hsign]
          exact compared_eq (.infinity (extractFloatx80Sign a)) _
        · rw [if_neg hsign]
          refine compared_infinity _ _ ?_
          exact signedTop_ne fun h => hsign h.symm
      · rintro (⟨-, h⟩ | ⟨-, h⟩)
        · exact h hna
        · exact h hnb
    · rw [if_neg, if_pos (by rw [hea]; exact exp_lt heb)]
      · exact compared_infinity _ _ (place_ne_signedTop _ _)
      · rintro (⟨-, h⟩ | ⟨h, -⟩)
        · exact h hna
        · exact heb h
  · rcases place_cases hb with ⟨heb, hnb, hdb, rfl⟩ | ⟨heb, hvb, hdb, rfl⟩
    · have hlt := exp_lt hea
      rw [if_neg, if_neg (by omega), if_pos (by omega)]
      · exact compared_beyond _ _
      · rintro (⟨h, -⟩ | ⟨-, h⟩)
        · exact hea h
        · exact h hnb
    · rw [if_neg]
      · by_cases hgt : extractFloatx80Exp b < extractFloatx80Exp a
        · rw [if_pos hgt]
          exact compared_larger _ (magnitude_nonneg b) (magnitude_lt_of_exp hva hea hgt)
        by_cases hlt : extractFloatx80Exp a < extractFloatx80Exp b
        · rw [if_neg hgt, if_pos hlt]
          exact compared_smaller _ (magnitude_nonneg a) (magnitude_lt_of_exp hvb heb hlt)
        have hexp : extractFloatx80Exp a = extractFloatx80Exp b := by omega
        rw [if_neg hgt, if_neg hlt, if_neg hea]
        by_cases hgt' : extractFloatx80Frac b < extractFloatx80Frac a
        · rw [if_pos hgt']
          exact compared_larger _ (magnitude_nonneg b) ((magnitude_lt_iff hexp.symm).mpr hgt')
        by_cases hlt' : extractFloatx80Frac a < extractFloatx80Frac b
        · rw [if_neg hgt', if_pos hlt']
          exact compared_smaller _ (magnitude_nonneg a) ((magnitude_lt_iff hexp).mpr hlt')
        have hfrac : extractFloatx80Frac a = extractFloatx80Frac b :=
          BitVec.le_antisymm (BitVec.not_lt.mp hgt') (BitVec.not_lt.mp hlt')
        have hmag : magnitude b = magnitude a := by rw [magnitude, magnitude, hexp, hfrac]
        rw [if_neg hgt', if_neg hlt', hda, hmag]
        simp only [← magnitude_eq_zero_iff]
        exact compared_same (magnitude_nonneg a)
      · rintro (⟨h, -⟩ | ⟨h, -⟩)
        · exact hea h
        · exact heb h

/-! ## FCMP -/

/-- A library with this comparison. -/
def SoftFloat.comparing (lib : SoftFloat) (sp : SpecialFlags) : SoftFloat :=
  { lib with
    plainOp := fun op fs a b =>
      match op with
      | .cmp => floatx80Cmp sp a b
      | op => lib.plainOp op fs a b }

/-- What a result puts into the condition code byte does not depend on what was there. -/
theorem extract_cleared (q n cc : Long) :
    ((q &&& 0x00FFFFF8) ||| n ||| cc).extractLsb' 24 8 = (n ||| cc).extractLsb' 24 8 := by
  have hzero : (0x00FFFFF8 : Long).extractLsb' 24 8 = 0#8 := by decide
  rw [BitVec.or_assoc, BitVec.extractLsb'_or, BitVec.extractLsb'_and, hzero, BitVec.and_zero, BitVec.zero_or]

theorem conditionCode_one (s : Bool) (c : FpuCpu) :
    (fpsrSetResult (signedOne s) c).regs.fpu.fpsr.extractLsb' 24 8 = if s then 0x08 else 0 := by
  refine (extract_cleared _ _ _).trans ?_
  cases s with
  | false => decide
  | true => decide

theorem conditionCode_zero (s : Bool) (c : FpuCpu) :
    (fpsrSetResult (packFloatx80 s 0 0) c).regs.fpu.fpsr.extractLsb' 24 8 = if s then 0x0C else 0x04 := by
  refine (extract_cleared _ _ _).trans ?_
  cases s with
  | false => decide
  | true => decide

theorem fpArithmetic_cmp (p : FpuPrefs) (lib : SoftFloat) {extra : Word} (h : arithFn extra = .plain .cmp)
    (src dst : Float80) (c : FpuCpu) : (fpArithmetic p (lib.comparing sp) extra src dst c).2 =
      fpsrSetResult (floatx80Cmp sp dst src).1 (fpsrMakeStatus p (c.mapStatus fun fs =>
        { fs with floatExceptionFlags := fs.floatExceptionFlags ||| (floatx80Cmp sp dst src).2 })).2 := by
  have hknown : ArithFn.plain .cmp ≠ .unknown := by
    intro h
    cases h
  rw [fpArithmetic, h, if_neg hknown]
  dsimp only
  rw [if_pos (.inl rfl)]
  rfl

/-- FCMP leaves in `N` and `Z` how the destination lies to the source, and no other condition code. -/
theorem fcmp_conditionCode (p : FpuPrefs) (lib : SoftFloat) (sp : SpecialFlags) {extra : Word} {src dst : Float80}
    (c : FpuCpu) (hfn : arithFn extra = .plain .cmp) (hdst : (datum dst).place = some u) (hsrc : (datum src).place = some v) :
    let code := (fpArithmetic p (lib.comparing sp) extra src dst c).2.regs.fpu.fpsr.extractLsb' 24 8
    (u < v → code = 0x08) ∧ (u = v → code = if (datum dst).equalSign then 0x0C else 0x04) ∧ (v < u → code = 0) := by
  have h := floatx80Cmp_compared sp hdst hsrc
  dsimp only
  rw [fpArithmetic_cmp p lib hfn]
  refine ⟨fun hlt => ?_, fun heq => ?_, fun hgt => ?_⟩
  · rw [h.less hlt]
    exact conditionCode_one true _
  · rw [h.equal heq]
    exact conditionCode_zero _ _
  · rw [h.greater hgt]
    exact conditionCode_one false _

/-- FCMP of 1 with -1. -/
theorem fcmp_ones :
    let code := (fpArithmetic (.plain .m68030 .m68881) (SoftFloat.identity.comparing (fpInitSoftfloat 68881)) 0x38
      0xBFFF8000000000000000 0x3FFF8000000000000000 (operandError .none 0)).2.regs.fpu.fpsr.extractLsb' 24 8
    let u : WithBot (WithTop ℚ) := ((signed false (magnitude 0x3FFF8000000000000000) : ℚ) : WithTop ℚ)
    let v : WithBot (WithTop ℚ) := ((signed true (magnitude 0xBFFF8000000000000000) : ℚ) : WithTop ℚ)
    (u < v → code = 0x08) ∧ (u = v → code = if (datum 0x3FFF8000000000000000).equalSign then 0x0C else 0x04) ∧
      (v < u → code = 0) :=
  fcmp_conditionCode (.plain .m68030 .m68881) SoftFloat.identity (fpInitSoftfloat 68881) (operandError .none 0) (by decide)
    (congrArg Datum.place (datum_number (a := 0x3FFF8000000000000000) (by decide) (by decide)))
    (congrArg Datum.place (datum_number (a := 0xBFFF8000000000000000) (by decide) (by decide)))

end Compare

end UaeCpu.Fpu
