import UaeCpu.SoftFloatArith

/-!
# UaeCpu.SoftFloatInt

`floatx80_to_int32`, `floatx80_to_int16` and `floatx80_to_int8`, and the rounding of FINT and FINTRZ.

* `IntDelivered` — a number is rounded once to an integer, and kept between the bounds.
* `floatx80ToInt_delivered` — so are all finite operands.
* `floatx80ToInt_nan`       — the three do not raise the same for a NaN.
* `floatx80RoundToInt_delivered` — rounded to an integer that is a number again.
-/

namespace UaeCpu.Fpu

open Rounding

/-- What a number beyond the integers of `w` bits comes to. -/
def intBound (w : Nat) (zSign : Bool) : BitVec w := if zSign then BitVec.intMin w else BitVec.intMax w

def propagateFloatx80NaNOneArg (a : Float80) : Float80 × Byte :=
  (a ||| 0x4000000000000000, if floatx80IsSignalingNan a then floatFlagSignaling else 0)

section Routines

variable (w : Nat) (fs : FloatStatus)

/-- `roundAndPackInt32`, `roundAndPackInt16` and `roundAndPackInt8`. -/
def roundAndPackInt (zSign : Bool) (absZ : BitVec 64) : BitVec w × Byte :=
  let roundBits := absZ &&& 0x7F
  let absZ := (absZ + roundIncrementOf fs zSign 0x40 0x7F) >>> 7
  let absZ := if roundBits ^^^ 0x40 = 0 ∧ fs.floatRoundingMode = .nearestEven then absZ &&& ~~~1 else absZ
  let z := if zSign then -absZ.setWidth w else absZ.setWidth w
  if absZ >>> w ≠ 0 ∨ (z ≠ 0 ∧ z.msb ≠ zSign) then (intBound w zSign, floatFlagInvalid)
  else (z, if roundBits ≠ 0 then floatFlagInexact else 0)

/-- The three conversions; one of them raises `always` for an infinity or a NaN. -/
def floatx80ToInt (always : Bool) (a : Float80) : BitVec w × Byte :=
  let aSig := extractFloatx80Frac a
  let aExp := extractFloatx80Exp a
  let aSign := extractFloatx80Sign a
  if aExp = 0x7FFF then
    if aSig <<< 1 ≠ 0 then
      let low := aSig ||| 0x4000000000000000
      ((low >>> (64 - w)).setWidth w, (if always then floatFlagInvalid else 0) |||
        (propagateFloatx80NaNOneArg a).2 ||| if low = aSig then floatFlagInvalid else 0)
    else (intBound w aSign, floatFlagInvalid)
  else
    let shiftCount := 0x4037 - aExp
    let shiftCount := if shiftCount ≤ 0 then 1 else shiftCount
    roundAndPackInt w fs aSign (shift64RightJamming aSig shiftCount.toNat)

def floatx80ToInt32 (a : Float80) : BitVec 32 × Byte := floatx80ToInt 32 fs false a

def floatx80ToInt16 (a : Float80) : BitVec 16 × Byte := floatx80ToInt 16 fs true a

def floatx80ToInt8 (a : Float80) : BitVec 8 × Byte := floatx80ToInt 8 fs false a

end Routines

/-- A number with its sign, rounded to an integer of `w` bits, or the bound it is beyond. -/
def IntDelivered (w : Nat) (mode : RoundingMode) (s : Bool) (x : ℚ) (r : BitVec w × Byte) : Prop :=
  let n := roundInt (dirOf mode s) x
  if n < 2 ^ (w - 1) ∨ (s = true ∧ n = 2 ^ (w - 1)) then
    r.1.toInt = (if s then -(n : Int) else n) ∧ r.2 = if (n : ℚ) = x then 0 else floatFlagInexact
  else r = (intBound w s, floatFlagInvalid)

section Conversions

variable {w : Nat} {fs : FloatStatus} {s : Bool} {x : ℚ} {a : Float80}

/-! ## The sign -/

theorem toNat_two_pow (hw : 0 < w) : 2 ^ w = 2 * 2 ^ (w - 1) := by
  rw [← Nat.pow_succ']
  congr 1
  omega

theorem toInt_signed (hw : 0 < w) {n : Nat} (hn : n < 2 ^ (w - 1) ∨ (s = true ∧ n = 2 ^ (w - 1))) :
    (if s then -BitVec.ofNat w n else BitVec.ofNat w n).toInt = if s then -(n : Int) else n := by
  have hpow := toNat_two_pow hw
  have hpos : 0 < 2 ^ (w - 1) := Nat.two_pow_pos _
  have hlt : n < 2 ^ w := by omega
  cases s with
  | false =>
    have hn' : n < 2 ^ (w - 1) := by
      rcases hn with h | ⟨h, -⟩
      · exact h
      · cases h
    rw [if_neg Bool.false_ne_true, if_neg Bool.false_ne_true, BitVec.toInt_eq_toNat_cond, BitVec.toNat_ofNat,
      Nat.mod_eq_of_lt hlt, if_pos (by omega)]
  | true =>
    rw [if_pos rfl, if_pos rfl, BitVec.toInt_eq_toNat_cond, BitVec.toNat_neg, BitVec.toNat_ofNat, Nat.mod_eq_of_lt hlt]
    by_cases hzero : n = 0
    · rw [hzero, Nat.sub_zero, Nat.mod_self, if_pos (by omega)]
      rfl
    · rw [Nat.mod_eq_of_lt (show 2 ^ w - n < 2 ^ w by omega), if_neg (by omega)]
      omega

/-- The test for overflow. -/
theorem intOverflow_iff (hw : 0 < w) (s : Bool) (absZ : BitVec 64) :
    (absZ >>> w ≠ 0 ∨ ((if s then -absZ.setWidth w else absZ.setWidth w) ≠ 0 ∧
      (if s then -absZ.setWidth w else absZ.setWidth w).msb ≠ s)) ↔
      ¬ (absZ.toNat < 2 ^ (w - 1) ∨ (s = true ∧ absZ.toNat = 2 ^ (w - 1))) := by
  have hpow := toNat_two_pow hw
  have hpos : 0 < 2 ^ (w - 1) := Nat.two_pow_pos _
  have hnone : (0 : BitVec w).toNat = 0 := by simp
  have hhigh : absZ >>> w ≠ 0 ↔ 2 ^ w ≤ absZ.toNat := by
    rw [ne_eq, ← BitVec.toNat_inj, BitVec.toNat_ushiftRight, Nat.shiftRight_eq_div_pow]
    change ¬ absZ.toNat / 2 ^ w = 0 ↔ _
    rw [Nat.div_eq_zero_iff]
    have hpos' := Nat.two_pow_pos w
    omega
  rw [hhigh]
  by_cases hge : 2 ^ w ≤ absZ.toNat
  · refine iff_of_true (.inl hge) ?_
    rintro (h | ⟨-, h⟩) <;> omega
  · rw [or_iff_right hge]
    have hnat : (absZ.setWidth w).toNat = absZ.toNat := by
      rw [BitVec.toNat_setWidth, Nat.mod_eq_of_lt (by omega)]
    cases s with
    | false =>
      rw [if_neg Bool.false_ne_true, ne_eq, ← BitVec.toNat_inj, hnat, BitVec.msb_eq_decide, hnat, hnone]
      by_cases hle : 2 ^ (w - 1) ≤ absZ.toNat
      · rw [decide_eq_true hle]
        refine iff_of_true ⟨by omega, Bool.noConfusion⟩ ?_
        rintro (h | ⟨h, -⟩)
        · omega
        · cases h
      · rw [decide_eq_false hle]
        exact iff_of_false (fun h => h.2 rfl) (not_not.mpr (.inl (by omega)))
    | true =>
      rw [if_pos rfl, ne_eq, ← BitVec.toNat_inj, BitVec.msb_eq_decide, BitVec.toNat_neg, hnat, hnone]
      by_cases hzero : absZ.toNat = 0
      · rw [hzero, Nat.sub_zero, Nat.mod_self]
        exact iff_of_false (fun h => h.1 rfl) (not_not.mpr (.inl (by omega)))
      · rw [Nat.mod_eq_of_lt (show 2 ^ w - absZ.toNat < 2 ^ w by omega)]
        by_cases hle : 2 ^ (w - 1) ≤ 2 ^ w - absZ.toNat
        · rw [decide_eq_true hle]
          refine iff_of_false (fun h => h.2 rfl) (not_not.mpr ?_)
          rcases Nat.lt_or_eq_of_le (show absZ.toNat ≤ 2 ^ (w - 1) by omega) with h | h
          · exact .inl h
          · exact .inr ⟨rfl, h⟩
        · rw [decide_eq_false hle]
          refine iff_of_true ⟨by omega, Bool.noConfusion⟩ ?_
          rintro (h | ⟨-, h⟩) <;> omega

/-! ## The rounding -/

theorem tie_int (z : BitVec 64) : z &&& 0x7F ^^^ 0x40 = 0 ↔ 2 * (z.toNat % 2 ^ 7) = 2 ^ 7 := by
  refine (show _ ↔ z &&& 0x7F = 0x40 from BitVec.xor_eq_zero_iff).trans ?_
  rw [← BitVec.toNat_inj, toNat_and_mask (k := 7) rfl]
  change z.toNat % 2 ^ 7 = 64 ↔ _
  omega

/-- `absZ`, seven bits of it rounded off. -/
theorem toNat_absZ (fs : FloatStatus) (s : Bool) {z : BitVec 64} (hz : z.toNat ≤ 2 ^ 63) :
    (if z &&& 0x7F ^^^ 0x40 = 0 ∧ fs.floatRoundingMode = .nearestEven then
        (z + roundIncrementOf fs s 0x40 0x7F) >>> 7 &&& ~~~1
      else (z + roundIncrementOf fs s 0x40 0x7F) >>> 7 : BitVec 64).toNat =
      roundDiv (dirOf fs.floatRoundingMode s) z.toNat 7 := by
  have hmask : (0x7F : BitVec 64).toNat = 2 ^ 7 - 1 := rfl
  have hhalf : (0x40 : BitVec 64).toNat = 2 ^ (7 - 1) := rfl
  have hinc := toNat_increment_lt fs s (by decide) (by decide) hmask hhalf
  have hsum : (z + roundIncrementOf fs s 0x40 0x7F).toNat = z.toNat + (roundIncrementOf fs s 0x40 0x7F).toNat := by
    rw [BitVec.toNat_add, Nat.mod_eq_of_lt (by omega)]
  rw [roundDiv_increment fs s (by decide) hmask hhalf]
  by_cases htie : fs.floatRoundingMode = .nearestEven ∧ 2 * (z.toNat % 2 ^ 7) = 2 ^ 7
  · rw [if_pos htie, if_pos ⟨(tie_int z).mpr htie.2, htie.1⟩, toNat_and_not (k := 1) rfl, BitVec.toNat_ushiftRight,
      Nat.shiftRight_eq_div_pow, hsum, Nat.div_div_eq_div_mul, Nat.pow_one, ← Nat.pow_succ]
  · rw [if_neg htie, if_neg fun h => htie ⟨h.2, (tie_int z).mp h.1⟩, BitVec.toNat_ushiftRight,
      Nat.shiftRight_eq_div_pow, hsum]

theorem roundAndPackInt_correct (hw : 0 < w) (fs : FloatStatus) (s : Bool) {z : BitVec 64}
    (hz : z.toNat ≤ 2 ^ 63) {n : Nat} (hn : n = roundDiv (dirOf fs.floatRoundingMode s) z.toNat 7) :
    if n < 2 ^ (w - 1) ∨ (s = true ∧ n = 2 ^ (w - 1)) then
      (roundAndPackInt w fs s z).1.toInt = (if s then -(n : Int) else n) ∧
        (roundAndPackInt w fs s z).2 = if z.toNat % 2 ^ 7 = 0 then 0 else floatFlagInexact
    else roundAndPackInt w fs s z = (intBound w s, floatFlagInvalid) := by
  have habs := toNat_absZ fs s hz
  rw [← hn] at habs
  have hbits : z &&& 0x7F ≠ 0 ↔ ¬ z.toNat % 2 ^ 7 = 0 := by
    rw [ne_eq, eq_zero_iff, toNat_and_mask (k := 7) rfl]
  unfold roundAndPackInt
  dsimp only
  generalize (if z &&& 0x7F ^^^ 0x40 = 0 ∧ fs.floatRoundingMode = .nearestEven then
        (z + roundIncrementOf fs s 0x40 0x7F) >>> 7 &&& ~~~1
      else (z + roundIncrementOf fs s 0x40 0x7F) >>> 7 : BitVec 64) = absZ at *
  have hover := intOverflow_iff hw s absZ
  rw [habs] at hover
  by_cases hfit : n < 2 ^ (w - 1) ∨ (s = true ∧ n = 2 ^ (w - 1))
  · rw [if_pos hfit, if_neg (fun h => hover.mp h hfit)]
    have hword : absZ.setWidth w = BitVec.ofNat w n := by
      rw [← BitVec.toNat_inj, BitVec.toNat_setWidth, BitVec.toNat_ofNat, habs]
    refine ⟨?_, ?_⟩
    · rw [hword]
      exact toInt_signed hw hfit
    · by_cases hexact : z.toNat % 2 ^ 7 = 0
      · rw [if_pos hexact, if_neg fun h => hbits.mp h hexact]
      · rw [if_neg hexact, if_pos (hbits.mpr hexact)]
  · rw [if_neg hfit, if_pos (hover.mpr hfit)]

/-! ## The operands -/

theorem jam_le_half {n k : Nat} (hn : n < 2 ^ 64) (hk : 0 < k) : jam n k ≤ 2 ^ 63 := by
  have hpow : 2 ^ 1 ≤ 2 ^ k := Nat.pow_le_pow_right (by decide) hk
  have hle : n / 2 ^ k ≤ n / 2 ^ 1 := Nat.div_le_div_left hpow (by decide)
  rw [jam, or_one_eq]
  split <;> omega

/-- A number with all its places before those of a 64-bit word is beyond any bound. -/
theorem large_int {z : Nat} (d : Dir) (hw' : w < 56) (hz : 2 ^ 62 ≤ z) : 2 ^ w ≤ roundDiv d z 7 := by
  have hle := (roundDiv_bounds d z 7).1
  have hpow : 2 ^ w ≤ 2 ^ 55 := Nat.pow_le_pow_right (by decide) (by omega)
  omega

theorem beyond (hw : 0 < w) {n : Nat} (hn : 2 ^ w ≤ n) : ¬ (n < 2 ^ (w - 1) ∨ (s = true ∧ n = 2 ^ (w - 1))) := by
  have hpow := toNat_two_pow hw
  have hpos : 0 < 2 ^ (w - 1) := Nat.two_pow_pos _
  omega

/-- The places that are cut off do not matter. -/
theorem magnitude_shift {c : Nat} (hexp : 0x4037 - extractFloatx80Exp a = c) :
    magnitude a = (extractFloatx80Frac a).toNat / 2 ^ c * 2 ^ (-7 : Int) := by
  rw [magnitude, show extractFloatx80Exp a - 16446 = -(c : Int) + -7 by omega, zpow_add₀ (by norm_num), zpow_neg,
    zpow_natCast, ← mul_assoc, ← div_eq_mul_inv]

/-- A number with an exponent beyond any bound. -/
theorem large_delivered (hw : 0 < w) (hw' : w < 56) (fs : FloatStatus) (s : Bool)
    (hmsb : (extractFloatx80Frac a).msb = true)
    (he : 0x4037 ≤ extractFloatx80Exp a) :
    IntDelivered w fs.floatRoundingMode s (magnitude a)
      (roundAndPackInt w fs s (shift64RightJamming (extractFloatx80Frac a) 1)) := by
  have hfrac := (msb_iff _).mp hmsb
  have hz := shift64RightJamming_toNat (extractFloatx80Frac a) 1
  have hzle := jam_le_half (extractFloatx80Frac a).isLt Nat.one_pos
  have hzge : 2 ^ 62 ≤ jam (extractFloatx80Frac a).toNat 1 := by
    rw [jam, or_one_eq]
    split <;> omega
  rw [← hz] at hzle hzge
  have hpacked := roundAndPackInt_correct hw fs s hzle rfl
  rw [if_neg (beyond hw (large_int _ hw' hzge))] at hpacked
  have hmag : ((2 ^ 56 : Nat) : ℚ) ≤ magnitude a := by
    have hcast : ((2 ^ 63 : Nat) : ℚ) ≤ (extractFloatx80Frac a).toNat := by exact_mod_cast hfrac
    have hmul := mul_zpow_le (x := ((2 ^ 63 : Nat) : ℚ)) (by positivity) hcast
      (show (-7 : Int) ≤ extractFloatx80Exp a - 16446 by omega)
    have hpow : ((2 ^ 63 : Nat) : ℚ) * 2 ^ (-7 : Int) = ((2 ^ 56 : Nat) : ℚ) := by norm_num
    rwa [hpow] at hmul
  have hlarge : 2 ^ 56 ≤ roundInt (dirOf fs.floatRoundingMode s) (magnitude a) := by
    have hfloor : 2 ^ 56 ≤ ⌊magnitude a⌋₊ := Nat.le_floor hmag
    rw [roundInt]
    split <;> omega
  have hbeyond := (Nat.pow_le_pow_right (by decide) (by omega : w ≤ 56)).trans hlarge
  rw [hpacked]
  exact (if_neg (beyond hw hbeyond)).mpr rfl

/-- .. and one with places to cut off. -/
theorem small_delivered (hw : 0 < w) (fs : FloatStatus) (s : Bool) {c : Nat} (hc : 0 < c)
    (hexp : 0x4037 - extractFloatx80Exp a = c) :
    IntDelivered w fs.floatRoundingMode s (magnitude a)
      (roundAndPackInt w fs s (shift64RightJamming (extractFloatx80Frac a) c)) := by
  have hz := shift64RightJamming_toNat (extractFloatx80Frac a) c
  have hzle := jam_le_half (extractFloatx80Frac a).isLt hc
  have hsame : Same (2 ^ (7 - 1)) ((extractFloatx80Frac a).toNat / 2 ^ c : ℚ) (jam (extractFloatx80Frac a).toNat c) :=
    same_round (by decide) (same_jam _ _)
  rw [← hz] at hzle hsame
  have hround := roundInt_of_same (dirOf fs.floatRoundingMode s) (by decide) hsame (-7)
  have hexact := exact_iff_of_same (dirOf fs.floatRoundingMode s) (by decide) (by positivity) hsame (-7)
  have hunit : (2 : ℚ) ^ ((-7 : Int) + (7 : Nat)) = 1 := by norm_num
  rw [← magnitude_shift hexp, hunit, div_one] at hround
  rw [← magnitude_shift hexp, hunit, mul_one, ← hround] at hexact
  have hpacked := roundAndPackInt_correct hw fs s hzle hround
  rw [IntDelivered]
  simp only [hexact]
  exact hpacked

theorem finite_operand (h : datum a = .finite s x) :
    ¬ floatx80InvalidEncoding a = true ∧ extractFloatx80Exp a ≠ 0x7FFF ∧ extractFloatx80Sign a = s ∧ magnitude a = x := by
  have hv : ¬ floatx80InvalidEncoding a = true := fun hv => by
    rw [datum_unsupported hv] at h
    exact Datum.noConfusion h
  have he : extractFloatx80Exp a ≠ 0x7FFF := fun he => by
    rw [datum_special he] at h
    split at h <;> exact Datum.noConfusion h
  rw [datum_number hv he] at h
  injection h with hs hx
  exact ⟨hv, he, hs, hx⟩

theorem floatx80ToInt_finite (hw : 0 < w) (hw' : w < 56) (always : Bool) (fs : FloatStatus)
    (h : datum a = .finite s x) :
    IntDelivered w fs.floatRoundingMode s x (floatx80ToInt w fs always a) := by
  obtain ⟨hv, he, rfl, rfl⟩ := finite_operand h
  rw [floatx80ToInt]
  dsimp only
  rw [if_neg he]
  by_cases hshift : 0x4037 - extractFloatx80Exp a ≤ 0
  · rw [if_pos hshift]
    refine large_delivered hw hw' fs _ ?_ (by omega)
    by_contra hmsb
    have hzero := exp_eq_zero_of_valid hv he (Bool.eq_false_iff.mpr hmsb)
    omega
  · rw [if_neg hshift]
    exact small_delivered hw fs _ (by omega) (by omega)

/-- Every finite operand is rounded once, to an integer, and kept between the bounds. -/
theorem floatx80ToInt_delivered (fs : FloatStatus) (h : datum a = .finite s x) :
    IntDelivered 32 fs.floatRoundingMode s x (floatx80ToInt32 fs a) ∧
      IntDelivered 16 fs.floatRoundingMode s x (floatx80ToInt16 fs a) ∧
      IntDelivered 8 fs.floatRoundingMode s x (floatx80ToInt8 fs a) :=
  ⟨floatx80ToInt_finite (by decide) (by decide) false fs h, floatx80ToInt_finite (by decide) (by decide) true fs h,
    floatx80ToInt_finite (by decide) (by decide) false fs h⟩

/-- -1.5, to the nearest integer. -/
theorem floatx80ToInt_one_half :
    let fs : FloatStatus := ⟨.nearestEven, 80, 0⟩
    IntDelivered 32 .nearestEven true (magnitude 0xBFFFC000000000000000) (floatx80ToInt32 fs 0xBFFFC000000000000000) ∧
      IntDelivered 16 .nearestEven true (magnitude 0xBFFFC000000000000000) (floatx80ToInt16 fs 0xBFFFC000000000000000) ∧
      IntDelivered 8 .nearestEven true (magnitude 0xBFFFC000000000000000) (floatx80ToInt8 fs 0xBFFFC000000000000000) :=
  floatx80ToInt_delivered ⟨.nearestEven, 80, 0⟩ (datum_number (by decide) (by decide))

example : floatx80ToInt16 ⟨.nearestEven, 80, 0⟩ 0xBFFFC000000000000000 = (-2, floatFlagInexact) := by decide

/-! ## NaNs -/

theorem frac_quiet (q : BitVec 64) : q ||| 0x4000000000000000 = q ↔ q.getLsbD 62 = true := by
  have hbit : (0x4000000000000000 : BitVec 64) = BitVec.twoPow 64 62 := by decide
  rw [hbit]
  constructor
  · intro h
    rw [← h, BitVec.getLsbD_or, BitVec.getLsbD_twoPow, Bool.or_eq_true_iff]
    exact .inr rfl
  · intro h
    refine BitVec.eq_of_getLsbD_eq fun i hi => ?_
    rw [BitVec.getLsbD_or, BitVec.getLsbD_twoPow]
    by_cases hi' : 62 = i
    · subst hi'
      rw [h, Bool.true_or]
    · rw [decide_eq_false hi', Bool.and_false, Bool.or_false]

theorem frac_signaling (q : BitVec 64) : q = q &&& ~~~0x4000000000000000 ↔ ¬ q.getLsbD 62 = true := by
  have hbit : (0x4000000000000000 : BitVec 64) = BitVec.twoPow 64 62 := by decide
  rw [hbit]
  constructor
  · intro h hset
    rw [h, BitVec.getLsbD_and, BitVec.getLsbD_not, BitVec.getLsbD_twoPow] at hset
    exact Bool.noConfusion ((Bool.and_false _).symm.trans hset)
  · intro h
    refine BitVec.eq_of_getLsbD_eq fun i hi => ?_
    rw [BitVec.getLsbD_and, BitVec.getLsbD_not, BitVec.getLsbD_twoPow, decide_eq_true hi]
    by_cases hi' : 62 = i
    · subst hi'
      rw [Bool.eq_false_iff.mpr h, Bool.false_and]
    · rw [decide_eq_false hi', Bool.and_false, Bool.not_false, Bool.and_true, Bool.and_true]

theorem floatx80ToInt_flags (w : Nat) (always : Bool) (fs : FloatStatus) (h : floatx80IsNan a = true) :
    (floatx80ToInt w fs always a).2 = (if always then floatFlagInvalid else 0) |||
      if floatx80IsSignalingNan a then floatFlagSignaling else floatFlagInvalid := by
  obtain ⟨he, hfrac⟩ := of_decide_eq_true h
  have hsignal : floatx80IsSignalingNan a = true ↔
      ¬ extractFloatx80Frac a ||| 0x4000000000000000 = extractFloatx80Frac a := by
    rw [frac_quiet, ← frac_signaling, floatx80IsSignalingNan, decide_eq_true_iff]
    refine ⟨fun h => h.2.2, fun h => ⟨he, ?_, h⟩⟩
    rwa [← h]
  rw [floatx80ToInt]
  dsimp only
  rw [if_pos he, if_pos hfrac, propagateFloatx80NaNOneArg]
  dsimp only
  by_cases hs : floatx80IsSignalingNan a = true
  · rw [if_pos hs, if_pos hs, if_neg (hsignal.mp hs), BitVec.or_assoc]
    rfl
  · rw [if_neg hs, if_neg hs, if_pos (not_not.mp (mt hsignal.mpr hs)), BitVec.or_assoc]
    rfl

/-- The conversion to 16 bits raises an invalid operation for a signaling NaN too. -/
theorem floatx80ToInt_nan (fs : FloatStatus) (h : floatx80IsNan a = true) :
    (floatx80ToInt32 fs a).2 = (if floatx80IsSignalingNan a then floatFlagSignaling else floatFlagInvalid) ∧
      (floatx80ToInt8 fs a).2 = (floatx80ToInt32 fs a).2 ∧
      (floatx80ToInt16 fs a).2 = floatFlagInvalid ||| (floatx80ToInt32 fs a).2 := by
  have h32 : (floatx80ToInt32 fs a).2 = if floatx80IsSignalingNan a then floatFlagSignaling else floatFlagInvalid :=
    (floatx80ToInt_flags 32 false fs h).trans BitVec.zero_or
  have h8 : (floatx80ToInt8 fs a).2 = if floatx80IsSignalingNan a then floatFlagSignaling else floatFlagInvalid :=
    (floatx80ToInt_flags 8 false fs h).trans BitVec.zero_or
  rw [h8, h32]
  exact ⟨rfl, rfl, floatx80ToInt_flags 16 true fs h⟩

end Conversions

/-! ## To a number that is an integer -/

def lastBitMask (k : Nat) : BitVec 64 := (1 : BitVec 64) <<< k

/-- `z.low` in `floatx80_round_to_int`: the last `k` places rounded off. -/
def roundFraction (fs : FloatStatus) (zSign : Bool) (k : Nat) (low : BitVec 64) : BitVec 64 :=
  let roundBitsMask := lastBitMask k - 1
  let z := low + roundIncrementOf fs zSign (lastBitMask k >>> 1) roundBitsMask
  let z := if fs.floatRoundingMode = .nearestEven ∧ z &&& roundBitsMask = 0 then z &&& ~~~lastBitMask k else z
  z &&& ~~~roundBitsMask

/-- .. and of a number below one. -/
def roundBelowOne (fs : FloatStatus) (aSign : Bool) (aExp : Int) (aSig : BitVec 64) : Float80 :=
  let one := packFloatx80 aSign 0x3FFF 0x8000000000000000
  let zero := packFloatx80 aSign 0 0
  match fs.floatRoundingMode with
  | .nearestEven => if aExp = 0x3FFE ∧ aSig <<< 1 ≠ 0 then one else zero
  | .down => if aSign then one else zero
  | .up => if aSign then zero else one
  | .toZero => zero

def floatx80RoundToInt (sp : SpecialFlags) (fs : FloatStatus) (a : Float80) : Float80 × Byte :=
  let aSig := extractFloatx80Frac a
  let aExp := extractFloatx80Exp a
  let aSign := extractFloatx80Sign a
  if 0x403E ≤ aExp then
    if aExp = 0x7FFF then
      if aSig <<< 1 ≠ 0 then propagateFloatx80NaNOneArg a
      else (if sp.infinityClearIntbit then packFloatx80 aSign aExp 0 else a, 0)
    else (a, 0)
  else if aExp < 0x3FFF then
    if aExp = 0 ∧ aSig = 0 then (a, 0)
    else (roundBelowOne fs aSign aExp aSig, floatFlagInexact)
  else
    let low := roundFraction fs aSign (0x403E - aExp).toNat aSig
    if low = 0 then
      (packFloatx80 aSign (aExp + 1) 0x8000000000000000, if 0x8000000000000000 ≠ aSig then floatFlagInexact else 0)
    else (packFloatx80 aSign aExp low, if low ≠ aSig then floatFlagInexact else 0)

/-- Without the other modes. -/
def floatx80RoundToIntTowardZero (sp : SpecialFlags) (fs : FloatStatus) (a : Float80) : Float80 × Byte :=
  floatx80RoundToInt sp { fs with floatRoundingMode := .toZero } a

/-- The integer a number with its sign is rounded to. -/
def IntegralOf (mode : RoundingMode) (s : Bool) (x : ℚ) (r : Float80 × Byte) : Prop :=
  let n := roundInt (dirOf mode s) x
  datum r.1 = .finite s n ∧ r.2 = if (n : ℚ) = x then 0 else floatFlagInexact

section Integral

variable {sp : SpecialFlags} {fs : FloatStatus} {s : Bool} {x : ℚ} {a : Float80} {k : Nat} {low : BitVec 64}

theorem toNat_lastBit (hk : k < 64) : (lastBitMask k).toNat = 2 ^ k := by
  rw [lastBitMask, BitVec.toNat_shiftLeft, Nat.shiftLeft_eq]
  change 1 * 2 ^ k % 2 ^ 64 = 2 ^ k
  rw [Nat.one_mul, Nat.mod_eq_of_lt (Nat.pow_lt_pow_right (by decide) hk)]

theorem toNat_roundBits (hk : k < 64) : (lastBitMask k - 1).toNat = 2 ^ k - 1 := by
  have hone : (1 : BitVec 64) ≤ lastBitMask k := by
    rw [BitVec.le_def, toNat_lastBit hk]
    exact Nat.one_le_two_pow
  rw [BitVec.toNat_sub_of_le hone, toNat_lastBit hk]
  rfl

theorem toNat_halfBit (hk : 0 < k) (hk' : k < 64) : (lastBitMask k >>> 1).toNat = 2 ^ (k - 1) := by
  rw [BitVec.toNat_ushiftRight, toNat_lastBit hk', Nat.shiftRight_eq_div_pow, Nat.pow_one, toNat_two_pow hk,
    Nat.mul_div_cancel_left _ (by decide)]

theorem toNat_lastBit_or (hk : k < 64) : (lastBitMask k ||| (lastBitMask k - 1)).toNat = 2 ^ (k + 1) - 1 := by
  have hlt : 2 ^ k - 1 < 2 ^ k := Nat.sub_lt (Nat.two_pow_pos k) Nat.one_pos
  have hor := Nat.shiftLeft_add_eq_or_of_lt hlt 1
  rw [Nat.shiftLeft_eq, Nat.one_mul] at hor
  rw [BitVec.toNat_or, toNat_lastBit hk, toNat_roundBits hk, ← hor, Nat.pow_succ]
  omega

theorem roundIncrement_lt (fs : FloatStatus) (s : Bool) (hk : 0 < k) (hk' : k < 64) :
    (roundIncrementOf fs s (lastBitMask k >>> 1) (lastBitMask k - 1)).toNat < 2 ^ k := by
  rw [roundIncrementOf_toNat fs s (toNat_roundBits hk') (toNat_halfBit hk hk')]
  cases dirOf fs.floatRoundingMode s with
  | nearestEven => exact Nat.pow_lt_pow_right (by decide) (by omega)
  | down => exact Nat.two_pow_pos k
  | up => exact Nat.sub_lt (Nat.two_pow_pos k) Nat.one_pos

theorem roundFraction_toNat (fs : FloatStatus) (s : Bool) (hk : 0 < k) (hk' : k < 64) (low : BitVec 64) :
    (roundFraction fs s k low).toNat =
      if low.toNat + (roundIncrementOf fs s (lastBitMask k >>> 1) (lastBitMask k - 1)).toNat < 2 ^ 64 then
        roundDiv (dirOf fs.floatRoundingMode s) low.toNat k * 2 ^ k
      else 0 := by
  have hmask := toNat_roundBits hk'
  have hhalf := toNat_halfBit hk hk'
  have hpow := toNat_two_pow hk
  have hle : 2 ^ k ≤ 2 ^ 63 := Nat.pow_le_pow_right (by decide) (by omega)
  have hlow := low.isLt
  have hinclt := roundIncrement_lt fs s hk hk'
  have htie : fs.floatRoundingMode = .nearestEven ∧
        (low + roundIncrementOf fs s (lastBitMask k >>> 1) (lastBitMask k - 1)) &&& (lastBitMask k - 1) = 0 ↔
      fs.floatRoundingMode = .nearestEven ∧ 2 * (low.toNat % 2 ^ k) = 2 ^ k := by
    refine and_congr_right fun hmode => ?_
    have hinc' : (roundIncrementOf fs s (lastBitMask k >>> 1) (lastBitMask k - 1)).toNat = 2 ^ (k - 1) := by
      rw [roundIncrementOf, hmode]
      exact hhalf
    have hdvd : 2 ^ k ∣ 2 ^ 64 := Nat.pow_dvd_pow 2 (by omega)
    rw [eq_zero_iff, toNat_and_mask hmask, BitVec.toNat_add, hinc', Nat.mod_mod_of_dvd _ hdvd, Nat.add_mod,
      Nat.mod_eq_of_lt (show 2 ^ (k - 1) < 2 ^ k by omega)]
    have hmod : low.toNat % 2 ^ k < 2 ^ k := Nat.mod_lt _ (Nat.two_pow_pos k)
    generalize low.toNat % 2 ^ k = m at *
    rw [hpow] at *
    generalize 2 ^ (k - 1) = h at *
    constructor
    · intro hzero
      by_contra hne
      rcases Nat.lt_or_ge (m + h) (2 * h) with hlt | hge
      · rw [Nat.mod_eq_of_lt hlt] at hzero
        omega
      · rw [Nat.mod_eq_sub_mod hge, Nat.mod_eq_of_lt (by omega)] at hzero
        omega
    · intro heq
      rw [show m + h = 2 * h by omega, Nat.mod_self]
  rw [roundDiv_increment fs s hk hmask hhalf, roundFraction]
  simp only [htie]
  generalize roundIncrementOf fs s (lastBitMask k >>> 1) (lastBitMask k - 1) = inc at *
  have hsum : (low + inc).toNat = (low.toNat + inc.toNat) % 2 ^ 64 := BitVec.toNat_add _ _
  have hwrap : ¬ low.toNat + inc.toNat < 2 ^ 64 → (low.toNat + inc.toNat) % 2 ^ 64 < 2 ^ k := fun h => by omega
  by_cases ht : fs.floatRoundingMode = .nearestEven ∧ 2 * (low.toNat % 2 ^ k) = 2 ^ k
  · rw [if_pos ht, if_pos ht, BitVec.and_assoc, ← BitVec.not_or, toNat_and_not (toNat_lastBit_or hk'), hsum]
    split
    · rename_i hfit
      rw [Nat.mod_eq_of_lt hfit, Nat.pow_succ']
      ring
    · rename_i hfit
      have hlt := hwrap hfit
      rw [Nat.div_eq_of_lt (by rw [Nat.pow_succ]; omega), Nat.zero_mul]
  · rw [if_neg ht, if_neg ht, toNat_and_not hmask, hsum]
    split
    · rename_i hfit
      rw [Nat.mod_eq_of_lt hfit]
    · rename_i hfit
      rw [Nat.div_eq_of_lt (hwrap hfit), Nat.zero_mul]

theorem datum_pack {zExp : Int} {zSig : BitVec 64} (h : 0 ≤ zExp) (h' : zExp < 0x7FFF)
    (hmsb : zSig.msb = true ∨ zExp = 0) :
    datum (packFloatx80 s zExp zSig) = .finite s (zSig.toNat * 2 ^ (zExp - 16446)) := by
  have hexp : extractFloatx80Exp (packFloatx80 s zExp zSig) = zExp := exp_packFloatx80 h (by omega)
  have hvalid : ¬ floatx80InvalidEncoding (packFloatx80 s zExp zSig) = true := by
    rw [floatx80InvalidEncoding, decide_eq_true_iff, frac_packFloatx80, hexp]
    rintro ⟨hlow, hne, -⟩
    rcases hmsb with hm | hz
    · rw [hm] at hlow
      exact Bool.noConfusion hlow
    · exact hne hz
  rw [datum_number hvalid (by rw [hexp]; omega), sign_packFloatx80 h (by omega), magnitude_packFloatx80 h (by omega)]

theorem integral_self (mode : RoundingMode) (hd : datum a = .finite s x) {m : Nat} (hm : x = m) :
    IntegralOf mode s x (a, 0) := by
  subst hm
  rw [IntegralOf, roundInt_natCast]
  exact ⟨hd, (if_pos rfl).symm⟩

/-! ### Below one -/

theorem roundInt_belowOne (d : Dir) (hx : 0 ≤ x) (hx' : x < 1) : roundInt d x = if RoundsUp d 0 x then 1 else 0 := by
  have h := roundInt_eq d (x := x) (n := 0) (by rwa [Nat.cast_zero]) (by rwa [Nat.cast_zero, zero_add])
  rwa [Nat.cast_zero, sub_zero, Nat.zero_add] at h

/-- More than a half. -/
theorem half_lt_iff (ha : ¬ floatx80InvalidEncoding a = true) (he : extractFloatx80Exp a < 0x3FFF) :
    1 / 2 < magnitude a ↔ extractFloatx80Exp a = 0x3FFE ∧ extractFloatx80Frac a <<< 1 ≠ 0 := by
  have hlt := (extractFloatx80Frac a).isLt
  by_cases hexp : extractFloatx80Exp a = 0x3FFE
  · have hmsb : 2 ^ 63 ≤ (extractFloatx80Frac a).toNat := by
      refine (msb_iff _).mp ?_
      by_contra hmsb
      have hzero := exp_eq_zero_of_valid ha (by omega) (Bool.eq_false_iff.mpr hmsb)
      omega
    have hmag : magnitude a = (extractFloatx80Frac a).toNat / 2 ^ 64 := by
      rw [magnitude, hexp, div_eq_mul_inv, show (0x3FFE : Int) - 16446 = -((64 : Nat) : Int) by norm_num, zpow_neg,
        zpow_natCast]
    have hhalf : 1 / 2 < magnitude a ↔ 2 ^ 63 < (extractFloatx80Frac a).toNat := by
      rw [hmag, lt_div_iff₀ (by positivity), show (1 : ℚ) / 2 * 2 ^ 64 = ((2 ^ 63 : Nat) : ℚ) by norm_num,
        Nat.cast_lt]
    rw [hhalf, ne_eq, shiftLeft_one_eq_zero]
    omega
  · refine iff_of_false (not_lt.mpr ?_) fun h => hexp h.1
    have hfrac : ((extractFloatx80Frac a).toNat : ℚ) ≤ (2 ^ 64 : Nat) := by exact_mod_cast hlt.le
    have h := mul_zpow_le (by positivity) hfrac (show extractFloatx80Exp a - 16446 ≤ -65 by omega)
    have hpow : ((2 ^ 64 : Nat) : ℚ) * 2 ^ (-65 : Int) = 1 / 2 := by norm_num
    rwa [hpow] at h

theorem belowOne_integral (ha : ¬ floatx80InvalidEncoding a = true) (he : extractFloatx80Exp a < 0x3FFF)
    (hne : magnitude a ≠ 0) :
    IntegralOf fs.floatRoundingMode s (magnitude a)
      (roundBelowOne fs s (extractFloatx80Exp a) (extractFloatx80Frac a), floatFlagInexact) := by
  have hpos : 0 < magnitude a := lt_of_le_of_ne (magnitude_nonneg a) (Ne.symm hne)
  have hlt : magnitude a < 1 := by
    have hfrac : ((extractFloatx80Frac a).toNat : ℚ) < (2 ^ 64 : Nat) := by
      exact_mod_cast (extractFloatx80Frac a).isLt
    calc magnitude a < (2 ^ 64 : Nat) * 2 ^ (extractFloatx80Exp a - 16446) :=
          mul_lt_mul_of_pos_right hfrac (two_zpow_pos _)
      _ ≤ (2 ^ 64 : Nat) * 2 ^ (-64 : Int) := mul_zpow_le (by positivity) le_rfl (by omega)
      _ = 1 := by norm_num
  have hone : datum (packFloatx80 s 0x3FFF 0x8000000000000000) = .finite s ((1 : Nat) : ℚ) := by
    have hfrac : (0x8000000000000000 : BitVec 64).toNat = 2 ^ 63 := rfl
    rw [datum_pack (by decide) (by decide) (.inl (by decide)), hfrac]
    norm_num
  have hzero : datum (packFloatx80 s 0 0) = .finite s ((0 : Nat) : ℚ) := by
    have hfrac : (0 : BitVec 64).toNat = 0 := rfl
    rw [datum_pack (by decide) (by decide) (.inr rfl), hfrac, Nat.cast_zero, zero_mul]
  have hpick : roundBelowOne fs s (extractFloatx80Exp a) (extractFloatx80Frac a) =
      if RoundsUp (dirOf fs.floatRoundingMode s) 0 (magnitude a) then packFloatx80 s 0x3FFF 0x8000000000000000
      else packFloatx80 s 0 0 := by
    rw [roundBelowOne]
    cases fs.floatRoundingMode with
    | nearestEven =>
      have hup : RoundsUp .nearestEven 0 (magnitude a) ↔
          extractFloatx80Exp a = 0x3FFE ∧ extractFloatx80Frac a <<< 1 ≠ 0 := by
        rw [← half_lt_iff ha he, RoundsUp]
        exact or_iff_left fun h => by cases h.2
      simp only [dirOf, hup]
    | down => cases s with
      | false => exact (if_neg id).symm
      | true => exact (if_pos hpos).symm
    | up => cases s with
      | false => exact (if_pos hpos).symm
      | true => exact (if_neg id).symm
    | toZero => exact (if_neg id).symm
  have hround := roundInt_belowOne (dirOf fs.floatRoundingMode s) hpos.le hlt
  rw [hpick, IntegralOf, hround]
  by_cases hup : RoundsUp (dirOf fs.floatRoundingMode s) 0 (magnitude a)
  · rw [if_pos hup, if_pos hup]
    refine ⟨hone, (if_neg ?_).symm⟩
    rw [Nat.cast_one]
    exact hlt.ne'
  · rw [if_neg hup, if_neg hup]
    refine ⟨hzero, (if_neg ?_).symm⟩
    rw [Nat.cast_zero]
    exact hpos.ne

/-! ### From one on -/

theorem fraction_integral (hk : 0 < k) (hk' : k < 64) (hexp : 0x403E - extractFloatx80Exp a = k)
    (hmsb : (extractFloatx80Frac a).msb = true) :
    IntegralOf fs.floatRoundingMode s (magnitude a)
      (if roundFraction fs s k (extractFloatx80Frac a) = 0 then
        (packFloatx80 s (extractFloatx80Exp a + 1) 0x8000000000000000,
          if 0x8000000000000000 ≠ extractFloatx80Frac a then floatFlagInexact else 0)
      else (packFloatx80 s (extractFloatx80Exp a) (roundFraction fs s k (extractFloatx80Frac a)),
        if roundFraction fs s k (extractFloatx80Frac a) ≠ extractFloatx80Frac a then floatFlagInexact else 0)) := by
  have hlow := (msb_iff _).mp hmsb
  have hlt := (extractFloatx80Frac a).isLt
  have hpos := Nat.two_pow_pos k
  have hfrac := roundFraction_toNat fs s hk hk' (extractFloatx80Frac a)
  have hmag : magnitude a = (extractFloatx80Frac a).toNat / 2 ^ k := by
    rw [magnitude, div_eq_mul_inv, show extractFloatx80Exp a - 16446 = -(k : Int) by omega, zpow_neg, zpow_natCast]
  have hround : roundInt (dirOf fs.floatRoundingMode s) (magnitude a) =
      roundDiv (dirOf fs.floatRoundingMode s) (extractFloatx80Frac a).toNat k := by
    rw [hmag, roundInt_div]
  have hsplit : 2 ^ (63 - k) * 2 ^ k = 2 ^ 63 := by
    rw [← Nat.pow_add]
    congr 1
    omega
  have hexact : ((roundDiv (dirOf fs.floatRoundingMode s) (extractFloatx80Frac a).toNat k : Nat) : ℚ) =
        magnitude a ↔
      roundDiv (dirOf fs.floatRoundingMode s) (extractFloatx80Frac a).toNat k * 2 ^ k =
        (extractFloatx80Frac a).toNat := by
    rw [hmag, eq_div_iff (by positivity)]
    exact_mod_cast Iff.rfl
  rw [IntegralOf, hround]
  by_cases hfit : (extractFloatx80Frac a).toNat +
      (roundIncrementOf fs s (lastBitMask k >>> 1) (lastBitMask k - 1)).toNat < 2 ^ 64
  · rw [if_pos hfit] at hfrac
    have hge : 2 ^ 63 ≤ (roundFraction fs s k (extractFloatx80Frac a)).toNat := by
      have hdiv : 2 ^ (63 - k) ≤ (extractFloatx80Frac a).toNat / 2 ^ k := by
        rwa [Nat.le_div_iff_mul_le hpos, hsplit]
      rw [hfrac, ← hsplit]
      exact Nat.mul_le_mul_right _ (hdiv.trans (roundDiv_bounds _ _ _).1)
    have hne : roundFraction fs s k (extractFloatx80Frac a) ≠ 0 := fun h => by
      rw [h] at hge
      exact absurd hge (by decide)
    rw [if_neg hne]
    refine ⟨?_, ?_⟩
    · rw [datum_pack (by omega) (by omega) (.inl ((msb_iff _).mpr hge)), hfrac, Nat.cast_mul, Nat.cast_pow,
        Nat.cast_ofNat, show extractFloatx80Exp a - 16446 = -(k : Int) by omega, zpow_neg, zpow_natCast, mul_assoc,
        mul_inv_cancel₀ (by positivity), mul_one]
    · simp only [hexact, ← hfrac, BitVec.toNat_inj]
      by_cases heq : roundFraction fs s k (extractFloatx80Frac a) = extractFloatx80Frac a
      · rw [if_pos heq, if_neg (not_not.mpr heq)]
      · rw [if_neg heq, if_pos heq]
  · rw [if_neg hfit] at hfrac
    have hn := roundDiv_carry fs s hk hk' (toNat_roundBits hk') (toNat_halfBit hk hk') (extractFloatx80Frac a)
      (by omega)
    have hsplit' : 2 ^ (64 - k) * 2 ^ k = 2 ^ 64 := by
      rw [← Nat.pow_add]
      congr 1
      omega
    have hone : (0x8000000000000000 : BitVec 64).toNat = 2 ^ 63 := rfl
    have hinexact : ¬ (0x8000000000000000 : BitVec 64) = extractFloatx80Frac a := by
      intro heq
      have hinc := roundIncrement_lt fs s hk hk'
      have hle : 2 ^ k ≤ 2 ^ 63 := Nat.pow_le_pow_right (by decide) (by omega)
      rw [← heq, hone] at hfit
      omega
    rw [if_pos ((eq_zero_iff _).mpr hfrac), if_pos hinexact]
    refine ⟨?_, (if_neg ?_).symm⟩
    · rw [datum_pack (by omega) (by omega) (.inl (by decide)), hone, hn, Nat.cast_pow, Nat.cast_pow, Nat.cast_ofNat,
        show extractFloatx80Exp a + 1 - 16446 = ((64 - k : Nat) : Int) + -63 by omega, zpow_add₀ (by norm_num),
        zpow_natCast, mul_left_comm, show (2 : ℚ) ^ 63 * 2 ^ (-63 : Int) = 1 by norm_num, mul_one]
    · rw [hexact, hn, hsplit']
      omega

/-- Every finite operand is rounded once, to an integer. -/
theorem floatx80RoundToInt_finite (sp : SpecialFlags) (fs : FloatStatus) (h : datum a = .finite s x) :
    IntegralOf fs.floatRoundingMode s x (floatx80RoundToInt sp fs a) := by
  have hd := h
  obtain ⟨hv, he, rfl, rfl⟩ := finite_operand h
  rw [floatx80RoundToInt]
  by_cases hlarge : 0x403E ≤ extractFloatx80Exp a
  · have hmag : magnitude a =
        (((extractFloatx80Frac a).toNat * 2 ^ (extractFloatx80Exp a - 16446).toNat : Nat) : ℚ) := by
      rw [magnitude, Nat.cast_mul, Nat.cast_pow, Nat.cast_ofNat, ← zpow_natCast, Int.toNat_of_nonneg (by omega)]
    rw [if_pos hlarge, if_neg he]
    exact integral_self _ hd hmag
  rw [if_neg hlarge]
  by_cases hsmall : extractFloatx80Exp a < 0x3FFF
  · rw [if_pos hsmall]
    by_cases hzero : extractFloatx80Exp a = 0 ∧ extractFloatx80Frac a = 0
    · rw [if_pos hzero]
      exact integral_self (m := 0) _ hd (by rw [Nat.cast_zero]; exact (zero_iff hv he).mp hzero)
    · rw [if_neg hzero]
      exact belowOne_integral hv hsmall (mt (zero_iff hv he).mpr hzero)
  · rw [if_neg hsmall]
    refine fraction_integral (by omega) (by omega) (by omega) ?_
    by_contra hmsb
    have hzero := exp_eq_zero_of_valid hv he (Bool.eq_false_iff.mpr hmsb)
    omega

/-- FINTRZ rounds toward zero in every mode. -/
theorem floatx80RoundToInt_delivered (sp : SpecialFlags) (fs : FloatStatus) (h : datum a = .finite s x) :
    IntegralOf fs.floatRoundingMode s x (floatx80RoundToInt sp fs a) ∧
      IntegralOf .toZero s x (floatx80RoundToIntTowardZero sp fs a) :=
  ⟨floatx80RoundToInt_finite sp fs h, floatx80RoundToInt_finite sp { fs with floatRoundingMode := .toZero } h⟩

/-- -1.5, up. -/
theorem floatx80RoundToInt_one_half :
    let fs : FloatStatus := ⟨.up, 80, 0⟩
    IntegralOf .up true (magnitude 0xBFFFC000000000000000)
        (floatx80RoundToInt (fpInitSoftfloat 68881) fs 0xBFFFC000000000000000) ∧
      IntegralOf .toZero true (magnitude 0xBFFFC000000000000000)
        (floatx80RoundToIntTowardZero (fpInitSoftfloat 68881) fs 0xBFFFC000000000000000) :=
  floatx80RoundToInt_delivered (fpInitSoftfloat 68881) ⟨.up, 80, 0⟩ (datum_number (by decide) (by decide))

example : floatx80RoundToInt (fpInitSoftfloat 68881) ⟨.nearestEven, 80, 0⟩ 0xBFFFC000000000000000 =
    (0xC0008000000000000000, floatFlagInexact) := by decide

end Integral

end UaeCpu.Fpu
