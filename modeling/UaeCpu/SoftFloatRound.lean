import UaeCpu.FpRegisterApi
import UaeCpu.Lib.Rounding

/-!
# UaeCpu.SoftFloatRound

`roundAndPackFloatx80` rounds correctly.

* `magnitude`             — the value of a number without its sign. Exponent 0 has no meaning of its own.
* `Format`                — what a rounding precision stands for.
* `Packed`                — the number and the flags that a magnitude is rounded to.
* `roundAndPack_correct`  — it is what the routine gives, for each precision and mode.
-/

namespace UaeCpu.Fpu

open Rounding

/-! ## Values -/

def magnitude (a : Float80) : ℚ := (extractFloatx80Frac a).toNat * 2 ^ (extractFloatx80Exp a - 16446)

/-- Numbers of `p` bits; `emin` and `emax` are the exponents of the last places. -/
structure Format where
  p : Nat
  emin : Int
  emax : Int
  deriving DecidableEq, Repr

def Format.max (f : Format) : ℚ := (2 ^ f.p - 1) * 2 ^ f.emax

/-- The smallest normal number. -/
def Format.normal (f : Format) : ℚ := 2 ^ (f.p - 1) * 2 ^ f.emin

def extendedFormat : Format := ⟨64, -16446, 16320⟩

def formatOf (precision : Nat) : Format :=
  if precision = 64 then ⟨53, -1074, 971⟩ else if precision = 32 then ⟨24, -149, 104⟩ else extendedFormat

/-- Where a rounding mode rounds a magnitude to. -/
def dirOf (mode : RoundingMode) (zSign : Bool) : Dir :=
  match mode with
  | .nearestEven => .nearestEven
  | .toZero => .down
  | .up => if zSign then .down else .up
  | .down => if zSign then .up else .down

/-- Flags for the rounding of `x` to `y`. -/
def flagsFor (f : Format) (x y : ℚ) : Byte :=
  (if f.max < y then floatFlagOverflow else if x < f.normal then floatFlagUnderflow else 0) |||
    if y ≠ x then floatFlagInexact else 0

/-- The number `y` with a sign, or what an overflow gives. -/
structure PackedAs (f : Format) (mode : RoundingMode) (zSign : Bool) (y : ℚ) (z : Float80) : Prop where
  sign : extractFloatx80Sign z = zSign
  value : y ≤ f.max → extractFloatx80Exp z ≠ 0x7FFF ∧ magnitude z = y
  largest : f.max < y → towardZero mode zSign = true → extractFloatx80Exp z ≠ 0x7FFF ∧ magnitude z = f.max
  infinity : f.max < y → towardZero mode zSign = false → extractFloatx80Exp z = 0x7FFF ∧ extractFloatx80Frac z = 0

/-- The magnitude `x` with a sign is rounded, and the flags say how. -/
def Packed (f : Format) (mode : RoundingMode) (zSign : Bool) (x : ℚ) (r : Float80 × Byte) : Prop :=
  ∃ y, Rounds f.p f.emin (dirOf mode zSign) x y ∧ PackedAs f mode zSign y r.1 ∧ r.2 = flagsFor f x y

/-! ## Packing -/

section Pack

variable {zSign : Bool} {zExp : Int} {zSig : BitVec 64}

theorem frac_packFloatx80 (zSign : Bool) (zExp : Int) (zSig : BitVec 64) :
    extractFloatx80Frac (packFloatx80 zSign zExp zSig) = zSig := by
  rw [extractFloatx80Frac, packFloatx80, BitVec.setWidth_append]
  simp

theorem ofInt_small (h : 0 ≤ zExp) (h' : zExp < 0x8000) : BitVec.ofInt 16 zExp = BitVec.ofNat 16 zExp.toNat := by
  obtain ⟨n, rfl⟩ := Int.eq_ofNat_of_zero_le h
  exact BitVec.ofInt_natCast 16 n

theorem exp_packFloatx80 (h : 0 ≤ zExp) (h' : zExp < 0x8000) : extractFloatx80Exp (packFloatx80 zSign zExp zSig) = zExp := by
  rw [extractFloatx80Exp, exp_pack, ofInt_small h h', BitVec.toNat_setWidth, BitVec.toNat_ofNat]
  omega

theorem sign_packFloatx80 (h : 0 ≤ zExp) (h' : zExp < 0x8000) :
    extractFloatx80Sign (packFloatx80 zSign zExp zSig) = zSign := by
  have hlt : zExp.toNat < 2 ^ 15 := by omega
  have hhigh : (((BitVec.ofBool zSign).setWidth 16 <<< 15) + BitVec.ofNat 16 zExp.toNat : BitVec 16).getLsbD 15 = zSign := by
    rw [← BitVec.testBit_toNat, BitVec.toNat_add, BitVec.toNat_ofNat, Nat.testBit_eq_decide_div_mod_eq]
    cases zSign
    · refine decide_eq_false ?_
      change ¬ (0 + zExp.toNat % 2 ^ 16) % 2 ^ 16 / 2 ^ 15 % 2 = 1
      omega
    · refine decide_eq_true ?_
      change (32768 + zExp.toNat % 2 ^ 16) % 2 ^ 16 / 2 ^ 15 % 2 = 1
      omega
  rw [extractFloatx80Sign, packFloatx80, ofInt_small h h', BitVec.getLsbD_append]
  exact hhigh

theorem magnitude_packFloatx80 (h : 0 ≤ zExp) (h' : zExp < 0x8000) :
    magnitude (packFloatx80 zSign zExp zSig) = zSig.toNat * 2 ^ (zExp - 16446) := by
  rw [magnitude, frac_packFloatx80, exp_packFloatx80 h h']

end Pack

/-! ## One word of a significand -/

section Words

variable {k : Nat} {z m half : BitVec 64}

theorem toNat_and_not (hm : m.toNat = 2 ^ k - 1) (z : BitVec 64) : (z &&& ~~~m).toNat = z.toNat / 2 ^ k * 2 ^ k := by
  rw [← Nat.shiftRight_eq_div_pow, ← Nat.shiftLeft_eq]
  refine Nat.eq_of_testBit_eq fun i => ?_
  rw [BitVec.testBit_toNat, BitVec.getLsbD_and, BitVec.getLsbD_not, ← BitVec.testBit_toNat m, hm, Nat.testBit_two_pow_sub_one,
    Nat.testBit_shiftLeft, Nat.testBit_shiftRight, ← BitVec.testBit_toNat z]
  by_cases hk : i < k
  · simp [hk, Nat.not_le.mpr hk]
  · have hle : k ≤ i := Nat.le_of_not_lt hk
    by_cases hi : i < 64
    · simp [hk, hle, hi, Nat.add_sub_cancel' hle]
    · have hz : z.toNat.testBit i = false :=
        Nat.testBit_lt_two_pow (Nat.lt_of_lt_of_le z.isLt (Nat.pow_le_pow_right (by decide) (by omega)))
      simp [hk, hle, hi, Nat.add_sub_cancel' hle, hz]

theorem toNat_and_mask (hm : m.toNat = 2 ^ k - 1) (z : BitVec 64) : (z &&& m).toNat = z.toNat % 2 ^ k := by
  rw [BitVec.toNat_and, hm, Nat.and_two_pow_sub_one_eq_mod]

/-- What is added carries at most once. -/
theorem add_div_eq {Z K c : Nat} (hK : 0 < K) (hc : c ≤ K) :
    (Z + c) / K = if K ≤ Z % K + c then Z / K + 1 else Z / K := by
  have hmod : Z % K < K := Nat.mod_lt _ hK
  conv_lhs => rw [← Nat.div_add_mod Z K, Nat.add_assoc, Nat.mul_add_div hK]
  split
  · have hone : (Z % K + c) / K = 1 := Nat.div_eq_of_lt_le (by omega) (by omega)
    rw [hone]
  · have hzero : (Z % K + c) / K = 0 := Nat.div_eq_of_lt (by omega)
    rw [hzero, Nat.add_zero]

theorem toNat_succ_mask (hk' : k < 63) (hm : m.toNat = 2 ^ k - 1) : (m + 1).toNat = 2 ^ k := by
  have hlt : 2 ^ k < 2 ^ 64 := Nat.pow_lt_pow_right (by decide) (by omega)
  have hpos := Nat.two_pow_pos k
  rw [BitVec.toNat_add, hm, show (1 : BitVec 64).toNat = 1 from rfl, Nat.sub_add_cancel hpos, Nat.mod_eq_of_lt hlt]

theorem toNat_mask_or (hk' : k < 63) (hm : m.toNat = 2 ^ k - 1) : (m ||| (m + 1)).toNat = 2 ^ (k + 1) - 1 := by
  rw [BitVec.toNat_or, toNat_succ_mask hk' hm, hm]
  refine Nat.eq_of_testBit_eq fun i => ?_
  rw [Nat.testBit_or, Nat.testBit_two_pow_sub_one, Nat.testBit_two_pow_sub_one, Nat.testBit_two_pow, ← Bool.decide_or,
    decide_eq_decide]
  omega

/-- The rounding bits of a tie. -/
theorem tie_iff (hk' : k < 63) (hm : m.toNat = 2 ^ k - 1) (z : BitVec 64) :
    (z &&& m) <<< 1 = m + 1 ↔ 2 * (z.toNat % 2 ^ k) = 2 ^ k := by
  have hlt : z.toNat % 2 ^ k < 2 ^ k := Nat.mod_lt _ (Nat.two_pow_pos k)
  have hle : 2 ^ k ≤ 2 ^ 62 := Nat.pow_le_pow_right (by decide) (by omega)
  rw [← BitVec.toNat_inj, toNat_succ_mask hk' hm, BitVec.toNat_shiftLeft, toNat_and_mask hm, Nat.shiftLeft_eq,
    Nat.mod_eq_of_lt (by omega)]
  omega

/-- The increment of the mode: none, half a last place, or one less than a last place. -/
theorem roundIncrementOf_toNat (fs : FloatStatus) (zSign : Bool) (hm : m.toNat = 2 ^ k - 1)
    (hhalf : half.toNat = 2 ^ (k - 1)) : (roundIncrementOf fs zSign half m).toNat =
      match dirOf fs.floatRoundingMode zSign with
      | .nearestEven => 2 ^ (k - 1)
      | .down => 0
      | .up => 2 ^ k - 1 := by
  unfold roundIncrementOf
  cases fs.floatRoundingMode with
  | nearestEven => exact hhalf
  | toZero => rfl
  | up =>
    cases zSign
    · exact hm
    · rfl
  | down =>
    cases zSign
    · rfl
    · exact hm

theorem dirOf_nearest (mode : RoundingMode) (zSign : Bool) : dirOf mode zSign = .nearestEven ↔ mode = .nearestEven := by
  cases mode <;> cases zSign <;> decide

/-- Adding the increment and cutting off rounds; of a tie one more bit is cut off. -/
theorem roundDiv_increment (fs : FloatStatus) (zSign : Bool) (hk : 0 < k) (hm : m.toNat = 2 ^ k - 1)
    (hhalf : half.toNat = 2 ^ (k - 1)) (Z : Nat) : roundDiv (dirOf fs.floatRoundingMode zSign) Z k =
      if fs.floatRoundingMode = .nearestEven ∧ 2 * (Z % 2 ^ k) = 2 ^ k then
        (Z + (roundIncrementOf fs zSign half m).toNat) / 2 ^ (k + 1) * 2
      else (Z + (roundIncrementOf fs zSign half m).toNat) / 2 ^ k := by
  have hpos := Nat.two_pow_pos k
  have hpow : 2 ^ k = 2 * 2 ^ (k - 1) := by rw [← Nat.pow_succ']; congr 1; omega
  have hmod : Z % 2 ^ k < 2 ^ k := Nat.mod_lt _ hpos
  rw [roundIncrementOf_toNat fs zSign hm hhalf]
  simp only [← dirOf_nearest fs.floatRoundingMode zSign]
  cases dirOf fs.floatRoundingMode zSign with
  | nearestEven =>
    simp only [true_and, roundDiv]
    by_cases htie : 2 * (Z % 2 ^ k) = 2 ^ k
    · rw [if_pos htie, if_neg (by omega), if_neg (by omega)]
      have hz := Nat.div_add_mod Z (2 ^ k)
      have hnext : Z + 2 ^ (k - 1) = 2 ^ k * (Z / 2 ^ k + 1) := by
        rw [Nat.mul_add, Nat.mul_one]
        omega
      rw [hnext, Nat.pow_succ, Nat.mul_div_mul_left _ _ hpos]
      omega
    · rw [if_neg htie, add_div_eq hpos (by omega)]
      by_cases hlt : 2 * (Z % 2 ^ k) < 2 ^ k
      · rw [if_pos hlt, if_neg (by omega)]
      · rw [if_neg hlt, if_pos (by omega), if_pos (by omega)]
  | down => rfl
  | up =>
    simp only [reduceCtorEq, false_and, if_false, roundDiv]
    rw [add_div_eq hpos (Nat.sub_le _ _)]
    by_cases hz : Z % 2 ^ k = 0
    · rw [if_pos hz, if_neg (by omega)]
    · rw [if_neg hz, if_pos (by omega)]

/-- .. where the sum fits. -/
theorem toNat_roundOff (fs : FloatStatus) (zSign : Bool) (hk : 0 < k) (hk' : k < 63) (hm : m.toNat = 2 ^ k - 1)
    (hhalf : half.toNat = 2 ^ (k - 1)) (z : BitVec 64)
    (hfit : z.toNat + (roundIncrementOf fs zSign half m).toNat < 2 ^ 64) :
    (roundOff fs m (z &&& m) (z + roundIncrementOf fs zSign half m)).toNat =
      roundDiv (dirOf fs.floatRoundingMode zSign) z.toNat k * 2 ^ k := by
  have hsum : (z + roundIncrementOf fs zSign half m).toNat = z.toNat + (roundIncrementOf fs zSign half m).toNat := by
    rw [BitVec.toNat_add, Nat.mod_eq_of_lt hfit]
  rw [roundDiv_increment fs zSign hk hm hhalf, roundOff]
  simp only [tie_iff hk' hm]
  split
  · rw [toNat_and_not (toNat_mask_or hk' hm), hsum, Nat.pow_succ, Nat.mul_assoc, Nat.mul_comm 2]
  · rw [toNat_and_not hm, hsum]

/-- .. and where it does not, to the next power of two. -/
theorem roundDiv_carry (fs : FloatStatus) (zSign : Bool) (hk : 0 < k) (hk' : k < 64) (hm : m.toNat = 2 ^ k - 1)
    (hhalf : half.toNat = 2 ^ (k - 1)) (z : BitVec 64)
    (hcarry : 2 ^ 64 ≤ z.toNat + (roundIncrementOf fs zSign half m).toNat) :
    roundDiv (dirOf fs.floatRoundingMode zSign) z.toNat k = 2 ^ (64 - k) := by
  have hz := z.isLt
  have hle := (roundDiv_bounds (dirOf fs.floatRoundingMode zSign) z.toNat k).2
  have hpow : 2 ^ 64 = 2 ^ (64 - k) * 2 ^ k := by rw [← Nat.pow_add]; congr 1; omega
  have hpow' : 2 ^ 64 = 2 ^ (63 - k) * 2 ^ (k + 1) := by rw [← Nat.pow_add]; congr 1; omega
  have hdouble : 2 ^ (64 - k) = 2 ^ (63 - k) * 2 := by rw [← Nat.pow_succ]; congr 1; omega
  have hlt : z.toNat / 2 ^ k < 2 ^ (64 - k) := by
    rw [Nat.div_lt_iff_lt_mul (Nat.two_pow_pos k), ← hpow]
    exact hz
  refine Nat.le_antisymm (by omega) ?_
  rw [roundDiv_increment fs zSign hk hm hhalf]
  split
  · rw [hdouble]
    refine Nat.mul_le_mul_right 2 ?_
    rw [Nat.le_div_iff_mul_le (Nat.two_pow_pos _), ← hpow']
    exact hcarry
  · rw [Nat.le_div_iff_mul_le (Nat.two_pow_pos _), ← hpow]
    exact hcarry

end Words

/-! ## Two words of a significand -/

section TwoWords

variable {z0 z1 a a0 a1 : BitVec 64} {count : Nat}

/-- The number the two words make. -/
def joined (z0 z1 : BitVec 64) : Nat := z0.toNat * 2 ^ 64 + z1.toNat

theorem joined_cast (z0 z1 : BitVec 64) : (joined z0 z1 : ℚ) = z0.toNat * 2 ^ 64 + z1.toNat := by
  rw [joined, Nat.cast_add, Nat.cast_mul, Nat.cast_pow]
  rfl

theorem joined_lt (z0 z1 : BitVec 64) : joined z0 z1 < 2 ^ 128 := by
  have h0 := z0.isLt
  have h1 := z1.isLt
  unfold joined
  omega

theorem joined_div (z0 z1 : BitVec 64) : joined z0 z1 / 2 ^ 64 = z0.toNat := by
  have h1 := z1.isLt
  unfold joined
  omega

theorem joined_mod (z0 z1 : BitVec 64) : joined z0 z1 % 2 ^ 64 = z1.toNat := by
  have h1 := z1.isLt
  unfold joined
  omega

theorem shiftLeft_sub (hc : 0 < count) (hc' : count < 64) (a : BitVec 64) :
    (a <<< (64 - count)).toNat = a.toNat % 2 ^ count * 2 ^ (64 - count) := by
  have hpow : 2 ^ 64 = 2 ^ count * 2 ^ (64 - count) := by rw [← Nat.pow_add]; congr 1; omega
  rw [BitVec.toNat_shiftLeft, Nat.shiftLeft_eq, hpow, Nat.mul_mod_mul_right]

theorem shiftLeft_sub_eq_zero (hc : 0 < count) (hc' : count < 64) (a : BitVec 64) :
    a <<< (64 - count) = 0 ↔ a.toNat % 2 ^ count = 0 := by
  rw [← BitVec.toNat_inj, shiftLeft_sub hc hc']
  change _ * _ = 0 ↔ _
  rw [Nat.mul_eq_zero]
  have := Nat.two_pow_pos (64 - count)
  omega

theorem toNat_sticky (p : Prop) [Decidable p] : (if p then 1 else 0 : BitVec 64).toNat = if p then 1 else 0 := by
  split <;> rfl

theorem jam_of_lt {n : Nat} (h : n < 2 ^ count) : jam n count = if n = 0 then 0 else 1 := by
  rw [jam, Nat.mod_eq_of_lt h, Nat.div_eq_of_lt h]
  rfl

theorem shift64RightJamming_toNat (a : BitVec 64) (count : Nat) :
    (shift64RightJamming a count).toNat = jam a.toNat count := by
  rw [shift64RightJamming]
  by_cases hzero : count = 0
  · rw [if_pos hzero, hzero, jam, Nat.pow_zero, Nat.mod_one, if_pos rfl, Nat.div_one]
  · by_cases hlt : count < 64
    · rw [if_neg hzero, if_pos hlt, BitVec.toNat_or, BitVec.toNat_ushiftRight, Nat.shiftRight_eq_div_pow, toNat_sticky, jam]
      by_cases hmod : a.toNat % 2 ^ count = 0
      · rw [if_neg (not_not.mpr ((shiftLeft_sub_eq_zero (by omega) hlt a).mpr hmod)), if_pos hmod, Nat.or_zero]
      · rw [if_pos (mt (shiftLeft_sub_eq_zero (by omega) hlt a).mp hmod), if_neg hmod]
    · have ha : a.toNat < 2 ^ count := Nat.lt_of_lt_of_le a.isLt (Nat.pow_le_pow_right (by decide) (by omega))
      rw [if_neg hzero, if_neg hlt, toNat_sticky, jam_of_lt ha]
      have hne : a ≠ 0 ↔ a.toNat ≠ 0 := by rw [ne_eq, ← BitVec.toNat_inj]; rfl
      by_cases h : a.toNat = 0
      · rw [if_neg (not_not.mpr (by rw [← BitVec.toNat_inj]; exact h)), if_pos h]
      · rw [if_pos (hne.mpr h), if_neg h]

theorem eq_zero_iff (a : BitVec 64) : a = 0 ↔ a.toNat = 0 := by
  rw [← BitVec.toNat_inj]
  rfl

theorem or_eq_zero_iff (a b : BitVec 64) : a ||| b = 0 ↔ a = 0 ∧ b = 0 := BitVec.or_eq_zero_iff

/-- A bit below an even number. -/
theorem mul_or_sticky {n k : Nat} (hk : 0 < k) (s : Nat) (hs : s < 2) : n * 2 ^ k ||| s = n * 2 ^ k + s := by
  rw [← Nat.shiftLeft_eq, Nat.shiftLeft_add_eq_or_of_lt (Nat.lt_of_lt_of_le hs (by
    have := Nat.pow_le_pow_right (show 0 < 2 by decide) hk
    omega))]

/-- What is lost behind the bit after the first word is still there as a sticky bit. -/
theorem same_shift64ExtraRightJamming (a0 a1 : BitVec 64) (count : Nat) :
    Same (2 ^ 63) ((joined a0 a1 : ℚ) / 2 ^ count)
      (joined (shift64ExtraRightJamming a0 a1 count).1 (shift64ExtraRightJamming a0 a1 count).2) := by
  have hpos : (0 : ℚ) < 2 ^ count := by positivity
  have h1 := a1.isLt
  rw [shift64ExtraRightJamming]
  by_cases hzero : count = 0
  · rw [if_pos hzero, hzero, pow_zero, div_one]
    exact .refl _ _
  by_cases hlt : count < 64
  · rw [if_neg hzero, if_pos hlt]
    have hpow : 2 ^ 64 = 2 ^ count * 2 ^ (64 - count) := by rw [← Nat.pow_add]; congr 1; omega
    have hpowq : (2 : ℚ) ^ 64 = 2 ^ count * 2 ^ (64 - count) := by exact_mod_cast hpow
    have hhalf : ((2 ^ (count - 1) : Nat) : ℚ) * 2 ^ (64 - count) = 2 ^ 63 := by
      push_cast
      rw [← pow_add]
      congr 1
      omega
    have hjoin : joined (a0 >>> count) (a0 <<< (64 - count) ||| if a1 ≠ 0 then 1 else 0) =
        a0.toNat * 2 ^ (64 - count) + if a1 ≠ 0 then 1 else 0 := by
      have hdiv := Nat.div_add_mod a0.toNat (2 ^ count)
      rw [joined, BitVec.toNat_or, toNat_sticky, shiftLeft_sub (by omega) hlt, BitVec.toNat_ushiftRight,
        Nat.shiftRight_eq_div_pow, mul_or_sticky (by omega) _ (by split <;> decide), hpow]
      conv_rhs => rw [← hdiv]
      ring
    rw [hjoin, ← hhalf]
    refine Same.mono (by positivity) (Nat.two_pow_pos _) ?_
    by_cases hrest : a1 = 0
    · rw [if_neg (not_not.mpr hrest)]
      refine .inl ?_
      rw [joined_cast, (eq_zero_iff a1).mp hrest, div_eq_iff hpos.ne', hpowq]
      push_cast
      ring
    · rw [if_pos hrest]
      have hnat : 0 < a1.toNat := Nat.pos_of_ne_zero (mt (eq_zero_iff a1).mpr hrest)
      have hlo : (0 : ℚ) < a1.toNat := by exact_mod_cast hnat
      have hhi : (a1.toNat : ℚ) < 2 ^ count * 2 ^ (64 - count) := by
        rw [← hpowq]
        exact_mod_cast h1
      have hone : (1 : ℚ) < 2 ^ (64 - count) := one_lt_pow₀ (by norm_num) (by omega)
      refine .inr ⟨a0.toNat, ⟨?_, ?_⟩, ?_, ?_⟩
      · rw [lt_div_iff₀ hpos, joined_cast, hpowq]
        linarith
      · rw [div_lt_iff₀ hpos, joined_cast, hpowq]
        linarith
      · push_cast
        linarith
      · push_cast
        linarith
  by_cases hword : count = 64
  · rw [if_neg hzero, if_neg hlt, if_pos hword]
    have hjam : joined 0 (a0 ||| if a1 ≠ 0 then 1 else 0) = jam (joined a0 a1) 64 := by
      have hlow : ∀ x : BitVec 64, joined 0 x = x.toNat := fun x => by simp [joined]
      rw [hlow, BitVec.toNat_or, toNat_sticky, jam, joined_mod, joined_div]
      by_cases hrest : a1 = 0
      · rw [if_neg (not_not.mpr hrest), if_pos ((eq_zero_iff a1).mp hrest), Nat.or_zero]
      · rw [if_pos hrest, if_neg (mt (eq_zero_iff a1).mpr hrest)]
    rw [hjam, hword, show (2 : ℚ) ^ 63 = ((2 ^ 62 : Nat) : ℚ) * 2 by norm_num]
    exact Same.mono (by norm_num) (by decide) (same_jam _ _)
  · rw [if_neg hzero, if_neg hlt, if_neg hword]
    have hlow : joined 0 (if a0 ||| a1 ≠ 0 then 1 else 0) = if a0 ||| a1 ≠ 0 then 1 else 0 := by
      rw [joined, toNat_sticky]
      exact Nat.zero_add _
    rw [hlow]
    by_cases hrest : a0 ||| a1 = 0
    · obtain ⟨h0, h1⟩ := (or_eq_zero_iff a0 a1).mp hrest
      rw [if_neg (not_not.mpr hrest), h0, h1]
      exact .inl (by simp [joined])
    · rw [if_pos hrest]
      have hnat : 0 < joined a0 a1 := by
        refine Nat.pos_of_ne_zero fun h => hrest ((or_eq_zero_iff a0 a1).mpr ?_)
        rw [eq_zero_iff, eq_zero_iff]
        unfold joined at h
        omega
      have hlo : (0 : ℚ) < joined a0 a1 := by exact_mod_cast hnat
      have hhi : (joined a0 a1 : ℚ) < 2 ^ 128 := by exact_mod_cast joined_lt a0 a1
      have hbig : (2 : ℚ) ^ 128 ≤ 2 ^ 63 * 2 ^ count := by
        rw [← pow_add]
        exact pow_le_pow_right₀ (by norm_num) (by omega)
      refine .inr ⟨0, ⟨?_, ?_⟩, ?_, ?_⟩
      · simpa using div_pos hlo hpos
      · rw [div_lt_iff₀ hpos]
        push_cast
        linarith
      · norm_num
      · norm_num

end TwoWords

/-! ## Extended precision -/

section Extended

variable {fs : FloatStatus} {zSign : Bool} {zExp : Int} {z0 z1 : BitVec 64} {X : ℚ}

theorem shiftLeft_one_eq_zero (z1 : BitVec 64) : z1 <<< 1 = 0 ↔ z1.toNat = 0 ∨ z1.toNat = 2 ^ 63 := by
  have h := z1.isLt
  rw [eq_zero_iff, BitVec.toNat_shiftLeft, Nat.shiftLeft_eq]
  omega

theorem msb_iff (z : BitVec 64) : z.msb = true ↔ 2 ^ 63 ≤ z.toNat := by
  rw [BitVec.msb_eq_decide, decide_eq_true_iff]

theorem bne_zero_iff (z : BitVec 64) : (z != 0) = true ↔ z.toNat ≠ 0 := by
  rw [bne_iff_ne, ne_eq, eq_zero_iff]

/-- Two words rounded to one. -/
theorem roundDiv_joined (fs : FloatStatus) (zSign : Bool) (z0 z1 : BitVec 64) :
    roundDiv (dirOf fs.floatRoundingMode zSign) (joined z0 z1) 64 =
      if incrementOf fs zSign z1 = true then
        if fs.floatRoundingMode = .nearestEven ∧ z1 <<< 1 = 0 then z0.toNat + z0.toNat % 2 else z0.toNat + 1
      else z0.toNat := by
  have h1 := z1.isLt
  have hnz := bne_zero_iff z1
  simp only [shiftLeft_one_eq_zero]
  unfold roundDiv incrementOf
  rw [joined_div, joined_mod]
  cases fs.floatRoundingMode with
  | nearestEven =>
    simp only [dirOf, msb_iff, true_and]
    split_ifs <;> omega
  | toZero => rfl
  | up =>
    cases zSign
    · simp only [dirOf, Bool.not_false, Bool.true_and, hnz, Bool.false_eq_true, if_false, reduceCtorEq, false_and]
      split_ifs <;> omega
    · rfl
  | down =>
    cases zSign
    · rfl
    · simp only [dirOf, Bool.true_and, hnz, if_true, reduceCtorEq, false_and, if_false]
      split_ifs <;> omega

theorem toNat_stepUp (h : z0.toNat + 1 < 2 ^ 64) : (stepUp fs z0 z1).toNat =
    if fs.floatRoundingMode = .nearestEven ∧ z1 <<< 1 = 0 then z0.toNat + z0.toNat % 2 else z0.toNat + 1 := by
  have hsum : (z0 + 1).toNat = z0.toNat + 1 := by
    rw [BitVec.toNat_add]
    exact Nat.mod_eq_of_lt h
  rw [stepUp]
  split
  · rw [toNat_and_not (k := 1) (by decide), hsum]
    omega
  · exact hsum

/-- The word that is packed. -/
theorem toNat_rounded (h : z0.toNat + 1 < 2 ^ 64) :
    (if incrementOf fs zSign z1 = true then stepUp fs z0 z1 else z0).toNat =
      roundDiv (dirOf fs.floatRoundingMode zSign) (joined z0 z1) 64 := by
  rw [roundDiv_joined]
  split
  · exact toNat_stepUp h
  · rfl

/-- The flags where nothing overflows. -/
theorem flagsFor_of_le {f : Format} {x y : ℚ} {u i : Prop} [Decidable u] [Decidable i] (hle : y ≤ f.max)
    (hu : x < f.normal ↔ u) (hi : y ≠ x ↔ i) :
    (if u then floatFlagUnderflow else 0) ||| (if i then floatFlagInexact else 0) = flagsFor f x y := by
  rw [flagsFor, if_neg (not_lt.mpr hle)]
  simp only [hu, hi]

theorem flagsFor_of_lt {f : Format} {x y : ℚ} {i : Prop} [Decidable i] (hlt : f.max < y) (hi : y ≠ x ↔ i) :
    floatFlagOverflow ||| (if i then floatFlagInexact else 0) = flagsFor f x y := by
  rw [flagsFor, if_pos hlt]
  simp only [hi]

theorem packedAs_of_le {f : Format} {mode : RoundingMode} {y : ℚ} {zSig : BitVec 64} (h : 0 ≤ zExp) (h' : zExp < 0x7FFF)
    (hle : y ≤ f.max) (hy : (zSig.toNat : ℚ) * 2 ^ (zExp - 16446) = y) :
    PackedAs f mode zSign y (packFloatx80 zSign zExp zSig) := by
  refine ⟨sign_packFloatx80 h (by omega), fun _ => ⟨?_, ?_⟩, fun hlt => absurd hlt (not_lt.mpr hle),
    fun hlt => absurd hlt (not_lt.mpr hle)⟩
  · rw [exp_packFloatx80 h (by omega)]
    omega
  · rw [magnitude_packFloatx80 h (by omega), hy]

theorem packedAs_of_lt {f : Format} {mode : RoundingMode} {y : ℚ} {zSig : BitVec 64} (h : 0 ≤ zExp) (h' : zExp < 0x7FFF)
    (hlt : f.max < y) (hmax : (zSig.toNat : ℚ) * 2 ^ (zExp - 16446) = f.max) :
    PackedAs f mode zSign y (if towardZero mode zSign then packFloatx80 zSign zExp zSig else packFloatx80 zSign 0x7FFF 0) := by
  refine ⟨?_, fun hle => absurd hlt (not_lt.mpr hle), fun _ ht => ?_, fun _ ht => ?_⟩
  · split
    · exact sign_packFloatx80 h (by omega)
    · exact sign_packFloatx80 (by decide) (by decide)
  · rw [if_pos ht, exp_packFloatx80 h (by omega), magnitude_packFloatx80 h (by omega)]
    exact ⟨by omega, hmax⟩
  · rw [if_neg (by rw [ht]; decide), exp_packFloatx80 (by decide) (by decide), frac_packFloatx80]
    exact ⟨rfl, rfl⟩

theorem zpow_le {i j : Int} (h : i ≤ j) : (2 : ℚ) ^ i ≤ 2 ^ j := zpow_le_zpow_right₀ (by norm_num) h

theorem mul_zpow_le {x y : ℚ} {i j : Int} (hy : 0 ≤ y) (hxy : x ≤ y) (hij : i ≤ j) : x * 2 ^ i ≤ y * 2 ^ j :=
  mul_le_mul hxy (zpow_le hij) (two_zpow_pos i).le hy

theorem mul_zpow_succ (x : ℚ) (i : Int) : x * 2 ^ (i + 1) = 2 * x * 2 ^ i := by
  rw [zpow_add_one₀ (by norm_num)]
  ring

/-- Below the largest exponent there is no overflow. -/
theorem Format.le_max {f : Format} {n : Nat} {e : Int} (hp : 0 < f.p) (hn : n ≤ 2 ^ f.p) (he : e < f.emax) :
    (n : ℚ) * 2 ^ e ≤ f.max := by
  have hnq : (n : ℚ) ≤ 2 ^ f.p := by exact_mod_cast hn
  have hstep : (2 : ℚ) ^ f.emax = 2 * 2 ^ (f.emax - 1) := by
    rw [← zpow_one_add₀ (by norm_num)]
    congr 1
    omega
  have hone : (1 : ℚ) * 2 ≤ 2 ^ f.p := by
    rw [one_mul]
    exact le_self_pow₀ (by norm_num) (by omega)
  calc (n : ℚ) * 2 ^ e ≤ 2 ^ f.p * 2 ^ (f.emax - 1) := mul_zpow_le (by positivity) hnq (by omega)
    _ ≤ (2 ^ f.p - 1) * 2 * 2 ^ (f.emax - 1) := mul_le_mul_of_nonneg_right (by linarith) (two_zpow_pos _).le
    _ = f.max := by rw [Format.max, hstep, mul_assoc]

/-- At the largest one there is none below a carry. -/
theorem Format.le_max_of_lt {f : Format} {n : Nat} {e : Int} (hn : n < 2 ^ f.p) (he : e ≤ f.emax) :
    (n : ℚ) * 2 ^ e ≤ f.max := by
  have hnq : (n : ℚ) + 1 ≤ 2 ^ f.p := by exact_mod_cast hn
  have hn0 : (0 : ℚ) ≤ n := by positivity
  exact mul_zpow_le (by linarith) (by linarith) he

/-- Behind it everything overflows. -/
theorem Format.max_lt {f : Format} {n : Nat} {e : Int} (hp : 0 < f.p) (hn : 2 ^ (f.p - 1) ≤ n) (he : f.emax < e) :
    f.max < n * 2 ^ e := by
  have hnq : (2 : ℚ) ^ (f.p - 1) ≤ n := by exact_mod_cast hn
  have hpow : (2 : ℚ) ^ f.p = 2 * 2 ^ (f.p - 1) := by rw [← pow_succ']; congr 1; omega
  calc f.max < 2 ^ f.p * 2 ^ f.emax := mul_lt_mul_of_pos_right (by linarith) (two_zpow_pos _)
    _ = 2 ^ (f.p - 1) * 2 ^ (f.emax + 1) := by rw [hpow, mul_zpow_succ]
    _ ≤ n * 2 ^ e := mul_zpow_le (by positivity) hnq (by omega)

/-- A carry at the largest exponent overflows. -/
theorem Format.max_lt_carry (f : Format) : f.max < ((2 ^ f.p : Nat) : ℚ) * 2 ^ f.emax := by
  rw [Nat.cast_pow, Nat.cast_ofNat]
  exact mul_lt_mul_of_pos_right (by linarith) (two_zpow_pos _)

/-- Two words with the highest bit set, in units that are `2 ^ 64` below the last place. -/
theorem inBinade_joined (hz : z0.msb = true) (hX : Same (2 ^ 63) X (joined z0 z1)) (h : 0 ≤ zExp) :
    InBinade extendedFormat.p extendedFormat.emin (zExp - 16510 + (64 : Nat)) (X * 2 ^ (zExp - 16510)) (joined z0 z1 / 2 ^ 64) := by
  refine inBinade_of_same (k := 64) (by decide) hX (joined_lt z0 z1) (by change (-16446 : Int) ≤ _; omega) (.inr ?_)
  have h0 := (msb_iff z0).mp hz
  change 2 ^ 127 ≤ joined z0 z1
  unfold joined
  omega

theorem rounds_joined {V : ℚ} {w k : Nat} {e : Int} {f : Format} {n : Nat} (hp : 1 < f.p) (hk : 0 < k)
    (h : Same (2 ^ (k - 1)) V w) (hb : InBinade f.p f.emin (e + k) (V * 2 ^ e) n) (d : Dir) :
    Rounds f.p f.emin d (V * 2 ^ e) (roundDiv d w k * 2 ^ (e + k)) := by
  have hr := hb.rounds hp d
  rwa [roundInt_of_same d hk h] at hr

theorem nonneg_of_same {g : ℚ} (hg : 0 < g) {w : Nat} (h : Same g X w) : 0 ≤ X := by
  have hle := h.le_of_le (a := 0) hg (by rw [Nat.cast_zero, zero_mul]; positivity)
  rwa [Nat.cast_zero, zero_mul] at hle

/-- Something is rounded off where the second word is not zero. -/
theorem inexact_joined (d : Dir) (hX : Same (2 ^ 63) X (joined z0 z1)) (e : Int) :
    (roundDiv d (joined z0 z1) 64 : ℚ) * 2 ^ (e + (64 : Nat)) ≠ X * 2 ^ e ↔ z1 ≠ 0 := by
  rw [ne_eq, exact_iff_of_same (k := 64) d (by decide) (nonneg_of_same (by positivity) hX) hX, joined_mod, ne_eq, eq_zero_iff]

/-- Below the smallest exponent. -/
theorem packed_tiny {w0 w1 : BitVec 64} (hneg : zExp < 0) (hX : Same (2 ^ 63) X (joined z0 z1))
    (hjam : Same (2 ^ 63) ((joined z0 z1 : ℚ) / 2 ^ (-zExp).toNat) (joined w0 w1)) :
    Packed extendedFormat fs.floatRoundingMode zSign (X * 2 ^ (zExp - 16510))
      (packFloatx80 zSign 0 (if incrementOf fs zSign w1 = true then stepUp fs w0 w1 else w0),
        floatFlagUnderflow ||| (if w1 ≠ 0 then floatFlagInexact else 0)) := by
  obtain ⟨s, hs⟩ : ∃ s : Nat, zExp = -s := ⟨(-zExp).toNat, by omega⟩
  subst hs
  have hcount : (-(-(s : Int))).toNat = s := by omega
  rw [hcount] at hjam
  have hpos : (0 : ℚ) < 2 ^ s := by positivity
  -- `X` shifted is what the two words stand for
  have hshift : Same (2 ^ 63) (X / 2 ^ s) (joined w0 w1) := by
    refine Same.trans (by positivity) ?_ hjam
    have hscale := hX.scale (show (0 : ℚ) < 1 / 2 ^ s by positivity)
    have hcoarse := hscale.mono (by positivity) (Nat.two_pow_pos s)
    have hgrid : ((2 ^ s : Nat) : ℚ) * (1 / 2 ^ s * 2 ^ 63) = 2 ^ 63 := by
      rw [Nat.cast_pow, Nat.cast_ofNat]
      field_simp
    rwa [hgrid, one_div_mul_eq_div, one_div_mul_eq_div] at hcoarse
  have hx : X * 2 ^ (-(s : Int) - 16510) = X / 2 ^ s * 2 ^ (-16510 : Int) := by
    rw [sub_eq_add_neg, zpow_add₀ (by norm_num), zpow_neg, zpow_natCast]
    ring
  have hX0 := nonneg_of_same (by positivity) hX
  have hhalf : X / 2 ^ s < 2 ^ 127 := by
    have hlt : X < 2 ^ 128 := by
      have h := hX.lt_of_lt (a := 2 ^ 65) (by positivity) (by
        have := joined_lt z0 z1
        have hq : (joined z0 z1 : ℚ) < 2 ^ 128 := by exact_mod_cast this
        calc (joined z0 z1 : ℚ) < 2 ^ 128 := hq
          _ = ((2 ^ 65 : Nat) : ℚ) * 2 ^ 63 := by norm_num)
      calc X < ((2 ^ 65 : Nat) : ℚ) * 2 ^ 63 := h
        _ = 2 ^ 128 := by norm_num
    rw [div_lt_iff₀ hpos]
    have htwo : (2 : ℚ) ^ 1 ≤ 2 ^ s := pow_le_pow_right₀ (by norm_num) (by omega)
    calc X < 2 ^ 127 * 2 ^ 1 := by rw [← pow_add]; exact hlt
      _ ≤ 2 ^ 127 * 2 ^ s := mul_le_mul_of_nonneg_left htwo (by positivity)
  have hw0 : w0.toNat + 1 < 2 ^ 64 := by
    have hlt : joined w0 w1 < 2 ^ 127 := by
      have h := hshift.symm.lt_of_lt (a := 2 ^ 64) (by positivity) (by
        calc X / 2 ^ s < 2 ^ 127 := hhalf
          _ = ((2 ^ 64 : Nat) : ℚ) * 2 ^ 63 := by norm_num)
      have h' : (joined w0 w1 : ℚ) < ((2 ^ 127 : Nat) : ℚ) := by
        calc (joined w0 w1 : ℚ) < ((2 ^ 64 : Nat) : ℚ) * 2 ^ 63 := h
          _ = ((2 ^ 127 : Nat) : ℚ) := by norm_num
      exact_mod_cast h'
    unfold joined at hlt
    omega
  have hbin : InBinade extendedFormat.p extendedFormat.emin (-16510 + (64 : Nat)) (X / 2 ^ s * 2 ^ (-16510 : Int))
      (joined w0 w1 / 2 ^ 64) :=
    inBinade_of_same (k := 64) (by decide) hshift (joined_lt w0 w1) (by decide) (.inl rfl)
  have hrounds := rounds_joined (k := 64) (by decide) (by decide) hshift hbin (dirOf fs.floatRoundingMode zSign)
  have hinexact := inexact_joined (dirOf fs.floatRoundingMode zSign) hshift (-16510)
  have hround : (if incrementOf fs zSign w1 = true then stepUp fs w0 w1 else w0).toNat = _ := toNat_rounded hw0
  have hle : (roundDiv (dirOf fs.floatRoundingMode zSign) (joined w0 w1) 64 : ℚ) * 2 ^ (-16510 + (64 : Nat) : Int) ≤
      extendedFormat.max := by
    refine Format.le_max (by decide) ?_ (by decide)
    have hb := roundDiv_bounds (dirOf fs.floatRoundingMode zSign) (joined w0 w1) 64
    rw [joined_div] at hb
    change _ ≤ 2 ^ 64
    omega
  have htiny : X / 2 ^ s * 2 ^ (-16510 : Int) < extendedFormat.normal := by
    have hnormal : extendedFormat.normal = 2 ^ 127 * 2 ^ (-16510 : Int) := by
      change (2 : ℚ) ^ 63 * 2 ^ (-16446 : Int) = _
      rw [show (-16446 : Int) = -16510 + (64 : Nat) by norm_num, two_zpow_add_natCast]
      ring
    rw [hnormal]
    exact mul_lt_mul_of_pos_right hhalf (two_zpow_pos _)
  rw [hx]
  refine ⟨_, hrounds, packedAs_of_le (by decide) (by decide) hle (by rw [hround]; rfl), ?_⟩
  rw [← flagsFor_of_le (u := True) hle (iff_of_true htiny trivial) hinexact, if_pos trivial]

theorem roundExtended_packed (hz : z0.msb = true) (hX : Same (2 ^ 63) X (joined z0 z1)) :
    Packed extendedFormat fs.floatRoundingMode zSign (X * 2 ^ (zExp - 16510)) (roundExtended fs zSign zExp z0 z1) := by
  have h0 := (msb_iff z0).mp hz
  have hlt0 := z0.isLt
  have hR := roundDiv_joined fs zSign z0 z1
  have hbounds := roundDiv_bounds (dirOf fs.floatRoundingMode zSign) (joined z0 z1) 64
  rw [joined_div] at hbounds
  unfold roundExtended
  dsimp only
  by_cases hneg : zExp < 0
  · -- at exponent 0 after the shift
    rw [if_neg (by omega), if_pos hneg]
    have hjam := same_shift64ExtraRightJamming z0 z1 (-zExp).toNat
    generalize shift64ExtraRightJamming z0 z1 (-zExp).toNat = w at *
    exact packed_tiny hneg hX hjam
  have hexp : zExp - 16510 + (64 : Nat) = zExp - 16446 := by omega
  have hrounds := rounds_joined (k := 64) (by decide) (by decide) hX (inBinade_joined hz hX (Int.not_lt.mp hneg))
    (dirOf fs.floatRoundingMode zSign)
  have hinexact := inexact_joined (dirOf fs.floatRoundingMode zSign) hX (zExp - 16510)
  have hnormal : extendedFormat.normal ≤ X * 2 ^ (zExp - 16510) := by
    refine le_trans ?_ (inBinade_joined hz hX (Int.not_lt.mp hneg)).lo
    rw [joined_div, hexp]
    exact mul_zpow_le (by positivity) (by exact_mod_cast h0) (by change (-16446 : Int) ≤ _; omega)
  rw [hexp] at hrounds hinexact
  -- what carries is an odd number of last places, all bits set
  have hcarry : z0 = 0xFFFFFFFFFFFFFFFF → incrementOf fs zSign z1 = true →
      roundDiv (dirOf fs.floatRoundingMode zSign) (joined z0 z1) 64 = 2 ^ 64 := by
    intro hall hinc
    rw [hR, if_pos hinc, hall]
    split <;> rfl
  generalize hRdef : roundDiv (dirOf fs.floatRoundingMode zSign) (joined z0 z1) 64 = R at *
  refine ⟨_, hrounds, ?_⟩
  by_cases hover : 0x7FFE < zExp ∨ zExp = 0x7FFE ∧ z0 = 0xFFFFFFFFFFFFFFFF ∧ incrementOf fs zSign z1 = true
  · rw [if_pos hover]
    have hlt : extendedFormat.max < R * 2 ^ (zExp - 16446) := by
      rcases hover with hlarge | ⟨heq, hall, hinc⟩
      · exact Format.max_lt (by decide) (by change 2 ^ 63 ≤ R; omega) (by change 16320 < _; omega)
      · rw [heq, hcarry hall hinc]
        exact extendedFormat.max_lt_carry
    refine ⟨packedAs_of_lt (by decide) (by decide) hlt ?_, flagsFor_of_lt hlt hinexact⟩
    rw [show (~~~0 : BitVec 64).toNat = 2 ^ 64 - 1 by decide, Nat.cast_sub (by decide), Nat.cast_pow, Nat.cast_one,
      Nat.cast_ofNat, Format.max]
    rfl
  · rw [if_neg hover, if_neg hneg]
    have hle : R * 2 ^ (zExp - 16446) ≤ extendedFormat.max := by
      by_cases hlast : zExp = 0x7FFE
      · have hRlt : R ≤ 2 ^ 64 - 1 := by
          by_cases hinc : incrementOf fs zSign z1 = true
          · have hne : z0.toNat ≠ 2 ^ 64 - 1 := fun h => hover (.inr ⟨hlast, BitVec.eq_of_toNat_eq h, hinc⟩)
            omega
          · rw [if_neg hinc] at hR
            omega
        exact Format.le_max_of_lt (by change R < 2 ^ 64; omega) (by change _ ≤ (16320 : Int); omega)
      · exact Format.le_max (by decide) (by change R ≤ 2 ^ 64; omega) (by change _ < (16320 : Int); omega)
    have hflags : (if z1 ≠ 0 then floatFlagInexact else 0) =
        flagsFor extendedFormat (X * 2 ^ (zExp - 16510)) (R * 2 ^ (zExp - 16446)) := by
      rw [← flagsFor_of_le (u := False) hle (iff_of_false (not_lt.mpr hnormal) id) hinexact, if_neg id]
      exact BitVec.zero_or.symm
    by_cases hinc : incrementOf fs zSign z1 = true
    · rw [if_pos hinc]
      by_cases hwrap : z0 + 1 = 0
      · have hall : z0 = 0xFFFFFFFFFFFFFFFF := by
          rw [← BitVec.add_sub_cancel z0 1, hwrap]
          rfl
        have hlt : zExp < 0x7FFE := by
          refine Int.not_le.mp fun hge => hover ?_
          rcases Int.lt_or_eq_of_le hge with h | h
          · exact .inl h
          · exact .inr ⟨h.symm, hall, hinc⟩
        rw [if_pos hwrap]
        refine ⟨packedAs_of_le (by omega) (by omega) hle ?_, hflags⟩
        rw [hcarry hall hinc, show zExp + 1 - 16446 = zExp - 16446 + 1 by omega, mul_zpow_succ,
          show (0x8000000000000000 : BitVec 64).toNat = 2 ^ 63 by decide]
        norm_num
      · have hfit : z0.toNat + 1 < 2 ^ 64 := by
          refine Nat.lt_of_le_of_ne hlt0 fun h => hwrap ?_
          rw [eq_zero_iff, BitVec.toNat_add]
          change (z0.toNat + 1) % 2 ^ 64 = 0
          omega
        have hround : (stepUp fs z0 z1).toNat = R := by
          rw [toNat_stepUp hfit, hR, if_pos hinc]
        rw [if_neg hwrap]
        exact ⟨packedAs_of_le (Int.not_lt.mp hneg) (by omega) hle (by rw [hround]), hflags⟩
    · have hne : z0 ≠ 0 := by
        rw [ne_eq, eq_zero_iff]
        omega
      rw [if_neg hinc, if_neg hne]
      rw [if_neg hinc] at hR
      exact ⟨packedAs_of_le (Int.not_lt.mp hneg) (by omega) hle (by rw [hR]), hflags⟩

end Extended

/-! ## A narrower precision -/

section Narrow

variable {fs : FloatStatus} {zSign : Bool} {zExp expOffset : Int} {z0 z1 half m : BitVec 64} {X V : ℚ} {k : Nat}

/-- The format of a precision that cuts off `k` bits of a word. -/
def narrow (k : Nat) (expOffset : Int) : Format := ⟨64 - k, expOffset + 1 - 16446 + k, 0x7FFE - expOffset - 16446 + k⟩

/-- `zSig0 |= (zSig1 != 0)`. -/
theorem toNat_or_sticky (z0 z1 : BitVec 64) :
    (z0 ||| (if z1 ≠ 0 then 1 else 0)).toNat = jam (joined z0 z1) 64 := by
  rw [BitVec.toNat_or, toNat_sticky, jam, joined_mod, joined_div]
  by_cases hrest : z1 = 0
  · rw [if_neg (not_not.mpr hrest), if_pos ((eq_zero_iff z1).mp hrest), Nat.or_zero]
  · rw [if_pos hrest, if_neg (mt (eq_zero_iff z1).mpr hrest)]

theorem same_word (hX : Same (2 ^ 63) X (joined z0 z1)) :
    Same 2 (X / 2 ^ 64) (z0 ||| (if z1 ≠ 0 then 1 else 0)).toNat := by
  rw [toNat_or_sticky]
  refine Same.trans (by norm_num) ?_ (same_jam (joined z0 z1) 64)
  have hscale := hX.scale (show (0 : ℚ) < 1 / 2 ^ 64 by positivity)
  have hcoarse := hscale.mono (by positivity) (show 0 < 4 by decide)
  have hgrid : ((4 : Nat) : ℚ) * (1 / 2 ^ 64 * 2 ^ 63) = 2 := by norm_num
  rwa [hgrid, one_div_mul_eq_div, one_div_mul_eq_div] at hcoarse

/-- A grid of one place, seen from the rounding bit. -/
theorem same_round {w : Nat} (hk : 2 ≤ k) (h : Same 2 V w) : Same (2 ^ (k - 1)) V w := by
  have hcoarse := h.mono (by norm_num) (Nat.two_pow_pos (k - 2))
  have hgrid : ((2 ^ (k - 2) : Nat) : ℚ) * 2 = 2 ^ (k - 1) := by
    rw [Nat.cast_pow, Nat.cast_ofNat, ← pow_succ]
    congr 1
    omega
  rwa [hgrid] at hcoarse

theorem inexact_word (d : Dir) (hk : 2 ≤ k) (hm : m.toNat = 2 ^ k - 1) {z : BitVec 64} (h : Same 2 V z.toNat) (e : Int) :
    (roundDiv d z.toNat k : ℚ) * 2 ^ (e + k) ≠ V * 2 ^ e ↔ z &&& m ≠ 0 := by
  rw [ne_eq, exact_iff_of_same (k := k) d (by omega) (nonneg_of_same (by norm_num) h) (same_round hk h), ne_eq,
    eq_zero_iff, toNat_and_mask hm]

theorem two_pow_le_iff {z : BitVec 64} (hz : z.msb = true) (hk : k < 64) : 2 ^ (64 - k - 1 + k) ≤ z.toNat := by
  rw [show 64 - k - 1 + k = 63 by omega]
  exact (msb_iff z).mp hz

theorem msb_or_sticky (z1 : BitVec 64) (hz : z0.msb = true) : (z0 ||| (if z1 ≠ 0 then 1 else 0)).msb = true := by
  rw [BitVec.msb_or, hz, Bool.true_or]

theorem narrow_normal (hk : k < 64) : (narrow k expOffset).normal = 2 ^ 63 * 2 ^ (expOffset + 1 - 16446) := by
  change (2 : ℚ) ^ (64 - k - 1) * 2 ^ (expOffset + 1 - 16446 + k) = _
  rw [two_zpow_add_natCast, ← mul_assoc, ← pow_add]
  congr 2
  omega

theorem toNat_increment_lt (fs : FloatStatus) (zSign : Bool) (hk : 2 ≤ k) (hk' : k < 63) (hm : m.toNat = 2 ^ k - 1)
    (hhalf : half.toNat = 2 ^ (k - 1)) : (roundIncrementOf fs zSign half m).toNat < 2 ^ 63 := by
  have hpow : 2 ^ k < 2 ^ 63 := Nat.pow_lt_pow_right (by decide) hk'
  have hpow' : 2 ^ (k - 1) < 2 ^ k := Nat.pow_lt_pow_right (by decide) (by omega)
  rw [roundIncrementOf_toNat fs zSign hm hhalf]
  split
  · exact hpow'.trans hpow
  · exact Nat.two_pow_pos 63
  · exact (Nat.sub_le _ _).trans_lt hpow

/-- The largest significand. -/
theorem toNat_not_mask (hk : k < 64) (hm : m.toNat = 2 ^ k - 1) : (~~~m).toNat = (2 ^ (64 - k) - 1) * 2 ^ k := by
  have hpow : 2 ^ 64 = 2 ^ (64 - k) * 2 ^ k := by rw [← Nat.pow_add]; congr 1; omega
  have hpos := Nat.two_pow_pos k
  rw [BitVec.toNat_not, hm, Nat.sub_mul, Nat.one_mul, ← hpow]
  omega

/-- After a carry. -/
theorem toNat_roundOff_carried (fs : FloatStatus) (hk' : k < 63) (hm : m.toNat = 2 ^ k - 1) (bits : BitVec 64) :
    (roundOff fs m bits 0x8000000000000000).toNat = 2 ^ 63 := by
  have hcut : ∀ j : Nat, j ≤ 63 → 2 ^ 63 / 2 ^ j * 2 ^ j = 2 ^ 63 := fun j hj =>
    Nat.div_mul_cancel (Nat.pow_dvd_pow 2 hj)
  rw [roundOff]
  split
  · rw [toNat_and_not (toNat_mask_or hk' hm)]
    exact hcut (k + 1) hk'
  · rw [toNat_and_not hm]
    exact hcut k hk'.le

variable (hk : 2 ≤ k) (hk' : k < 63) (hm : m.toNat = 2 ^ k - 1) (hhalf : half.toNat = 2 ^ (k - 1))
  (hoff : 0 ≤ expOffset) (hoff' : expOffset < 0x3FFF)

include hk hk' hm hhalf hoff hoff'

/-- Below the smallest exponent of the precision. -/
theorem packed_narrow_tiny {z : BitVec 64} (hV : Same 2 V z.toNat) (hneg : zExp < expOffset + 1) :
    Packed (narrow k expOffset) fs.floatRoundingMode zSign (V * 2 ^ (zExp - 16446))
      (let w := shift64RightJamming z (expOffset + 1 - zExp).toNat
      (packFloatx80 zSign (expOffset + 1) (roundOff fs m (w &&& m) (w + roundIncrementOf fs zSign half m)),
        floatFlagUnderflow ||| (if w &&& m ≠ 0 then floatFlagInexact else 0))) := by
  obtain ⟨s, hs⟩ : ∃ s : Nat, zExp = expOffset + 1 - s := ⟨(expOffset + 1 - zExp).toNat, by omega⟩
  subst hs
  have hcount : (expOffset + 1 - (expOffset + 1 - (s : Int))).toNat = s := by omega
  have hpos : (0 : ℚ) < 2 ^ s := by positivity
  have hzlt := z.isLt
  dsimp only
  rw [hcount]
  -- `V` shifted is what the word stands for
  have hjam := same_jam z.toNat s
  rw [← shift64RightJamming_toNat] at hjam
  have hW : Same 2 (V / 2 ^ s) (shift64RightJamming z s).toNat := by
    refine Same.trans (by norm_num) ?_ hjam
    have hscale := hV.scale (show (0 : ℚ) < 1 / 2 ^ s by positivity)
    have hcoarse := hscale.mono (by positivity) (Nat.two_pow_pos s)
    have hgrid : ((2 ^ s : Nat) : ℚ) * (1 / 2 ^ s * 2) = 2 := by
      rw [Nat.cast_pow, Nat.cast_ofNat]
      field_simp
    rwa [hgrid, one_div_mul_eq_div, one_div_mul_eq_div] at hcoarse
  generalize shift64RightJamming z s = w at *
  have hx : V * 2 ^ (expOffset + 1 - (s : Int) - 16446) = V / 2 ^ s * 2 ^ (expOffset + 1 - 16446) := by
    rw [show expOffset + 1 - 16446 = expOffset + 1 - (s : Int) - 16446 + s by omega, two_zpow_add_natCast]
    field_simp
  have hsmall : V / 2 ^ s < 2 ^ 63 := by
    have hlt : V < 2 ^ 64 := by
      have h := hV.lt_of_lt (a := 2 ^ 63) (by norm_num) (by
        have hq : (z.toNat : ℚ) < ((2 ^ 64 : Nat) : ℚ) := by exact_mod_cast hzlt
        calc (z.toNat : ℚ) < ((2 ^ 64 : Nat) : ℚ) := hq
          _ = ((2 ^ 63 : Nat) : ℚ) * 2 := by norm_num)
      calc V < ((2 ^ 63 : Nat) : ℚ) * 2 := h
        _ = 2 ^ 64 := by norm_num
    have htwo : (2 : ℚ) ^ 1 ≤ 2 ^ s := pow_le_pow_right₀ (by norm_num) (by omega)
    rw [div_lt_iff₀ hpos]
    calc V < 2 ^ 63 * 2 ^ 1 := by rw [← pow_add]; exact hlt
      _ ≤ 2 ^ 63 * 2 ^ s := mul_le_mul_of_nonneg_left htwo (by positivity)
  have hwlt : w.toNat < 2 ^ 63 := by
    have h := hW.symm.lt_of_lt (a := 2 ^ 62) (by norm_num) (by
      calc V / 2 ^ s < 2 ^ 63 := hsmall
        _ = ((2 ^ 62 : Nat) : ℚ) * 2 := by norm_num)
    have hq : (w.toNat : ℚ) < ((2 ^ 63 : Nat) : ℚ) := by
      calc (w.toNat : ℚ) < ((2 ^ 62 : Nat) : ℚ) * 2 := h
        _ = ((2 ^ 63 : Nat) : ℚ) := by norm_num
    exact_mod_cast hq
  have hbin : InBinade (narrow k expOffset).p (narrow k expOffset).emin (expOffset + 1 - 16446 + k)
      (V / 2 ^ s * 2 ^ (expOffset + 1 - 16446)) (w.toNat / 2 ^ k) := by
    refine inBinade_of_same (k := k) (by omega) (same_round hk hW) ?_ (le_refl _) (.inl rfl)
    change w.toNat < 2 ^ (64 - k + k)
    rw [Nat.sub_add_cancel (by omega)]
    exact w.isLt
  have hrounds := rounds_joined (k := k) (f := narrow k expOffset) (by change 1 < 64 - k; omega) (by omega) (same_round hk hW)
    hbin (dirOf fs.floatRoundingMode zSign)
  have hinexact := inexact_word (dirOf fs.floatRoundingMode zSign) hk hm hW (expOffset + 1 - 16446)
  have hround := toNat_roundOff fs zSign (by omega) hk' hm hhalf w
    (Nat.lt_of_lt_of_le (Nat.add_lt_add hwlt (toNat_increment_lt fs zSign hk hk' hm hhalf)) (by norm_num))
  have hle : (roundDiv (dirOf fs.floatRoundingMode zSign) w.toNat k : ℚ) * 2 ^ (expOffset + 1 - 16446 + k) ≤
      (narrow k expOffset).max := by
    refine Format.le_max (by change 0 < 64 - k; omega) ?_ (by change _ < 0x7FFE - expOffset - 16446 + (k : Int); omega)
    have hb := (roundDiv_bounds (dirOf fs.floatRoundingMode zSign) w.toNat k).2
    have hlt := hbin.lt
    exact hb.trans hlt
  have htiny : V / 2 ^ s * 2 ^ (expOffset + 1 - 16446) < (narrow k expOffset).normal := by
    rw [narrow_normal (by omega)]
    exact mul_lt_mul_of_pos_right hsmall (two_zpow_pos _)
  rw [hx]
  refine ⟨_, hrounds, packedAs_of_le (by omega) (by omega) hle ?_, ?_⟩
  · rw [hround, Nat.cast_mul, Nat.cast_pow, Nat.cast_ofNat, two_zpow_add_natCast, mul_assoc]
  · rw [← flagsFor_of_le (u := True) hle (iff_of_true htiny trivial) hinexact, if_pos trivial]

theorem roundNarrow_packed (hz : z0.msb = true) (hX : Same (2 ^ 63) X (joined z0 z1)) :
    Packed (narrow k expOffset) fs.floatRoundingMode zSign (X * 2 ^ (zExp - 16510))
      (roundNarrow fs zSign zExp z0 z1 half m expOffset) := by
  have hV := same_word hX
  have hzmsb := msb_or_sticky z1 hz
  have hx : X * 2 ^ (zExp - 16510) = X / 2 ^ 64 * 2 ^ (zExp - 16446) := by
    rw [show zExp - 16446 = zExp - 16510 + (64 : Nat) by omega, two_zpow_add_natCast]
    have hpos : (2 : ℚ) ^ 64 ≠ 0 := by positivity
    field_simp
  rw [hx]
  unfold roundNarrow
  dsimp only
  generalize z0 ||| (if z1 ≠ 0 then 1 else 0) = z at *
  generalize X / 2 ^ 64 = V at *
  have hzlo := (msb_iff z).mp hzmsb
  have hzlt := z.isLt
  by_cases hneg : zExp < expOffset + 1
  · rw [if_neg (by omega), if_pos hneg]
    exact packed_narrow_tiny hk hk' hm hhalf hoff hoff' hV hneg
  have hbin : InBinade (narrow k expOffset).p (narrow k expOffset).emin (zExp - 16446 + k) (V * 2 ^ (zExp - 16446))
      (z.toNat / 2 ^ k) := by
    refine inBinade_of_same (k := k) (by omega) (same_round hk hV) ?_ ?_ (.inr (two_pow_le_iff hzmsb (by omega)))
    · change z.toNat < 2 ^ (64 - k + k)
      rw [Nat.sub_add_cancel (by omega)]
      exact hzlt
    · change expOffset + 1 - 16446 + k ≤ _
      omega
  have hrounds := rounds_joined (k := k) (f := narrow k expOffset) (by change 1 < 64 - k; omega) (by omega) (same_round hk hV) hbin
    (dirOf fs.floatRoundingMode zSign)
  have hinexact := inexact_word (dirOf fs.floatRoundingMode zSign) hk hm hV (zExp - 16446)
  refine ⟨_, hrounds, ?_⟩
  have hinc := toNat_increment_lt fs zSign hk hk' hm hhalf
  have hsum : (z + roundIncrementOf fs zSign half m).toNat = (z.toNat + (roundIncrementOf fs zSign half m).toNat) % 2 ^ 64 :=
    BitVec.toNat_add _ _
  have hwrap : z + roundIncrementOf fs zSign half m < z ↔ 2 ^ 64 ≤ z.toNat + (roundIncrementOf fs zSign half m).toNat := by
    rw [BitVec.lt_def, hsum]
    omega
  have hwrap' : z + roundIncrementOf fs zSign half m < roundIncrementOf fs zSign half m ↔
      2 ^ 64 ≤ z.toNat + (roundIncrementOf fs zSign half m).toNat := by
    rw [BitVec.lt_def, hsum]
    omega
  have hcarry := roundDiv_carry fs zSign (by omega) (by omega) hm hhalf z
  have hround := toNat_roundOff fs zSign (by omega) hk' hm hhalf z
  have hbounds := roundDiv_bounds (dirOf fs.floatRoundingMode zSign) z.toNat k
  have hfull : 2 ^ (64 - k - 1) ≤ z.toNat / 2 ^ k := by
    rw [Nat.le_div_iff_mul_le (Nat.two_pow_pos k), ← Nat.pow_add]
    exact two_pow_le_iff hzmsb (by omega)
  have hp : (narrow k expOffset).p = 64 - k := rfl
  have hemax : (narrow k expOffset).emax = 0x7FFE - expOffset - 16446 + k := rfl
  simp only [hwrap, hwrap']
  generalize roundDiv (dirOf fs.floatRoundingMode zSign) z.toNat k = R at *
  by_cases hover : 0x7FFE - expOffset < zExp ∨
      zExp = 0x7FFE - expOffset ∧ 2 ^ 64 ≤ z.toNat + (roundIncrementOf fs zSign half m).toNat
  · rw [if_pos hover]
    have hlt : (narrow k expOffset).max < R * 2 ^ (zExp - 16446 + k) := by
      rcases hover with hlarge | ⟨heq, hge⟩
      · exact Format.max_lt (by rw [hp]; omega) (by rw [hp]; omega) (by rw [hemax]; omega)
      · rw [hcarry hge, heq]
        exact (narrow k expOffset).max_lt_carry
    refine ⟨packedAs_of_lt (by omega) (by omega) hlt ?_, flagsFor_of_lt hlt hinexact⟩
    have hone : 1 ≤ 2 ^ (64 - k) := Nat.one_le_two_pow
    rw [toNat_not_mask (by omega) hm, Format.max, hp, hemax, two_zpow_add_natCast, Nat.cast_mul, Nat.cast_sub hone]
    push_cast
    ring
  · rw [if_neg hover, if_neg hneg]
    have hR : R ≤ 2 ^ (64 - k) := hbounds.2.trans hbin.lt
    have hfit : ¬ 2 ^ 64 ≤ z.toNat + (roundIncrementOf fs zSign half m).toNat → R * 2 ^ k < 2 ^ 64 := fun h => by
      rw [← hround (by omega)]
      exact BitVec.isLt _
    have hpow : 2 ^ 64 = 2 ^ (64 - k) * 2 ^ k := by rw [← Nat.pow_add]; congr 1; omega
    have hle : R * 2 ^ (zExp - 16446 + k) ≤ (narrow k expOffset).max := by
      by_cases hlast : zExp = 0x7FFE - expOffset
      · have hlt := hfit fun hge => hover (.inr ⟨hlast, hge⟩)
        rw [hpow] at hlt
        exact Format.le_max_of_lt (by rw [hp]; exact Nat.lt_of_mul_lt_mul_right hlt) (by rw [hemax]; omega)
      · exact Format.le_max (by rw [hp]; omega) hR (by rw [hemax]; omega)
    have hnormal : (narrow k expOffset).normal ≤ V * 2 ^ (zExp - 16446) := by
      refine le_trans ?_ hbin.lo
      exact mul_zpow_le (by positivity) (by exact_mod_cast hfull) (by change expOffset + 1 - 16446 + (k : Int) ≤ _; omega)
    have hflags : (if z &&& m ≠ 0 then floatFlagInexact else 0) =
        flagsFor (narrow k expOffset) (V * 2 ^ (zExp - 16446)) (R * 2 ^ (zExp - 16446 + k)) := by
      rw [← flagsFor_of_le (u := False) hle (iff_of_false (not_lt.mpr hnormal) id) hinexact, if_neg id]
      exact BitVec.zero_or.symm
    by_cases hge : 2 ^ 64 ≤ z.toNat + (roundIncrementOf fs zSign half m).toNat
    · have hcarried := toNat_roundOff_carried fs hk' hm (z &&& m)
      rw [if_pos hge, if_pos hge, if_neg (by rw [eq_zero_iff, hcarried]; decide)]
      refine ⟨packedAs_of_le (by omega) (by omega) hle ?_, hflags⟩
      have hdouble : (2 : ℚ) * 2 ^ 63 = 2 ^ (64 - k) * 2 ^ k := by
        rw [← pow_succ', ← pow_add]
        congr 1
        omega
      rw [hcarried, hcarry hge, show zExp + 1 - 16446 = zExp - 16446 + 1 by omega, mul_zpow_succ, two_zpow_add_natCast,
        Nat.cast_pow, Nat.cast_pow, Nat.cast_ofNat, hdouble, mul_assoc]
    · have hword := hround (by omega)
      have hpos : 0 < R * 2 ^ k := Nat.mul_pos (Nat.lt_of_lt_of_le (Nat.lt_of_lt_of_le (Nat.two_pow_pos _) hfull) hbounds.1)
        (Nat.two_pow_pos k)
      rw [if_neg hge, if_neg hge, if_neg (by rw [eq_zero_iff, hword]; exact Nat.ne_of_gt hpos)]
      refine ⟨packedAs_of_le (by omega) (by omega) hle ?_, hflags⟩
      rw [hword, two_zpow_add_natCast, Nat.cast_mul, Nat.cast_pow, Nat.cast_ofNat, mul_assoc]

end Narrow

/-! ## Each precision -/

theorem formatOf_double : formatOf 64 = narrow 11 0x3C00 := by decide

theorem formatOf_single : formatOf 32 = narrow 40 0x3F80 := by decide

/-- `X`, known up to the bit behind the last place of extended precision, is rounded as FPCR asks for. -/
theorem roundAndPack_correct {fs : FloatStatus} {zSign : Bool} {zExp : Int} {z0 z1 : BitVec 64} {X : ℚ} (hz : z0.msb = true)
    (hX : Same (2 ^ 63) X (joined z0 z1)) :
    Packed (formatOf fs.floatx80RoundingPrecision) fs.floatRoundingMode zSign (X * 2 ^ (zExp - 16510))
      (roundAndPackFloatx80 fs zSign zExp z0 z1) := by
  unfold roundAndPackFloatx80
  by_cases hdouble : fs.floatx80RoundingPrecision = 64
  · rw [if_pos hdouble, hdouble, formatOf_double]
    exact roundNarrow_packed (by decide) (by decide) (by decide) (by decide) (by decide) (by decide) hz hX
  by_cases hsingle : fs.floatx80RoundingPrecision = 32
  · rw [if_neg hdouble, if_pos hsingle, hsingle, formatOf_single]
    exact roundNarrow_packed (by decide) (by decide) (by decide) (by decide) (by decide) (by decide) hz hX
  · rw [if_neg hdouble, if_neg hsingle, formatOf, if_neg hdouble, if_neg hsingle]
    exact roundExtended_packed hz hX

end UaeCpu.Fpu
