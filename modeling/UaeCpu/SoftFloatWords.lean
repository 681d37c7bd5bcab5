import UaeCpu.SoftFloatRound

/-!
# UaeCpu.SoftFloatWords

Arithmetic on significands of two words, from `softfloat-macros.h`.

* `joined_sub128`, `joined_mul64To128` — what the words of a result make.
* `whileNegative`                      — the loops that put an estimated quotient right.
* `estimateDiv128To64_bounds`          — an estimate is at most 2 too large, and its loop ends.
-/

namespace UaeCpu.Fpu

open Rounding

/-! ## Shifts -/

def shift128Right (a0 a1 : BitVec 64) (count : Nat) : BitVec 64 × BitVec 64 :=
  if count = 0 then (a0, a1)
  else if count < 64 then (a0 >>> count, a0 <<< (64 - count) ||| a1 >>> count)
  else (0, if count < 128 then a0 >>> (count % 64) else 0)

def shift128RightJamming (a0 a1 : BitVec 64) (count : Nat) : BitVec 64 × BitVec 64 :=
  if count = 0 then (a0, a1)
  else if count < 64 then
    (a0 >>> count, a0 <<< (64 - count) ||| a1 >>> count ||| (if a1 <<< (64 - count) ≠ 0 then 1 else 0))
  else if count = 64 then (0, a0 ||| (if a1 ≠ 0 then 1 else 0))
  else if count < 128 then (0, a0 >>> (count % 64) ||| (if a0 <<< (128 - count) ||| a1 ≠ 0 then 1 else 0))
  else (0, if a0 ||| a1 ≠ 0 then 1 else 0)

section Shifts

variable {z0 z1 : BitVec 64} {count : Nat}

theorem joined_zero_left (x : BitVec 64) : joined 0 x = x.toNat := by
  rw [joined]
  exact Nat.zero_add _

theorem joined_zero_right (x : BitVec 64) : joined x 0 = x.toNat * 2 ^ 64 := by
  rw [joined]
  exact Nat.add_zero _

theorem zero_ushiftRight (count : Nat) : (0 : BitVec 64) >>> count = 0 := BitVec.zero_ushiftRight

theorem word_or_zero (x : BitVec 64) : x ||| 0 = x := BitVec.or_zero

/-- A word moved over the boundary between the two. -/
theorem joined_shift_low (hc : 0 < count) (hc' : count < 64) (a : BitVec 64) :
    joined (a >>> count) (a <<< (64 - count)) = a.toNat * 2 ^ (64 - count) := by
  have hpow : 2 ^ 64 = 2 ^ count * 2 ^ (64 - count) := by rw [← Nat.pow_add]; congr 1; omega
  have hdiv := Nat.div_add_mod a.toNat (2 ^ count)
  rw [joined, BitVec.toNat_ushiftRight, Nat.shiftRight_eq_div_pow, shiftLeft_sub hc hc', hpow]
  conv_rhs => rw [← hdiv]
  ring

/-- Nothing of one word falls out over one more. -/
theorem joined_shift128Right (a : BitVec 64) (hc : count < 64) :
    joined (shift128Right a 0 count).1 (shift128Right a 0 count).2 * 2 ^ count = joined a 0 := by
  rw [shift128Right]
  by_cases hzero : count = 0
  · rw [if_pos hzero, hzero, Nat.pow_zero, Nat.mul_one]
  · have hpow : 2 ^ 64 = 2 ^ (64 - count) * 2 ^ count := by rw [← Nat.pow_add]; congr 1; omega
    rw [if_neg hzero, if_pos hc, zero_ushiftRight, word_or_zero, joined_shift_low (by omega) hc, joined_zero_right, hpow,
      Nat.mul_assoc]

theorem joined_shift128RightJamming (a : BitVec 64) (count : Nat) :
    joined (shift128RightJamming a 0 count).1 (shift128RightJamming a 0 count).2 = jam (joined a 0) count := by
  have hlow : ∀ n : Nat, (0 : BitVec 64) <<< n = 0 := fun n => BitVec.zero_shiftLeft n
  rw [shift128RightJamming, jam, joined_zero_right]
  by_cases hzero : count = 0
  · rw [if_pos hzero, hzero, Nat.pow_zero, Nat.mod_one, if_pos rfl, Nat.div_one, joined_zero_right]
  by_cases hlt : count < 64
  · have hpow : 2 ^ 64 = 2 ^ (64 - count) * 2 ^ count := by rw [← Nat.pow_add]; congr 1; omega
    rw [if_neg hzero, if_pos hlt, zero_ushiftRight, hlow, if_neg (not_not.mpr rfl), word_or_zero, word_or_zero,
      joined_shift_low (by omega) hlt, hpow, ← Nat.mul_assoc, Nat.mul_mod_left, if_pos rfl,
      Nat.mul_div_cancel _ (Nat.two_pow_pos _)]
  by_cases hword : count = 64
  · rw [if_neg hzero, if_neg hlt, if_pos hword, hword, if_neg (not_not.mpr rfl), word_or_zero, joined_zero_left,
      Nat.mul_mod_left, if_pos rfl, Nat.mul_div_cancel _ (Nat.two_pow_pos _)]
  by_cases hmost : count < 128
  · have hmod : count % 64 = count - 64 := by omega
    have hsub : 128 - count = 64 - (count - 64) := by omega
    have hjam := shift64RightJamming_toNat a (count - 64)
    have hpow : 2 ^ count = 2 ^ (count - 64) * 2 ^ 64 := by rw [← Nat.pow_add]; congr 1; omega
    rw [shift64RightJamming, if_neg (by omega), if_pos (by omega)] at hjam
    rw [if_neg hzero, if_neg hlt, if_neg hword, if_pos hmost, word_or_zero, joined_zero_left, hmod, hsub, hjam, jam,
      hpow, Nat.mul_mod_mul_right, Nat.mul_div_mul_right _ _ (Nat.two_pow_pos 64)]
    simp only [Nat.mul_eq_zero, Nat.reducePow, OfNat.ofNat_ne_zero, or_false]
  · have hbig : a.toNat * 2 ^ 64 < 2 ^ count := by
      have hle : 2 ^ 128 ≤ 2 ^ count := Nat.pow_le_pow_right (by decide) (by omega)
      have := a.isLt
      omega
    have hjam := jam_of_lt hbig
    rw [jam] at hjam
    rw [if_neg hzero, if_neg hlt, if_neg hword, if_neg hmost, word_or_zero, joined_zero_left, toNat_sticky, hjam]
    simp only [ne_eq, eq_zero_iff, Nat.mul_eq_zero, Nat.reducePow, OfNat.ofNat_ne_zero, or_false, ite_not]

/-- Nothing falls out on the left either, where there is room. -/
theorem joined_shortShift128Left (z1 : BitVec 64) (hc : count < 64) (h : z0.toNat < 2 ^ (64 - count)) :
    joined (shortShift128Left z0 z1 count).1 (shortShift128Left z0 z1 count).2 = joined z0 z1 * 2 ^ count := by
  rw [shortShift128Left]
  by_cases hzero : count = 0
  · rw [if_pos hzero, hzero, Nat.pow_zero, Nat.mul_one, BitVec.shiftLeft_zero]
  · have hpow : 2 ^ 64 = 2 ^ count * 2 ^ (64 - count) := by rw [← Nat.pow_add]; congr 1; omega
    have hhigh : (z0 <<< count).toNat = z0.toNat * 2 ^ count := by
      rw [BitVec.toNat_shiftLeft, Nat.shiftLeft_eq, Nat.mod_eq_of_lt]
      rw [hpow, Nat.mul_comm (2 ^ count)]
      exact Nat.mul_lt_mul_of_pos_right h (Nat.two_pow_pos _)
    have hover : z1.toNat / 2 ^ (64 - count) < 2 ^ count := by
      rw [Nat.div_lt_iff_lt_mul (Nat.two_pow_pos _), ← hpow]
      exact z1.isLt
    have hlow : (z1 <<< count).toNat = z1.toNat % 2 ^ (64 - count) * 2 ^ count := by
      rw [BitVec.toNat_shiftLeft, Nat.shiftLeft_eq, hpow, Nat.mul_comm (2 ^ count), Nat.mul_mod_mul_right]
    have hdiv := Nat.div_add_mod z1.toNat (2 ^ (64 - count))
    have hor : z0.toNat * 2 ^ count ||| z1.toNat / 2 ^ (64 - count) = z0.toNat * 2 ^ count + z1.toNat / 2 ^ (64 - count) := by
      rw [← Nat.shiftLeft_eq, Nat.shiftLeft_add_eq_or_of_lt hover]
    rw [if_neg hzero, joined, joined, BitVec.toNat_or, BitVec.toNat_ushiftRight, Nat.shiftRight_eq_div_pow, hhigh, hlow, hor]
    conv_rhs => rw [← hdiv]
    rw [hpow]
    ring

end Shifts

/-! ## Sums and products -/

def add128 (a0 a1 b0 b1 : BitVec 64) : BitVec 64 × BitVec 64 :=
  (a0 + b0 + (if a1 + b1 < a1 then 1 else 0), a1 + b1)

def sub128 (a0 a1 b0 b1 : BitVec 64) : BitVec 64 × BitVec 64 :=
  (a0 - b0 - (if a1 < b1 then 1 else 0), a1 - b1)

/-- `mul64To128` behind the four products of 32 bits. -/
def carried (z0 z1 zMiddleA zMiddleB : BitVec 64) : BitVec 64 × BitVec 64 :=
  let zMiddleA := zMiddleA + zMiddleB
  let z0 := z0 + ((if zMiddleA < zMiddleB then 0x100000000 else 0 : BitVec 64) + zMiddleA >>> 32)
  let zMiddleA := zMiddleA <<< 32
  let z1 := z1 + zMiddleA
  (z0 + (if z1 < zMiddleA then 1 else 0), z1)

def mul64To128 (a b : BitVec 64) : BitVec 64 × BitVec 64 :=
  let aLow := a &&& 0xFFFFFFFF
  let aHigh := a >>> 32
  let bLow := b &&& 0xFFFFFFFF
  let bHigh := b >>> 32
  carried (aHigh * bHigh) (aLow * bLow) (aLow * bHigh) (aHigh * bLow)

section Sums

variable (a0 a1 b0 b1 : BitVec 64)

theorem joined_add128 :
    joined (add128 a0 a1 b0 b1).1 (add128 a0 a1 b0 b1).2 = (joined a0 a1 + joined b0 b1) % 2 ^ 128 := by
  have h0 := a0.isLt
  have h1 := a1.isLt
  have h2 := b0.isLt
  have h3 := b1.isLt
  simp only [add128, joined, BitVec.toNat_add, toNat_sticky, BitVec.lt_def]
  split <;> omega

theorem joined_sub128 :
    joined (sub128 a0 a1 b0 b1).1 (sub128 a0 a1 b0 b1).2 = (joined a0 a1 + (2 ^ 128 - joined b0 b1)) % 2 ^ 128 := by
  have h0 := a0.isLt
  have h1 := a1.isLt
  have h2 := b0.isLt
  have h3 := b1.isLt
  simp only [sub128, joined, BitVec.toNat_sub, toNat_sticky, BitVec.lt_def]
  split <;> omega

theorem carry_iff (x y : BitVec 64) : x + y < y ↔ 2 ^ 64 ≤ x.toNat + y.toNat := by
  have hx := x.isLt
  have hy := y.isLt
  rw [BitVec.lt_def, BitVec.toNat_add]
  omega

/-- The carries between the partial products. -/
theorem joined_carried {s p q r : BitVec 64} (hs : s.toNat ≤ (2 ^ 32 - 1) * (2 ^ 32 - 1))
    (hp : p.toNat ≤ (2 ^ 32 - 1) * (2 ^ 32 - 1)) (hq : q.toNat ≤ (2 ^ 32 - 1) * (2 ^ 32 - 1))
    (hr : r.toNat ≤ (2 ^ 32 - 1) * (2 ^ 32 - 1)) :
    joined (carried s p q r).1 (carried s p q r).2 = 2 ^ 64 * s.toNat + 2 ^ 32 * (q.toNat + r.toNat) + p.toNat := by
  have hhigh : ((q + r) >>> 32).toNat = (q.toNat + r.toNat) % 2 ^ 64 / 2 ^ 32 := by
    rw [BitVec.toNat_ushiftRight, Nat.shiftRight_eq_div_pow, BitVec.toNat_add]
  have hlow : ((q + r) <<< 32).toNat = (q.toNat + r.toNat) % 2 ^ 64 * 2 ^ 32 % 2 ^ 64 := by
    rw [BitVec.toNat_shiftLeft, Nat.shiftLeft_eq, BitVec.toNat_add]
  have hcarry : (0x100000000 : BitVec 64).toNat = 2 ^ 32 := by decide
  have hone : (1 : BitVec 64).toNat = 1 := by decide
  have hzero : (0 : BitVec 64).toNat = 0 := by decide
  rw [carried]
  dsimp only
  rw [joined, BitVec.toNat_add, BitVec.toNat_add, BitVec.toNat_add, BitVec.toNat_add, hlow, hhigh, apply_ite BitVec.toNat,
    apply_ite BitVec.toNat, hcarry, hone, hzero]
  simp only [carry_iff, hlow]
  generalize p.toNat = p at *
  generalize q.toNat = q at *
  generalize r.toNat = r at *
  generalize s.toNat = s at *
  split <;> split <;> omega

/-- The four partial products of 32 bits, and the carries between them. -/
theorem joined_mul64To128 (a b : BitVec 64) :
    joined (mul64To128 a b).1 (mul64To128 a b).2 = a.toNat * b.toNat := by
  have hlow : ∀ x : BitVec 64, (x &&& 0xFFFFFFFF).toNat = x.toNat % 2 ^ 32 := toNat_and_mask (k := 32) (by decide)
  have hhigh : ∀ x : BitVec 64, (x >>> 32).toNat = x.toNat / 2 ^ 32 := fun x => by
    rw [BitVec.toNat_ushiftRight, Nat.shiftRight_eq_div_pow]
  have hlow' : ∀ x : BitVec 64, (x &&& 0xFFFFFFFF).toNat ≤ 2 ^ 32 - 1 := fun x => by rw [hlow]; omega
  have hhigh' : ∀ x : BitVec 64, (x >>> 32).toNat ≤ 2 ^ 32 - 1 := fun x => by have := x.isLt; rw [hhigh]; omega
  have hmul : ∀ {x y : BitVec 64}, x.toNat ≤ 2 ^ 32 - 1 → y.toNat ≤ 2 ^ 32 - 1 → (x * y).toNat = x.toNat * y.toNat :=
    fun hx hy => by
      rw [BitVec.toNat_mul]
      exact Nat.mod_eq_of_lt (Nat.lt_of_le_of_lt (Nat.mul_le_mul hx hy) (by decide))
  have hprod : ∀ {x y : BitVec 64}, x.toNat ≤ 2 ^ 32 - 1 → y.toNat ≤ 2 ^ 32 - 1 →
      (x * y).toNat ≤ (2 ^ 32 - 1) * (2 ^ 32 - 1) := fun hx hy => by
    rw [hmul hx hy]
    exact Nat.mul_le_mul hx hy
  rw [mul64To128, joined_carried (hprod (hhigh' a) (hhigh' b)) (hprod (hlow' a) (hlow' b)) (hprod (hlow' a) (hhigh' b))
    (hprod (hhigh' a) (hlow' b)), hmul (hhigh' a) (hhigh' b), hmul (hlow' a) (hlow' b), hmul (hlow' a) (hhigh' b),
    hmul (hhigh' a) (hlow' b), hlow, hlow, hhigh, hhigh]
  conv_rhs => rw [← Nat.div_add_mod a.toNat (2 ^ 32), ← Nat.div_add_mod b.toNat (2 ^ 32)]
  ring

end Sums

/-! ## Loops that put a quotient right -/

/-- `while ( (int64_t) rem0 < 0 ) { z -= step; add128( rem0, rem1, d0, d1, &rem0, &rem1 ); }` -/
def whileNegative (step d0 d1 : BitVec 64) : Nat → BitVec 64 → BitVec 64 → BitVec 64 →
    Option (BitVec 64 × BitVec 64 × BitVec 64)
  | 0, _, _, _ => none
  | fuel + 1, z, rem0, rem1 =>
    if rem0.msb then
      whileNegative step d0 d1 fuel (z - step) (add128 rem0 rem1 d0 d1).1 (add128 rem0 rem1 d0 d1).2
    else some (z, rem0, rem1)

section Loops

variable {step d0 d1 z rem0 rem1 : BitVec 64} {D Q r k fuel : Nat}

theorem msb_iff_joined (z0 z1 : BitVec 64) : z0.msb = true ↔ 2 ^ 127 ≤ joined z0 z1 := by
  have h1 := z1.isLt
  rw [msb_iff, joined]
  omega

/-- `k` too large, the loop takes `k` rounds. -/
theorem whileNegative_correct (hr : r < D) (hd : joined d0 d1 = D) (hD : (k + 1) * D ≤ 2 ^ 127)
    (hz : z.toNat = (Q + k) * step.toNat) (hrem : joined rem0 rem1 = (r + (2 ^ 128 - k * D)) % 2 ^ 128) (hfuel : k < fuel) :
    ∃ z' r0 r1, whileNegative step d0 d1 fuel z rem0 rem1 = some (z', r0, r1) ∧
      z'.toNat = Q * step.toNat ∧ joined r0 r1 = r := by
  induction k generalizing fuel z rem0 rem1 with
  | zero =>
    obtain ⟨n, rfl⟩ : ∃ n, fuel = n + 1 := ⟨fuel - 1, by omega⟩
    have hrem' : joined rem0 rem1 = r := by
      rw [Nat.zero_mul] at hrem
      omega
    have hmsb : rem0.msb = false := by
      rw [← Bool.not_eq_true, msb_iff_joined rem0 rem1]
      omega
    refine ⟨z, rem0, rem1, ?_, hz, hrem'⟩
    rw [whileNegative, if_neg (by rw [hmsb]; decide)]
  | succ k ih =>
    obtain ⟨n, rfl⟩ : ∃ n, fuel = n + 1 := ⟨fuel - 1, by omega⟩
    have hmul : (k + 1) * D = k * D + D := Nat.succ_mul k D
    have hmul' : (k + 1 + 1) * D = (k + 1) * D + D := Nat.succ_mul (k + 1) D
    have hmsb : rem0.msb = true := by
      rw [msb_iff_joined rem0 rem1]
      omega
    have hstep : (Q + (k + 1)) * step.toNat = (Q + k) * step.toNat + step.toNat := Nat.succ_mul (Q + k) step.toNat
    have hzlt := z.isLt
    rw [whileNegative, if_pos hmsb]
    refine ih (by omega) ?_ ?_ (by omega)
    · rw [BitVec.toNat_sub]
      omega
    · rw [joined_add128, hd, hrem]
      omega

end Loops

/-! ## Estimated quotients -/

/-- A digit of a quotient, from the leading digit of the divisor: at most 2 too large. -/
theorem trialDigit_bounds {B b0 bl N : Nat} (hb0 : B ≤ 2 * b0) (hbl : bl < B) (hN : N < (b0 * B + bl) * B) :
    N / (b0 * B + bl) ≤ min (B - 1) (N / B / b0) ∧ min (B - 1) (N / B / b0) ≤ N / (b0 * B + bl) + 2 := by
  have hB : 0 < B := Nat.zero_lt_of_lt hbl
  have hb : 0 < b0 * B + bl := Nat.add_pos_left (Nat.mul_pos (by omega) hB) bl
  constructor
  · refine Nat.le_min.mpr ⟨Nat.le_sub_one_of_lt (Nat.div_lt_of_lt_mul hN), ?_⟩
    rw [Nat.div_div_eq_div_mul, Nat.mul_comm B]
    exact Nat.div_le_div_left (Nat.le_add_right _ _) (Nat.mul_pos (by omega) hB)
  · have hest : min (B - 1) (N / B / b0) * (b0 * B) ≤ N := by
      calc min (B - 1) (N / B / b0) * (b0 * B) ≤ N / B / b0 * (b0 * B) := Nat.mul_le_mul_right _ (Nat.min_le_right _ _)
        _ = N / (B * b0) * (B * b0) := by rw [Nat.div_div_eq_div_mul, Nat.mul_comm b0]
        _ ≤ N := Nat.div_mul_le_self _ _
    have hlow : min (B - 1) (N / B / b0) * bl ≤ (B - 1) * bl := Nat.mul_le_mul_right _ (Nat.min_le_left _ _)
    have hsquare : (B - 1) * bl < 2 * (b0 * B + bl) := by
      calc (B - 1) * bl < B * B := Nat.mul_lt_mul'' (by omega) hbl
        _ ≤ 2 * b0 * B := Nat.mul_le_mul_right B hb0
        _ ≤ 2 * (b0 * B + bl) := by rw [Nat.mul_assoc]; omega
    have hlt : min (B - 1) (N / B / b0) * (b0 * B + bl) < N + 2 * (b0 * B + bl) := by
      rw [Nat.mul_add]
      omega
    generalize min (B - 1) (N / B / b0) = e at *
    generalize b0 * B + bl = b at *
    have hnext : N < (N / b + 1) * b := Nat.lt_mul_of_div_lt (Nat.lt_succ_self _) hb
    have hbound : e * b < (N / b + 3) * b := by
      have hexpand : (N / b + 3) * b = (N / b + 1) * b + 2 * b := by ring
      omega
    exact Nat.lt_succ_iff.mp (Nat.lt_of_mul_lt_mul_right hbound)

def estimateDiv128To64 (fuel : Nat) (a0 a1 b : BitVec 64) : Option (BitVec 64) := do
  if b ≤ a0 then return 0xFFFFFFFFFFFFFFFF
  let b0 := b >>> 32
  let z : BitVec 64 := if b0 <<< 32 ≤ a0 then 0xFFFFFFFF00000000 else (a0 / b0) <<< 32
  let term := mul64To128 b z
  let rem := sub128 a0 a1 term.1 term.2
  let (z, rem0, rem1) ← whileNegative 0x100000000 b0 (b <<< 32) fuel z rem.1 rem.2
  let rem0 := rem0 <<< 32 ||| rem1 >>> 32
  return z ||| (if b0 <<< 32 ≤ rem0 then 0xFFFFFFFF else rem0 / b0)

section Estimate

variable {a0 a1 b : BitVec 64} {fuel : Nat}

/-- What an estimate takes for a digit. -/
theorem toNat_trialDigit {b0 n : BitVec 64} (h : 0 < b0.toNat) (h' : b0.toNat < 2 ^ 32) :
    (if b0 <<< 32 ≤ n then 0xFFFFFFFF else n / b0 : BitVec 64).toNat = min (2 ^ 32 - 1) (n.toNat / b0.toNat) ∧
    (if b0 <<< 32 ≤ n then 0xFFFFFFFF00000000 else (n / b0) <<< 32 : BitVec 64).toNat =
      min (2 ^ 32 - 1) (n.toNat / b0.toNat) * 2 ^ 32 := by
  have hshift : (b0 <<< 32).toNat = b0.toNat * 2 ^ 32 := by
    rw [BitVec.toNat_shiftLeft, Nat.shiftLeft_eq]
    omega
  have hle : b0 <<< 32 ≤ n ↔ 2 ^ 32 ≤ n.toNat / b0.toNat := by
    rw [BitVec.le_def, hshift, Nat.le_div_iff_mul_le h, Nat.mul_comm]
  by_cases hfull : b0 <<< 32 ≤ n
  · have hmin := Nat.min_eq_left ((Nat.sub_le _ 1).trans (hle.mp hfull))
    rw [if_pos hfull, if_pos hfull, hmin]
    exact ⟨by decide, by decide⟩
  · have hlt : n.toNat / b0.toNat < 2 ^ 32 := Nat.lt_of_not_le (mt hle.mpr hfull)
    have hmin := Nat.min_eq_right (Nat.le_sub_one_of_lt hlt)
    rw [if_neg hfull, if_neg hfull, hmin, BitVec.toNat_shiftLeft, Nat.shiftLeft_eq, BitVec.toNat_udiv]
    exact ⟨rfl, Nat.mod_eq_of_lt (by omega)⟩

/-- `( rem0<<32 ) | ( rem1>>32 )`. -/
theorem toNat_middle {r0 r1 : BitVec 64} (h : joined r0 r1 < 2 ^ 96) :
    (r0 <<< 32 ||| r1 >>> 32).toNat = joined r0 r1 / 2 ^ 32 := by
  have h1 := r1.isLt
  have hlt : r1.toNat / 2 ^ 32 < 2 ^ 32 := by omega
  have hr0 : r0.toNat * 2 ^ 32 < 2 ^ 64 := by
    rw [← joined_div r0 r1]
    omega
  have hor := Nat.shiftLeft_add_eq_or_of_lt hlt r0.toNat
  rw [Nat.shiftLeft_eq] at hor
  rw [BitVec.toNat_or, BitVec.toNat_shiftLeft, BitVec.toNat_ushiftRight, Nat.shiftRight_eq_div_pow, Nat.shiftLeft_eq,
    Nat.mod_eq_of_lt hr0, ← hor]
  unfold joined
  omega

theorem estimateDiv128To64_bounds (a1 : BitVec 64) (hb : b.msb = true) (ha : a0 < b) (hfuel : 2 < fuel) :
    ∃ z, estimateDiv128To64 fuel a0 a1 b = some z ∧ joined a0 a1 / b.toNat ≤ z.toNat ∧
      z.toNat ≤ joined a0 a1 / b.toNat + 2 := by
  have hblo := (msb_iff b).mp hb
  have hbhi := b.isLt
  have ha' : a0.toNat < b.toNat := BitVec.lt_def.mp ha
  have ha1 := a1.isLt
  have hb0 : (b >>> 32).toNat = b.toNat / 2 ^ 32 := by rw [BitVec.toNat_ushiftRight, Nat.shiftRight_eq_div_pow]
  have hsplit : b.toNat / 2 ^ 32 * 2 ^ 32 + b.toNat % 2 ^ 32 = b.toNat := Nat.div_add_mod' _ _
  have hA : joined a0 a1 < b.toNat * 2 ^ 64 := by
    unfold joined
    omega
  have hdivisor : joined (b >>> 32) (b <<< 32) = b.toNat * 2 ^ 32 :=
    @joined_shift_low 32 (by decide) (by decide) b
  -- the high digit, of the dividend without its last 32 bits
  have hhigh := @trialDigit_bounds (2 ^ 32) (b.toNat / 2 ^ 32) (b.toNat % 2 ^ 32) (joined a0 a1 / 2 ^ 32) (by omega)
    (Nat.mod_lt _ (by decide)) (by rw [hsplit]; omega)
  have hlead : joined a0 a1 / 2 ^ 32 / 2 ^ 32 = a0.toNat := by
    rw [Nat.div_div_eq_div_mul]
    exact joined_div a0 a1
  rw [hsplit, hlead, Nat.div_div_eq_div_mul, Nat.mul_comm (2 ^ 32) b.toNat, ← hb0] at hhigh
  have hz := (toNat_trialDigit (n := a0) (by rw [hb0]; omega) (by rw [hb0]; omega : (b >>> 32).toNat < 2 ^ 32)).2
  have hZlt : min (2 ^ 32 - 1) (a0.toNat / (b >>> 32).toNat) < 2 ^ 32 := by omega
  have hterm := joined_mul64To128 b (if (b >>> 32) <<< 32 ≤ a0 then 0xFFFFFFFF00000000 else (a0 / (b >>> 32)) <<< 32)
  rw [estimateDiv128To64, if_neg (BitVec.not_le.mpr ha)]
  dsimp only
  generalize (if (b >>> 32) <<< 32 ≤ a0 then 0xFFFFFFFF00000000 else (a0 / (b >>> 32)) <<< 32 : BitVec 64) = z at *
  generalize mul64To128 b z = term at *
  have hsub := joined_sub128 a0 a1 term.1 term.2
  generalize sub128 a0 a1 term.1 term.2 = rem at *
  generalize min (2 ^ 32 - 1) (a0.toNat / (b >>> 32).toNat) = Z at *
  obtain ⟨k, hk⟩ := Nat.exists_eq_add_of_le hhigh.1
  have hD : joined a0 a1 % (b.toNat * 2 ^ 32) < b.toNat * 2 ^ 32 := Nat.mod_lt _ (by omega)
  have hrem : joined rem.1 rem.2 =
      (joined a0 a1 % (b.toNat * 2 ^ 32) + (2 ^ 128 - k * (b.toNat * 2 ^ 32))) % 2 ^ 128 := by
    have hdiv := Nat.div_add_mod' (joined a0 a1) (b.toNat * 2 ^ 32)
    have hterm' : joined term.1 term.2 = joined a0 a1 / (b.toNat * 2 ^ 32) * (b.toNat * 2 ^ 32) + k * (b.toNat * 2 ^ 32) := by
      rw [hterm, hz, hk]
      ring
    have hlt := joined_lt term.1 term.2
    rw [hterm'] at hlt
    rw [hsub, hterm']
    omega
  have hstep : z.toNat = (joined a0 a1 / (b.toNat * 2 ^ 32) + k) * (0x100000000 : BitVec 64).toNat := by
    rw [hz, hk]
    rfl
  have hfit : (k + 1) * (b.toNat * 2 ^ 32) ≤ 2 ^ 127 := by
    have hle := Nat.mul_le_mul_right (b.toNat * 2 ^ 32) (show k + 1 ≤ 3 by omega)
    omega
  obtain ⟨z', r0, r1, hloop, hz', hr⟩ := whileNegative_correct hD hdivisor hfit hstep hrem (show k < fuel by omega)
  -- the low digit, of what is left
  have hlow := @trialDigit_bounds (2 ^ 32) (b.toNat / 2 ^ 32) (b.toNat % 2 ^ 32) (joined a0 a1 % (b.toNat * 2 ^ 32)) (by omega)
    (Nat.mod_lt _ (by decide)) (by rw [hsplit]; exact hD)
  have hmid := toNat_middle (show joined r0 r1 < 2 ^ 96 by rw [hr]; omega)
  rw [hsplit, ← hr, ← hmid, ← hb0] at hlow
  have hdigit := (toNat_trialDigit (n := r0 <<< 32 ||| r1 >>> 32) (by rw [hb0]; omega)
    (by rw [hb0]; omega : (b >>> 32).toNat < 2 ^ 32)).1
  rw [hloop]
  refine ⟨_, rfl, ?_⟩
  have hdiv : joined a0 a1 / b.toNat = joined a0 a1 / (b.toNat * 2 ^ 32) * 2 ^ 32 + joined r0 r1 / b.toNat := by
    conv_lhs => rw [← Nat.div_add_mod (joined a0 a1) (b.toNat * 2 ^ 32), Nat.mul_assoc, Nat.mul_add_div (by omega)]
    rw [Nat.mul_comm (2 ^ 32), hr]
  have hor : ∀ n : BitVec 64, n.toNat < 2 ^ 32 →
      (z' ||| n).toNat = joined a0 a1 / (b.toNat * 2 ^ 32) * 2 ^ 32 + n.toNat := fun n hn => by
    have h := Nat.shiftLeft_add_eq_or_of_lt hn (joined a0 a1 / (b.toNat * 2 ^ 32))
    rw [Nat.shiftLeft_eq] at h
    rw [BitVec.toNat_or, hz', h]
    rfl
  rw [hor _ (by rw [hdigit]; omega), hdigit, hdiv]
  omega

/-- Between the quotient and 2 more, and the greatest word where the quotient is more than a word. -/
theorem estimateDiv128To64_between (n : Nat) (a0 a1 : BitVec 64) (hb : b.msb = true) :
    ∃ z, estimateDiv128To64 (n + 3) a0 a1 b = some z ∧ min (2 ^ 64 - 1) (joined a0 a1 / b.toNat) ≤ z.toNat ∧
      z.toNat ≤ min (2 ^ 64 - 1) (joined a0 a1 / b.toNat + 2) := by
  by_cases ha : a0 < b
  · obtain ⟨z, hz, hlo, hhi⟩ := estimateDiv128To64_bounds a1 hb ha (show 2 < n + 3 by omega)
    refine ⟨z, hz, (Nat.min_le_right _ _).trans hlo, Nat.le_min.mpr ⟨?_, hhi⟩⟩
    exact Nat.le_sub_one_of_lt z.isLt
  · have hle : b ≤ a0 := BitVec.not_lt.mp ha
    have hbpos : 0 < b.toNat := by
      have h := (msb_iff b).mp hb
      omega
    -- the quotient is more than a word
    have hquot : 2 ^ 64 ≤ joined a0 a1 / b.toNat := by
      rw [Nat.le_div_iff_mul_le hbpos, joined, Nat.mul_comm]
      exact Nat.le_add_right_of_le (Nat.mul_le_mul_right _ (BitVec.le_def.mp hle))
    refine ⟨0xFFFFFFFFFFFFFFFF, by rw [estimateDiv128To64, if_pos hle]; rfl, ?_, ?_⟩
    · exact Nat.min_le_left _ _
    · exact Nat.le_min.mpr ⟨Nat.le_refl _, by change 2 ^ 64 - 1 ≤ _; omega⟩

/-- 2^64 by 2^63. -/
theorem estimateDiv128To64_one_zero :
    ∃ z, estimateDiv128To64 3 1 0 0x8000000000000000 = some z ∧
      min (2 ^ 64 - 1) (joined 1 0 / (0x8000000000000000 : BitVec 64).toNat) ≤ z.toNat ∧
      z.toNat ≤ min (2 ^ 64 - 1) (joined 1 0 / (0x8000000000000000 : BitVec 64).toNat + 2) :=
  estimateDiv128To64_between 0 1 0 (by decide)

end Estimate

end UaeCpu.Fpu
