import Mathlib.Data.Nat.Bitwise
import Mathlib.Tactic.Ring

/-!
# UaeCpu.Lib.LongDivision

Restoring division, one bit of the dividend after the other, in a single register.

* `partialRem n d k` — what is left of the dividend down to bit `k`.
* `packed n d w k`   — the partial remainder above `w` bits, the `k` bits to come on top of those.
* `packed_succ`      — one round: shift left, subtract where the divisor fits.
* `testBit_div`      — it fits exactly where the quotient has a bit.
-/

namespace LongDivision

def partialRem (n d k : Nat) : Nat := n / 2 ^ k % d

def packed (n d w k : Nat) : Nat := partialRem n d k * 2 ^ w + n % 2 ^ k * 2 ^ (w - k)

variable {n d w k : Nat}

theorem partialRem_lt (hd : 0 < d) : partialRem n d k < d := Nat.mod_lt _ hd

theorem div_pow_succ (n k : Nat) : n / 2 ^ k = 2 * (n / 2 ^ (k + 1)) + n / 2 ^ k % 2 := by
  rw [pow_succ, ← Nat.div_div_eq_div_mul]
  exact (Nat.div_add_mod (n / 2 ^ k) 2).symm

theorem mod_pow_succ (n k : Nat) : n % 2 ^ (k + 1) = n / 2 ^ k % 2 * 2 ^ k + n % 2 ^ k := by
  rw [pow_succ, Nat.mod_mul]
  ring

/-- The dividend down to bit `k`, by the divisor: the quotient so far and the partial remainder take
the next bit in. -/
theorem div_pow_eq (n d k : Nat) : n / 2 ^ k =
    d * (2 * (n / 2 ^ (k + 1) / d)) + (2 * partialRem n d (k + 1) + n / 2 ^ k % 2) := by
  have h := Nat.div_add_mod (n / 2 ^ (k + 1)) d
  calc n / 2 ^ k = 2 * (n / 2 ^ (k + 1)) + n / 2 ^ k % 2 := div_pow_succ n k
    _ = 2 * (d * (n / 2 ^ (k + 1) / d) + partialRem n d (k + 1)) + n / 2 ^ k % 2 := by rw [partialRem, h]
    _ = _ := by ring

theorem next_lt (hd : 0 < d) : 2 * partialRem n d (k + 1) + n / 2 ^ k % 2 < 2 * d := by
  have hr : partialRem n d (k + 1) < d := partialRem_lt hd
  have hb := Nat.mod_lt (n / 2 ^ k) (show 0 < 2 by decide)
  omega

theorem partialRem_succ (hd : 0 < d) : partialRem n d k =
    if d ≤ 2 * partialRem n d (k + 1) + n / 2 ^ k % 2 then 2 * partialRem n d (k + 1) + n / 2 ^ k % 2 - d
    else 2 * partialRem n d (k + 1) + n / 2 ^ k % 2 := by
  have hlt := next_lt (n := n) (k := k) hd
  conv_lhs => rw [partialRem, div_pow_eq n d k, Nat.mul_add_mod]
  split
  · rename_i hle
    rw [Nat.mod_eq_sub_mod hle, Nat.mod_eq_of_lt (by omega)]
  · rename_i hle
    exact Nat.mod_eq_of_lt (Nat.lt_of_not_le hle)

/-- A bit of the quotient says whether the divisor fits. -/
theorem testBit_div (hd : 0 < d) :
    (n / d).testBit k = decide (d ≤ 2 * partialRem n d (k + 1) + n / 2 ^ k % 2) := by
  have hlt := next_lt (n := n) (k := k) hd
  have hq : n / d / 2 ^ k = 2 * (n / 2 ^ (k + 1) / d) + (2 * partialRem n d (k + 1) + n / 2 ^ k % 2) / d := by
    rw [Nat.div_div_eq_div_mul, Nat.mul_comm d, ← Nat.div_div_eq_div_mul]
    conv_lhs => rw [div_pow_eq n d k]
    rw [Nat.mul_add_div hd]
  rw [Nat.testBit_eq_decide_div_mod_eq, hq, Nat.mul_add_mod]
  congr 1
  by_cases hle : d ≤ 2 * partialRem n d (k + 1) + n / 2 ^ k % 2
  · rw [Nat.div_eq_of_lt_le (k := 1) (by omega) (by omega)]
    exact eq_iff_iff.mpr ⟨fun _ => hle, fun _ => rfl⟩
  · rw [Nat.div_eq_of_lt (Nat.lt_of_not_le hle)]
    exact eq_iff_iff.mpr ⟨fun h => absurd h (by decide), fun h => absurd h hle⟩

/-! ## The register -/

theorem packed_top (h : n / 2 ^ w < d) : packed n d w w = n := by
  rw [packed, partialRem, Nat.mod_eq_of_lt h, Nat.sub_self, pow_zero, Nat.mul_one, Nat.mul_comm]
  exact Nat.div_add_mod n (2 ^ w)

theorem low_lt (hk : k ≤ w) : n % 2 ^ k * 2 ^ (w - k) < 2 ^ w := by
  calc n % 2 ^ k * 2 ^ (w - k) < 2 ^ k * 2 ^ (w - k) :=
        Nat.mul_lt_mul_of_pos_right (Nat.mod_lt _ (Nat.two_pow_pos k)) (Nat.two_pow_pos _)
    _ = 2 ^ w := by rw [← pow_add, Nat.add_sub_cancel' hk]

theorem packed_lt (hd : 0 < d) (hk : k ≤ w) : packed n d w k < d * 2 ^ w := by
  have hr : partialRem n d k < d := partialRem_lt hd
  have hmul : (partialRem n d k + 1) * 2 ^ w ≤ d * 2 ^ w := Nat.mul_le_mul_right _ hr
  have hlow := low_lt (n := n) hk
  unfold packed
  rw [Nat.add_mul, Nat.one_mul] at hmul
  omega

/-- The register shifted left by one. -/
theorem two_mul_packed (hk : k < w) : 2 * packed n d w (k + 1) =
    (2 * partialRem n d (k + 1) + n / 2 ^ k % 2) * 2 ^ w + n % 2 ^ k * 2 ^ (w - k) := by
  have hw : w - k = w - (k + 1) + 1 := by omega
  have hpow : 2 ^ w = 2 ^ k * 2 ^ (w - k) := by rw [← pow_add, Nat.add_sub_cancel' (le_of_lt hk)]
  rw [packed, mod_pow_succ, hpow, hw, pow_succ]
  ring

theorem fits_iff (hk : k < w) :
    d * 2 ^ w ≤ 2 * packed n d w (k + 1) ↔ d ≤ 2 * partialRem n d (k + 1) + n / 2 ^ k % 2 := by
  have hlow := low_lt (n := n) (le_of_lt hk)
  rw [two_mul_packed hk]
  constructor
  · intro h
    by_contra hlt
    have hmul : (2 * partialRem n d (k + 1) + n / 2 ^ k % 2 + 1) * 2 ^ w ≤ d * 2 ^ w :=
      Nat.mul_le_mul_right _ (by omega)
    rw [Nat.add_mul, Nat.one_mul] at hmul
    omega
  · intro h
    have hmul := Nat.mul_le_mul_right (2 ^ w) h
    omega

theorem packed_succ (hd : 0 < d) (hk : k < w) : packed n d w k =
    if d * 2 ^ w ≤ 2 * packed n d w (k + 1) then 2 * packed n d w (k + 1) - d * 2 ^ w
    else 2 * packed n d w (k + 1) := by
  rw [packed, partialRem_succ hd]
  by_cases hle : d ≤ 2 * partialRem n d (k + 1) + n / 2 ^ k % 2
  · rw [if_pos hle, if_pos ((fits_iff hk).mpr hle), two_mul_packed hk, Nat.sub_mul]
    have hmul := Nat.mul_le_mul_right (2 ^ w) hle
    omega
  · rw [if_neg hle, if_neg fun h => hle ((fits_iff hk).mp h), two_mul_packed hk]

end LongDivision
