import Mathlib.Algebra.Ring.Parity
import Mathlib.Data.BitVec
import Mathlib.Tactic.Ring

/-!
# UaeCpu.Lib.Checksum

A sum and an exclusive or over the values at a list of positions, in which a position may occur more
than once.

* `sumAt_update`, `xorAt_update` — what becomes of each when the value at one position changes.
* `xor_detects` — an odd number of occurrences shows in the exclusive or.
* `sums_blind`  — an even number hides a change of the top bit from both.

Nothing here knows what the values are.
-/

namespace Checksum

variable {α : Type} {w : Nat}

/-- The sum of the values at `xs`. -/
def sumAt (f : α → BitVec w) : List α → BitVec w
  | [] => 0
  | x :: xs => f x + sumAt f xs

/-- Their exclusive or. -/
def xorAt (f : α → BitVec w) : List α → BitVec w
  | [] => 0
  | x :: xs => f x ^^^ xorAt f xs

@[simp] theorem sumAt_append (f : α → BitVec w) (xs ys : List α) :
    sumAt f (xs ++ ys) = sumAt f xs + sumAt f ys := by
  induction xs with
  | nil => simp [sumAt]
  | cons x xs ih => simp [sumAt, ih, BitVec.add_assoc]

@[simp] theorem xorAt_append (f : α → BitVec w) (xs ys : List α) :
    xorAt f (xs ++ ys) = xorAt f xs ^^^ xorAt f ys := by
  induction xs with
  | nil => simp [xorAt]
  | cons x xs ih => simp [xorAt, ih, BitVec.xor_assoc]

theorem xor_xor_swap (a b x : BitVec w) : b ^^^ (x ^^^ (a ^^^ b)) = a ^^^ x := by
  ext i
  simp only [BitVec.getElem_xor]
  cases a[i] <;> cases b[i] <;> cases x[i] <;> rfl

section Update

variable [DecidableEq α] {f g : α → BitVec w} {a : α}

/-- The values differ at one position at most. -/
def AgreeOff (a : α) (f g : α → BitVec w) : Prop := ∀ x, x ≠ a → g x = f x

theorem sumAt_update (h : AgreeOff a f g) (xs : List α) :
    sumAt g xs = sumAt f xs + (xs.count a : BitVec w) * (g a - f a) := by
  induction xs with
  | nil => simp [sumAt]
  | cons x xs ih =>
    by_cases hx : x = a
    · subst hx
      simp only [sumAt, ih, List.count_cons_self, Nat.cast_add, Nat.cast_one]
      ring
    · rw [sumAt, sumAt, ih, h x hx, List.count_cons_of_ne hx, BitVec.add_assoc]

theorem xorAt_update (h : AgreeOff a f g) (xs : List α) :
    xorAt g xs = xorAt f xs ^^^ if Odd (xs.count a) then f a ^^^ g a else 0 := by
  induction xs with
  | nil => simp [xorAt]
  | cons x xs ih =>
    by_cases hx : x = a
    · subst hx
      rw [xorAt, xorAt, ih, List.count_cons_self]
      by_cases ho : Odd (xs.count x)
      · rw [if_pos ho, if_neg (by simpa [Nat.odd_add_one] using ho), xor_xor_swap]
        simp
      · rw [if_neg ho, if_pos (by simpa [Nat.odd_add_one] using ho), BitVec.xor_assoc,
          BitVec.xor_comm (f x) (g x), xor_xor_swap]
        simp
    · rw [xorAt, xorAt, ih, h x hx, List.count_cons_of_ne hx, BitVec.xor_assoc]

/-- An odd number of occurrences shows in the exclusive or. -/
theorem xor_detects (h : AgreeOff a f g) (hne : g a ≠ f a) {xs : List α} (ho : Odd (xs.count a)) :
    xorAt g xs ≠ xorAt f xs := by
  rw [xorAt_update h, if_pos ho]
  intro he
  have hx : f a ^^^ g a = 0#w := BitVec.xor_right_inj (xorAt f xs) |>.mp (by rw [he, BitVec.xor_zero])
  exact hne (BitVec.xor_eq_zero_iff.mp hx).symm

/-- An even number of occurrences hides a change of the top bit. -/
theorem sums_blind (h : AgreeOff a f g) {m : Nat} (hw : w = m + 1)
    (hg : g a - f a = (2 ^ m : Nat)) {xs : List α} (he : Even (xs.count a)) :
    sumAt g xs = sumAt f xs ∧ xorAt g xs = xorAt f xs := by
  constructor
  · obtain ⟨k, hk⟩ := he
    have hz : ((xs.count a : Nat) : BitVec w) * ((2 ^ m : Nat) : BitVec w) = 0 := by
      rw [← Nat.cast_mul, hk, BitVec.natCast_eq_ofNat]
      apply BitVec.eq_of_toNat_eq
      rw [BitVec.toNat_ofNat, hw, show (k + k) * 2 ^ m = k * 2 ^ (m + 1) by ring]
      simp
    rw [sumAt_update h, hg, hz, add_zero]
  · rw [xorAt_update h, if_neg (Nat.not_odd_iff_even.mpr he)]
    simp

end Update

end Checksum
