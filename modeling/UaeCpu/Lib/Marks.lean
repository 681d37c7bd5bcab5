import Mathlib.Data.BitVec
import Mathlib.Logic.Function.Basic

/-!
# UaeCpu.Lib.Marks

Memories of words in which bits are only ever set, as a table walk sets the "used" bits of what
it visits. A cell that is `none` cannot be accessed.

* `addBits m f`  — every word `x` of `m` with the bits `f x` set.
* `Marked k m m'` — `m'` is `m` with bits of the mask `k` set.

Nothing here knows which walk sets them.
-/

namespace Marks

variable {α : Type} {w : Nat}

/-! ## Bits of a mask -/

theorem or_and_of_disjoint {v b k q : BitVec w} (hb : b &&& k = b) (hq : k &&& q = 0#w) :
    (v ||| b) &&& q = v &&& q := by
  have hbq : b &&& q = 0#w := by
    rw [← hb, BitVec.and_assoc, hq, BitVec.and_zero]
  rw [BitVec.and_or_distrib_right, hbq, BitVec.or_zero]

/-- A bit is clear or set. -/
theorem and_bit (v : BitVec w) (i : Nat) :
    v &&& BitVec.twoPow w i = 0 ∨ v &&& BitVec.twoPow w i = BitVec.twoPow w i := by
  rw [BitVec.and_twoPow]
  split
  · exact .inr rfl
  · exact .inl rfl

theorem or_of_and_eq {v b : BitVec w} (h : v &&& b = b) : v ||| b = v := by
  rw [← h]
  ext i hi
  simp
  grind

theorem and_of_or_eq {v b : BitVec w} (h : v ||| b = v) : v &&& b = b := by
  rw [← h]
  ext i hi
  simp
  grind

/-! ## Setting bits -/

/-- The bits `f x` set in every word. -/
def addBits (m : α → Option (BitVec w)) (f : α → BitVec w) : α → Option (BitVec w) :=
  fun x => (m x).map (· ||| f x)

variable {m m' m'' : α → Option (BitVec w)} {f g : α → BitVec w} {x : α} {v : BitVec w}

theorem addBits_some (h : m x = some v) : addBits m f x = some (v ||| f x) := by
  rw [addBits, h]
  rfl

theorem addBits_none (h : m x = none) : addBits m f x = none := by
  rw [addBits, h]
  rfl

theorem addBits_zero : addBits m (fun _ => 0#w) = m := by
  funext x
  cases h : m x with
  | none => exact addBits_none h
  | some v => rw [addBits_some h, BitVec.or_zero]

theorem addBits_addBits : addBits (addBits m f) g = addBits m fun x => f x ||| g x := by
  funext x
  cases h : m x with
  | none => rw [addBits_none h, addBits_none (addBits_none h)]
  | some v => rw [addBits_some h, addBits_some (addBits_some h), BitVec.or_assoc]

/-- Bits that are all set already change nothing. -/
theorem addBits_eq_self (h : ∀ x v, m x = some v → v &&& f x = f x) : addBits m f = m := by
  funext x
  cases hx : m x with
  | none => exact addBits_none hx
  | some v => rw [addBits_some hx, or_of_and_eq (h x v hx)]

theorem set_of_addBits_eq_self (h : addBits m f = m) (hx : m x = some v) : v &&& f x = f x := by
  have hv := congrFun h x
  rw [addBits_some hx, hx, Option.some.injEq] at hv
  exact and_of_or_eq hv

theorem addBits_self : addBits (addBits m f) f = addBits m f := by
  rw [addBits_addBits]
  simp only [BitVec.or_self]

/-- The bits `b` at the cell `a` alone. -/
def only [DecidableEq α] (a : α) (b : BitVec w) : α → BitVec w := fun x => if x = a then b else 0#w

theorem only_set [DecidableEq α] {a : α} {b : BitVec w} (h : m a = some v) (hb : v &&& b = b)
    (x : α) (u : BitVec w) (hx : m x = some u) : u &&& only a b x = only a b x := by
  unfold only
  by_cases hxa : x = a
  · subst hxa
    rw [h, Option.some.injEq] at hx
    rw [if_pos rfl, ← hx, hb]
  · rw [if_neg hxa, BitVec.and_zero]

/-- Writing a word back with its bits set is setting them in memory. -/
theorem update_eq_addBits [DecidableEq α] {a : α} {b : BitVec w} (h : m a = some v) :
    Function.update m a (some (v ||| b)) = addBits m (only a b) := by
  funext x
  by_cases hx : x = a
  · subst hx
    rw [Function.update_self, addBits_some h, only, if_pos rfl]
  · rw [Function.update_of_ne hx]
    cases hm : m x with
    | none => exact (addBits_none hm).symm
    | some u => rw [addBits_some hm, only, if_neg hx, BitVec.or_zero]

/-! ## Memories with bits set -/

/-- `m'` is `m` with bits of `k` set. -/
def Marked (k : BitVec w) (m m' : α → Option (BitVec w)) : Prop :=
  ∃ f : α → BitVec w, (∀ x, f x &&& k = f x) ∧ m' = addBits m f

namespace Marked

variable {k : BitVec w}

theorem none_iff (h : Marked k m m') : m' x = none ↔ m x = none := by
  obtain ⟨f, -, rfl⟩ := h
  cases hx : m x with
  | none => simp [addBits_none hx]
  | some v => simp [addBits_some hx]

theorem some_of (h : Marked k m m') (hx : m x = some v) :
    ∃ b, b &&& k = b ∧ m' x = some (v ||| b) := by
  obtain ⟨f, hf, rfl⟩ := h
  exact ⟨f x, hf x, addBits_some hx⟩

/-- A bit that is set stays set. -/
theorem keeps {b : BitVec w} {v' : BitVec w} (h : Marked k m m') (hx : m x = some v)
    (hb : v &&& b = b) (hx' : m' x = some v') : v' &&& b = b := by
  obtain ⟨c, -, hc⟩ := h.some_of hx
  rw [hx', Option.some.injEq] at hc
  rw [hc, BitVec.and_or_distrib_right, hb]
  grind

end Marked

end Marks
