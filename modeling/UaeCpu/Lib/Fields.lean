import Mathlib.Data.BitVec
import Mathlib.Data.List.Basic

/-!
# UaeCpu.Lib.Fields

A word cut into consecutive bit fields, from the top down.

* `field w lo n`   — the bits `lo`, …, `lo + n - 1` of a word of width `w`.
* `fields w hi ns` — fields of the widths `ns`, one under the other, the first just under bit `hi`.
* `fields_disjoint`, `fields_cover` — no two share a bit, and together they are all bits between.

Nothing here knows what the fields are for.
-/

namespace Fields

variable {w : Nat}

def field (w lo n : Nat) : BitVec w := (BitVec.allOnes n).setWidth w <<< lo

theorem getLsbD_field {lo n i : Nat} (hi : i < w) :
    (field w lo n).getLsbD i = decide (lo ≤ i ∧ i < lo + n) := by
  unfold field
  rw [BitVec.getLsbD_shiftLeft, BitVec.getLsbD_setWidth, BitVec.getLsbD_allOnes, Bool.eq_iff_iff]
  simp only [Bool.and_eq_true, Bool.not_eq_true', decide_eq_true_iff, decide_eq_false_iff_not]
  omega

theorem field_zero (lo : Nat) : field w lo 0 = 0#w := by
  apply BitVec.eq_of_getLsbD_eq
  intro i hi
  rw [getLsbD_field hi, BitVec.getLsbD_zero, decide_eq_false_iff_not]
  omega

/-- A field grows by the bit above it. -/
theorem field_succ (lo n : Nat) : field w lo (n + 1) = field w lo n ||| 1#w <<< (lo + n) := by
  apply BitVec.eq_of_getLsbD_eq
  intro i hi
  rw [BitVec.getLsbD_or, getLsbD_field hi, getLsbD_field hi, BitVec.getLsbD_shiftLeft,
    BitVec.getLsbD_one, Bool.eq_iff_iff]
  simp only [decide_eq_true_iff, Bool.or_eq_true, Bool.and_eq_true, Bool.not_eq_true',
    decide_eq_false_iff_not]
  omega

/-- Setting the bits of a field one after the other. -/
theorem foldl_bits (lo n : Nat) :
    (List.range n).foldl (fun m j => m ||| 1#w <<< (lo + j)) 0#w = field w lo n := by
  induction n with
  | zero => exact (field_zero lo).symm
  | succ n ih => rw [List.range_succ, List.foldl_append, ih, field_succ, List.foldl_cons,
      List.foldl_nil]

theorem field_ne_zero {lo n : Nat} (hn : 0 < n) (hlo : lo < w) : field w lo n ≠ 0#w := by
  intro h
  have hb := congrArg (fun x => BitVec.getLsbD x lo) h
  simp only [getLsbD_field hlo, BitVec.getLsbD_zero, decide_eq_false_iff_not] at hb
  omega

def fields (w : Nat) : Nat → List Nat → List (BitVec w)
  | _, [] => []
  | hi, n :: ns => field w (hi - n) n :: fields w (hi - n) ns

/-- The OR of all. -/
def union (bs : List (BitVec w)) : BitVec w := bs.foldr (· ||| ·) 0#w

theorem union_cons (b : BitVec w) (bs : List (BitVec w)) : union (b :: bs) = b ||| union bs := rfl

theorem getLsbD_union_fields {hi i : Nat} {ns : List Nat} (hsum : ns.sum ≤ hi) (hw : i < w) :
    (union (fields w hi ns)).getLsbD i = decide (hi - ns.sum ≤ i ∧ i < hi) := by
  induction ns generalizing hi with
  | nil =>
    unfold fields union
    rw [List.foldr_nil, BitVec.getLsbD_zero, eq_comm, decide_eq_false_iff_not, List.sum_nil]
    omega
  | cons n ns ih =>
    rw [List.sum_cons] at hsum
    unfold fields
    rw [union_cons, BitVec.getLsbD_or, getLsbD_field hw, ih (by omega), List.sum_cons,
      Bool.eq_iff_iff, Bool.or_eq_true, decide_eq_true_iff, decide_eq_true_iff, decide_eq_true_iff]
    omega

/-- Fields whose widths add up to the word's are all of it. -/
theorem fields_cover {ns : List Nat} (hsum : ns.sum = w) :
    union (fields w w ns) = BitVec.allOnes w := by
  apply BitVec.eq_of_getLsbD_eq
  intro i hi
  rw [getLsbD_union_fields (Nat.le_of_eq hsum) hi, hsum, BitVec.getLsbD_allOnes,
    decide_eq_decide]
  omega

theorem and_union {b : BitVec w} {bs : List (BitVec w)} (h : b &&& union bs = 0#w) :
    ∀ c ∈ bs, b &&& c = 0#w := by
  induction bs with
  | nil => simp
  | cons c bs ih =>
    rw [union_cons, BitVec.and_or_distrib_left, BitVec.or_eq_zero_iff] at h
    intro d hd
    rcases List.mem_cons.mp hd with rfl | hd
    · exact h.1
    · exact ih h.2 d hd

theorem fields_disjoint {hi : Nat} {ns : List Nat} (hsum : ns.sum ≤ hi) :
    (fields w hi ns).Pairwise fun b c => b &&& c = 0#w := by
  induction ns generalizing hi with
  | nil => exact .nil
  | cons n ns ih =>
    rw [List.sum_cons] at hsum
    refine .cons ?_ (ih (by omega))
    apply and_union
    apply BitVec.eq_of_getLsbD_eq
    intro i hi'
    rw [BitVec.getLsbD_and, getLsbD_field hi', getLsbD_union_fields (by omega) hi',
      BitVec.getLsbD_zero, Bool.and_eq_false_iff, decide_eq_false_iff_not, decide_eq_false_iff_not]
    omega

end Fields
