import Mathlib.Data.BitVec

/-!
# UaeCpu.Lib.Loop

Counting loops over a state, their invariant rule, and loops that walk a ring of cells: indices
are `BitVec w`, so a walk of `n ≤ 2 ^ w` cells from any start meets each cell at most once.

* `Loop.rule`    — an invariant indexed by the counter.
* `Loop.keeps`   — what no pass changes.
* `Loop.visits`  — a loop that visits every cell once does to each what its pass does.
* `Loop.writes`  — a walk that writes one value writes the cells of its arc and no others.
-/

namespace Loop

variable {σ α : Type*}

/-- `for (int i = 0; i < n; i++) s = body(i, s)`. -/
def upto (body : Nat → σ → σ) : Nat → σ → σ
  | 0, s => s
  | n + 1, s => body n (upto body n s)

@[simp] theorem upto_zero (body : Nat → σ → σ) (s : σ) : upto body 0 s = s := rfl

theorem upto_succ (body : Nat → σ → σ) (n : Nat) (s : σ) :
    upto body (n + 1) s = body n (upto body n s) := rfl

variable {body : Nat → σ → σ} {n : Nat} {s : σ}

theorem rule (P : Nat → σ → Prop) (h0 : P 0 s)
    (hstep : ∀ i t, i < n → P i t → P (i + 1) (body i t)) : P n (upto body n s) := by
  induction n with
  | zero => exact h0
  | succ n ih =>
    refine hstep n _ (Nat.lt_succ_self n) (ih ?_)
    intro i t hi
    exact hstep i t (Nat.lt_succ_of_lt hi)

/-- An invariant that does not depend on the counter. -/
theorem inv (P : σ → Prop) (h0 : P s) (hstep : ∀ i t, i < n → P t → P (body i t)) :
    P (upto body n s) :=
  rule (fun _ t => P t) h0 hstep

theorem keeps (g : σ → α) (h : ∀ i t, g (body i t) = g t) : g (upto body n s) = g s :=
  inv (fun t => g t = g s) rfl fun i t _ ht => (h i t).trans ht

/-- A pass changes the cell of its own index; after all the passes every cell is changed once. -/
theorem visits {w : Nat} (get : σ → BitVec w → α) (f : BitVec w → α → α) (hn : n = 2 ^ w)
    (hbody : ∀ i t j, get (body i t) j = if j = BitVec.ofNat w i then f j (get t j) else get t j)
    (j : BitVec w) : get (upto body n s) j = f j (get s j) := by
  have hrun : ∀ j, get (upto body n s) j = if j.toNat < n then f j (get s j) else get s j := by
    refine rule (fun m t => ∀ j, get t j = if j.toNat < m then f j (get s j) else get s j) ?_ ?_
    · intro j
      rw [if_neg (Nat.not_lt_zero _)]
    · intro i t hi ih j
      have hj : j = BitVec.ofNat w i ↔ j.toNat = i := by
        rw [← BitVec.toNat_inj, BitVec.toNat_ofNat, Nat.mod_eq_of_lt (hn ▸ hi)]
      rw [hbody, ih]
      by_cases h : j.toNat = i
      · rw [if_pos (hj.mpr h), if_neg (by omega), if_pos (by omega)]
      · rw [if_neg (mt hj.mp h)]
        by_cases hlt : j.toNat < i
        · rw [if_pos hlt, if_pos (by omega)]
        · rw [if_neg hlt, if_neg (by omega)]
  rw [hrun, if_pos (hn ▸ j.isLt)]

/-! ## Arcs of a ring -/

section Ring

variable {w : Nat} (start : BitVec w)

/-- `j` is one of the `n` cells from `start` on. -/
def Arc (n : Nat) (j : BitVec w) : Prop := (j - start).toNat < n

instance (n : Nat) (j : BitVec w) : Decidable (Arc start n j) := by
  unfold Arc; infer_instance

theorem arc_zero (j : BitVec w) : ¬ Arc start 0 j := Nat.not_lt_zero _

theorem arc_succ {n : Nat} (hn : n < 2 ^ w) (j : BitVec w) :
    Arc start (n + 1) j ↔ j = start + BitVec.ofNat w n ∨ Arc start n j := by
  have hlast : j = start + BitVec.ofNat w n ↔ (j - start).toNat = n := by
    constructor
    · rintro rfl
      rw [BitVec.add_comm, BitVec.add_sub_cancel, BitVec.toNat_ofNat, Nat.mod_eq_of_lt hn]
    · intro h
      have : j - start = BitVec.ofNat w n := by
        apply BitVec.eq_of_toNat_eq
        rw [h, BitVec.toNat_ofNat, Nat.mod_eq_of_lt hn]
      rw [← this, BitVec.add_comm, BitVec.sub_add_cancel]
  unfold Arc
  rw [hlast]
  omega

/-- A walk that writes `v` leaves `v` in its arc and every other cell alone. -/
theorem writes (get : σ → BitVec w → α) (v : α) (hn : n ≤ 2 ^ w)
    (hbody : ∀ i t j, get (body i t) j = if j = start + BitVec.ofNat w i then v else get t j)
    (j : BitVec w) : get (upto body n s) j = if Arc start n j then v else get s j := by
  induction n with
  | zero => rw [upto_zero, if_neg (arc_zero start j)]
  | succ n ih =>
    rw [upto_succ, hbody, ih (by omega)]
    have hsucc := arc_succ start (by omega : n < 2 ^ w) j
    by_cases hj : j = start + BitVec.ofNat w n
    · rw [if_pos hj, if_pos (hsucc.mpr (.inl hj))]
    · rw [if_neg hj]
      by_cases ha : Arc start n j
      · rw [if_pos ha, if_pos (hsucc.mpr (.inr ha))]
      · rw [if_neg ha, if_neg]
        intro h
        exact (hsucc.mp h).elim hj ha

end Ring

end Loop
