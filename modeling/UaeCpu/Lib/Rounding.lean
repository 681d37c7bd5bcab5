import Mathlib.Algebra.Order.Field.Power
import Mathlib.Data.Rat.Floor
import Mathlib.Order.Bounds.Basic
import Mathlib.Tactic.FieldSimp
import Mathlib.Tactic.Linarith
import Mathlib.Tactic.NormNum
import Mathlib.Tactic.Ring
import Mathlib.Tactic.SplitIfs

/-!
# UaeCpu.Lib.Rounding

Rounding a magnitude to a binary floating-point format.

* `Fits p emin x`     — `x` is a number of `p` bits, with exponents from `emin` on.
* `Rounds p emin d x` — what `x` is rounded to in direction `d`.
* `InBinade.rounds`    — rounding to a multiple of the last place does it.
* `Same g x y`        — no number on the grid with distance `g` tells `x` and `y` apart.
* `same_jam`          — bits that are cut off may be jammed into the lowest one.
-/

namespace Rounding

/-- Where a magnitude is rounded to. -/
inductive Dir where
  | nearestEven | down | up
  deriving DecidableEq, Repr

def Fits (p : Nat) (emin : Int) (x : ℚ) : Prop := ∃ (m : Nat) (e : Int), m < 2 ^ p ∧ emin ≤ e ∧ x = m * 2 ^ e

/-- The greatest number below, the least above, or the nearest one: of two the one with an even last
place, which is a number of one bit less. -/
def Rounds (p : Nat) (emin : Int) (d : Dir) (x y : ℚ) : Prop :=
  match d with
  | .down => IsGreatest {f | Fits p emin f ∧ f ≤ x} y
  | .up => IsLeast {f | Fits p emin f ∧ x ≤ f} y
  | .nearestEven => Fits p emin y ∧ (∀ f, Fits p emin f → |x - y| ≤ |x - f|) ∧
      (Fits (p - 1) (emin + 1) y ∨ ∀ f, Fits p emin f → |x - f| = |x - y| → f = y)

/-! ## To an integer -/

/-- Whether `x = n + r` is rounded to `n + 1`. -/
def RoundsUp (d : Dir) (n : Nat) (r : ℚ) : Prop :=
  match d with
  | .down => False
  | .up => 0 < r
  | .nearestEven => 1 / 2 < r ∨ r = 1 / 2 ∧ n % 2 = 1

instance (d : Dir) (n : Nat) (r : ℚ) : Decidable (RoundsUp d n r) := by
  cases d <;> unfold RoundsUp <;> infer_instance

def roundInt (d : Dir) (x : ℚ) : Nat :=
  let n := ⌊x⌋₊
  if RoundsUp d n (x - n) then n + 1 else n

/-- `x` is `n` and a part below one. -/
theorem roundInt_eq (d : Dir) {x : ℚ} {n : Nat} (hn : (n : ℚ) ≤ x) (hn' : x < n + 1) :
    roundInt d x = if RoundsUp d n (x - n) then n + 1 else n := by
  have hfloor : ⌊x⌋₊ = n := (Nat.floor_eq_iff ((Nat.cast_nonneg n).trans hn)).mpr ⟨hn, hn'⟩
  simp only [roundInt, hfloor]

theorem roundInt_natCast (d : Dir) (n : Nat) : roundInt d n = n := by
  rw [roundInt_eq d (le_refl _) (lt_add_one _), sub_self, if_neg]
  cases d with
  | down => exact id
  | up => exact lt_irrefl 0
  | nearestEven =>
    rintro (h | ⟨h, -⟩)
    · norm_num at h
    · norm_num at h

/-- Between two halves all numbers are rounded the same. -/
theorem roundInt_half (d : Dir) {x : ℚ} {j : Nat} (hj : (j : ℚ) / 2 < x) (hj' : x < (j + 1) / 2) :
    roundInt d x = match d with
      | .down => j / 2
      | .up => j / 2 + 1
      | .nearestEven => (j + 1) / 2 := by
  have hdiv : (j : ℚ) = 2 * ((j / 2 : Nat) : ℚ) + ((j % 2 : Nat) : ℚ) := by
    exact_mod_cast (Nat.div_add_mod j 2).symm
  have hmod : j % 2 = 0 ∨ j % 2 = 1 := Nat.mod_two_eq_zero_or_one j
  have hn : ((j / 2 : Nat) : ℚ) < x := by
    rcases hmod with h | h <;> rw [h] at hdiv <;> push_cast at hdiv <;> linarith
  have hn' : x < (j / 2 : Nat) + 1 := by
    rcases hmod with h | h <;> rw [h] at hdiv <;> push_cast at hdiv <;> linarith
  rw [roundInt_eq d hn.le hn']
  cases d with
  | down => exact if_neg id
  | up => exact if_pos (sub_pos.mpr hn)
  | nearestEven =>
    rcases hmod with h | h
    · rw [h] at hdiv
      push_cast at hdiv
      rw [if_neg]
      · exact (show j / 2 = (j + 1) / 2 by omega)
      · rintro (hr | ⟨hr, -⟩) <;> linarith
    · rw [h] at hdiv
      push_cast at hdiv
      rw [if_pos (show RoundsUp .nearestEven _ _ from .inl (by linarith))]
      exact (show j / 2 + 1 = (j + 1) / 2 by omega)

/-- `n / 2 ^ k` to an integer. -/
def roundDiv (d : Dir) (n k : Nat) : Nat :=
  let q := n / 2 ^ k
  let r := n % 2 ^ k
  match d with
  | .down => q
  | .up => if r = 0 then q else q + 1
  | .nearestEven => if 2 * r < 2 ^ k then q else if 2 ^ k < 2 * r then q + 1 else q + q % 2

theorem roundInt_div (d : Dir) (n k : Nat) : roundInt d ((n : ℚ) / 2 ^ k) = roundDiv d n k := by
  have hpos : (0 : ℚ) < 2 ^ k := by positivity
  have hdiv : (n : ℚ) = 2 ^ k * ((n / 2 ^ k : Nat) : ℚ) + ((n % 2 ^ k : Nat) : ℚ) := by
    exact_mod_cast (Nat.div_add_mod n (2 ^ k)).symm
  have hmod : ((n % 2 ^ k : Nat) : ℚ) < 2 ^ k := by exact_mod_cast Nat.mod_lt n (Nat.two_pow_pos k)
  have hfract : (n : ℚ) / 2 ^ k - ((n / 2 ^ k : Nat) : ℚ) = ((n % 2 ^ k : Nat) : ℚ) / 2 ^ k := by
    conv_lhs => rw [hdiv]
    field_simp
    ring
  have hnonneg : (0 : ℚ) ≤ ((n % 2 ^ k : Nat) : ℚ) / 2 ^ k := by positivity
  have hlt : ((n % 2 ^ k : Nat) : ℚ) / 2 ^ k < 1 := (div_lt_one hpos).mpr hmod
  rw [roundInt_eq (n := n / 2 ^ k) d (by linarith) (by linarith), hfract]
  unfold roundDiv
  generalize n / 2 ^ k = q
  generalize n % 2 ^ k = r at *
  cases d with
  | down => exact if_neg id
  | up =>
    by_cases hr : r = 0
    · subst hr
      rw [if_neg (show ¬ RoundsUp .up q _ by simp [RoundsUp])]
      rfl
    · have hpos' : (0 : ℚ) < r := by exact_mod_cast Nat.pos_of_ne_zero hr
      rw [if_pos (show RoundsUp .up q _ from div_pos hpos' hpos)]
      exact (if_neg hr).symm
  | nearestEven =>
    have hgt : 1 / 2 < (r : ℚ) / 2 ^ k ↔ 2 ^ k < 2 * r := by
      rw [div_lt_div_iff₀ (by norm_num) hpos, one_mul, mul_comm]
      exact_mod_cast Iff.rfl
    have heq : (r : ℚ) / 2 ^ k = 1 / 2 ↔ 2 * r = 2 ^ k := by
      rw [div_eq_div_iff hpos.ne' (by norm_num), one_mul, mul_comm]
      exact_mod_cast Iff.rfl
    simp only
    by_cases hup : RoundsUp .nearestEven q ((r : ℚ) / 2 ^ k)
    · rw [if_pos hup]
      rcases hup with h | ⟨h, hodd⟩
      · have := hgt.mp h
        rw [if_neg (by omega), if_pos this]
      · have := heq.mp h
        rw [if_neg (by omega), if_neg (by omega), hodd]
    · rw [if_neg hup]
      have hle : ¬ 2 ^ k < 2 * r := fun h => hup (.inl (hgt.mpr h))
      by_cases hhalf : 2 * r = 2 ^ k
      · have heven : q % 2 ≠ 1 := fun h => hup (.inr ⟨heq.mpr hhalf, h⟩)
        rw [if_neg (by omega), if_neg hle]
        omega
      · rw [if_pos (by omega)]

theorem roundDiv_bounds (d : Dir) (n k : Nat) : n / 2 ^ k ≤ roundDiv d n k ∧ roundDiv d n k ≤ n / 2 ^ k + 1 := by
  unfold roundDiv
  cases d with
  | down => exact ⟨le_refl _, Nat.le_succ _⟩
  | up =>
    simp only
    split <;> omega
  | nearestEven =>
    simp only
    split_ifs <;> omega

/-! ## Cells -/

/-- `x` and `y` are equal, or in the same cell of the grid with distance `g`, and not on the grid. -/
def Same (g x y : ℚ) : Prop :=
  x = y ∨ ∃ j : Nat, (j * g < x ∧ x < (j + 1) * g) ∧ j * g < y ∧ y < (j + 1) * g

namespace Same

variable {g x y z : ℚ} {a : Nat}

theorem refl (g x : ℚ) : Same g x x := .inl rfl

theorem symm (h : Same g x y) : Same g y x := by
  rcases h with rfl | ⟨j, hx, hy⟩
  · exact .refl g x
  · exact .inr ⟨j, hy, hx⟩

theorem cell_unique (hg : 0 < g) {i j : Nat} (hi : i * g < x ∧ x < (i + 1) * g) (hj : j * g < x ∧ x < (j + 1) * g) :
    i = j := by
  have h₁ : (i : ℚ) < j + 1 := lt_of_mul_lt_mul_right (hi.1.trans hj.2) hg.le
  have h₂ : (j : ℚ) < i + 1 := lt_of_mul_lt_mul_right (hj.1.trans hi.2) hg.le
  have h₁' : i < j + 1 := by exact_mod_cast h₁
  have h₂' : j < i + 1 := by exact_mod_cast h₂
  omega

theorem trans (hg : 0 < g) (h : Same g x y) (h' : Same g y z) : Same g x z := by
  rcases h with rfl | ⟨i, hx, hy⟩
  · exact h'
  · rcases h' with rfl | ⟨j, hy', hz⟩
    · exact .inr ⟨i, hx, hy⟩
    · rw [← cell_unique hg hy hy'] at hz
      exact .inr ⟨i, hx, hz⟩

/-- A coarser grid. -/
theorem mono (hg : 0 < g) {m : Nat} (hm : 0 < m) (h : Same g x y) : Same (m * g) x y := by
  rcases h with rfl | ⟨j, ⟨hx, hx'⟩, hy, hy'⟩
  · exact .refl _ x
  · have hlo : (((j / m : Nat) : ℚ)) * (m * g) ≤ j * g := by
      rw [← mul_assoc]
      exact mul_le_mul_of_nonneg_right (by exact_mod_cast Nat.div_mul_le_self j m) hg.le
    have hhi : ((j : ℚ) + 1) * g ≤ (((j / m : Nat) : ℚ) + 1) * (m * g) := by
      rw [← mul_assoc]
      refine mul_le_mul_of_nonneg_right ?_ hg.le
      have hlt : j < (j / m + 1) * m := Nat.lt_mul_of_div_lt (Nat.lt_succ_self _) hm
      exact_mod_cast hlt
    exact .inr ⟨j / m, ⟨hlo.trans_lt hx, hx'.trans_le hhi⟩, hlo.trans_lt hy, hy'.trans_le hhi⟩

theorem scale {c : ℚ} (hc : 0 < c) (h : Same g x y) : Same (c * g) (c * x) (c * y) := by
  have hcell : ∀ j : ℚ, j * (c * g) = c * (j * g) := fun j => by ring
  rcases h with rfl | ⟨j, ⟨hx, hx'⟩, hy, hy'⟩
  · exact .refl _ _
  · refine .inr ⟨j, ?_⟩
    rw [hcell, hcell]
    exact ⟨⟨mul_lt_mul_of_pos_left hx hc, mul_lt_mul_of_pos_left hx' hc⟩, mul_lt_mul_of_pos_left hy hc,
      mul_lt_mul_of_pos_left hy' hc⟩

/-- Beside a number on the grid. -/
theorem add (a : Nat) (h : Same g x y) : Same g (a * g + x) (a * g + y) := by
  rcases h with rfl | ⟨j, ⟨hx, hx'⟩, hy, hy'⟩
  · exact .refl _ _
  · refine .inr ⟨a + j, ?_⟩
    push_cast
    refine ⟨⟨?_, ?_⟩, ?_, ?_⟩ <;> linarith

theorem sub (hg : 0 < g) (h : Same g x y) (hx : x ≤ a * g) : Same g (a * g - x) (a * g - y) := by
  rcases h with rfl | ⟨j, ⟨hjx, hx'⟩, hy, hy'⟩
  · exact .refl _ _
  · have hja : (j : ℚ) < a := lt_of_mul_lt_mul_right (hjx.trans_le hx) hg.le
    have hle : j + 1 ≤ a := by exact_mod_cast hja
    refine .inr ⟨a - (j + 1), ?_⟩
    rw [Nat.cast_sub hle]
    push_cast
    refine ⟨⟨?_, ?_⟩, ?_, ?_⟩ <;> linarith

theorem lt_of_lt (hg : 0 < g) (h : Same g x y) (hy : y < a * g) : x < a * g := by
  rcases h with rfl | ⟨j, ⟨-, hx'⟩, hjy, -⟩
  · exact hy
  · have hja : (j : ℚ) < a := lt_of_mul_lt_mul_right (hjy.trans hy) hg.le
    have hle : (j : ℚ) + 1 ≤ a := by exact_mod_cast (show j + 1 ≤ a from by exact_mod_cast hja)
    exact hx'.trans_le (mul_le_mul_of_nonneg_right hle hg.le)

theorem le_of_le (hg : 0 < g) (h : Same g x y) (hy : a * g ≤ y) : a * g ≤ x :=
  not_lt.mp fun hlt => absurd (h.symm.lt_of_lt hg hlt) (not_lt.mpr hy)

/-- On the grid together. -/
theorem grid_iff (hg : 0 < g) (h : Same g x y) : (∃ m : Nat, x = m * g) ↔ ∃ m : Nat, y = m * g := by
  have hoff : ∀ {w : ℚ} {j m : Nat}, j * g < w ∧ w < (j + 1) * g → w ≠ m * g := by
    rintro w j m ⟨hlo, hhi⟩ rfl
    have h₁ : (j : ℚ) < m := lt_of_mul_lt_mul_right hlo hg.le
    have h₂ : (m : ℚ) < j + 1 := lt_of_mul_lt_mul_right hhi hg.le
    have h₁' : j < m := by exact_mod_cast h₁
    have h₂' : m < j + 1 := by exact_mod_cast h₂
    omega
  rcases h with rfl | ⟨j, hx, hy⟩
  · exact Iff.rfl
  · exact ⟨fun ⟨m, hm⟩ => absurd hm (hoff hx), fun ⟨m, hm⟩ => absurd hm (hoff hy)⟩

/-- Numbers in the same half are rounded alike. -/
theorem roundInt_eq (d : Dir) (h : Same (1 / 2) x y) : roundInt d x = roundInt d y := by
  rcases h with rfl | ⟨j, ⟨hx, hx'⟩, hy, hy'⟩
  · rfl
  · rw [mul_one_div] at hx hx' hy hy'
    rw [roundInt_half d hx hx', roundInt_half d hy hy']

end Same

/-! ## Sticky bits -/

/-- `n / 2 ^ k`, with what is cut off jammed into the lowest bit. -/
def jam (n k : Nat) : Nat := if n % 2 ^ k = 0 then n / 2 ^ k else n / 2 ^ k ||| 1

theorem or_one_eq (n : Nat) : n ||| 1 = 2 * (n / 2) + 1 := by
  refine Nat.eq_of_testBit_eq fun i => ?_
  cases i with
  | zero => simp
  | succ i =>
    have hdiv : (2 * (n / 2) + 1) / 2 = n / 2 := by omega
    rw [Nat.testBit_or, Nat.testBit_succ, Nat.testBit_succ, Nat.testBit_succ, hdiv]
    simp

theorem jam_le (n k : Nat) : jam n k ≤ n / 2 ^ k + 1 := by
  rw [jam, or_one_eq]
  split <;> omega

theorem same_jam (n k : Nat) : Same 2 ((n : ℚ) / 2 ^ k) (jam n k) := by
  have hpos : (0 : ℚ) < 2 ^ k := by positivity
  have hdiv := Nat.div_add_mod n (2 ^ k)
  have hmod := Nat.mod_lt n (Nat.two_pow_pos k)
  rw [jam]
  split
  · rename_i hzero
    refine .inl ?_
    rw [hzero, Nat.add_zero] at hdiv
    rw [div_eq_iff hpos.ne']
    exact_mod_cast (hdiv.symm.trans (Nat.mul_comm _ _))
  · rename_i hne
    rw [or_one_eq]
    have hq := Nat.div_add_mod (n / 2 ^ k) 2
    have hlo : n / 2 ^ k / 2 * 2 * 2 ^ k < n := by
      have hle : n / 2 ^ k / 2 * 2 * 2 ^ k ≤ n / 2 ^ k * 2 ^ k := Nat.mul_le_mul_right _ (by omega)
      rw [Nat.mul_comm (n / 2 ^ k)] at hle
      omega
    have hhi : n < (n / 2 ^ k / 2 + 1) * 2 * 2 ^ k := by
      have hle : (n / 2 ^ k + 1) * 2 ^ k ≤ (n / 2 ^ k / 2 + 1) * 2 * 2 ^ k := Nat.mul_le_mul_right _ (by omega)
      rw [Nat.add_mul, Nat.one_mul, Nat.mul_comm (n / 2 ^ k)] at hle
      omega
    refine .inr ⟨n / 2 ^ k / 2, ⟨?_, ?_⟩, ?_, ?_⟩
    · rw [lt_div_iff₀ hpos]
      exact_mod_cast hlo
    · rw [div_lt_iff₀ hpos]
      exact_mod_cast hhi
    · push_cast
      linarith
    · push_cast
      linarith

/-! ## To a format -/

section Format

variable {p : Nat} {emin e : Int} {x : ℚ}

theorem two_zpow_pos (e : Int) : (0 : ℚ) < 2 ^ e := zpow_pos (by norm_num) e

theorem two_zpow_add_natCast (e : Int) (k : Nat) : (2 : ℚ) ^ (e + k) = 2 ^ k * 2 ^ e := by
  rw [zpow_add₀ (by norm_num), zpow_natCast, mul_comm]

/-- A multiple of the last place. -/
theorem fits_mul {m : Nat} (hm : m < 2 ^ p) (he : emin ≤ e) : Fits p emin (m * 2 ^ e) := ⟨m, e, hm, he, rfl⟩

/-- .. or the power of two behind the largest one. -/
theorem fits_le {m : Nat} (hp : 0 < p) (hm : m ≤ 2 ^ p) (he : emin ≤ e) : Fits p emin (m * 2 ^ e) := by
  rcases Nat.lt_or_eq_of_le hm with hlt | rfl
  · exact fits_mul hlt he
  · refine ⟨1, e + p, Nat.one_lt_two_pow (by omega), by omega, ?_⟩
    rw [two_zpow_add_natCast]
    push_cast
    ring

/-- A number with a lower last place than `x` is below the binade of `x`. -/
theorem fits_cases {f : ℚ} (h : Fits p emin f) (hp : 0 < p) (hx : e = emin ∨ 2 ^ (p - 1) * 2 ^ e ≤ x) :
    (∃ n : Nat, f = n * 2 ^ e) ∨ f < 2 ^ (p - 1) * 2 ^ e ∧ 2 ^ (p - 1) * 2 ^ e ≤ x := by
  obtain ⟨m, e', hm, he', rfl⟩ := h
  by_cases hle : e ≤ e'
  · obtain ⟨k, hk⟩ := Int.le.dest hle
    refine .inl ⟨m * 2 ^ k, ?_⟩
    rw [← hk, two_zpow_add_natCast]
    push_cast
    ring
  · refine .inr ⟨?_, hx.resolve_left (by omega)⟩
    have hmq : (m : ℚ) < 2 ^ p := by exact_mod_cast hm
    have hpow : (2 : ℚ) ^ p = 2 ^ (p - 1) * 2 := by rw [← pow_succ]; congr 1; omega
    have hnext : (2 : ℚ) * 2 ^ e' ≤ 2 ^ e := by
      have h : (2 : ℚ) ^ (e' + (1 : Nat)) ≤ 2 ^ e := zpow_le_zpow_right₀ (by norm_num) (by push_cast; omega)
      rwa [two_zpow_add_natCast, pow_one] at h
    calc (m : ℚ) * 2 ^ e' < 2 ^ p * 2 ^ e' := mul_lt_mul_of_pos_right hmq (two_zpow_pos e')
      _ = 2 ^ (p - 1) * (2 * 2 ^ e') := by rw [hpow]; ring
      _ ≤ 2 ^ (p - 1) * 2 ^ e := mul_le_mul_of_nonneg_left hnext (by positivity)

/-- `n` is what `x` has in units of the last place, `e`. -/
structure InBinade (p : Nat) (emin e : Int) (x : ℚ) (n : Nat) : Prop where
  lo : (n : ℚ) * 2 ^ e ≤ x
  hi : x < (n + 1) * 2 ^ e
  lt : n < 2 ^ p
  emin_le : emin ≤ e
  full : e = emin ∨ 2 ^ (p - 1) ≤ n

namespace InBinade

variable {n : Nat} {f : ℚ}

theorem cases (h : InBinade p emin e x n) (hp : 0 < p) (hf : Fits p emin f) :
    (∃ m : Nat, f = m * 2 ^ e) ∨ f < n * 2 ^ e := by
  have hpos := two_zpow_pos e
  have hn : e = emin ∨ (2 : ℚ) ^ (p - 1) * 2 ^ e ≤ n * 2 ^ e := h.full.imp_right fun hn =>
    mul_le_mul_of_nonneg_right (by exact_mod_cast hn) hpos.le
  exact (fits_cases hf hp hn).imp_right fun h => h.1.trans_le h.2

/-- A number of the format below `x`. -/
theorem le_of_le (h : InBinade p emin e x n) (hp : 0 < p) (hf : Fits p emin f) (hle : f ≤ x) : f ≤ n * 2 ^ e := by
  have hpos := two_zpow_pos e
  rcases h.cases hp hf with ⟨m, rfl⟩ | hlt
  · have hm : (m : ℚ) < n + 1 := lt_of_mul_lt_mul_right (hle.trans_lt h.hi) hpos.le
    have hmn : m ≤ n := Nat.lt_succ_iff.mp (by exact_mod_cast hm)
    exact mul_le_mul_of_nonneg_right (by exact_mod_cast hmn) hpos.le
  · exact hlt.le

/-- A number of the format above `x`, where `x` is none. -/
theorem ge_of_ge (h : InBinade p emin e x n) (hp : 0 < p) (hf : Fits p emin f) (hle : x ≤ f)
    (hne : (n : ℚ) * 2 ^ e < x) : ((n + 1 : Nat) : ℚ) * 2 ^ e ≤ f := by
  have hpos := two_zpow_pos e
  rcases h.cases hp hf with ⟨m, rfl⟩ | hlt
  · have hm : (n : ℚ) < m := lt_of_mul_lt_mul_right (hne.trans_le hle) hpos.le
    have hmn : n + 1 ≤ m := by exact_mod_cast hm
    exact mul_le_mul_of_nonneg_right (by exact_mod_cast hmn) hpos.le
  · exact absurd (hlt.trans_le h.lo) (not_lt.mpr hle)

theorem fits_succ (h : InBinade p emin e x n) (hp : 0 < p) : Fits p emin (((n + 1 : Nat) : ℚ) * 2 ^ e) :=
  fits_le hp h.lt h.emin_le

theorem fits_self (h : InBinade p emin e x n) : Fits p emin (n * 2 ^ e) := fits_mul h.lt h.emin_le

/-- An even number of last places has a bit less. -/
theorem fits_even (hp : 1 < p) {m : Nat} (hm : m ≤ 2 ^ p) (he : emin ≤ e) (heven : m % 2 = 0) :
    Fits (p - 1) (emin + 1) (m * 2 ^ e) := by
  obtain ⟨k, rfl⟩ : ∃ k, m = 2 * k := ⟨m / 2, by omega⟩
  have hk : k ≤ 2 ^ (p - 1) := by
    have hpow : 2 ^ p = 2 * 2 ^ (p - 1) := by rw [← pow_succ']; congr 1; omega
    omega
  have h : Fits (p - 1) (emin + 1) (k * 2 ^ (e + (1 : Nat))) := fits_le (by omega) hk (by push_cast; omega)
  rw [two_zpow_add_natCast] at h
  convert h using 1
  push_cast
  ring

theorem floor (h : InBinade p emin e x n) (d : Dir) :
    roundInt d (x / 2 ^ e) = if RoundsUp d n (x / 2 ^ e - n) then n + 1 else n := by
  have hpos := two_zpow_pos e
  exact roundInt_eq d ((le_div_iff₀ hpos).mpr h.lo) ((div_lt_iff₀ hpos).mpr h.hi)

/-- Rounding to a multiple of the last place rounds to the format. -/
theorem rounds (h : InBinade p emin e x n) (hp : 1 < p) (d : Dir) :
    Rounds p emin d x (roundInt d (x / 2 ^ e) * 2 ^ e) := by
  have hpos := two_zpow_pos e
  have hr : x - n * 2 ^ e = (x / 2 ^ e - n) * 2 ^ e := by field_simp
  have hr' : ((n + 1 : Nat) : ℚ) * 2 ^ e - x = (1 - (x / 2 ^ e - n)) * 2 ^ e := by push_cast; field_simp; ring
  have hdown : ∀ f, Fits p emin f → f ≤ x → x - n * 2 ^ e ≤ x - f := fun f hf hle =>
    sub_le_sub_left (h.le_of_le (by omega) hf hle) x
  rw [h.floor d]
  cases d with
  | down =>
    rw [if_neg (show ¬ RoundsUp .down n _ from id)]
    exact ⟨⟨h.fits_self, h.lo⟩, fun f hf => h.le_of_le (by omega) hf.1 hf.2⟩
  | up =>
    by_cases hne : RoundsUp .up n (x / 2 ^ e - n)
    · have hlt : (n : ℚ) * 2 ^ e < x := by
        rw [← sub_pos, hr]
        exact mul_pos hne hpos
      rw [if_pos hne]
      refine ⟨⟨h.fits_succ (by omega), ?_⟩, fun f hf => h.ge_of_ge (by omega) hf.1 hf.2 hlt⟩
      push_cast
      exact h.hi.le
    · have heq : x = n * 2 ^ e := by
        have hle : x / 2 ^ e - n ≤ 0 := not_lt.mp hne
        have : x - n * 2 ^ e ≤ 0 := by
          rw [hr]
          exact mul_nonpos_of_nonpos_of_nonneg hle hpos.le
        exact le_antisymm (sub_nonpos.mp this) h.lo
      rw [if_neg hne]
      exact ⟨⟨h.fits_self, heq.le⟩, fun f hf => heq ▸ hf.2⟩
  | nearestEven =>
    have hup : ∀ f, Fits p emin f → x ≤ f → (n : ℚ) * 2 ^ e < x → ((n + 1 : Nat) : ℚ) * 2 ^ e - x ≤ f - x :=
      fun f hf hle hlt => sub_le_sub_right (h.ge_of_ge (by omega) hf hle hlt) x
    have hlo : |x - n * 2 ^ e| = (x / 2 ^ e - n) * 2 ^ e := by rw [abs_of_nonneg (sub_nonneg.mpr h.lo), hr]
    have hhi : |x - ((n + 1 : Nat) : ℚ) * 2 ^ e| = (1 - (x / 2 ^ e - n)) * 2 ^ e := by
      have hle : x ≤ ((n + 1 : Nat) : ℚ) * 2 ^ e := by push_cast; exact h.hi.le
      rw [abs_sub_comm, abs_of_nonneg (sub_nonneg.mpr hle), hr']
    generalize hrdef : x / 2 ^ e - n = r at *
    by_cases hne : RoundsUp .nearestEven n r
    · have hhalf : 1 / 2 ≤ r := by
        rcases hne with hlt | ⟨heq, -⟩
        · exact hlt.le
        · exact heq.ge
      have hlt : (n : ℚ) * 2 ^ e < x := by
        rw [← sub_pos, hr]
        exact mul_pos (by linarith) hpos
      rw [if_pos hne]
      have hdist : ∀ f, Fits p emin f → f ≤ x → r * 2 ^ e ≤ |x - f| := fun f hf hle => by
        rw [abs_of_nonneg (sub_nonneg.mpr hle), ← hr]
        exact hdown f hf hle
      have hdist' : ∀ f, Fits p emin f → x ≤ f → (1 - r) * 2 ^ e ≤ |x - f| := fun f hf hle => by
        rw [abs_sub_comm, abs_of_nonneg (sub_nonneg.mpr hle), ← hr']
        exact hup f hf hle hlt
      have hcmp : (1 - r) * 2 ^ e ≤ r * 2 ^ e := mul_le_mul_of_nonneg_right (by linarith) hpos.le
      refine ⟨h.fits_succ (by omega), fun f hf => ?_, ?_⟩
      · rw [hhi]
        rcases le_total f x with hle | hle
        · exact hcmp.trans (hdist f hf hle)
        · exact hdist' f hf hle
      · rcases hne with hgt | ⟨-, hodd⟩
        · refine .inr fun f hf heq => ?_
          rw [hhi] at heq
          rcases le_total f x with hle | hle
          · have := hdist f hf hle
            rw [heq] at this
            have : r ≤ 1 - r := le_of_mul_le_mul_right this hpos
            linarith
          · rw [abs_sub_comm, abs_of_nonneg (sub_nonneg.mpr hle), ← hr'] at heq
            linarith
        · exact .inl (fits_even hp h.lt h.emin_le (by omega))
    · have hhalf : r ≤ 1 / 2 := not_lt.mp fun hgt => hne (.inl hgt)
      rw [if_neg hne]
      have hdist : ∀ f, Fits p emin f → f ≤ x → r * 2 ^ e ≤ |x - f| := fun f hf hle => by
        rw [abs_of_nonneg (sub_nonneg.mpr hle), ← hr]
        exact hdown f hf hle
      have hdist' : ∀ f, Fits p emin f → x ≤ f → (n : ℚ) * 2 ^ e < x → (1 - r) * 2 ^ e ≤ |x - f| := fun f hf hle hlt => by
        rw [abs_sub_comm, abs_of_nonneg (sub_nonneg.mpr hle), ← hr']
        exact hup f hf hle hlt
      have hcmp : r * 2 ^ e ≤ (1 - r) * 2 ^ e := mul_le_mul_of_nonneg_right (by linarith) hpos.le
      refine ⟨h.fits_self, fun f hf => ?_, ?_⟩
      · rw [hlo]
        rcases le_total f x with hle | hle
        · exact hdist f hf hle
        · rcases h.lo.lt_or_eq with hlt | heq
          · exact hcmp.trans (hdist' f hf hle hlt)
          · rw [← hr, ← heq, sub_self]
            exact abs_nonneg _
      · by_cases heven : n % 2 = 0
        · exact .inl (fits_even hp h.lt.le h.emin_le heven)
        · have hlt' : r < 1 / 2 := lt_of_le_of_ne hhalf fun heq => hne (.inr ⟨heq, by omega⟩)
          refine .inr fun f hf heq => ?_
          rw [hlo] at heq
          rcases le_total f x with hle | hle
          · rw [abs_of_nonneg (sub_nonneg.mpr hle), ← hr] at heq
            linarith
          · rcases h.lo.lt_or_eq with hlt | hxn
            · have := hdist' f hf hle hlt
              rw [heq] at this
              have : 1 - r ≤ r := le_of_mul_le_mul_right this hpos
              linarith
            · rw [← hr, ← hxn, sub_self, abs_eq_zero] at heq
              linarith

end InBinade

end Format

/-! ## A number known up to the rounding bit -/

section Units

variable {V : ℚ} {w k p : Nat} {emin e : Int}

theorem roundInt_eq_self_iff (d : Dir) {x : ℚ} (hx : 0 ≤ x) : (roundInt d x : ℚ) = x ↔ ∃ n : Nat, x = n := by
  constructor
  · intro h
    exact ⟨_, h.symm⟩
  · rintro ⟨n, rfl⟩
    rw [roundInt_natCast]

theorem half_grid (hk : 0 < k) : ((2 : Nat) : ℚ) * 2 ^ (k - 1) = 2 ^ k := by
  rw [Nat.cast_ofNat, ← pow_succ']
  congr 1
  omega

theorem unit_div (V : ℚ) (e : Int) (k : Nat) : V * 2 ^ e / 2 ^ (e + k) = V / 2 ^ k := by
  have hpos := two_zpow_pos e
  rw [two_zpow_add_natCast]
  field_simp

/-- `V` is in the binade of `w`. -/
theorem inBinade_of_same (hk : 0 < k) (h : Same (2 ^ (k - 1)) V w) (hw : w < 2 ^ (p + k)) (he : emin ≤ e + k)
    (hfull : e + k = emin ∨ 2 ^ (p - 1 + k) ≤ w) : InBinade p emin (e + k) (V * 2 ^ e) (w / 2 ^ k) := by
  have hg : (0 : ℚ) < 2 ^ (k - 1) := by positivity
  have hpos := two_zpow_pos e
  have hgrid : ∀ a : Nat, ((a * 2 : Nat) : ℚ) * 2 ^ (k - 1) = a * 2 ^ k := fun a => by
    rw [Nat.cast_mul, mul_assoc, half_grid hk]
  have hunit : ∀ a : ℚ, a * 2 ^ (e + k) = a * 2 ^ k * 2 ^ e := fun a => by rw [two_zpow_add_natCast]; ring
  refine ⟨?_, ?_, ?_, he, hfull.imp_right fun hw => ?_⟩
  · rw [hunit, ← hgrid]
    refine mul_le_mul_of_nonneg_right (h.le_of_le hg ?_) hpos.le
    rw [hgrid]
    exact_mod_cast Nat.div_mul_le_self w (2 ^ k)
  · have hlt : w < (w / 2 ^ k + 1) * 2 ^ k := Nat.lt_mul_of_div_lt (Nat.lt_succ_self _) (Nat.two_pow_pos k)
    have hcast : ((w / 2 ^ k : Nat) : ℚ) + 1 = ((w / 2 ^ k + 1 : Nat) : ℚ) := by push_cast; rfl
    rw [hunit, hcast, ← hgrid]
    refine mul_lt_mul_of_pos_right (h.lt_of_lt hg ?_) hpos
    rw [hgrid]
    exact_mod_cast hlt
  · rw [Nat.div_lt_iff_lt_mul (Nat.two_pow_pos k), ← Nat.pow_add]
    exact hw
  · rw [Nat.le_div_iff_mul_le (Nat.two_pow_pos k), ← Nat.pow_add]
    exact hw

/-- .. and is rounded as `w` is. -/
theorem roundInt_of_same (d : Dir) (hk : 0 < k) (h : Same (2 ^ (k - 1)) V w) (e : Int) :
    roundInt d (V * 2 ^ e / 2 ^ (e + k)) = roundDiv d w k := by
  have hscaled : Same (1 / 2) (V / 2 ^ k) ((w : ℚ) / 2 ^ k) := by
    have hhalf : (1 : ℚ) / 2 = 1 / 2 ^ k * 2 ^ (k - 1) := by
      rw [← half_grid hk, Nat.cast_ofNat]
      field_simp
    have hdiv : ∀ y : ℚ, y / 2 ^ k = 1 / 2 ^ k * y := fun y => (one_div_mul_eq_div (2 ^ k) y).symm
    rw [hhalf, hdiv V, hdiv w]
    exact h.scale (show (0 : ℚ) < 1 / 2 ^ k by positivity)
  rw [unit_div, hscaled.roundInt_eq d, roundInt_div]

/-- Nothing is rounded off where the low bits are zero. -/
theorem exact_iff_of_same (d : Dir) (hk : 0 < k) (hV : 0 ≤ V) (h : Same (2 ^ (k - 1)) V w) (e : Int) :
    (roundDiv d w k : ℚ) * 2 ^ (e + k) = V * 2 ^ e ↔ w % 2 ^ k = 0 := by
  have hpos := two_zpow_pos (e + k)
  have hgrid : Same (2 ^ k) V w := by
    rw [← half_grid hk]
    exact h.mono (by positivity) (by decide)
  have hpow : (0 : ℚ) < 2 ^ k := by positivity
  rw [← roundInt_of_same d hk h e, ← eq_div_iff hpos.ne', roundInt_eq_self_iff d (by rw [unit_div]; positivity), unit_div]
  have hmul : (∃ n : Nat, V / 2 ^ k = n) ↔ ∃ n : Nat, V = n * 2 ^ k := by
    simp only [div_eq_iff hpow.ne']
  rw [hmul, hgrid.grid_iff hpow]
  constructor
  · rintro ⟨n, hn⟩
    have hn' : w = n * 2 ^ k := by exact_mod_cast hn
    rw [hn', Nat.mul_mod_left]
  · intro hmod
    refine ⟨w / 2 ^ k, ?_⟩
    exact_mod_cast (Nat.div_mul_cancel (Nat.dvd_of_mod_eq_zero hmod)).symm

end Units

end Rounding
