import Mathlib.Tactic.IntervalCases

/-!
# UaeCpu.Lib.ByteMem

Byte-addressable memory behind an arbitrary carrier, with big-endian words and longs.

* `ByteMem μ`        — a view of `μ` as a function from 32-bit addresses to bytes.
* `Covers a n x`     — `x` is one of the `n` addresses from `a` on, counted modulo `2^32`.
* `rd16_wr16`, `rd32_wr32`, `rd_wr16_of_not_covers`, ... — what a write changes, and what not.
-/

namespace Mem

/-- A carrier with byte reads and writes that obey the law of memory. -/
structure ByteMem (μ : Type) where
  rd : μ → BitVec 32 → BitVec 8
  wr : μ → BitVec 32 → BitVec 8 → μ
  rd_wr : ∀ m a b x, rd (wr m a b) x = if x = a then b else rd m x

/-- Memory as a function. -/
def ofFun : ByteMem (BitVec 32 → BitVec 8) where
  rd m a := m a
  wr m a b x := if x = a then b else m x
  rd_wr _ _ _ _ := rfl

def Covers (a : BitVec 32) (n : Nat) (x : BitVec 32) : Prop := (x - a).toNat < n

instance (a : BitVec 32) (n : Nat) (x : BitVec 32) : Decidable (Covers a n x) := by
  unfold Covers; infer_instance

variable {μ : Type} (M : ByteMem μ)

def rd16 (m : μ) (a : BitVec 32) : BitVec 16 := M.rd m a ++ M.rd m (a + 1#32)

def rd32 (m : μ) (a : BitVec 32) : BitVec 32 := rd16 M m a ++ rd16 M m (a + 2#32)

def wr16 (m : μ) (a : BitVec 32) (v : BitVec 16) : μ :=
  M.wr (M.wr m a (v.extractLsb' 8 8)) (a + 1#32) (v.extractLsb' 0 8)

def wr32 (m : μ) (a : BitVec 32) (v : BitVec 32) : μ :=
  wr16 M (wr16 M m a (v.extractLsb' 16 16)) (a + 2#32) (v.extractLsb' 0 16)

/-! ## Addresses -/

theorem covers_add {a : BitVec 32} {n i : Nat} (hi : i < n) (hn : n ≤ 2 ^ 32) :
    Covers a n (a + BitVec.ofNat 32 i) := by
  simp only [Covers, BitVec.toNat_sub, BitVec.toNat_add, BitVec.toNat_ofNat]
  omega

theorem covers_mono {a x : BitVec 32} {n i k : Nat} (h : Covers (a + BitVec.ofNat 32 i) k x)
    (hn : i + k ≤ n) (hk : n < 2 ^ 32) : Covers a n x := by
  simp only [Covers, BitVec.toNat_sub, BitVec.toNat_add, BitVec.toNat_ofNat] at *
  omega

/-! ## Read after write -/

theorem rd_wr16_of_not_covers {m : μ} {a x : BitVec 32} {v : BitVec 16} (h : ¬ Covers a 2 x) :
    M.rd (wr16 M m a v) x = M.rd m x := by
  have h0 : x ≠ a := by
    rintro rfl; exact h (by simp [Covers])
  have h1 : x ≠ a + 1#32 := by
    rintro rfl; exact h (covers_add (i := 1) (by omega) (by omega))
  simp only [wr16, M.rd_wr, h0, h1, if_false]

theorem rd_wr32_of_not_covers {m : μ} {a x : BitVec 32} {v : BitVec 32} (h : ¬ Covers a 4 x) :
    M.rd (wr32 M m a v) x = M.rd m x := by
  rw [wr32, rd_wr16_of_not_covers, rd_wr16_of_not_covers]
  · exact fun hc => h (covers_mono (i := 0) (by simpa using hc) (by omega) (by omega))
  · exact fun hc => h (covers_mono (i := 2) hc (by omega) (by omega))

/-- A word depends only on its two bytes. -/
theorem rd16_congr {m m' : μ} {a : BitVec 32} (h : ∀ x, Covers a 2 x → M.rd m x = M.rd m' x) :
    rd16 M m a = rd16 M m' a := by
  rw [rd16, rd16, h a (by simp [Covers]), h (a + 1#32) (covers_add (i := 1) (by omega) (by omega))]

/-- A long depends only on its four bytes. -/
theorem rd32_congr {m m' : μ} {a : BitVec 32} (h : ∀ x, Covers a 4 x → M.rd m x = M.rd m' x) :
    rd32 M m a = rd32 M m' a := by
  have hlo : ∀ x, Covers a 2 x → M.rd m x = M.rd m' x := fun x hx =>
    h x (covers_mono (i := 0) (by simpa using hx) (by omega) (by omega))
  have hhi : ∀ x, Covers (a + 2#32) 2 x → M.rd m x = M.rd m' x := fun x hx =>
    h x (covers_mono (i := 2) hx (by omega) (by omega))
  rw [rd32, rd32, rd16_congr M hlo, rd16_congr M hhi]

theorem append_halves16 (v : BitVec 16) : v.extractLsb' 8 8 ++ v.extractLsb' 0 8 = v := by
  apply BitVec.eq_of_getLsbD_eq
  intro i hi
  simp only [BitVec.getLsbD_append, BitVec.getLsbD_extractLsb']
  by_cases h : i < 8
  · simp [h]
  · have : i - 8 < 8 := by omega
    simp [h, this, show 8 + (i - 8) = i by omega]

theorem append_halves32 (v : BitVec 32) : v.extractLsb' 16 16 ++ v.extractLsb' 0 16 = v := by
  apply BitVec.eq_of_getLsbD_eq
  intro i hi
  simp only [BitVec.getLsbD_append, BitVec.getLsbD_extractLsb']
  by_cases h : i < 16
  · simp [h]
  · have : i - 16 < 16 := by omega
    simp [h, this, show 16 + (i - 16) = i by omega]

theorem rd16_wr16 (m : μ) (a : BitVec 32) (v : BitVec 16) : rd16 M (wr16 M m a v) a = v := by
  have h : a ≠ a + 1#32 := by bv_omega
  simp only [rd16, wr16, M.rd_wr, h, if_true, if_false]
  exact append_halves16 v

theorem rd32_wr32 (m : μ) (a : BitVec 32) (v : BitVec 32) : rd32 M (wr32 M m a v) a = v := by
  rw [rd32, wr32, rd16_wr16]
  have hd : ∀ x, Covers a 2 x → ¬ Covers (a + 2#32) 2 x := by
    intro x hx
    simp only [Covers] at *
    bv_omega
  have hhi : rd16 M (wr16 M (wr16 M m a (v.extractLsb' 16 16)) (a + 2#32) (v.extractLsb' 0 16)) a =
      rd16 M (wr16 M m a (v.extractLsb' 16 16)) a :=
    rd16_congr M fun x hx => rd_wr16_of_not_covers M (hd x hx)
  rw [hhi, rd16_wr16]
  exact append_halves32 v

end Mem
