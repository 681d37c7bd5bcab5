import Mathlib.Algebra.Group.Nat.Defs
import UaeCpu.Lib.ByteMem

/-!
# UaeCpu.Lib.Paged

Byte-addressable memory behind pages of `2^n` bytes, each mapped to a frame or not mapped.

* `physical n frame a` — the physical address of `a`, if its page is mapped.
* `InPage n a i`       — the byte `i` after `a` is still in the page of `a`.
* `Loads`, `Stores`    — an access byte by byte, each byte at its own physical address.

Addresses wrap at `2^32`.
-/

namespace Paged

open Mem

variable {n : Nat} {frame : Nat → Option (BitVec 32)} {a : BitVec 32}

def physical (n : Nat) (frame : Nat → Option (BitVec 32)) (a : BitVec 32) : Option (BitVec 32) :=
  (frame (a.toNat / 2 ^ n)).map fun f => f + BitVec.ofNat 32 (a.toNat % 2 ^ n)

def InPage (n : Nat) (a : BitVec 32) (i : Nat) : Prop := a.toNat % 2 ^ n + i < 2 ^ n

/-! ## Inside a page -/

theorem InPage.mono {i j : Nat} (h : InPage n a j) (hij : i ≤ j) : InPage n a i :=
  Nat.lt_of_le_of_lt (Nat.add_le_add_left hij _) h

theorem pages (hn : n ≤ 32) : 2 ^ n * 2 ^ (32 - n) = 2 ^ 32 := by
  rw [← Nat.pow_add]
  congr 1
  omega

theorem offset_add (hn : n ≤ 32) (i : Nat) :
    (a + BitVec.ofNat 32 i).toNat % 2 ^ n = (a.toNat % 2 ^ n + i) % 2 ^ n := by
  have hdvd : 2 ^ n ∣ 2 ^ 32 := ⟨_, (pages hn).symm⟩
  rw [BitVec.toNat_add, BitVec.toNat_ofNat, Nat.mod_mod_of_dvd _ hdvd, Nat.add_mod, Nat.mod_mod_of_dvd _ hdvd,
    Nat.add_mod_mod]

theorem toNat_add_of_inPage {i : Nat} (hn : n ≤ 32) (h : InPage n a i) :
    (a + BitVec.ofNat 32 i).toNat = a.toNat + i := by
  have hpages := pages hn
  have hdiv := Nat.div_add_mod a.toNat (2 ^ n)
  have hpage : a.toNat / 2 ^ n < 2 ^ (32 - n) := by
    rw [Nat.div_lt_iff_lt_mul (Nat.two_pow_pos n), Nat.mul_comm, hpages]
    exact a.isLt
  have hnext : 2 ^ n * (a.toNat / 2 ^ n + 1) ≤ 2 ^ 32 := by
    rw [← hpages]
    exact Nat.mul_le_mul_left _ hpage
  rw [Nat.mul_add, Nat.mul_one] at hnext
  have hsum : a.toNat + i < 2 ^ 32 := by
    unfold InPage at h
    omega
  rw [BitVec.toNat_add, BitVec.toNat_ofNat, Nat.mod_eq_of_lt (show i < 2 ^ 32 by omega), Nat.mod_eq_of_lt hsum]

theorem InPage.shift {i j : Nat} (hn : n ≤ 32) (h : InPage n a (i + j)) : InPage n (a + BitVec.ofNat 32 i) j := by
  have hi : a.toNat % 2 ^ n + i < 2 ^ n := h.mono (Nat.le_add_right i j)
  rw [InPage, offset_add hn, Nat.mod_eq_of_lt hi, Nat.add_assoc]
  exact h

theorem physical_add (frame : Nat → Option (BitVec 32)) {i : Nat} (hn : n ≤ 32) (h : InPage n a i) :
    physical n frame (a + BitVec.ofNat 32 i) = (physical n frame a).map (· + BitVec.ofNat 32 i) := by
  have hoff : (a + BitVec.ofNat 32 i).toNat % 2 ^ n = a.toNat % 2 ^ n + i := by
    rw [offset_add hn, Nat.mod_eq_of_lt h]
  have hpage : (a + BitVec.ofNat 32 i).toNat / 2 ^ n = a.toNat / 2 ^ n := by
    rw [toNat_add_of_inPage hn h]
    conv_lhs => rw [← Nat.div_add_mod a.toNat (2 ^ n), Nat.add_assoc]
    rw [Nat.mul_add_div (Nat.two_pow_pos n), Nat.div_eq_of_lt h, Nat.add_zero]
  rw [physical, physical, hoff, hpage, Option.map_map]
  congr 1
  funext f
  simp only [Function.comp_apply, BitVec.ofNat_add, BitVec.add_assoc]

/-- An aligned unit does not leave its page. -/
theorem inPage_of_dvd {d : Nat} (hd : 0 < d) (hpage : d ∣ 2 ^ n) (ha : d ∣ a.toNat) : InPage n a (d - 1) := by
  have hoff : d ∣ a.toNat % 2 ^ n := (Nat.dvd_mod_iff hpage).mpr ha
  obtain ⟨s, hs⟩ := hoff
  obtain ⟨m, hm⟩ := hpage
  have hlt : a.toNat % 2 ^ n < 2 ^ n := Nat.mod_lt _ (Nat.two_pow_pos n)
  have hsm : s < m := by
    rw [hs, hm] at hlt
    exact Nat.lt_of_mul_lt_mul_left hlt
  have hle : d * (s + 1) ≤ d * m := Nat.mul_le_mul_left d hsm
  rw [Nat.mul_add, Nat.mul_one] at hle
  rw [InPage, hs, hm]
  omega

theorem getLsbD_eq (x : BitVec 32) (n : Nat) : x.getLsbD n = decide (x.toNat / 2 ^ n % 2 = 1) :=
  Nat.testBit_eq_decide_div_mod_eq

/-- Two addresses less than a page apart are in the same page if they agree in the lowest bit of
their page numbers. -/
theorem inPage_of_same {k : Nat} (hn : n < 32) (hk : k < 2 ^ n)
    (h : (a ^^^ (a + BitVec.ofNat 32 k)) &&& BitVec.ofNat 32 (2 ^ n) = 0) : InPage n a k := by
  have hbit : a.getLsbD n = (a + BitVec.ofNat 32 k).getLsbD n := by
    have hself : (BitVec.ofNat 32 (2 ^ n)).getLsbD n = true := by
      rw [BitVec.getLsbD_ofNat, Nat.testBit_two_pow_self, decide_eq_true hn, Bool.and_true]
    have hz := congrArg (BitVec.getLsbD · n) h
    simp only [BitVec.getLsbD_and, BitVec.getLsbD_xor, hself, Bool.and_true] at hz
    simpa using hz
  refine Classical.byContradiction fun hout => ?_
  rw [InPage, Nat.not_lt] at hout
  have hpos := Nat.two_pow_pos n
  have hlt : a.toNat % 2 ^ n < 2 ^ n := Nat.mod_lt _ hpos
  have hk32 : k < 2 ^ 32 := Nat.lt_trans hk (Nat.pow_lt_pow_right (by decide) hn)
  have hone : (a.toNat % 2 ^ n + k) / 2 ^ n = 1 := by
    rw [Nat.div_eq_iff hpos]
    omega
  have hnext : (a.toNat + k) / 2 ^ n = a.toNat / 2 ^ n + 1 := by
    conv_lhs => rw [← Nat.div_add_mod a.toNat (2 ^ n), Nat.add_assoc]
    rw [Nat.mul_add_div hpos, hone]
  have heven : 2 ∣ 2 ^ (32 - n) := ⟨2 ^ (32 - n - 1), by rw [← Nat.pow_succ']; congr 1; omega⟩
  have hpages := pages (Nat.le_of_lt hn)
  have hpage : (a + BitVec.ofNat 32 k).toNat / 2 ^ n % 2 = (a.toNat / 2 ^ n + 1) % 2 := by
    rw [BitVec.toNat_add, BitVec.toNat_ofNat, Nat.mod_eq_of_lt hk32, ← hpages, Nat.mod_mul_right_div_self, hnext,
      Nat.mod_mod_of_dvd _ heven]
  rw [getLsbD_eq, getLsbD_eq, hpage, decide_eq_decide] at hbit
  omega

/-- What lies before the first byte that is not mapped is in the first page. -/
theorem inPage_of_fault {i j : Nat} (hn : n ≤ 32) (hj : j < 2 ^ n) (hi : i < j)
    (hmapped : physical n frame (a + BitVec.ofNat 32 i) ≠ none)
    (hfault : physical n frame (a + BitVec.ofNat 32 j) = none) : InPage n a i := by
  refine Classical.byContradiction fun hout => ?_
  rw [InPage, Nat.not_lt] at hout
  have hlt : a.toNat % 2 ^ n < 2 ^ n := Nat.mod_lt _ (Nat.two_pow_pos n)
  have hoff : (a + BitVec.ofNat 32 i).toNat % 2 ^ n = a.toNat % 2 ^ n + i - 2 ^ n := by
    rw [offset_add hn, Nat.mod_eq_sub_mod hout, Nat.mod_eq_of_lt (by omega)]
  have hin : InPage n (a + BitVec.ofNat 32 i) (j - i) := by
    rw [InPage, hoff]
    omega
  have hsum : a + BitVec.ofNat 32 i + BitVec.ofNat 32 (j - i) = a + BitVec.ofNat 32 j := by
    rw [BitVec.add_assoc, ← BitVec.ofNat_add]
    congr 2
    omega
  have hnone := physical_add frame hn hin
  rw [hsum, hfault] at hnone
  exact hmapped (Option.map_eq_none_iff.mp hnone.symm)

/-! ## Byte by byte -/

/-- `v` is the big-endian value of the `k` bytes from `a` on, each at its own physical address. -/
inductive Loads (tr : BitVec 32 → Option (BitVec 32)) (mem : BitVec 32 → BitVec 8) (a : BitVec 32) :
    Nat → BitVec 32 → Prop
  | nil : Loads tr mem a 0 0
  | snoc {k : Nat} {v p : BitVec 32} (h : Loads tr mem a k v) (hp : tr (a + BitVec.ofNat 32 k) = some p) :
      Loads tr mem a (k + 1) (v <<< 8 ||| (mem p).setWidth 32)

/-- `mem'` is `mem` with the bytes of a list stored from `a` on, each at its own physical address. -/
inductive Stores (tr : BitVec 32 → Option (BitVec 32)) :
    (BitVec 32 → BitVec 8) → BitVec 32 → List (BitVec 8) → (BitVec 32 → BitVec 8) → Prop
  | nil {mem : BitVec 32 → BitVec 8} {a : BitVec 32} : Stores tr mem a [] mem
  | cons {mem mem' : BitVec 32 → BitVec 8} {a p : BitVec 32} {b : BitVec 8} {bs : List (BitVec 8)}
      (hp : tr a = some p) (h : Stores tr (ofFun.wr mem p b) (a + 1#32) bs mem') : Stores tr mem a (b :: bs) mem'

section Bytes

variable {tr : BitVec 32 → Option (BitVec 32)} {mem mem' mem'' : BitVec 32 → BitVec 8} {v w p : BitVec 32} {k l : Nat}

theorem ofNat_assoc (a : BitVec 32) (k l : Nat) :
    a + BitVec.ofNat 32 k + BitVec.ofNat 32 l = a + BitVec.ofNat 32 (k + l) := by
  rw [BitVec.add_assoc, ← BitVec.ofNat_add]

/-- An access of two parts. -/
theorem Loads.append (h : Loads tr mem a k v) (h' : Loads tr mem (a + BitVec.ofNat 32 k) l w) :
    Loads tr mem a (k + l) (v <<< (8 * l) ||| w) := by
  induction h' with
  | nil => simpa using h
  | @snoc l w p hl hp ih =>
    rw [ofNat_assoc] at hp
    have hnext := ih.snoc hp
    rw [BitVec.shiftLeft_or_distrib, ← BitVec.shiftLeft_add, BitVec.or_assoc] at hnext
    exact hnext

/-- The parts of an access. -/
theorem Loads.split (h : Loads tr mem a (k + l) v) :
    ∃ u w, Loads tr mem a k u ∧ Loads tr mem (a + BitVec.ofNat 32 k) l w ∧ v = u <<< (8 * l) ||| w := by
  induction l generalizing v with
  | zero => exact ⟨v, 0, h, .nil, by simp⟩
  | succ l ih =>
    obtain _ | ⟨hk, hp⟩ := h
    obtain ⟨u, w, hu, hw, rfl⟩ := ih hk
    refine ⟨u, _, hu, hw.snoc ((congrArg tr (ofNat_assoc a k l)).trans hp), ?_⟩
    rw [BitVec.shiftLeft_or_distrib, ← BitVec.shiftLeft_add, BitVec.or_assoc]
    rfl

theorem Loads.mapped (h : Loads tr mem a k v) {i : Nat} (hi : i < k) : tr (a + BitVec.ofNat 32 i) ≠ none := by
  induction h with
  | nil => omega
  | @snoc k v p hk hp ih =>
    by_cases hlast : i = k
    · rw [hlast, hp]
      exact Option.some_ne_none p
    · exact ih (by omega)

theorem Loads.unique (h : Loads tr mem a k v) {w : BitVec 32} (h' : Loads tr mem a k w) : v = w := by
  induction h generalizing w with
  | nil =>
    cases h'
    rfl
  | snoc hk hp ih =>
    obtain _ | ⟨hk', hp'⟩ := h'
    rw [ih hk', Option.some.inj (hp.symm.trans hp')]

theorem Stores.append {bs cs : List (BitVec 8)} (h : Stores tr mem a bs mem')
    (h' : Stores tr mem' (a + BitVec.ofNat 32 bs.length) cs mem'') : Stores tr mem a (bs ++ cs) mem'' := by
  induction h with
  | nil => simpa using h'
  | @cons mem mem₁ a p b bs hp hbs ih =>
    refine .cons hp (ih ?_)
    rw [List.length_cons, Nat.add_comm bs.length, ← ofNat_assoc] at h'
    exact h'

theorem Stores.mapped {bs : List (BitVec 8)} (h : Stores tr mem a bs mem') {i : Nat} (hi : i < bs.length) :
    tr (a + BitVec.ofNat 32 i) ≠ none := by
  induction h generalizing i with
  | nil => simp at hi
  | @cons mem mem₁ a p b bs hp hbs ih =>
    cases i with
    | zero =>
      rw [show a + BitVec.ofNat 32 0 = a from BitVec.add_zero a, hp]
      exact Option.some_ne_none p
    | succ i =>
      have hsucc := ih (i := i) (by simpa using hi)
      rw [show (1#32 : BitVec 32) = BitVec.ofNat 32 1 from rfl, ofNat_assoc, Nat.add_comm] at hsucc
      exact hsucc

/-- The bytes of a value of `k` bytes, the highest first. -/
def bytes (k : Nat) (v : BitVec 32) : List (BitVec 8) :=
  (List.range k).map fun i => (v >>> (8 * (k - 1 - i))).setWidth 8

theorem bytes_length (k : Nat) (v : BitVec 32) : (bytes k v).length = k := by
  rw [bytes, List.length_map, List.length_range]

/-! Units of memory that lie in one page. -/

theorem word_bytes (b c : BitVec 8) :
    ((b ++ c : BitVec 16)).setWidth 32 = (b.setWidth 32 : BitVec 32) <<< 8 ||| c.setWidth 32 := by
  ext i hi
  simp only [BitVec.getElem_setWidth, BitVec.getLsbD_append, BitVec.getElem_or, BitVec.getElem_shiftLeft]
  by_cases h : i < 8
  · simp [h]
  · simp [h, BitVec.getLsbD_of_ge c i (by omega)]

theorem long_words (x y : BitVec 16) : (x ++ y : BitVec 32) = (x.setWidth 32 : BitVec 32) <<< 16 ||| y.setWidth 32 := by
  ext i hi
  simp only [BitVec.getElem_setWidth, BitVec.getElem_append, BitVec.getElem_or, BitVec.getElem_shiftLeft]
  by_cases h : i < 16
  · simp [h]
  · simp [h, BitVec.getLsbD_of_ge y i (by omega), BitVec.getLsbD_eq_getElem (show i - 16 < 16 by omega)]

theorem loads_byte (hp : tr a = some p) : Loads tr mem a 1 ((mem p).setWidth 32) := by
  have h : Loads tr mem a (0 + 1) _ := Loads.snoc .nil (by rw [BitVec.add_zero]; exact hp)
  simpa using h

end Bytes

theorem loads_word {mem : BitVec 32 → BitVec 8} {p : BitVec 32} (hn : n ≤ 32) (h : InPage n a 1)
    (hp : physical n frame a = some p) : Loads (physical n frame) mem a 2 ((rd16 ofFun mem p).setWidth 32) := by
  have hnext := physical_add frame hn h
  rw [hp] at hnext
  have hpair : Loads (physical n frame) mem a (1 + 1) _ := (loads_byte hp).append (loads_byte hnext)
  rw [rd16, word_bytes]
  exact hpair

theorem loads_long {mem : BitVec 32 → BitVec 8} {p : BitVec 32} (hn : n ≤ 32) (h : InPage n a 3)
    (hp : physical n frame a = some p) : Loads (physical n frame) mem a 4 (rd32 ofFun mem p) := by
  have hnext := physical_add frame hn (h.mono (show 2 ≤ 3 by decide))
  rw [hp] at hnext
  have hin : InPage n (a + BitVec.ofNat 32 2) 1 := by
    rw [InPage, offset_add hn, Nat.mod_eq_of_lt (h.mono (show 2 ≤ 3 by decide))]
    unfold InPage at h
    omega
  have hpair : Loads (physical n frame) mem a (2 + 2) _ :=
    (loads_word hn (h.mono (show 1 ≤ 3 by decide)) hp).append (loads_word hn hin hnext)
  rw [rd32, long_words]
  exact hpair

/-! The same for stores. -/

theorem high_byte (v : BitVec 32) : (v.setWidth 16).extractLsb' 8 8 = (v >>> 8).setWidth 8 := by
  ext i hi
  simp [show 8 + i < 16 by omega]

theorem low_byte (v : BitVec 32) : (v.setWidth 16).extractLsb' 0 8 = v.setWidth 8 := by
  ext i hi
  simp [show i < 16 by omega]

theorem high_word (v : BitVec 32) : v.extractLsb' 16 16 = (v >>> 16).setWidth 16 := by
  ext i hi
  simp

theorem stores_byte {tr : BitVec 32 → Option (BitVec 32)} {mem : BitVec 32 → BitVec 8} {p : BitVec 32} (b : BitVec 8)
    (hp : tr a = some p) : Stores tr mem a [b] (ofFun.wr mem p b) := .cons hp .nil

theorem stores_word {mem : BitVec 32 → BitVec 8} {p : BitVec 32} (v : BitVec 32) (hn : n ≤ 32) (h : InPage n a 1)
    (hp : physical n frame a = some p) :
    Stores (physical n frame) mem a (bytes 2 v) (wr16 ofFun mem p (v.setWidth 16)) := by
  have hnext := physical_add frame hn h
  rw [hp] at hnext
  have hpair : Stores (physical n frame) mem a [(v >>> 8).setWidth 8, v.setWidth 8] _ :=
    .cons hp (.cons hnext .nil)
  rw [wr16, high_byte, low_byte]
  exact hpair

theorem bytes_four (v : BitVec 32) : bytes 4 v = bytes 2 (v >>> 16) ++ bytes 2 v := by
  have hsum : v >>> 16 >>> 8 = v >>> 24 := (BitVec.shiftRight_add v 16 8).symm
  simp [bytes, List.range_succ, hsum]

theorem stores_long {mem : BitVec 32 → BitVec 8} {p : BitVec 32} (v : BitVec 32) (hn : n ≤ 32) (h : InPage n a 3)
    (hp : physical n frame a = some p) :
    Stores (physical n frame) mem a (bytes 4 v) (wr32 ofFun mem p v) := by
  have hnext := physical_add frame hn (h.mono (show 2 ≤ 3 by decide))
  rw [hp] at hnext
  have hin : InPage n (a + BitVec.ofNat 32 2) 1 := by
    rw [InPage, offset_add hn, Nat.mod_eq_of_lt (h.mono (show 2 ≤ 3 by decide))]
    unfold InPage at h
    omega
  have hfirst : Stores (physical n frame) mem a (bytes 2 (v >>> 16)) _ :=
    stores_word (v >>> 16) hn (h.mono (show 1 ≤ 3 by decide)) hp
  have hlow : v.extractLsb' 0 16 = v.setWidth 16 := by
    ext i hi
    simp
  rw [wr32, high_word, hlow, bytes_four]
  refine hfirst.append ?_
  rw [bytes_length]
  exact stores_word v hn hin hnext

end Paged
