import Mathlib.Data.List.GetD
import UaeCpu.Lib.Fields
import UaeCpu.Mmu030Frame

/-!
# UaeCpu.TranslationControl

What the 68030 MMU translates with: the parameters decoded from `TC`.

* `TranslationParams.Valid` — the table indices, `IS` and the page offset are consecutive fields
                              that make up an address.
* `TcValid`                 — the values of `TC` that are not a configuration error.
* `decodeTables_valid`      — such a value is decoded to valid parameters.
* `enabled_decoded_iff`     — in every state reached, translation is off or its parameters are
                              valid exactly if the last value loaded into `TC` was not an error.
-/

namespace UaeCpu

open Fault FaultM Fields

/-! ## Parameters -/

namespace TranslationParams

variable (tr : TranslationParams)

/-- The bits above the table indices, each table index and the page offset. -/
def parts : List Long :=
  field 32 (32 - tr.initShift.toNat) tr.initShift.toNat ::
    ((List.finRange 4).map fun i => (tr.table i).mask) ++ [tr.page.mask]

/-- The parameters for table indices of the widths `ws`. -/
structure ValidFor (ws : List Nat) : Prop where
  pageSize : 8 ≤ tr.page.size.toNat ∧ tr.page.size.toNat ≤ 15
  pageMask : tr.page.mask = field 32 0 tr.page.size.toNat ∧ tr.page.imask = ~~~tr.page.mask
  widths : ∀ n ∈ ws, 0 < n
  sum : tr.initShift.toNat + ws.sum + tr.page.size.toNat = 32
  lastTable : tr.lastTable.toNat + 1 = ws.length
  used : ∀ i : Fin 4, ∀ h : i.val < ws.length,
    (tr.table i).shift.toNat = 32 - tr.initShift.toNat - (ws.take (i.val + 1)).sum ∧
      (tr.table i).mask = field 32 (tr.table i).shift.toNat (ws.get ⟨i.val, h⟩)
  unused : ∀ i : Fin 4, ws.length ≤ i.val → (tr.table i).mask = 0
  disjoint : tr.parts.Pairwise fun p q => p &&& q = 0
  cover : union tr.parts = BitVec.allOnes 32

def Valid : Prop := ∃ ws, ws.length ≤ 4 ∧ tr.ValidFor ws

end TranslationParams

/-! ## Values of `TC` -/

def tcPageSize (tc : Long) : Nat := ((tc &&& tcPsMask) >>> 20).toNat

def tcInitShift (tc : Long) : Nat := ((tc &&& tcIsMask) >>> 16).toNat

/-- The table index widths up to a zero one. -/
def tcWidths (tc : Long) (is : List (Fin 4)) : List Nat :=
  (is.map fun i => (tiBits tc i).toNat).takeWhile fun n => decide (n ≠ 0)

/-- The values of `TC` that enable translation with valid parameters. -/
def TcValid (tc : Long) : Prop :=
  8 ≤ tcPageSize tc ∧ tcInitShift tc + (tcWidths tc (List.finRange 4)).sum + tcPageSize tc = 32

instance (tc : Long) : Decidable (TcValid tc) := by
  unfold TcValid
  infer_instance

/-- The parameters for a value of `TC` that is not an error. -/
structure TranslationParams.DecodedFrom (tr : TranslationParams) (tc : Long) : Prop where
  valid : TcValid tc
  fields : tr.ValidFor (tcWidths tc (List.finRange 4))
  initShift : tr.initShift.toNat = tcInitShift tc
  pageSize : tr.page.size.toNat = tcPageSize tc

section Decode

variable {tc : Long} {tr : TranslationParams} {shift : BitVec 8}

theorem tcWidths_cons (i : Fin 4) (is : List (Fin 4)) :
    tcWidths tc (i :: is) =
      if tiBits tc i = 0 then [] else (tiBits tc i).toNat :: tcWidths tc is := by
  unfold tcWidths
  rw [List.map_cons, List.takeWhile_cons]
  by_cases h : tiBits tc i = 0
  · rw [if_pos h, h]
    rfl
  · have hn : (tiBits tc i).toNat ≠ 0 := fun hz => h (BitVec.eq_of_toNat_eq hz)
    rw [if_neg h, if_pos (decide_eq_true hn)]

theorem tableMask_eq (shift : BitVec 8) (n : Nat) : tableMask shift n = field 32 shift.toNat n :=
  foldl_bits shift.toNat n

/-- The tables before `k`, of the widths `ws`, have been decoded. -/
structure TablesDone (tr₀ : TranslationParams) (k : Nat) (ws : List Nat) (shift : BitVec 8)
    (tr : TranslationParams) : Prop where
  page : tr.page = tr₀.page
  initShift : tr.initShift = tr₀.initShift
  length : ws.length = k
  widths : ∀ n ∈ ws, 0 < n
  shift : shift.toNat + tr₀.initShift.toNat + ws.sum = 32
  lastTable : k = 0 ∧ tr.lastTable = 0 ∨ tr.lastTable.toNat + 1 = k
  used : ∀ i : Fin 4, ∀ h : i.val < ws.length,
    (tr.table i).shift.toNat = 32 - tr₀.initShift.toNat - (ws.take (i.val + 1)).sum ∧
      (tr.table i).mask = field 32 (tr.table i).shift.toNat (ws.get ⟨i.val, h⟩)
  unused : ∀ i : Fin 4, k ≤ i.val → (tr.table i).mask = 0

theorem TablesDone.step {tr₀ : TranslationParams} {k : Nat} {ws : List Nat} {i : Fin 4}
    (h : TablesDone tr₀ k ws shift tr) (hi : i.val = k) (hne : tiBits tc i ≠ 0)
    (hle : (tiBits tc i).toNat ≤ shift.toNat) :
    TablesDone tr₀ (k + 1) (ws ++ [(tiBits tc i).toNat]) (shift - tiBits tc i)
      { tr with
        table := Function.update tr.table i
          { mask := (tr.table i).mask ||| tableMask (shift - tiBits tc i) (tiBits tc i).toNat
            shift := shift - tiBits tc i }
        lastTable := BitVec.ofNat 8 i.val } := by
  have hshift : (shift - tiBits tc i).toNat = shift.toNat - (tiBits tc i).toNat :=
    BitVec.toNat_sub_of_le (BitVec.le_def.mpr hle)
  have hpos : 0 < (tiBits tc i).toNat :=
    Nat.pos_of_ne_zero fun hz => hne (BitVec.eq_of_toNat_eq hz)
  have hsum := h.shift
  have hlen := h.length
  have hmask : (tr.table i).mask = 0 := h.unused i (Nat.le_of_eq hi.symm)
  refine ⟨h.page, h.initShift, ?_, ?_, ?_, ?_, ?_, ?_⟩
  · rw [List.length_append, hlen, List.length_singleton]
  · intro n hn
    rcases List.mem_append.mp hn with hn | hn
    · exact h.widths n hn
    · rw [List.mem_singleton.mp hn]
      exact hpos
  · rw [hshift, List.sum_append, List.sum_singleton]
    omega
  · right
    change (BitVec.ofNat 8 i.val).toNat + 1 = k + 1
    have hi4 := i.isLt
    rw [BitVec.toNat_ofNat, Nat.mod_eq_of_lt (by omega), hi]
  · intro j hj
    rw [List.length_append, List.length_singleton] at hj
    by_cases hji : j = i
    · subst hji
      have hget : (ws ++ [(tiBits tc j).toNat]).get ⟨j.val, by simpa using hj⟩ =
          (tiBits tc j).toNat := by
        rw [List.get_eq_getElem]
        simp only [hi, ← hlen]
        exact List.getElem_concat_length rfl _
      have htake : (ws ++ [(tiBits tc j).toNat]).take (j.val + 1) =
          ws ++ [(tiBits tc j).toNat] := by
        apply List.take_of_length_le
        rw [List.length_append, List.length_singleton]
        omega
      dsimp only
      rw [Function.update_self, hget, htake, List.sum_append, List.sum_singleton, hmask,
        tableMask_eq, hshift]
      refine ⟨by omega, BitVec.zero_or⟩
    · have hlt : j.val < ws.length := by
        have : j.val ≠ i.val := fun he => hji (Fin.ext he)
        omega
      dsimp only
      rw [Function.update_of_ne hji, List.take_append_of_le_length (by omega), List.get_eq_getElem,
        List.getElem_append_left hlt]
      exact h.used j hlt
  · intro j hj
    dsimp only
    rw [Function.update_of_ne fun he => by rw [he] at hj; omega]
    exact h.unused j (by omega)

theorem decodeTables_done {tr₀ : TranslationParams} {k : Nat} {ws : List Nat} {is : List (Fin 4)}
    (h : TablesDone tr₀ k ws shift tr)
    (his : ∀ j, ∀ hj : j < is.length, (is.get ⟨j, hj⟩).val = k + j)
    (hsum : (tcWidths tc is).sum ≤ shift.toNat) :
    ∃ k', TablesDone tr₀ k' (ws ++ tcWidths tc is) (decodeTables tc is shift tr).1
      (decodeTables tc is shift tr).2 := by
  induction is generalizing k ws shift tr with
  | nil =>
    refine ⟨k, ?_⟩
    unfold decodeTables tcWidths
    rw [List.map_nil, List.takeWhile_nil, List.append_nil]
    exact h
  | cons i is ih =>
    rw [tcWidths_cons] at hsum ⊢
    unfold decodeTables
    by_cases hz : tiBits tc i = 0
    · rw [if_pos hz, if_pos hz, List.append_nil]
      exact ⟨k, h⟩
    · rw [if_neg hz] at hsum
      rw [if_neg hz, if_neg hz]
      rw [List.sum_cons] at hsum
      have hi : i.val = k := his 0 (Nat.zero_lt_succ _)
      have hle : (tiBits tc i).toNat ≤ shift.toNat := by omega
      have hstep := h.step hi hz hle
      have hshift : (shift - tiBits tc i).toNat = shift.toNat - (tiBits tc i).toNat :=
        BitVec.toNat_sub_of_le (BitVec.le_def.mpr hle)
      obtain ⟨k', hdone⟩ := ih hstep
        (fun j hj => by
          have := his (j + 1) (Nat.succ_lt_succ hj)
          rw [Nat.add_right_comm, Nat.add_assoc]
          exact this)
        (by rw [hshift]; omega)
      refine ⟨k', ?_⟩
      rw [List.append_cons]
      exact hdone

theorem tcInitShift_lt (tc : Long) : tcInitShift tc < 16 := by
  have h : (tc &&& tcIsMask) >>> 16 = (tc >>> 16) &&& 0xF := by
    apply BitVec.eq_of_getLsbD_eq
    intro i hi
    simp only [BitVec.getLsbD_and, BitVec.getLsbD_ushiftRight]
    congr 1
    revert i
    decide
  unfold tcInitShift
  rw [h, BitVec.toNat_and]
  exact Nat.lt_of_le_of_lt Nat.and_le_right (by decide)

theorem tcPageSize_lt (tc : Long) : tcPageSize tc < 16 := by
  have h : (tc &&& tcPsMask) >>> 20 = (tc >>> 20) &&& 0xF := by
    apply BitVec.eq_of_getLsbD_eq
    intro i hi
    simp only [BitVec.getLsbD_and, BitVec.getLsbD_ushiftRight]
    congr 1
    revert i
    decide
  unfold tcPageSize
  rw [h, BitVec.toNat_and]
  exact Nat.lt_of_le_of_lt Nat.and_le_right (by decide)

/-- The parameters when the loop over the tables starts. -/
def startTranslation (tc : Long) (tr : TranslationParams) : TranslationParams :=
  pageTranslation (resetTranslation tc tr)

theorem startTranslation_initShift :
    (startTranslation tc tr).initShift.toNat = tcInitShift tc := by
  change (((tc &&& tcIsMask) >>> 16).setWidth 8).toNat = _
  have hlt := tcInitShift_lt tc
  unfold tcInitShift at hlt ⊢
  rw [BitVec.toNat_setWidth, Nat.mod_eq_of_lt (by omega)]

theorem startTranslation_done :
    TablesDone (startTranslation tc tr) 0 [] (32 - (startTranslation tc tr).initShift)
      (startTranslation tc tr) := by
  have hlt := tcInitShift_lt tc
  have his : (startTranslation tc tr).initShift.toNat = _ := startTranslation_initShift
  refine ⟨rfl, rfl, rfl, by simp, ?_, .inl ⟨rfl, rfl⟩, ?_, fun _ _ => rfl⟩
  · have h32 : (32 : BitVec 8).toNat = 32 := rfl
    rw [BitVec.toNat_sub_of_le (BitVec.le_def.mpr (by rw [his, h32]; omega)), his, h32,
      List.sum_nil]
    omega
  · intro i h
    cases h

/-- The mask of a page offset of `n` bits. -/
theorem pageMask_eq (size : Long) (h : size.toNat ≤ 31) :
    (1 : Long) <<< size - 1 = field 32 0 size.toNat := by
  have hpow : 2 ^ size.toNat < 2 ^ 32 := Nat.pow_lt_pow_right (by decide) (by omega)
  have hone : ((1 : Long) <<< size).toNat = 2 ^ size.toNat := by
    rw [BitVec.shiftLeft_eq', BitVec.toNat_shiftLeft, Nat.shiftLeft_eq]
    exact (congrArg (· % 2 ^ 32) (Nat.one_mul _)).trans (Nat.mod_eq_of_lt hpow)
  have hle : (1 : Long) ≤ (1 : Long) <<< size := by
    rw [BitVec.le_def, hone]
    exact Nat.one_le_two_pow
  apply BitVec.eq_of_toNat_eq
  unfold field
  rw [BitVec.toNat_sub_of_le hle, hone, BitVec.shiftLeft_zero, BitVec.toNat_setWidth,
    BitVec.toNat_allOnes, Nat.mod_eq_of_lt (by omega)]
  rfl

/-- A table that is not used is one of width 0. -/
theorem TablesDone.mask {tr₀ : TranslationParams} {k : Nat} {ws : List Nat}
    (h : TablesDone tr₀ k ws shift tr) (i : Fin 4) :
    (tr.table i).mask =
      field 32 (32 - (tr₀.initShift.toNat + (ws.take (i.val + 1)).sum)) (ws.getD i.val 0) := by
  by_cases hi : i.val < ws.length
  · obtain ⟨hshift, hmask⟩ := h.used i hi
    rw [hmask, hshift, List.get_eq_getElem, List.getD_eq_getElem _ _ hi, Nat.sub_sub]
  · rw [h.unused i (by rw [← h.length]; omega), List.getD_eq_default _ _ (by omega)]
    exact (field_zero _).symm

theorem sum_take_succ (ws : List Nat) (n : Nat) :
    (ws.take (n + 1)).sum = (ws.take n).sum + ws.getD n 0 := by
  by_cases h : n < ws.length
  · rw [List.getD_eq_getElem _ _ h, List.take_succ_eq_append_getElem h, List.sum_append,
      List.sum_singleton]
  · rw [List.getD_eq_default _ _ (by omega), List.take_of_length_le (by omega),
      List.take_of_length_le (by omega)]
    rfl

theorem TablesDone.parts {tr₀ : TranslationParams} {k : Nat} {ws : List Nat}
    (h : TablesDone tr₀ k ws shift tr) (hk : k ≤ 4) {size : Nat}
    (hmask : tr₀.page.mask = field 32 0 size)
    (hsum : tr₀.initShift.toNat + ws.sum + size = 32) :
    tr.parts = fields 32 32
      [tr₀.initShift.toNat, ws.getD 0 0, ws.getD 1 0, ws.getD 2 0, ws.getD 3 0, size] ∧
      tr₀.initShift.toNat +
        (ws.getD 0 0 + (ws.getD 1 0 + (ws.getD 2 0 + (ws.getD 3 0 + (size + 0))))) = 32 := by
  have h1 : (ws.take 1).sum = ws.getD 0 0 := by simpa using sum_take_succ ws 0
  have h2 : (ws.take 2).sum = (ws.take 1).sum + ws.getD 1 0 := sum_take_succ ws 1
  have h3 : (ws.take 3).sum = (ws.take 2).sum + ws.getD 2 0 := sum_take_succ ws 2
  have h4 : (ws.take 4).sum = (ws.take 3).sum + ws.getD 3 0 := sum_take_succ ws 3
  have hall : (ws.take 4).sum = ws.sum := by
    rw [List.take_of_length_le (by rw [h.length]; exact hk)]
  have htotal : tr₀.initShift.toNat +
      (ws.getD 0 0 + (ws.getD 1 0 + (ws.getD 2 0 + (ws.getD 3 0 + (size + 0))))) = 32 := by
    omega
  refine ⟨?_, htotal⟩
  have hmask0 : (tr.table 0).mask =
      field 32 (32 - (tr₀.initShift.toNat + (ws.take 1).sum)) (ws.getD 0 0) := h.mask 0
  have hmask1 : (tr.table 1).mask =
      field 32 (32 - (tr₀.initShift.toNat + (ws.take 2).sum)) (ws.getD 1 0) := h.mask 1
  have hmask2 : (tr.table 2).mask =
      field 32 (32 - (tr₀.initShift.toNat + (ws.take 3).sum)) (ws.getD 2 0) := h.mask 2
  have hmask3 : (tr.table 3).mask =
      field 32 (32 - (tr₀.initShift.toNat + (ws.take 4).sum)) (ws.getD 3 0) := h.mask 3
  have hlist : (List.finRange 4).map (fun i => (tr.table i).mask) =
      [(tr.table 0).mask, (tr.table 1).mask, (tr.table 2).mask, (tr.table 3).mask] := rfl
  unfold TranslationParams.parts
  rw [hlist, hmask0, hmask1, hmask2, hmask3, h.initShift, h.page, hmask]
  simp only [fields, List.cons_append, List.nil_append, List.cons.injEq, and_true, true_and]
  refine ⟨?_, ?_, ?_, ?_, ?_⟩
  · congr 1
    omega
  · congr 1
    omega
  · congr 1
    omega
  · congr 1
    omega
  · congr 1
    omega

theorem tcWidths_length (tc : Long) : (tcWidths tc (List.finRange 4)).length ≤ 4 :=
  (List.takeWhile_prefix _).length_le

/-- A value of `TC` that is not an error is decoded to valid parameters. -/
theorem decodeTables_valid (h : TcValid tc) :
    (decodeTables tc (List.finRange 4) (32 - (startTranslation tc tr).initShift)
      (startTranslation tc tr)).2.ValidFor (tcWidths tc (List.finRange 4)) := by
  obtain ⟨hsize, hsum⟩ := h
  have hlt := tcPageSize_lt tc
  have his : (startTranslation tc tr).initShift.toNat = _ := startTranslation_initShift
  have hstart : TablesDone (startTranslation tc tr) 0 [] _ _ := startTranslation_done
  have hshift := hstart.shift
  rw [List.sum_nil, his] at hshift
  have hle : (tcWidths tc (List.finRange 4)).sum ≤
      (32 - (startTranslation tc tr).initShift : BitVec 8).toNat := by omega
  obtain ⟨k, hdone⟩ := decodeTables_done hstart (by decide) hle
  rw [List.nil_append] at hdone
  generalize decodeTables tc (List.finRange 4) (32 - (startTranslation tc tr).initShift)
    (startTranslation tc tr) = r at hdone
  have hpage : r.2.page.size.toNat = tcPageSize tc := by
    rw [hdone.page]
    rfl
  have hmask : (startTranslation tc tr).page.mask = field 32 0 (tcPageSize tc) :=
    pageMask_eq ((tc &&& tcPsMask) >>> 20) (by change tcPageSize tc ≤ 31; omega)
  have hk : k ≤ 4 := by
    rw [← hdone.length]
    exact tcWidths_length tc
  obtain ⟨hparts, htotal⟩ := hdone.parts hk hmask (by rw [his]; exact hsum)
  refine ⟨?_, ?_, hdone.widths, ?_, ?_, ?_, ?_, ?_, ?_⟩
  · rw [hpage]
    omega
  · rw [hdone.page]
    exact ⟨hmask, rfl⟩
  · rw [hdone.initShift, his, hpage]
    exact hsum
  · rw [hdone.length]
    rcases hdone.lastTable with ⟨hk0, -⟩ | hlast
    · rw [← hdone.length, List.length_eq_zero_iff] at hk0
      have := tcInitShift_lt tc
      rw [hk0, List.sum_nil] at hsum
      omega
    · exact hlast
  · rw [hdone.initShift]
    exact hdone.used
  · intro i hi
    exact hdone.unused i (by rw [← hdone.length]; exact hi)
  · rw [hparts]
    exact fields_disjoint (by simp only [List.sum_cons, List.sum_nil]; omega)
  · rw [hparts]
    exact fields_cover (by simp only [List.sum_cons, List.sum_nil]; exact htotal)

/-- The last table decoded holds what is left of `shift`, unless none has been. -/
theorem decodeTables_last (tc : Long) (is : List (Fin 4)) (shift : BitVec 8)
    (tr : TranslationParams) :
    decodeTables tc is shift tr = (shift, tr) ∧ tcWidths tc is = [] ∨
      ∃ i : Fin 4, (decodeTables tc is shift tr).2.lastTable = BitVec.ofNat 8 i.val ∧
        ((decodeTables tc is shift tr).2.table i).shift = (decodeTables tc is shift tr).1 := by
  induction is generalizing shift tr with
  | nil => exact .inl ⟨rfl, rfl⟩
  | cons i is ih =>
    rw [tcWidths_cons]
    unfold decodeTables
    by_cases hz : tiBits tc i = 0
    · rw [if_pos hz, if_pos hz]
      exact .inl ⟨rfl, rfl⟩
    · rw [if_neg hz]
      right
      rcases ih (shift - tiBits tc i) _ with ⟨hstop, -⟩ | hlast
      · rw [hstop]
        refine ⟨i, rfl, ?_⟩
        dsimp only
        rw [Function.update_self]
      · exact hlast

theorem decodeTables_page (tc : Long) (is : List (Fin 4)) (shift : BitVec 8)
    (tr : TranslationParams) :
    (decodeTables tc is shift tr).2.page = tr.page ∧
      (decodeTables tc is shift tr).2.initShift = tr.initShift := by
  induction is generalizing shift tr with
  | nil => exact ⟨rfl, rfl⟩
  | cons i is ih =>
    unfold decodeTables
    split
    · exact ⟨rfl, rfl⟩
    · exact ih _ _

/-- Valid parameters end with a table whose index starts where the page offset ends. -/
theorem TranslationParams.Valid.last {i : Fin 4} (h : tr.Valid)
    (hi : tr.lastTable = BitVec.ofNat 8 i.val) :
    (tr.table i).shift.toNat = tr.page.size.toNat ∧ (tr.table i).mask ≠ 0 := by
  obtain ⟨ws, hlen, hv⟩ := h
  have hlast := hv.lastTable
  have hi4 := i.isLt
  rw [hi, BitVec.toNat_ofNat, Nat.mod_eq_of_lt (by omega)] at hlast
  obtain ⟨hshift, hmask⟩ := hv.used i (by omega)
  have hsum := hv.sum
  have hsize := hv.pageSize
  rw [List.take_of_length_le (by omega)] at hshift
  refine ⟨by omega, ?_⟩
  rw [hmask]
  exact field_ne_zero (hv.widths _ (List.get_mem ..)) (by omega)

/-- What is left of `shift`, up to its wrapping. -/
theorem decodeTables_shift (tc : Long) (is : List (Fin 4)) (shift : BitVec 8)
    (tr : TranslationParams) :
    (decodeTables tc is shift tr).1 = shift - BitVec.ofNat 8 (tcWidths tc is).sum := by
  induction is generalizing shift tr with
  | nil => exact (BitVec.sub_zero shift).symm
  | cons i is ih =>
    rw [tcWidths_cons]
    unfold decodeTables
    by_cases hz : tiBits tc i = 0
    · rw [if_pos hz, if_pos hz]
      exact (BitVec.sub_zero shift).symm
    · rw [if_neg hz, if_neg hz, ih, List.sum_cons, BitVec.ofNat_add, BitVec.ofNat_toNat,
        BitVec.setWidth_eq]
      bv_omega

theorem tcWidths_sum_le (tc : Long) (is : List (Fin 4)) :
    (tcWidths tc is).sum ≤ 15 * is.length := by
  induction is with
  | nil => exact Nat.zero_le _
  | cons i is ih =>
    have hbits : (tiBits tc i).toNat ≤ 15 := by
      unfold tiBits
      rw [BitVec.toNat_and]
      exact Nat.and_le_right
    rw [tcWidths_cons]
    split
    · exact Nat.zero_le _
    · rw [List.sum_cons, List.length_cons]
      omega

/-- The sum that the code checks. -/
theorem decodeTables_shift_eq_iff (tc : Long) (tr : TranslationParams) :
    (decodeTables tc (List.finRange 4) (32 - (startTranslation tc tr).initShift)
        (startTranslation tc tr)).1.toNat = tcPageSize tc ↔
      tcInitShift tc + (tcWidths tc (List.finRange 4)).sum + tcPageSize tc = 32 := by
  have his : (startTranslation tc tr).initShift.toNat = _ := startTranslation_initShift
  have hlt := tcInitShift_lt tc
  have hsize := tcPageSize_lt tc
  have hsum := tcWidths_sum_le tc (List.finRange 4)
  have h32 : (32 : BitVec 8).toNat = 32 := rfl
  rw [decodeTables_shift, BitVec.toNat_sub, BitVec.toNat_sub, BitVec.toNat_ofNat, his, h32]
  rw [List.length_finRange] at hsum
  omega

theorem decodeTables_pageSize (tc : Long) (tr : TranslationParams) :
    (decodeTables tc (List.finRange 4) (32 - (startTranslation tc tr).initShift)
      (startTranslation tc tr)).2.page.size.toNat = tcPageSize tc := by
  rw [(decodeTables_page ..).1]
  rfl

theorem decodeTables_checked
    (h : (decodeTables tc (List.finRange 4) (32 - (startTranslation tc tr).initShift)
        (startTranslation tc tr)).1.setWidth 32 -
      (decodeTables tc (List.finRange 4) (32 - (startTranslation tc tr).initShift)
        (startTranslation tc tr)).2.page.size = 0) :
    (decodeTables tc (List.finRange 4) (32 - (startTranslation tc tr).initShift)
      (startTranslation tc tr)).1.toNat = tcPageSize tc := by
  rw [← decodeTables_pageSize tc tr]
  generalize decodeTables tc (List.finRange 4) (32 - (startTranslation tc tr).initShift)
    (startTranslation tc tr) = r at h
  have heq : r.1.setWidth 32 = r.2.page.size := by
    rw [← BitVec.sub_add_cancel (r.1.setWidth 32) r.2.page.size, h]
    exact BitVec.zero_add _
  rw [← heq, BitVec.toNat_setWidth, Nat.mod_eq_of_lt (by have := r.1.isLt; omega)]

/-- The parameters decoded are valid exactly for the values of `TC` that are not errors. -/
theorem decodeTables_valid_iff (tc : Long) (tr : TranslationParams) :
    (decodeTables tc (List.finRange 4) (32 - (startTranslation tc tr).initShift)
      (startTranslation tc tr)).2.Valid ↔ TcValid tc := by
  refine ⟨?_, fun h => ⟨_, tcWidths_length tc, decodeTables_valid h⟩⟩
  intro hv
  have hsize := decodeTables_pageSize tc tr
  refine ⟨?_, ?_⟩
  · obtain ⟨ws, -, hvalid⟩ := id hv
    rw [← hsize]
    exact hvalid.pageSize.1
  · rcases decodeTables_last tc (List.finRange 4) (32 - (startTranslation tc tr).initShift)
      (startTranslation tc tr) with ⟨hstop, -⟩ | ⟨i, hi, hshift⟩
    · rw [hstop] at hv
      exact absurd rfl (hv.last (i := 0) rfl).2
    · have hlast := (hv.last hi).1
      rw [hshift, hsize] at hlast
      exact (decodeTables_shift_eq_iff tc tr).mp hlast

end Decode

/-! ## Runs -/

/-- The value last loaded into `TC` leaves translation off, or is no configuration error. -/
def Mmu030Regs.TcAccepted (r : Mmu030Regs) : Prop :=
  r.mmuEc = true ∨ r.tc030 &&& tcEnableTranslation = 0 ∨ TcValid r.tc030

/-- Translation is off, or its parameters are valid. -/
def Mmu030Regs.Decoded (r : Mmu030Regs) : Prop := r.enabled = true → r.translation.Valid

/-- The states reached from a reset by any operations. -/
inductive Mmu030Reaches : Mmu030 → Prop where
  | start {m : Mmu030} : m.regs.enabled = false → m.regs.tc030 &&& tcEnableTranslation = 0 →
      Mmu030Reaches m
  | step {m m' : Mmu030} (op : Mmu030Op) : Mmu030Reaches m → op.next m = some m' →
      Mmu030Reaches m'

/-- `TC` tells whether translation is on, and then whether its parameters are valid. -/
structure TcInv (r : Mmu030Regs) : Prop where
  enabled : r.enabled = true ↔ r.mmuEc = false ∧ r.tc030 &&& tcEnableTranslation ≠ 0
  decoded : r.enabled = true → (r.translation.Valid ↔ TcValid r.tc030)

theorem TcInv.decoded_iff {r : Mmu030Regs} (h : TcInv r) : r.Decoded ↔ r.TcAccepted := by
  unfold Mmu030Regs.Decoded Mmu030Regs.TcAccepted
  by_cases he : r.enabled = true
  · obtain ⟨hec, htc⟩ := h.enabled.mp he
    constructor
    · intro hd
      exact .inr (.inr ((h.decoded he).mp (hd he)))
    · rintro (hec' | htc' | hvalid) -
      · rw [hec] at hec'
        cases hec'
      · exact absurd htc' htc
      · exact (h.decoded he).mpr hvalid
  · refine iff_of_true (fun he' => absurd he' he) ?_
    rw [h.enabled, not_and_or, Bool.not_eq_false, not_not] at he
    rcases he with hec | htc
    · exact .inl hec
    · exact .inr (.inl htc)

theorem TcInv.kept {m m' : Mmu030} (h : TcInv m.regs) (hk : TcKept m m') : TcInv m'.regs := by
  obtain ⟨hec, htc, hen, htr⟩ := hk
  refine ⟨?_, ?_⟩
  · rw [hec, htc, hen]
    exact h.enabled
  · rw [htc, hen, htr]
    exact h.decoded

theorem effectiveTc_on {mmuEc : Bool} {tc : Long} :
    effectiveTc mmuEc tc &&& tcEnableTranslation ≠ 0 ↔
      mmuEc = false ∧ tc &&& tcEnableTranslation ≠ 0 := by
  unfold effectiveTc
  cases mmuEc with
  | false => exact ⟨fun h => ⟨rfl, h⟩, And.right⟩
  | true =>
    have hoff : tc &&& ~~~tcEnableTranslation &&& tcEnableTranslation = 0 := by
      rw [BitVec.and_assoc, (by decide : ~~~tcEnableTranslation &&& tcEnableTranslation = 0)]
      exact BitVec.and_zero
    exact ⟨fun h => absurd hoff h, fun h => absurd h.1 (by decide)⟩

theorem lt_eight_iff {size : Long} : size < 8 ↔ ¬8 ≤ size.toNat := by
  rw [BitVec.lt_def, Nat.not_le]
  rfl

/-- Whichever way it leaves, the parameters are valid exactly if `tc` is no error. -/
theorem decodeTranslation_ends (m : Mmu030) (tc : Long) :
    Ends (decodeTranslation tc) m
      (fun _ m' => m'.regs.mmuEc = m.regs.mmuEc ∧ m'.regs.tc030 = m.regs.tc030 ∧
        m'.regs.enabled = m.regs.enabled ∧ (m'.regs.translation.Valid ↔ TcValid tc))
      fun _ => False := by
  unfold decodeTranslation updateRegs raiseException
  rw [ends_bind, ends_update, ends_bind, ends_reads]
  dsimp only [id]
  refine .ite (fun hsize => ?_) fun hsize => ?_
  · rw [ends_bind, ends_update, ends_pure]
    have hlt : ¬8 ≤ tcPageSize tc := lt_eight_iff.mp hsize
    refine ⟨rfl, rfl, rfl, iff_of_false ?_ fun h => hlt h.1⟩
    rintro ⟨ws, -, hv⟩
    exact hlt hv.pageSize.1
  · rw [ends_bind, ends_update]
    refine .ite (fun _ => ?_) fun _ => ?_
    · rw [ends_bind, ends_update, ends_pure]
      exact ⟨rfl, rfl, rfl, decodeTables_valid_iff tc m.regs.translation⟩
    · rw [ends_pure]
      exact ⟨rfl, rfl, rfl, decodeTables_valid_iff tc m.regs.translation⟩

/-- A value that is not found to be an error is none. -/
theorem decodeTranslation_accepts (m : Mmu030) (tc : Long) :
    Ends (decodeTranslation tc) m
      (fun bad m' => m'.regs.enabled = m.regs.enabled ∧
        (bad = false → m'.regs.translation.DecodedFrom tc))
      fun _ => False := by
  unfold decodeTranslation updateRegs raiseException
  rw [ends_bind, ends_update, ends_bind, ends_reads]
  dsimp only [id]
  refine .ite (fun _ => ?_) fun hsize => ?_
  · rw [ends_bind, ends_update, ends_pure]
    exact ⟨rfl, fun h => by cases h⟩
  · rw [ends_bind, ends_update]
    refine .ite (fun _ => ?_) fun hsum => ?_
    · rw [ends_bind, ends_update, ends_pure]
      exact ⟨rfl, fun h => by cases h⟩
    · rw [ends_pure]
      have hpage : 8 ≤ tcPageSize tc := not_not.mp fun h => hsize (lt_eight_iff.mpr h)
      have hshift := not_not.mp hsum
      have hvalid : TcValid tc := by
        refine ⟨hpage, (decodeTables_shift_eq_iff tc m.regs.translation).mp ?_⟩
        exact decodeTables_checked hshift
      refine ⟨rfl, fun _ => ⟨hvalid, decodeTables_valid hvalid, ?_, decodeTables_pageSize tc _⟩⟩
      exact (congrArg BitVec.toNat (decodeTables_page ..).2).trans startTranslation_initShift

/-- The registers after `mmu030_decode_tc`. -/
theorem mmu030DecodeTc_ends (m : Mmu030) (check : Bool) :
    Ends (mmu030DecodeTc mmu030DoFakePrefetch m.regs.tc030 check) m (fun _ m' => TcInv m'.regs)
      fun _ => False := by
  unfold mmu030DecodeTc updateRegs
  rw [ends_bind, ends_update, ends_bind, ends_reads]
  dsimp only [id]
  refine .ite (fun htc => ?_) fun htc => ?_
  · obtain ⟨hec, hon⟩ := effectiveTc_on.mp htc
    rw [ends_bind]
    refine (fakePrefetchIf_ends kept_accessRel _ _).mono (fun _ m₁ ⟨h₁, _⟩ => ?_) fun _ h => h
    rw [ends_bind, ends_update]
    refine (decodeTranslation_ends _ _).mono (fun _ m' h => ?_) fun _ h => h
    obtain ⟨hec', htc', hen', hv⟩ := h
    dsimp only at hec' htc' hen'
    rw [h₁] at hec' htc'
    refine ⟨?_, fun _ => ?_⟩
    · rw [hec', htc', hen']
      exact ⟨fun _ => ⟨hec, hon⟩, fun _ => rfl⟩
    · rw [htc', hv, effectiveTc, hec, if_neg (by decide)]
  · rw [ends_bind]
    refine (fakePrefetchIf_ends kept_accessRel _ _).mono (fun _ m₁ ⟨h₁, _⟩ => ?_) fun _ h => h
    rw [ends_bind, ends_update, ends_pure]
    dsimp only
    rw [h₁]
    refine ⟨?_, fun h => by cases h⟩
    rw [← effectiveTc_on]
    exact ⟨fun h => (by cases h), fun h => absurd h htc⟩

/-- A value that `mmu030_decode_tc` accepts and that turns translation on. -/
theorem mmu030DecodeTc_accepts (m : Mmu030) (tc : Long) (check : Bool) :
    Ends (mmu030DecodeTc mmu030DoFakePrefetch tc check) m
      (fun bad m' => bad = false → m'.regs.enabled = true →
        m'.regs.translation.DecodedFrom tc) fun _ => False := by
  unfold mmu030DecodeTc updateRegs
  rw [ends_bind, ends_update, ends_bind, ends_reads]
  dsimp only [id]
  refine .ite (fun htc => ?_) fun _ => ?_
  · have heff : effectiveTc m.regs.mmuEc tc = tc := by
      rw [effectiveTc, (effectiveTc_on.mp htc).1, if_neg (by decide)]
    rw [ends_bind]
    refine (fakePrefetchIf_ends kept_accessRel _ _).mono (fun _ m₁ _ => ?_) fun _ h => h
    rw [ends_bind, ends_update, heff]
    exact (decodeTranslation_accepts _ tc).mono (fun _ _ h hbad _ => h.2 hbad) fun _ h => h
  · rw [ends_bind]
    refine (fakePrefetchIf_ends kept_accessRel _ _).mono (fun _ m₁ _ => ?_) fun _ h => h
    rw [ends_bind, ends_update, ends_pure]
    exact fun _ hon => by cases hon

/-! ### Steps -/

/-- `TcInv` holds however the computation ends. -/
abbrev EndsTcInv {α : Type} (c : Mmu030M α) (m : Mmu030) : Prop :=
  Ends c m (fun _ m' => TcInv m'.regs) fun m' => TcInv m'.regs

theorem TcInv.within {α : Type} {c : Mmu030M α} {m : Mmu030} (h : TcInv m.regs)
    (hc : Within TcKept c) : EndsTcInv c m :=
  (hc m).mono (fun _ _ hk => h.kept hk) fun _ hk => h.kept hk

/-- Only a load of `TC` changes `TC` and what is decoded of it. -/
theorem mmuOp30Pmove_ends {m : Mmu030} (h : TcInv m.regs) (opcode : Long) (next : Word)
    (extra : Long) :
    EndsTcInv (mmuOp30Pmove operand030 mmu030DoFakePrefetch opcode next extra) m := by
  by_cases hload : LoadsTc next
  · rw [mmuOp30Pmove_loadsTc _ _ _ _ hload]
    refine .ite (fun _ => h.within (.pure _)) fun _ => ?_
    refine (h.within ((operand_within tcKept_opRel.toAccessRel).getLong extra)).bind ?_
    intro v m₁ _
    unfold updateRegs
    rw [ends_bind, ends_update]
    refine Ends.bind (P := fun _ m' => TcInv m'.regs) ?_ fun bad m₂ h₂ => ?_
    · exact (mmu030DecodeTc_ends { m₁ with regs := { m₁.regs with tc030 := v } } true).mono
        (fun _ _ h' => h') fun _ h' => h'.elim
    · refine .ite (fun _ => h₂.within (.pure _)) fun _ => h₂.within ?_
      refine .bind (.ite (fun _ => mmu030FlushAtcAll_within tcKept_opRel) fun _ => .pure _) ?_
      exact fun _ => .bind (.update fun _ => ⟨rfl, rfl, rfl, rfl⟩) fun _ => .pure _
  · exact h.within (mmuOp30Pmove_within tcKept_opRel _ _ _ _ hload)

/-- A reset turns translation off in `TC` too. -/
theorem mmu030Reset_ends {m : Mmu030} {hardreset : Int} (h : 0 ≤ hardreset) :
    EndsTcInv (mmu030Reset hardreset) m := by
  have hoff : ∀ tc : Long, tc &&& ~~~tcEnableTranslation &&& tcEnableTranslation = 0 := by
    intro tc
    rw [BitVec.and_assoc, (by decide : ~~~tcEnableTranslation &&& tcEnableTranslation = 0)]
    exact BitVec.and_zero
  have hinv : ∀ r : Mmu030Regs, r.enabled = false → r.tc030 &&& tcEnableTranslation = 0 →
      TcInv r := fun r he htc =>
    ⟨by rw [he, htc]; exact ⟨fun h => (by cases h), fun h => absurd rfl h.2⟩,
      fun h => by rw [he] at h; cases h⟩
  unfold mmu030Reset updateRegs
  rw [if_pos h, EndsTcInv, ends_bind, ends_update, ends_bind, ends_update, ends_bind, ends_update]
  refine .ite (fun _ => ?_) fun _ => ?_
  · rw [ends_bind, ends_update, ends_bind, ends_update]
    refine TcInv.within ?_ (mmu030FlushAtcAll_within tcKept_opRel)
    exact hinv _ (by rfl) BitVec.zero_and
  · rw [ends_pure]
    exact hinv _ (by rfl) (hoff _)

/-- One operation. -/
theorem TcInv.perform {m : Mmu030} (h : TcInv m.regs) (op : Mmu030Op) :
    EndsTcInv op.perform m := by
  cases op with
  | access a =>
    exact h.within (.bind (access_within tcKept_opRel.toAccessRel a) fun _ => .pure _)
  | checkFc flags addr write =>
    refine h.within (.bind ?_ fun _ => .pure _)
    exact uaeMmu030CheckFc_within tcKept_opRel.toAccessRel _ _ _
  | pmove opcode next extra =>
    refine (mmuOp30Pmove_ends h opcode next extra).bind fun _ m' h' => ?_
    exact h'
  | pflush opcode next extra =>
    exact h.within (.bind (mmuOp30Pflush_within tcKept_opRel _ _ _) fun _ => .pure _)
  | ptest opcode next extra =>
    exact h.within (.bind (mmuOp30Ptest_within tcKept_opRel _ _ _) fun _ => .pure _)
  | reset hardreset =>
    refine mmu030Reset_ends ?_
    split <;> decide
  | edit mem => exact h
  | cpu pc sfc dfc fc030 dregs aregs s => exact h.within (.update fun _ => ⟨rfl, rfl, rfl, rfl⟩)

theorem Mmu030Op.next_ends {op : Mmu030Op} {m m' : Mmu030} {P : Mmu030 → Prop}
    (h : Ends op.perform m (fun _ => P) P) (hn : op.next m = some m') : P m' := by
  unfold Mmu030Op.next at hn
  unfold Ends at h
  cases hp : op.perform m with
  | ret u m₁ =>
    rw [hp] at h hn
    cases hn
    exact h
  | thrown c m₁ =>
    rw [hp] at h hn
    cases hn
    exact h
  | diverge =>
    rw [hp] at hn
    cases hn

/-- The whole run. -/
theorem Mmu030Reaches.tcInv {m : Mmu030} (h : Mmu030Reaches m) : TcInv m.regs := by
  induction h with
  | start he htc =>
    refine ⟨?_, fun h => by rw [he] at h; cases h⟩
    rw [he, htc]
    exact ⟨fun h => (by cases h), fun h => absurd rfl h.2⟩
  | step op _ hn ih => exact op.next_ends (ih.perform op) hn

/-- While translation is on, its parameters are valid exactly if the value last loaded into `TC`
was no configuration error: such an error leaves translation on. -/
theorem enabled_decoded_iff {m : Mmu030} (h : Mmu030Reaches m) :
    m.regs.Decoded ↔ m.regs.TcAccepted := h.tcInv.decoded_iff

/-- `PMOVE (0x100),TC` after a reset, with the value `v` there. -/
def loadedTc (v : Long) : Option Mmu030 :=
  (Mmu030Op.pmove 0xF010 0x4000 0x100).next
    (resetMmu030 fun x => if x = 0x100 then some v else none)

theorem resetMmu030_reaches (mem : PhysMem) : Mmu030Reaches (resetMmu030 mem) :=
  .start rfl BitVec.zero_and

/-- Pages of 4K and two tables of 10 bits each. -/
theorem enabled_decoded_two_tables :
    ∃ m, loadedTc 0x80C0AA00 = some m ∧ m.regs.enabled = true ∧ m.regs.Decoded := by
  have h : (loadedTc 0x80C0AA00).map (fun m => (m.regs.enabled, m.regs.tc030)) =
      some (true, 0x80C0AA00) := by decide +kernel
  obtain ⟨m, hm, hload⟩ := Option.map_eq_some_iff.mp h
  obtain ⟨hen, htc⟩ := Prod.mk.inj hload
  refine ⟨m, hm, hen, (enabled_decoded_iff (.step _ (resetMmu030_reaches _) hm)).mpr ?_⟩
  refine .inr (.inr ?_)
  rw [htc]
  decide

/-- A value with a page size of 0 raises the configuration exception, and translation is on. -/
theorem enabled_not_decoded :
    ¬∀ m, Mmu030Reaches m → m.regs.Decoded := by
  intro h
  have hload : (loadedTc 0x80000000).map (fun m =>
      (m.regs.enabled, m.exception, m.regs.translation.page.size)) =
        some (true, some 56, 0) := by decide +kernel
  obtain ⟨m, hm, hstate⟩ := Option.map_eq_some_iff.mp hload
  simp only [Prod.mk.injEq] at hstate
  obtain ⟨hen, -, hsize⟩ := hstate
  obtain ⟨ws, -, hv⟩ := h m (.step _ (resetMmu030_reaches _) hm) hen
  have hpage := hv.pageSize.1
  rw [hsize] at hpage
  exact absurd hpage (by decide)

end UaeCpu
