import UaeCpu.Lib.LongDivision
import UaeCpu.Regs

/-!
# UaeCpu.DivTiming

How long a DIVU or DIVS takes on the 68000 and 68010: `getDivu68kCycles` and `getDivs68kCycles`.

* `divuRound`       — one round of the loop that imitates the divider of the 68000.
* `register_packed` — its register holds the partial remainder and the bits to come.
* `division_timing` — what the loops decide and count.
-/

namespace UaeCpu

open LongDivision

/-! ## The two functions -/

/-- One round of the loop: the register is shifted left, and the divisor subtracted where it fits,
which it always does when a bit falls out. -/
def divuRound (m : Model) (hdivisor : Long) (st : Long × Int) : Long × Int :=
  let temp := st.1
  let dividend := temp <<< 1
  if temp.toInt < 0 then (dividend - hdivisor, st.2)
  else if hdivisor ≤ dividend then
    (dividend - hdivisor, if m = .m68010 then st.2 + 2 else st.2 + 2 - 1)
  else (dividend, st.2 + 2)

def divuRounds (m : Model) (hdivisor : Long) (st : Long × Int) : Nat → Long × Int
  | 0 => st
  | i + 1 => divuRound m hdivisor (divuRounds m hdivisor st i)

/-- `divisor << 16`. -/
def hdivisor (divisor : Word) : Long := divisor.setWidth 32 <<< 16

/-- `getDivu68kCycles`. -/
def getDivu68kCycles (m : Model) (dividend : Long) (divisor : Word) : Int :=
  if divisor = 0 then 0
  else if m = .m68010 then
    if divisor.setWidth 32 ≤ dividend >>> 16 then 4
    else (divuRounds m (hdivisor divisor) (dividend, 74) 15).2
  else
    if divisor.setWidth 32 ≤ dividend >>> 16 then 5 * 2 - 4
    -- the prefetch cycle is counted elsewhere
    else (divuRounds m (hdivisor divisor) (dividend, 38) 15).2 * 2 - 4

/-- `abs`, where signed arithmetic wraps: this file is built with `-fwrapv`. -/
def cAbs (x : Long) : Long := if x.toInt < 0 then -x else x

/-- `(uae_u16)abs(divisor)`. -/
def absDivisor (divisor : Word) : Word := (cAbs (divisor.signExtend 32)).setWidth 16

/-- `(uae_u32)abs(dividend) / (uae_u16)abs(divisor)`. -/
def absQuotient (dividend : Long) (divisor : Word) : Long :=
  cAbs dividend / (absDivisor divisor).setWidth 32

/-- `((uae_u32)abs(dividend) >> 16) >= (uae_u16)abs(divisor)`. -/
def absOverflow (dividend : Long) (divisor : Word) : Bool :=
  decide ((absDivisor divisor).setWidth 32 ≤ cAbs dividend >>> 16)

/-- One round of the loop that counts the clear bits of the quotient. -/
def divsRound (st : Long × Int) : Long × Int :=
  (st.1 <<< 1, if 0 ≤ (st.1.setWidth 16).toInt then st.2 + 1 else st.2)

def divsRounds (st : Long × Int) : Nat → Long × Int
  | 0 => st
  | i + 1 => divsRound (divsRounds st i)

/-- The cycles a DIVS takes by its signs alone. -/
def divsStart (dividend : Long) (divisor : Word) : Int :=
  let mcycles := (if dividend.toInt < 0 then 6 + 1 else 6) + 55
  if 0 ≤ divisor.toInt then if 0 ≤ dividend.toInt then mcycles - 1 else mcycles + 1 else mcycles

/-- `getDivs68kCycles`: the count and `*extra`. -/
def getDivs68kCycles (m : Model) (dividend : Long) (divisor : Word) (extra : Int) : Int × Int :=
  if divisor = 0 then (0, extra)
  else if m = .m68010 then
    if absOverflow dividend divisor then (12, extra)
    else if dividend.toInt < 0 then (116 + 2, 1)
    else (116, extra)
  else if absOverflow dividend divisor then (((if dividend.toInt < 0 then 6 + 1 else 6) + 2) * 2 - 4, extra)
  else
    ((divsRounds (absQuotient dividend divisor, divsStart dividend divisor) 15).2 * 2 - 4,
      if divisor.toInt < 0 ∧ 0 ≤ dividend.toInt then 1 else 0)

/-! ## The register -/

section Divu

variable {m : Model} {divisor : Word}

/-- The round subtracts the divisor. -/
def subtracts (hdivisor temp : Long) : Bool := decide (temp.toInt < 0) || decide (hdivisor ≤ temp <<< 1)

theorem hdivisor_toNat (divisor : Word) : (hdivisor divisor).toNat = divisor.toNat * 2 ^ 16 := by
  have h := divisor.isLt
  simp only [hdivisor, BitVec.toNat_shiftLeft, BitVec.toNat_setWidth, Nat.shiftLeft_eq]
  omega

theorem toInt_neg_iff (x : Long) : x.toInt < 0 ↔ 2 ^ 31 ≤ x.toNat := by
  have h := x.isLt
  rw [BitVec.toInt_eq_toNat_cond]
  split <;> omega

theorem shiftLeft_one_toNat (x : Long) : (x <<< 1).toNat = 2 * x.toNat % 2 ^ 32 := by
  rw [BitVec.toNat_shiftLeft, Nat.shiftLeft_eq]
  ring_nf

/-- Together with the bit that falls out the comparison is one of 33 bits. -/
theorem subtracts_iff (temp : Long) :
    subtracts (hdivisor divisor) temp = decide (divisor.toNat * 2 ^ 16 ≤ 2 * temp.toNat) := by
  have hd := divisor.isLt
  have ht := temp.isLt
  rw [subtracts, ← Bool.decide_or]
  congr 1
  rw [toInt_neg_iff, BitVec.le_def, hdivisor_toNat, shiftLeft_one_toNat]
  refine eq_iff_iff.mpr ⟨fun h => ?_, fun h => ?_⟩ <;> omega

/-- What a round leaves in the register. -/
theorem divuRound_subtracts (hdiv : Long) (st : Long × Int) : (divuRound m hdiv st).1 =
    if subtracts hdiv st.1 then st.1 <<< 1 - hdiv else st.1 <<< 1 := by
  unfold divuRound subtracts
  by_cases hneg : st.1.toInt < 0
  · simp only [if_pos hneg, decide_eq_true hneg, Bool.true_or, if_true]
  · by_cases hle : hdiv ≤ st.1 <<< 1
    · simp only [if_neg hneg, if_pos hle, decide_eq_true hle, Bool.or_true, if_true]
    · simp only [if_neg hneg, if_neg hle, decide_eq_false hneg, decide_eq_false hle, Bool.or_self,
        if_neg Bool.false_ne_true]

theorem divuRound_fst {st : Long × Int} (hd : st.1.toNat < divisor.toNat * 2 ^ 16) :
    (divuRound m (hdivisor divisor) st).1.toNat =
      if divisor.toNat * 2 ^ 16 ≤ 2 * st.1.toNat then 2 * st.1.toNat - divisor.toNat * 2 ^ 16
      else 2 * st.1.toNat := by
  have hlt := divisor.isLt
  rw [divuRound_subtracts, subtracts_iff]
  by_cases hle : divisor.toNat * 2 ^ 16 ≤ 2 * st.1.toNat
  · rw [if_pos (decide_eq_true hle), if_pos hle, BitVec.toNat_sub, hdivisor_toNat, shiftLeft_one_toNat]
    omega
  · rw [if_neg (by simpa using hle), if_neg hle, shiftLeft_one_toNat]
    omega

/-- After `i` rounds the high half holds the partial remainder and the low half the bits of the
dividend that are still to come. -/
theorem register_packed {dividend : Long} (start : Int) (hpos : 0 < divisor.toNat)
    (hno : dividend.toNat / 2 ^ 16 < divisor.toNat) (i : Nat) (hi : i ≤ 16) :
    (divuRounds m (hdivisor divisor) (dividend, start) i).1.toNat =
      packed dividend.toNat divisor.toNat 16 (16 - i) := by
  induction i with
  | zero => exact (packed_top hno).symm
  | succ i ih =>
    have hk : 16 - i = 16 - (i + 1) + 1 := by omega
    have hlt : packed dividend.toNat divisor.toNat 16 (16 - i) < divisor.toNat * 2 ^ 16 :=
      packed_lt hpos (by omega)
    specialize ih (by omega)
    rw [divuRounds, divuRound_fst (by rw [ih]; exact hlt), ih, hk]
    exact (packed_succ hpos (by omega)).symm

/-- The decision of a round is a bit of the quotient. -/
theorem subtracts_quotient {dividend : Long} (start : Int) (hpos : 0 < divisor.toNat)
    (hno : dividend.toNat / 2 ^ 16 < divisor.toNat) {i : Nat} (hi : i < 16) :
    subtracts (hdivisor divisor) (divuRounds m (hdivisor divisor) (dividend, start) i).1 =
      (dividend.toNat / divisor.toNat).testBit (15 - i) := by
  have hk : 16 - i = 15 - i + 1 := by omega
  rw [subtracts_iff, register_packed start hpos hno i (by omega), testBit_div hpos, hk]
  exact decide_eq_decide.mpr (fits_iff (by omega))

/-- What a round of the 68000 adds is between nothing and two. -/
theorem divuRounds_count (st : Long × Int) (hm : m ≠ .m68010) (h : Long) : ∀ i : Nat,
    st.2 ≤ (divuRounds m h st i).2 ∧ (divuRounds m h st i).2 ≤ st.2 + 2 * i
  | 0 => ⟨le_refl _, by simp [divuRounds]⟩
  | i + 1 => by
    obtain ⟨hlo, hhi⟩ := divuRounds_count st hm h i
    rw [divuRounds, divuRound, if_neg hm]
    split
    · exact ⟨hlo, by push_cast; omega⟩
    · split
      · exact ⟨by omega, by push_cast; omega⟩
      · exact ⟨by omega, by push_cast; omega⟩

theorem overflow_iff (dividend : Long) :
    divisor.setWidth 32 ≤ dividend >>> 16 ↔ divisor.toNat ≤ dividend.toNat / 2 ^ 16 := by
  have h := divisor.isLt
  rw [BitVec.le_def, BitVec.toNat_ushiftRight, Nat.shiftRight_eq_div_pow, BitVec.toNat_setWidth,
    Nat.mod_eq_of_lt (by omega)]

end Divu

/-! ## The signed quotient -/

section Divs

variable {dividend dividend' : Long} {divisor divisor' : Word}

theorem cAbs_toNat (x : Long) : (cAbs x).toNat = x.toInt.natAbs := by
  have h := x.isLt
  have hx := BitVec.toInt_eq_toNat_cond x
  unfold cAbs
  by_cases hneg : x.toInt < 0
  · rw [if_pos hneg, BitVec.toNat_neg]
    rw [toInt_neg_iff] at hneg
    rw [if_neg (by omega)] at hx
    omega
  · rw [if_neg hneg]
    rw [toInt_neg_iff] at hneg
    rw [if_pos (by omega)] at hx
    omega

theorem absDivisor_toNat (x : Word) : (absDivisor x).toNat = x.toInt.natAbs := by
  have h := x.isLt
  have hx := BitVec.toInt_eq_toNat_cond x
  rw [absDivisor, BitVec.toNat_setWidth, cAbs_toNat, BitVec.toInt_signExtend_of_le (by decide)]
  refine Nat.mod_eq_of_lt ?_
  split at hx <;> omega

theorem divsRounds_fst (st : Long × Int) : ∀ i, (divsRounds st i).1 = st.1 <<< i
  | 0 => (BitVec.shiftLeft_zero _).symm
  | i + 1 => by rw [divsRounds, divsRound, divsRounds_fst, ← BitVec.shiftLeft_add]

/-- What the loop counts: the clear ones of the bits 15 to 1. -/
def clearBits (q : Nat) (i : Nat) : Nat := (List.range i).countP fun j => !q.testBit (15 - j)

theorem clearBits_succ (q i : Nat) : clearBits q (i + 1) = clearBits q i + if q.testBit (15 - i) then 0 else 1 := by
  rw [clearBits, List.range_succ, List.countP_append, List.countP_singleton]
  cases q.testBit (15 - i) <;> rfl

theorem clearBits_le (q : Nat) (i : Nat) : clearBits q i ≤ i :=
  List.countP_le_length.trans (le_of_eq List.length_range)

theorem bit15_clear_iff (x : Long) {i : Nat} (hi : i ≤ 15) :
    0 ≤ ((x <<< i).setWidth 16).toInt ↔ x.toNat.testBit (15 - i) = false := by
  have hmsb : ((x <<< i).setWidth 16).msb = x.toNat.testBit (15 - i) := by
    rw [BitVec.msb_eq_getLsbD_last, BitVec.getLsbD_setWidth, BitVec.getLsbD_shiftLeft,
      decide_eq_true (by decide : 16 - 1 < 16), decide_eq_true (by decide : 16 - 1 < 32),
      decide_eq_false (by omega : ¬ 16 - 1 < i), BitVec.testBit_toNat]
    rfl
  rw [← hmsb, ← Bool.not_eq_true, BitVec.msb_eq_toInt, decide_eq_true_iff, not_lt]

theorem divsRounds_snd (st : Long × Int) : ∀ i, i ≤ 15 →
    (divsRounds st i).2 = st.2 + clearBits st.1.toNat i
  | 0, _ => by simp [divsRounds, clearBits]
  | i + 1, hi => by
    rw [divsRounds, divsRound, divsRounds_fst, divsRounds_snd st i (by omega), clearBits_succ]
    by_cases hb : st.1.toNat.testBit (15 - i) = false
    · rw [if_pos ((bit15_clear_iff st.1 (by omega)).mpr hb), hb, if_neg Bool.false_ne_true]
      push_cast
      ring
    · rw [if_neg fun h => hb ((bit15_clear_iff st.1 (by omega)).mp h),
        if_pos (Bool.eq_true_of_not_eq_false hb), Nat.add_zero]

theorem divsStart_range (dividend : Long) (divisor : Word) :
    60 ≤ divsStart dividend divisor ∧ divsStart dividend divisor ≤ 63 := by
  unfold divsStart
  by_cases hn : dividend.toInt < 0 <;> by_cases hd : 0 ≤ divisor.toInt
  · rw [if_pos hn, if_pos hd, if_neg (by omega)]
    decide
  · rw [if_pos hn, if_neg hd]
    decide
  · rw [if_neg hn, if_pos hd, if_pos (by omega)]
    decide
  · rw [if_neg hn, if_neg hd]
    decide

theorem divsStart_signs (hn : dividend.toInt < 0 ↔ dividend'.toInt < 0)
    (hd : divisor.toInt < 0 ↔ divisor'.toInt < 0) : divsStart dividend divisor = divsStart dividend' divisor' := by
  unfold divsStart
  simp only [hn, ← not_lt, hd]

/-- Bit 0 of the quotient is not looked at. -/
theorem clearBits_half {q q' : Nat} (h : q / 2 = q' / 2) : ∀ i, i ≤ 15 → clearBits q i = clearBits q' i
  | 0, _ => rfl
  | i + 1, hi => by
    have hb : q.testBit (15 - i) = q'.testBit (15 - i) := by
      have hk : 15 - i = 14 - i + 1 := by omega
      rw [hk, Nat.testBit_succ, Nat.testBit_succ, h]
    rw [clearBits_succ, clearBits_succ, hb, clearBits_half h i (by omega)]

/-- Dividing by zero overflows. -/
theorem divisor_ne_zero (h : absOverflow dividend divisor = false) : divisor ≠ 0 := by
  rintro rfl
  have hle : (absDivisor 0).setWidth 32 ≤ cAbs dividend >>> 16 := by
    rw [BitVec.le_def, BitVec.toNat_setWidth, absDivisor_toNat]
    exact Nat.zero_le _
  exact absurd hle (of_decide_eq_false h)

/-- Where nothing overflows the count is what the signs and the clear bits of the quotient make. -/
theorem getDivs68kCycles_fst {m : Model} (extra : Int) (h : absOverflow dividend divisor = false) :
    (getDivs68kCycles m dividend divisor extra).1 =
      if m = .m68010 then if dividend.toInt < 0 then 118 else 116
      else (divsStart dividend divisor + clearBits (absQuotient dividend divisor).toNat 15) * 2 - 4 := by
  rw [getDivs68kCycles, if_neg (divisor_ne_zero h), h, if_neg Bool.false_ne_true,
    divsRounds_snd _ 15 (le_refl _)]
  by_cases hm : m = .m68010
  · rw [if_pos hm, if_pos hm]
    split <;> rfl
  · rw [if_neg hm, if_neg hm]
    rfl

theorem divs_range {m : Model} (extra : Int) (h : absOverflow dividend divisor = false) :
    120 ≤ (getDivs68kCycles m dividend divisor extra).1 + 4 ∧
      (getDivs68kCycles m dividend divisor extra).1 + 4 ≤ 156 := by
  obtain ⟨hlo, hhi⟩ := divsStart_range dividend divisor
  have hc := clearBits_le (absQuotient dividend divisor).toNat 15
  rw [getDivs68kCycles_fst extra h]
  split
  · split <;> decide
  · constructor <;> omega

theorem divs_signs_quotient {m : Model} (extra extra' : Int) (h : absOverflow dividend divisor = false)
    (h' : absOverflow dividend' divisor' = false) (hn : dividend.toInt < 0 ↔ dividend'.toInt < 0)
    (hd : divisor.toInt < 0 ↔ divisor'.toInt < 0)
    (hq : absQuotient dividend divisor >>> 1 = absQuotient dividend' divisor' >>> 1) :
    (getDivs68kCycles m dividend divisor extra).1 = (getDivs68kCycles m dividend' divisor' extra').1 := by
  have hhalf : (absQuotient dividend divisor).toNat / 2 = (absQuotient dividend' divisor').toNat / 2 := by
    have hnat := congrArg BitVec.toNat hq
    rwa [BitVec.toNat_ushiftRight, BitVec.toNat_ushiftRight, Nat.shiftRight_eq_div_pow,
      Nat.shiftRight_eq_div_pow, pow_one] at hnat
  rw [getDivs68kCycles_fst extra h, getDivs68kCycles_fst extra' h', divsStart_signs hn hd,
    clearBits_half hhalf 15 (le_refl _)]
  simp only [hn]

end Divs

/-! ## The timing -/

theorem divu_range {m : Model} {dividend : Long} {divisor : Word} (hm : m ≠ .m68010) (hdiv : divisor ≠ 0)
    (hno : dividend.toNat / 2 ^ 16 < divisor.toNat) :
    76 ≤ getDivu68kCycles m dividend divisor + 4 ∧ getDivu68kCycles m dividend divisor + 4 ≤ 136 := by
  obtain ⟨hlo, hhi⟩ := divuRounds_count (dividend, 38) hm (hdivisor divisor) 15
  rw [getDivu68kCycles, if_neg hdiv, if_neg hm, if_neg fun h => absurd ((overflow_iff dividend).mp h) (by omega)]
  constructor <;> omega

/-- DIVU without overflow: the register holds the partial remainder above the bits to come, the
fifteen decisions are the upper bits of the quotient, and the 68000 takes 76 to 136 cycles; with an
overflow it takes 10. DIVS without absolute overflow: 120 to 156 cycles, which the signs and the
upper fifteen bits of the absolute quotient decide. `abs` is the absolute value of every dividend. -/
theorem division_timing (m : Model) :
    (∀ (dividend : Long) (divisor : Word) (start : Int), divisor ≠ 0 →
      dividend.toNat / 2 ^ 16 < divisor.toNat →
      (∀ i, i ≤ 15 →
        (divuRounds m (hdivisor divisor) (dividend, start) i).1.toNat =
            packed dividend.toNat divisor.toNat 16 (16 - i) ∧
          partialRem dividend.toNat divisor.toNat (16 - i) < divisor.toNat) ∧
      (∀ i, i < 15 → (divuRounds m (hdivisor divisor) (dividend, start) (i + 1)).1 =
        if (dividend.toNat / divisor.toNat).testBit (15 - i)
        then (divuRounds m (hdivisor divisor) (dividend, start) i).1 <<< 1 - hdivisor divisor
        else (divuRounds m (hdivisor divisor) (dividend, start) i).1 <<< 1) ∧
      (m ≠ .m68010 →
        76 ≤ getDivu68kCycles m dividend divisor + 4 ∧ getDivu68kCycles m dividend divisor + 4 ≤ 136)) ∧
    (∀ (dividend : Long) (divisor : Word), m ≠ .m68010 → divisor ≠ 0 →
      divisor.toNat ≤ dividend.toNat / 2 ^ 16 → getDivu68kCycles m dividend divisor + 4 = 10) ∧
    (∀ (dividend : Long) (divisor : Word) (extra : Int), absOverflow dividend divisor = false →
      (120 ≤ (getDivs68kCycles m dividend divisor extra).1 + 4 ∧
        (getDivs68kCycles m dividend divisor extra).1 + 4 ≤ 156) ∧
      ∀ (dividend' : Long) (divisor' : Word) (extra' : Int), absOverflow dividend' divisor' = false →
        (dividend.toInt < 0 ↔ dividend'.toInt < 0) → (divisor.toInt < 0 ↔ divisor'.toInt < 0) →
        absQuotient dividend divisor >>> 1 = absQuotient dividend' divisor' >>> 1 →
        (getDivs68kCycles m dividend divisor extra).1 = (getDivs68kCycles m dividend' divisor' extra').1) ∧
    ∀ dividend : Long, (cAbs dividend).toNat = dividend.toInt.natAbs := by
  refine ⟨fun dividend divisor start hdiv hno => ?_, fun dividend divisor hm hdiv hle => ?_,
    fun dividend divisor extra h => ⟨divs_range extra h, fun dividend' divisor' extra' h' hn hd hq =>
      divs_signs_quotient extra extra' h h' hn hd hq⟩, cAbs_toNat⟩
  · have hpos : 0 < divisor.toNat := Nat.zero_lt_of_lt hno
    refine ⟨fun i hi => ⟨register_packed start hpos hno i (by omega), partialRem_lt hpos⟩,
      fun i hi => ?_, fun hm => divu_range hm hdiv hno⟩
    rw [divuRounds, divuRound_subtracts, subtracts_quotient start hpos hno (by omega)]
  · rw [getDivu68kCycles, if_neg hdiv, if_neg hm, if_pos ((overflow_iff dividend).mpr hle)]
    rfl

/-- 100000 by 7, 0x70000 by 7, and 10 by -2 beside 9 by -2. -/
theorem division_timing_m68000 :
    (76 ≤ getDivu68kCycles .m68000 100000 7 + 4 ∧ getDivu68kCycles .m68000 100000 7 + 4 ≤ 136) ∧
      getDivu68kCycles .m68000 0x70000 7 + 4 = 10 ∧
      (getDivs68kCycles .m68000 10 (-2) 0).1 = (getDivs68kCycles .m68000 9 (-2) 0).1 :=
  ⟨((division_timing .m68000).1 100000 7 38 (by decide) (by decide)).2.2 (by decide),
    (division_timing .m68000).2.1 0x70000 7 (by decide) (by decide) (by decide),
    ((division_timing .m68000).2.2.1 10 (-2) 0 (by decide)).2 9 (-2) 0 (by decide) (by decide) (by decide)
      (by decide)⟩

end UaeCpu
