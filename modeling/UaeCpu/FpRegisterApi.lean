import UaeCpu.FpuMode
import UaeCpu.FpuFrame

/-!
# UaeCpu.FpRegisterApi

`uae_cpu_get_fp_reg` and `uae_cpu_set_fp_reg`. The write puts the bits into the register; the read
goes through `floatx80_to_floatx80`, the conversion FMOVE uses, which quiets a NaN and rounds a
denormal number.

* `roundAndPackFloatx80` — the rounding of the SoftFloat library, 68k version.
* `fpReg_transparent_iff` — the values that come back as they were set, without a trace.
-/

namespace UaeCpu.Fpu

open Mem Soft

/-! ## Extended numbers -/

def extractFloatx80Frac (a : Float80) : BitVec 64 := a.setWidth 64

def extractFloatx80Exp (a : Float80) : Int := (a.extractLsb' 64 15).toNat

def extractFloatx80Sign (a : Float80) : Bool := a.getLsbD 79

def packFloatx80 (zSign : Bool) (zExp : Int) (zSig : BitVec 64) : Float80 :=
  (((BitVec.ofBool zSign).setWidth 16 <<< 15) + BitVec.ofInt 16 zExp) ++ zSig

/-- `floatx80_is_signaling_nan`. -/
def floatx80IsSignalingNan (a : Float80) : Bool :=
  let low := extractFloatx80Frac a
  decide (extractFloatx80Exp a = 0x7FFF ∧ (low &&& ~~~0x4000000000000000) <<< 1 ≠ 0 ∧
    low = low &&& ~~~0x4000000000000000)

abbrev floatFlagOverflow : Byte := 0x08
abbrev floatFlagUnderflow : Byte := 0x10
abbrev floatFlagInexact : Byte := 0x20
abbrev floatFlagSignaling : Byte := 0x40

/-! ## Rounding -/

def shift64RightJamming (a : BitVec 64) (count : Nat) : BitVec 64 :=
  if count = 0 then a
  else if count < 64 then a >>> count ||| (if a <<< (64 - count) ≠ 0 then 1 else 0)
  else if a ≠ 0 then 1 else 0

def shift64ExtraRightJamming (a0 a1 : BitVec 64) (count : Nat) : BitVec 64 × BitVec 64 :=
  if count = 0 then (a0, a1)
  else if count < 64 then (a0 >>> count, a0 <<< (64 - count) ||| (if a1 ≠ 0 then 1 else 0))
  else if count = 64 then (0, a0 ||| (if a1 ≠ 0 then 1 else 0))
  else (0, if a0 ||| a1 ≠ 0 then 1 else 0)

def shortShift128Left (a0 a1 : BitVec 64) (count : Nat) : BitVec 64 × BitVec 64 :=
  (if count = 0 then a0 else a0 <<< count ||| a1 >>> (64 - count), a1 <<< count)

/-- Rounding away from zero is a mistake in this mode: an overflow gives the largest number. -/
def towardZero (mode : RoundingMode) (zSign : Bool) : Bool :=
  mode == .toZero || zSign && mode == .up || !zSign && mode == .down

section Round

variable (fs : FloatStatus) (zSign : Bool) (zExp : Int) (zSig0 zSig1 : BitVec 64)

/-- `roundIncrement` of a narrower precision. -/
def roundIncrementOf (half mask : BitVec 64) : BitVec 64 :=
  match fs.floatRoundingMode with
  | .nearestEven => half
  | .toZero => 0
  | .up => if zSign then 0 else mask
  | .down => if zSign then mask else 0

/-- `zSig0 &= ~roundMask`, with the tie to even. -/
def roundOff (mask roundBits z : BitVec 64) : BitVec 64 :=
  if fs.floatRoundingMode = .nearestEven ∧ roundBits <<< 1 = mask + 1 then z &&& ~~~(mask ||| (mask + 1))
  else z &&& ~~~mask

/-- `roundAndPackFloatx80` for a rounding precision of 32 or 64. -/
def roundNarrow (half mask : BitVec 64) (expOffset : Int) : Float80 × Byte :=
  let zSig0 := zSig0 ||| (if zSig1 ≠ 0 then 1 else 0)
  let increment := roundIncrementOf fs zSign half mask
  if 0x7FFE - expOffset < zExp ∨ (zExp = 0x7FFE - expOffset ∧ zSig0 + increment < zSig0) then
    (if towardZero fs.floatRoundingMode zSign then packFloatx80 zSign (0x7FFE - expOffset) (~~~mask)
      else packFloatx80 zSign 0x7FFF 0,
    floatFlagOverflow ||| (if zSig0 &&& mask ≠ 0 then floatFlagInexact else 0))
  else if zExp < expOffset + 1 then
    let z := shift64RightJamming zSig0 (expOffset + 1 - zExp).toNat
    (packFloatx80 zSign (expOffset + 1) (roundOff fs mask (z &&& mask) (z + increment)),
      floatFlagUnderflow ||| (if z &&& mask ≠ 0 then floatFlagInexact else 0))
  else
    let carried := zSig0 + increment < increment
    let z := roundOff fs mask (zSig0 &&& mask) (if carried then 0x8000000000000000 else zSig0 + increment)
    (packFloatx80 zSign (if z = 0 then 0 else if carried then zExp + 1 else zExp) z,
      if zSig0 &&& mask ≠ 0 then floatFlagInexact else 0)

/-- `increment` from label `precision80` on. -/
def incrementOf (zSig1 : BitVec 64) : Bool :=
  match fs.floatRoundingMode with
  | .nearestEven => zSig1.msb
  | .toZero => false
  | .up => !zSign && zSig1 != 0
  | .down => zSign && zSig1 != 0

/-- `++zSig0`, with the tie to even. -/
def stepUp (zSig0 zSig1 : BitVec 64) : BitVec 64 :=
  if fs.floatRoundingMode = .nearestEven ∧ zSig1 <<< 1 = 0 then (zSig0 + 1) &&& ~~~1 else zSig0 + 1

/-- `roundAndPackFloatx80` for any other rounding precision. -/
def roundExtended : Float80 × Byte :=
  let increment := incrementOf fs zSign zSig1
  if 0x7FFE < zExp ∨ (zExp = 0x7FFE ∧ zSig0 = 0xFFFFFFFFFFFFFFFF ∧ increment) then
    (if towardZero fs.floatRoundingMode zSign then packFloatx80 zSign 0x7FFE (~~~0)
      else packFloatx80 zSign 0x7FFF 0,
    floatFlagOverflow ||| (if zSig1 ≠ 0 then floatFlagInexact else 0))
  else if zExp < 0 then
    let (z0, z1) := shift64ExtraRightJamming zSig0 zSig1 (-zExp).toNat
    (packFloatx80 zSign 0 (if incrementOf fs zSign z1 then stepUp fs z0 z1 else z0),
      floatFlagUnderflow ||| (if z1 ≠ 0 then floatFlagInexact else 0))
  else
    let flags := if zSig1 ≠ 0 then floatFlagInexact else 0
    if increment then
      if zSig0 + 1 = 0 then (packFloatx80 zSign (zExp + 1) 0x8000000000000000, flags)
      else (packFloatx80 zSign zExp (stepUp fs zSig0 zSig1), flags)
    else (packFloatx80 zSign (if zSig0 = 0 then 0 else zExp) zSig0, flags)

/-- `roundAndPackFloatx80`: the number, and the flags it raises. -/
def roundAndPackFloatx80 : Float80 × Byte :=
  if fs.floatx80RoundingPrecision = 64 then
    roundNarrow fs zSign zExp zSig0 zSig1 0x400 0x7FF 0x3C00
  else if fs.floatx80RoundingPrecision = 32 then
    roundNarrow fs zSign zExp zSig0 zSig1 0x8000000000 0xFFFFFFFFFF 0x3F80
  else roundExtended fs zSign zExp zSig0 zSig1

/-- `normalizeRoundAndPackFloatx80`. -/
def normalizeRoundAndPackFloatx80 : Float80 × Byte :=
  let (sig0, sig1, exp) := if zSig0 = 0 then (zSig1, 0, zExp - 64) else (zSig0, zSig1, zExp)
  let shifted := shortShift128Left sig0 sig1 sig0.clz.toNat
  roundAndPackFloatx80 fs zSign (exp - sig0.clz.toNat) shifted.1 shifted.2

end Round

/-- `floatx80_to_floatx80`. -/
def floatx80ToFloatx80 (a : Float80) : Soft Float80 :=
  if extractFloatx80Exp a = 0x7FFF ∧ extractFloatx80Frac a <<< 1 ≠ 0 then
    raise fun _ => (a ||| 0x4000000000000000, if floatx80IsSignalingNan a then floatFlagSignaling else 0)
  else if extractFloatx80Exp a = 0 ∧ extractFloatx80Frac a ≠ 0 then
    raise fun fs => normalizeRoundAndPackFloatx80 fs (extractFloatx80Sign a) (extractFloatx80Exp a)
      (extractFloatx80Frac a) 0
  else pure a

/-! ## The API -/

/-- `uae_fp_reg_t`, without its padding. -/
structure FpReg where
  exp : Word
  m0 : Long
  m1 : Long
  deriving DecidableEq, Repr

/-- `to_exten`, of the three longs. -/
def toExten (wrd1 wrd2 wrd3 : Long) : Float80 := (wrd1 >>> 16).setWidth 16 ++ (wrd2 ++ wrd3)

/-- `from_exten`. -/
def fromExten (x : Float80) : Soft (Long × Long × Long) := do
  let f ← floatx80ToFloatx80 x
  return ((f.extractLsb' 64 16).setWidth 32 <<< 16, f.extractLsb' 32 32, f.extractLsb' 0 32)

def uaeCpuGetFpReg (n : Fin 8) (c : FpuCpu) : FpReg × FpuCpu :=
  let ((w0, w1, w2), c) := c.soft (fromExten (c.regs.fpu.fp.get n))
  (⟨(w0 >>> 16).setWidth 16, w1, w2⟩, c)

def uaeCpuSetFpReg (n : Fin 8) (v : FpReg) (c : FpuCpu) : FpuCpu :=
  c.setFp n (toExten (v.exp.setWidth 32 <<< 16) v.m0 v.m1)

/-! ## What a number looks like -/

section Bits

variable (a : Float80)

theorem getLsbD_frac {i : Nat} (hi : i < 64) : (extractFloatx80Frac a).getLsbD i = a.getLsbD i := by
  rw [extractFloatx80Frac, BitVec.getLsbD_setWidth, decide_eq_true hi, Bool.true_and]

theorem exp_eq_zero_iff : extractFloatx80Exp a = 0 ↔ a.extractLsb' 64 15 = 0 := by
  unfold extractFloatx80Exp
  rw [← BitVec.toNat_inj]
  exact Int.natCast_eq_zero

/-- The exponent of a packed number. -/
theorem exp_pack (zSign : Bool) (zExp : Int) (zSig : BitVec 64) :
    (packFloatx80 zSign zExp zSig).extractLsb' 64 15 = (BitVec.ofInt 16 zExp).setWidth 15 := by
  have hsign : ((BitVec.ofBool zSign).setWidth 16 <<< 15 : Word).setWidth 15 = 0 := by
    cases zSign <;> decide
  rw [packFloatx80, BitVec.extractLsb'_append_eq_of_le (Nat.le_refl 64), Nat.sub_self,
    ← BitVec.setWidth_eq_extractLsb' (by decide), BitVec.setWidth_add _ _ (by decide), hsign]
  exact BitVec.zero_add _

/-- A number without exponent, packed again. -/
theorem pack_of_exp_zero (h : extractFloatx80Exp a = 0) :
    packFloatx80 (extractFloatx80Sign a) 0 (extractFloatx80Frac a) = a := by
  rw [exp_eq_zero_iff] at h
  have hhigh : (BitVec.ofBool (extractFloatx80Sign a)).setWidth 16 <<< 15 + BitVec.ofInt 16 0 =
      a.extractLsb' 64 16 := by
    refine BitVec.eq_of_getLsbD_eq fun i hi => ?_
    rw [show BitVec.ofInt 16 0 = 0#16 from rfl, BitVec.add_zero, BitVec.getLsbD_extractLsb', decide_eq_true hi,
      Bool.true_and]
    obtain rfl | hlow : i = 15 ∨ i < 15 := by omega
    · simp [extractFloatx80Sign]
    · have hbit := congrArg (BitVec.getLsbD · i) h
      simp only [BitVec.getLsbD_extractLsb', decide_eq_true hlow, Bool.true_and] at hbit
      rw [hbit]
      simp [hlow]
  rw [packFloatx80, hhigh, extractFloatx80Frac, BitVec.setWidth_eq_extractLsb' (by decide)]
  exact BitVec.extractLsb'_append_extractLsb'

theorem or_twoPow_iff {w k : Nat} {x : BitVec w} (hk : k < w) :
    x ||| BitVec.twoPow w k = x ↔ x.getLsbD k = true := by
  constructor
  · intro h
    have hbit := congrArg (BitVec.getLsbD · k) h
    simpa [BitVec.getLsbD_twoPow, hk] using hbit.symm
  · intro h
    refine BitVec.eq_of_getLsbD_eq fun i hi => ?_
    rw [BitVec.getLsbD_or, BitVec.getLsbD_twoPow]
    by_cases hik : k = i
    · subst hik
      rw [h, Bool.true_or]
    · simp [hik]

theorem and_not_twoPow_iff {w k : Nat} {x : BitVec w} (hk : k < w) :
    x = x &&& ~~~BitVec.twoPow w k ↔ x.getLsbD k = false := by
  constructor
  · intro h
    have hbit := congrArg (BitVec.getLsbD · k) h
    simpa [BitVec.getLsbD_twoPow, hk] using hbit
  · intro h
    refine BitVec.eq_of_getLsbD_eq fun i hi => ?_
    rw [BitVec.getLsbD_and, BitVec.getLsbD_not, BitVec.getLsbD_twoPow]
    by_cases hik : k = i
    · subst hik
      rw [h, Bool.false_and]
    · simp [hik, hi]

/-- `a.low |= LIT64(0x4000000000000000)`. -/
theorem quiet_iff : a ||| 0x4000000000000000 = a ↔ a.getLsbD 62 = true :=
  or_twoPow_iff (w := 80) (k := 62) (by decide)

/-- A NaN that is not quiet. -/
theorem signaling_of_nan (h : extractFloatx80Exp a = 0x7FFF) (hfrac : extractFloatx80Frac a <<< 1 ≠ 0) :
    floatx80IsSignalingNan a = !a.getLsbD 62 := by
  have hquiet : extractFloatx80Frac a = extractFloatx80Frac a &&& ~~~0x4000000000000000 ↔
      a.getLsbD 62 = false := by
    rw [← getLsbD_frac a (show 62 < 64 by decide)]
    exact and_not_twoPow_iff (w := 64) (k := 62) (by decide)
  unfold floatx80IsSignalingNan
  dsimp only
  cases hb : a.getLsbD 62 with
  | true =>
    refine decide_eq_false fun ⟨_, _, hlow⟩ => ?_
    rw [hquiet.mp hlow] at hb
    cases hb
  | false =>
    have hlow := hquiet.mpr hb
    refine decide_eq_true ⟨h, ?_, hlow⟩
    rw [← hlow]
    exact hfrac

end Bits

/-! ## What the conversion keeps -/

/-- The status in which a denormal number is not rounded and raises nothing new. -/
def DenormalKept (frac : BitVec 64) (fs : FloatStatus) : Prop :=
  fs.floatx80RoundingPrecision ≠ 64 ∧ fs.floatx80RoundingPrecision ≠ 32 ∧
    (frac.msb = true ∨ fs.floatExceptionFlags.getLsbD 4 = true)

/-- The numbers that `floatx80_to_floatx80` gives back as they are, without raising a flag that is
not up already. -/
def FpRegKept (a : Float80) (fs : FloatStatus) : Prop :=
  floatx80IsSignalingNan a = false ∧
    (extractFloatx80Exp a = 0 → extractFloatx80Frac a ≠ 0 → DenormalKept (extractFloatx80Frac a) fs)

section Kept

variable (fs : FloatStatus) (a : Float80)

/-- Shifted left by its leading zeros and back, a number is itself. -/
theorem shiftRight_shiftLeft_clz (x : BitVec 64) : (x <<< x.clz.toNat) >>> x.clz.toNat = x := by
  refine BitVec.eq_of_getLsbD_eq fun i hi => ?_
  rw [BitVec.getLsbD_ushiftRight, BitVec.getLsbD_shiftLeft]
  by_cases hin : x.clz.toNat + i < 64
  · simp [hin]
  · have hlt : x.toNat < 2 ^ i :=
      Nat.lt_of_lt_of_le BitVec.toNat_lt_two_pow_sub_clz (Nat.pow_le_pow_right Nat.two_pos (by omega))
    rw [decide_eq_false hin, Bool.false_and, Bool.false_and, ← BitVec.testBit_toNat,
      Nat.testBit_lt_two_pow hlt]

/-- And nothing of it falls out on the way back. -/
theorem shiftLeft_clz_low (x : BitVec 64) :
    (x <<< x.clz.toNat) <<< (64 - x.clz.toNat) = 0 := by
  have hle : x.clz.toNat ≤ 64 := BitVec.le_def.mp BitVec.clz_le
  rw [← BitVec.shiftLeft_add, Nat.add_sub_cancel' hle]
  exact BitVec.shiftLeft_eq_zero (Nat.le_refl 64)

theorem clz_toNat_lt {x : BitVec 64} (h : x ≠ 0) : x.clz.toNat < 64 :=
  BitVec.lt_def.mp (BitVec.clz_lt_iff_ne_zero.mpr h)

theorem clz_eq_zero_iff_msb (x : BitVec 64) : x.clz.toNat = 0 ↔ x.msb = true := by
  rw [BitVec.clz_eq_zero_iff (by decide), BitVec.msb_eq_decide, decide_eq_true_iff]

theorem incrementOf_zero (zSign : Bool) : incrementOf fs zSign 0 = false := by
  unfold incrementOf
  cases fs.floatRoundingMode <;> simp

/-- The precision of FPCR puts a denormal number at the smallest exponent it has. -/
theorem roundNarrow_tiny {zSign : Bool} {zExp expOffset : Int} {z0 z1 half mask : BitVec 64}
    (h : zExp < expOffset + 1) (hoff : expOffset < 0x3FFF) :
    (roundNarrow fs zSign zExp z0 z1 half mask expOffset).1.extractLsb' 64 15 =
      (BitVec.ofInt 16 (expOffset + 1)).setWidth 15 := by
  have hover : ¬ 0x7FFE - expOffset < zExp := by omega
  have hmax : zExp ≠ 0x7FFE - expOffset := by omega
  unfold roundNarrow
  dsimp only
  rw [if_neg (fun hlarge => hlarge.elim hover fun heq => hmax heq.1), if_pos h]
  exact exp_pack _ _ _

/-- In extended precision a denormal number comes back; the flag is for those that had to be
shifted. -/
theorem roundExtended_denormal {zSign : Bool} {x : BitVec 64} (hx : x ≠ 0) :
    roundExtended fs zSign (0 - x.clz.toNat) (x <<< x.clz.toNat) 0 =
      (packFloatx80 zSign 0 x, if x.msb then 0 else floatFlagUnderflow) := by
  have hlt := clz_toNat_lt hx
  unfold roundExtended
  rw [if_neg (by omega)]
  by_cases hmsb : x.msb = true
  · have hzero := (clz_eq_zero_iff_msb x).mpr hmsb
    rw [hzero, incrementOf_zero, if_pos hmsb]
    simp
  · have hpos : 0 < x.clz.toNat := Nat.pos_of_ne_zero fun h => hmsb ((clz_eq_zero_iff_msb x).mp h)
    have hcount : (-(0 - (x.clz.toNat : Int))).toNat = x.clz.toNat := by omega
    have hshift : shift64ExtraRightJamming (x <<< x.clz.toNat) 0 x.clz.toNat = (x, 0) := by
      unfold shift64ExtraRightJamming
      rw [if_neg (Nat.ne_of_gt hpos), if_pos hlt, shiftRight_shiftLeft_clz, shiftLeft_clz_low]
      rfl
    rw [if_pos (by omega), hcount, hshift, if_neg hmsb]
    dsimp only
    rw [incrementOf_zero]
    rfl

theorem normalize_denormal {zSign : Bool} {x : BitVec 64} (hx : x ≠ 0) :
    normalizeRoundAndPackFloatx80 fs zSign 0 x 0 =
      roundAndPackFloatx80 fs zSign (0 - x.clz.toNat) (x <<< x.clz.toNat) 0 := by
  unfold normalizeRoundAndPackFloatx80 shortShift128Left
  simp only [hx, if_false]
  have hleft (n : Nat) : (0 : BitVec 64) <<< n = 0 := BitVec.zero_shiftLeft n
  have hright (n : Nat) : (0 : BitVec 64) >>> n = 0 := BitVec.zero_ushiftRight
  have hor (y : BitVec 64) : y ||| 0 = y := BitVec.or_zero
  rw [hleft, hright, hor]
  split
  · rename_i h
    rw [h, BitVec.shiftLeft_zero]
  · rfl

theorem or_underflow_iff (flags : Byte) : flags ||| floatFlagUnderflow = flags ↔ flags.getLsbD 4 = true :=
  or_twoPow_iff (w := 8) (k := 4) (by decide)

theorem not_signaling_of_exp (h : extractFloatx80Exp a ≠ 0x7FFF) : floatx80IsSignalingNan a = false :=
  decide_eq_false fun hnan => h hnan.1

/-- What `raise` leaves of the status when the flags were up before. -/
theorem flags_eq_iff (flags : Byte) :
    ({ fs with floatExceptionFlags := fs.floatExceptionFlags ||| flags } : FloatStatus) = fs ↔
      fs.floatExceptionFlags ||| flags = fs.floatExceptionFlags :=
  ⟨congrArg FloatStatus.floatExceptionFlags, fun h => by rw [h]⟩

theorem narrow_denormal_lost {x : BitVec 64} (hx : x ≠ 0) (hexp : extractFloatx80Exp a = 0)
    (hprec : fs.floatx80RoundingPrecision = 64 ∨ fs.floatx80RoundingPrecision = 32) :
    (normalizeRoundAndPackFloatx80 fs (extractFloatx80Sign a) 0 x 0).1 ≠ a := by
  have hnonneg : (0 : Int) ≤ x.clz.toNat := Int.natCast_nonneg _
  have hzero := (exp_eq_zero_iff a).mp hexp
  rw [normalize_denormal fs hx]
  unfold roundAndPackFloatx80
  intro heq
  obtain h64 | h32 := hprec
  · rw [if_pos h64] at heq
    rw [← heq, roundNarrow_tiny] at hzero
    · exact absurd hzero (by decide)
    · omega
    · decide
  · rw [if_neg (by rw [h32]; decide), if_pos h32] at heq
    rw [← heq, roundNarrow_tiny] at hzero
    · exact absurd hzero (by decide)
    · omega
    · decide

theorem denormal_kept_iff {x : BitVec 64} (hx : x ≠ 0) (hfrac : extractFloatx80Frac a = x)
    (hexp : extractFloatx80Exp a = 0) :
    raise (fun fs => normalizeRoundAndPackFloatx80 fs (extractFloatx80Sign a) 0 x 0) fs = (a, fs) ↔
      DenormalKept x fs := by
  unfold raise
  rw [Prod.mk.injEq, flags_eq_iff]
  by_cases h64 : fs.floatx80RoundingPrecision = 64
  · exact iff_of_false (fun h => narrow_denormal_lost fs a hx hexp (.inl h64) h.1) fun h => h.1 h64
  by_cases h32 : fs.floatx80RoundingPrecision = 32
  · exact iff_of_false (fun h => narrow_denormal_lost fs a hx hexp (.inr h32) h.1) fun h => h.2.1 h32
  have hpack : packFloatx80 (extractFloatx80Sign a) 0 x = a := by
    rw [← hfrac]
    exact pack_of_exp_zero a hexp
  dsimp only
  rw [normalize_denormal fs hx, roundAndPackFloatx80, if_neg h64, if_neg h32, roundExtended_denormal fs hx]
  dsimp only
  rw [and_iff_right hpack]
  unfold DenormalKept
  rw [and_iff_right h64, and_iff_right h32]
  by_cases hmsb : x.msb = true
  · rw [if_pos hmsb]
    exact iff_of_true BitVec.or_zero (.inl hmsb)
  · rw [if_neg hmsb, or_underflow_iff, or_iff_right hmsb]

/-- When the conversion changes nothing. -/
theorem floatx80ToFloatx80_eq_iff : floatx80ToFloatx80 a fs = (a, fs) ↔ FpRegKept a fs := by
  unfold floatx80ToFloatx80
  by_cases hnan : extractFloatx80Exp a = 0x7FFF ∧ extractFloatx80Frac a <<< 1 ≠ 0
  · rw [if_pos hnan]
    unfold raise FpRegKept
    rw [Prod.mk.injEq, flags_eq_iff, quiet_iff, signaling_of_nan a hnan.1 hnan.2]
    have hexp : extractFloatx80Exp a ≠ 0 := by
      rw [hnan.1]
      decide
    cases a.getLsbD 62 with
    | false => exact iff_of_false (fun h => absurd h.1 Bool.false_ne_true) fun h => absurd h.1 (by decide)
    | true => exact iff_of_true ⟨rfl, BitVec.or_zero⟩ ⟨rfl, fun h => absurd h hexp⟩
  rw [if_neg hnan]
  by_cases hden : extractFloatx80Exp a = 0 ∧ extractFloatx80Frac a ≠ 0
  · rw [if_pos hden, hden.1, denormal_kept_iff fs a hden.2 rfl hden.1]
    have hquiet : floatx80IsSignalingNan a = false := by
      refine not_signaling_of_exp a ?_
      rw [hden.1]
      decide
    exact ⟨fun h => ⟨hquiet, fun _ _ => h⟩, fun h => h.2 hden.1 hden.2⟩
  · rw [if_neg hden]
    have hquiet : floatx80IsSignalingNan a = false := by
      refine decide_eq_false fun ⟨hexp, hfrac, hlow⟩ => hnan ⟨hexp, ?_⟩
      rw [← hlow] at hfrac
      exact hfrac
    exact iff_of_true rfl ⟨hquiet, fun hexp hfrac => absurd ⟨hexp, hfrac⟩ hden⟩

end Kept

/-! ## The registers through the API -/

/-- FPSR, the pending exceptions and the status of the SoftFloat library. -/
def SameFpStatus (c c' : FpuCpu) : Prop := c'.regs.fpu.fpsr = c.regs.fpu.fpsr ∧ c'.fpu = c.fpu

/-- Reading a register that was set gives the value, and leaves no trace. -/
structure ApiTransparent (n : Fin 8) (v : FpReg) (c : FpuCpu) : Prop where
  value : (uaeCpuGetFpReg n (uaeCpuSetFpReg n v c)).1 = v
  others : ∀ m, m ≠ n →
    (uaeCpuGetFpReg n (uaeCpuSetFpReg n v c)).2.regs.fpu.fp.get m = c.regs.fpu.fp.get m
  set : SameFpStatus c (uaeCpuSetFpReg n v c)
  get : SameFpStatus (uaeCpuSetFpReg n v c) (uaeCpuGetFpReg n (uaeCpuSetFpReg n v c)).2

/-- The register with the three longs of a value in it. -/
def FpReg.float (v : FpReg) : Float80 := toExten (v.exp.setWidth 32 <<< 16) v.m0 v.m1

/-- What the API makes of a number. -/
def FpReg.ofFloat (f : Float80) : FpReg :=
  ⟨(((f.extractLsb' 64 16).setWidth 32 <<< 16 : Long) >>> 16).setWidth 16, f.extractLsb' 32 32, f.extractLsb' 0 32⟩

theorem shift_back (x : Word) : ((x.setWidth 32 <<< 16 : Long) >>> 16).setWidth 16 = x := by
  refine BitVec.eq_of_getLsbD_eq fun i hi => ?_
  simp only [BitVec.getLsbD_setWidth, BitVec.getLsbD_ushiftRight, BitVec.getLsbD_shiftLeft, hi, decide_true,
    Bool.true_and]
  have hin : 16 + i < 32 := by omega
  simp only [hin, decide_true, Bool.true_and, Nat.add_sub_cancel_left, show i < 32 by omega,
    show ¬ 16 + i < 16 by omega, decide_false, Bool.not_false]

theorem FpReg.float_ofFloat (f : Float80) : (FpReg.ofFloat f).float = f := by
  unfold FpReg.ofFloat FpReg.float toExten
  dsimp only
  have hlow : f.extractLsb' 32 32 ++ f.extractLsb' 0 32 = f.extractLsb' 0 64 :=
    BitVec.extractLsb'_append_extractLsb'_eq_extractLsb' rfl
  have hall : f.extractLsb' 64 16 ++ f.extractLsb' 0 64 = f.extractLsb' 0 80 :=
    BitVec.extractLsb'_append_extractLsb'_eq_extractLsb' rfl
  rw [shift_back, shift_back, hlow, hall]
  exact BitVec.extractLsb'_eq_self

theorem FpReg.ofFloat_float (v : FpReg) : FpReg.ofFloat v.float = v := by
  unfold FpReg.ofFloat FpReg.float toExten
  have hexp : (v.exp ++ (v.m0 ++ v.m1)).extractLsb' 64 16 = v.exp := BitVec.extractLsb'_append_eq_left
  have hm0 : (v.exp ++ (v.m0 ++ v.m1)).extractLsb' 32 32 = v.m0 :=
    (BitVec.extractLsb'_append_eq_of_add_le (show 32 + 32 ≤ 32 + 32 by decide)).trans
      BitVec.extractLsb'_append_eq_left
  have hm1 : (v.exp ++ (v.m0 ++ v.m1)).extractLsb' 0 32 = v.m1 :=
    (BitVec.extractLsb'_append_eq_of_add_le (show 0 + 32 ≤ 32 + 32 by decide)).trans
      BitVec.extractLsb'_append_eq_right
  rw [shift_back, shift_back, hexp, hm0, hm1]

theorem uaeCpuGetFpReg_eq (n : Fin 8) (c : FpuCpu) :
    uaeCpuGetFpReg n c =
      (FpReg.ofFloat (floatx80ToFloatx80 (c.regs.fpu.fp.get n) c.fpu.status).1,
        c.mapStatus fun fs => (floatx80ToFloatx80 (c.regs.fpu.fp.get n) fs).2) := rfl

theorem mapStatus_of_eq {f : FloatStatus → FloatStatus} {c : FpuCpu} (h : f c.fpu.status = c.fpu.status) :
    c.mapStatus f = c := by
  unfold FpuCpu.mapStatus FpuCpu.mapFpu
  dsimp only
  rw [h]

theorem uaeCpuSetFpReg_fpu (n : Fin 8) (v : FpReg) (c : FpuCpu) : (uaeCpuSetFpReg n v c).fpu = c.fpu := rfl

theorem uaeCpuSetFpReg_get (n : Fin 8) (v : FpReg) (c : FpuCpu) :
    (uaeCpuSetFpReg n v c).regs.fpu.fp.get n = v.float :=
  Vector.getElem_set_self (reg_lt n)

theorem uaeCpuSetFpReg_get_of_ne {n m : Fin 8} (v : FpReg) (c : FpuCpu) (h : m ≠ n) :
    (uaeCpuSetFpReg n v c).regs.fpu.fp.get m = c.regs.fpu.fp.get m :=
  Vector.getElem_set_ne (reg_lt n) (reg_lt m) fun heq => h (Fin.ext heq.symm)

/-- The values the API is transparent for. -/
theorem fpReg_transparent_iff (n : Fin 8) (v : FpReg) (c : FpuCpu) :
    ApiTransparent n v c ↔ FpRegKept v.float c.fpu.status := by
  rw [← floatx80ToFloatx80_eq_iff]
  have hread := uaeCpuGetFpReg_eq n (uaeCpuSetFpReg n v c)
  rw [uaeCpuSetFpReg_get, uaeCpuSetFpReg_fpu] at hread
  constructor
  · intro h
    have hvalue := h.value
    have hstatus := congrArg FpuState.status h.get.2
    rw [hread] at hvalue hstatus
    refine Prod.ext ?_ hstatus
    rw [← FpReg.float_ofFloat (floatx80ToFloatx80 v.float c.fpu.status).1]
    exact congrArg FpReg.float hvalue
  · intro h
    have hrest : (uaeCpuSetFpReg n v c).mapStatus (fun fs => (floatx80ToFloatx80 v.float fs).2) =
        uaeCpuSetFpReg n v c :=
      mapStatus_of_eq (congrArg Prod.snd h)
    rw [h, hrest] at hread
    exact {
      value := by
        rw [hread]
        exact v.ofFloat_float
      others := fun m hm => by
        rw [hread]
        exact uaeCpuSetFpReg_get_of_ne v c hm
      set := ⟨rfl, rfl⟩
      get := by
        rw [hread]
        exact ⟨rfl, rfl⟩ }

/-- No exception is pending and no flag is up. -/
def fpIdle : FpuCpu := (operandError .none 0).mapFpu fun f => { f with fpExpPend := 0 }

/-- A signalling NaN comes back quiet. -/
theorem signaling_not_transparent : ¬ ApiTransparent 0 ⟨0x7FFF, 0, 1⟩ fpIdle :=
  fun h => absurd h.value (by decide)

end UaeCpu.Fpu
