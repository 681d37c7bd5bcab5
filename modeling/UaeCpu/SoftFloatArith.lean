import UaeCpu.SoftFloatWords

/-!
# UaeCpu.SoftFloatArith

`floatx80_add`, `floatx80_sub` and `floatx80_mul`: the exact result, rounded once.

* `Datum`     — what the bits of an operand stand for.
* `exactAdd`, `exactMul` — results before rounding, with those of infinities, NaNs and zeros.
* `Delivered` — the number and the flags such a result gives.
* `floatx80Add_delivered`, `floatx80Mul_delivered` — it is what the routines give, for all operands.
* `floatx80Sub_delivered_iff` — so does a difference, but for some of two infinities.
-/

namespace UaeCpu.Fpu

open Rounding

/-! ## Operands -/

abbrev floatFlagInvalid : Byte := 0x01
abbrev floatFlagDivbyzero : Byte := 0x04

/-- `floatx80_special_flags`. -/
structure SpecialFlags where
  cmpSignedNan : Bool
  addsubSwapInf : Bool
  infinityClearIntbit : Bool
  deriving DecidableEq, Repr

/-- What `fp_init_softfloat` sets. -/
def fpInitSoftfloat (fpuModel : Nat) : SpecialFlags :=
  if fpuModel = 68040 then ⟨true, false, false⟩
  else if fpuModel = 68060 then ⟨false, false, true⟩
  else ⟨false, true, false⟩

def floatx80InvalidEncoding (a : Float80) : Bool :=
  decide ((extractFloatx80Frac a).msb = false ∧ extractFloatx80Exp a ≠ 0 ∧ extractFloatx80Exp a ≠ 0x7FFF)

def floatx80IsNan (a : Float80) : Bool :=
  decide (extractFloatx80Exp a = 0x7FFF ∧ extractFloatx80Frac a <<< 1 ≠ 0)

def floatx80DefaultNan : Float80 := (0x7FFF : BitVec 16) ++ (0xFFFFFFFFFFFFFFFF : BitVec 64)

def propagateFloatx80NaN (a b : Float80) : Float80 × Byte :=
  (if floatx80IsNan a then a ||| 0x4000000000000000 else b ||| 0x4000000000000000,
    if floatx80IsSignalingNan a || floatx80IsSignalingNan b then floatFlagSignaling else 0)

def normalizeFloatx80Subnormal (aSig : BitVec 64) : Int × BitVec 64 :=
  (-(aSig.clz.toNat : Int), aSig <<< aSig.clz.toNat)

/-- A 68k number has no invalid encoding but those of unnormal numbers. -/
inductive Datum where
  | unsupported | nan
  | infinity (sign : Bool)
  | finite (sign : Bool) (x : ℚ)

def datum (a : Float80) : Datum :=
  if floatx80InvalidEncoding a then .unsupported
  else if floatx80IsNan a then .nan
  else if extractFloatx80Exp a = 0x7FFF then .infinity (extractFloatx80Sign a)
  else .finite (extractFloatx80Sign a) (magnitude a)

/-! ## Results -/

/-- A result before it is rounded. -/
inductive Exact where
  | invalid | nan
  | infinity (sign : Bool)
  | divByZero (sign : Bool)
  | finite (sign : Bool) (x : ℚ)

/-- What a result gives. Only of operands that are NaNs a NaN is made. -/
def Exact.Delivered (fs : FloatStatus) (a b : Float80) : Exact → Float80 × Byte → Prop
  | .invalid, r => r = (floatx80DefaultNan, floatFlagInvalid)
  | .nan, r => r = propagateFloatx80NaN a b
  | .infinity s, r => datum r.1 = .infinity s ∧ r.2 = 0
  | .divByZero s, r => datum r.1 = .infinity s ∧ r.2 = floatFlagDivbyzero
  | .finite s x, r =>
    if x = 0 then r = (packFloatx80 s 0 0, 0)
    else Packed (formatOf fs.floatx80RoundingPrecision) fs.floatRoundingMode s x r

/-- A difference of equal numbers is negative only where rounding goes down. -/
def exactSum (mode : RoundingMode) (s : Bool) (x : ℚ) (t : Bool) (y : ℚ) : Exact :=
  if s = t then .finite s (x + y)
  else if y < x then .finite s (x - y)
  else if x < y then .finite t (y - x)
  else .finite (mode == .down) 0

def exactAdd (mode : RoundingMode) : Datum → Datum → Exact
  | .unsupported, _ => .invalid
  | _, .unsupported => .invalid
  | .nan, _ => .nan
  | _, .nan => .nan
  | .infinity s, .infinity t => if s = t then .infinity s else .invalid
  | .infinity s, .finite _ _ => .infinity s
  | .finite _ _, .infinity t => .infinity t
  | .finite s x, .finite t y => exactSum mode s x t y

def Datum.neg : Datum → Datum
  | .infinity s => .infinity (!s)
  | .finite s x => .finite (!s) x
  | d => d

def exactMul : Datum → Datum → Exact
  | .unsupported, _ => .invalid
  | _, .unsupported => .invalid
  | .nan, _ => .nan
  | _, .nan => .nan
  | .infinity s, .infinity t => .infinity (s != t)
  | .infinity s, .finite t y => if y = 0 then .invalid else .infinity (s != t)
  | .finite s x, .infinity t => if x = 0 then .invalid else .infinity (s != t)
  | .finite s x, .finite t y => .finite (s != t) (x * y)

/-! ## The routines -/

section Routines

variable (sp : SpecialFlags) (fs : FloatStatus)

/-- An operand of `addFloatx80Sigs`: exponent and significand. -/
def addOperand (a : Float80) : Int × BitVec 64 :=
  let aSig := extractFloatx80Frac a
  let aExp := extractFloatx80Exp a
  if aExp = 0 then
    if aSig = 0 then (-64, aSig) else normalizeFloatx80Subnormal aSig
  else (aExp, aSig)

/-- `addFloatx80Sigs` from label `shiftRight1` on. -/
def shiftRight1 (zSign : Bool) (zExp : Int) (zSig0 zSig1 : BitVec 64) : Float80 × Byte :=
  let z := shift64ExtraRightJamming zSig0 zSig1 1
  roundAndPackFloatx80 fs zSign (zExp + 1) (z.1 ||| 0x8000000000000000) z.2

/-- .. and from where the sum is made. -/
def addAligned (zSign : Bool) (zExp : Int) (aSig bSig zSig1 : BitVec 64) : Float80 × Byte :=
  if (aSig + bSig).msb then roundAndPackFloatx80 fs zSign zExp (aSig + bSig) zSig1
  else shiftRight1 fs zSign zExp (aSig + bSig) zSig1

def addFloatx80Sigs (a b : Float80) (zSign : Bool) : Float80 × Byte :=
  let (aExp, aSig) := addOperand a
  let (bExp, bSig) := addOperand b
  let expDiff := aExp - bExp
  if 0 < expDiff then
    if aExp = 0x7FFF then
      if aSig <<< 1 ≠ 0 then propagateFloatx80NaN a b
      else (if sp.infinityClearIntbit then packFloatx80 (extractFloatx80Sign a) aExp 0 else a, 0)
    else
      let shifted := shift64ExtraRightJamming bSig 0 expDiff.toNat
      addAligned fs zSign aExp aSig shifted.1 shifted.2
  else if expDiff < 0 then
    if bExp = 0x7FFF then
      if bSig <<< 1 ≠ 0 then propagateFloatx80NaN a b
      else (packFloatx80 zSign bExp (if sp.infinityClearIntbit then 0 else bSig), 0)
    else
      let shifted := shift64ExtraRightJamming aSig 0 (-expDiff).toNat
      addAligned fs zSign bExp shifted.1 bSig shifted.2
  else if aExp = 0x7FFF then
    if (aSig ||| bSig) <<< 1 ≠ 0 then propagateFloatx80NaN a b
    else if sp.infinityClearIntbit then (packFloatx80 (extractFloatx80Sign a) aExp 0, 0)
    else (if sp.addsubSwapInf then b else a, 0)
  else if aSig = 0 ∧ bSig = 0 then (packFloatx80 zSign 0 0, 0)
  else if aSig = 0 ∨ bSig = 0 then roundAndPackFloatx80 fs zSign aExp (aSig + bSig) 0
  else shiftRight1 fs zSign aExp (aSig + bSig) 0

/-- `subFloatx80Sigs` from label `aBigger` or `bBigger` on: the smaller number has two words. -/
def subAligned (zSign : Bool) (zExp : Int) (aSig bSig zSig1 : BitVec 64) : Float80 × Byte :=
  let z := sub128 aSig 0 bSig zSig1
  normalizeRoundAndPackFloatx80 fs zSign zExp z.1 z.2

def subFloatx80Sigs (a b : Float80) (zSign : Bool) : Float80 × Byte :=
  let aSig := extractFloatx80Frac a
  let aExp := extractFloatx80Exp a
  let bSig := extractFloatx80Frac b
  let bExp := extractFloatx80Exp b
  let expDiff := aExp - bExp
  if 0 < expDiff then
    if aExp = 0x7FFF then
      if aSig <<< 1 ≠ 0 then propagateFloatx80NaN a b
      else (if sp.infinityClearIntbit then packFloatx80 (extractFloatx80Sign a) aExp 0 else a, 0)
    else
      let shifted := shift128RightJamming bSig 0 expDiff.toNat
      subAligned fs zSign aExp aSig shifted.1 shifted.2
  else if expDiff < 0 then
    if bExp = 0x7FFF then
      if bSig <<< 1 ≠ 0 then propagateFloatx80NaN a b
      else (packFloatx80 (!zSign) bExp (if sp.infinityClearIntbit then 0 else bSig), 0)
    else
      let shifted := shift128RightJamming aSig 0 (-expDiff).toNat
      subAligned fs (!zSign) bExp bSig shifted.1 shifted.2
  else if aExp = 0x7FFF then
    if (aSig ||| bSig) <<< 1 ≠ 0 then propagateFloatx80NaN a b
    else (floatx80DefaultNan, floatFlagInvalid)
  else if bSig < aSig then subAligned fs zSign aExp aSig bSig 0
  else if aSig < bSig then subAligned fs (!zSign) bExp bSig aSig 0
  else (packFloatx80 (fs.floatRoundingMode == .down) 0 0, 0)

def floatx80Add (a b : Float80) : Float80 × Byte :=
  if floatx80InvalidEncoding a ∨ floatx80InvalidEncoding b then (floatx80DefaultNan, floatFlagInvalid)
  else if extractFloatx80Sign a = extractFloatx80Sign b then addFloatx80Sigs sp fs a b (extractFloatx80Sign a)
  else subFloatx80Sigs sp fs a b (extractFloatx80Sign a)

def floatx80Sub (a b : Float80) : Float80 × Byte :=
  if floatx80InvalidEncoding a ∨ floatx80InvalidEncoding b then (floatx80DefaultNan, floatFlagInvalid)
  else if extractFloatx80Sign a = extractFloatx80Sign b then subFloatx80Sigs sp fs a b (extractFloatx80Sign a)
  else addFloatx80Sigs sp fs a b (extractFloatx80Sign a)

/-- A product or a quotient of normalised significands has at most one leading zero. -/
def mulSigs (zSign : Bool) (aExp : Int) (aSig : BitVec 64) (bExp : Int) (bSig : BitVec 64) : Float80 × Byte :=
  let zExp := aExp + bExp - 0x3FFE
  let z := mul64To128 aSig bSig
  if (0 : BitVec 64).slt z.1 then
    let z := shortShift128Left z.1 z.2 1
    roundAndPackFloatx80 fs zSign (zExp - 1) z.1 z.2
  else roundAndPackFloatx80 fs zSign zExp z.1 z.2

/-- A finite operand of a product or a quotient that is not zero. -/
def mulOperand (aExp : Int) (aSig : BitVec 64) : Int × BitVec 64 :=
  if aExp = 0 then normalizeFloatx80Subnormal aSig else (aExp, aSig)

def floatx80Mul (a b : Float80) : Float80 × Byte :=
  if floatx80InvalidEncoding a ∨ floatx80InvalidEncoding b then (floatx80DefaultNan, floatFlagInvalid)
  else
    let aSig := extractFloatx80Frac a
    let aExp := extractFloatx80Exp a
    let bSig := extractFloatx80Frac b
    let bExp := extractFloatx80Exp b
    let zSign := extractFloatx80Sign a ^^ extractFloatx80Sign b
    if aExp = 0x7FFF then
      if aSig <<< 1 ≠ 0 ∨ (bExp = 0x7FFF ∧ bSig <<< 1 ≠ 0) then propagateFloatx80NaN a b
      else if bExp = 0 ∧ bSig = 0 then (floatx80DefaultNan, floatFlagInvalid)
      else (packFloatx80 zSign aExp (if sp.infinityClearIntbit then 0 else aSig), 0)
    else if bExp = 0x7FFF then
      if bSig <<< 1 ≠ 0 then propagateFloatx80NaN a b
      else if aExp = 0 ∧ aSig = 0 then (floatx80DefaultNan, floatFlagInvalid)
      else (packFloatx80 zSign bExp (if sp.infinityClearIntbit then 0 else bSig), 0)
    else if aExp = 0 ∧ aSig = 0 then (packFloatx80 zSign 0 0, 0)
    else if bExp = 0 ∧ bSig = 0 then (packFloatx80 zSign 0 0, 0)
    else
      let (aExp, aSig) := mulOperand aExp aSig
      let (bExp, bSig) := mulOperand bExp bSig
      mulSigs fs zSign aExp aSig bExp bSig

end Routines

/-! ## Significands -/

section Significands

variable {fs : FloatStatus} {zSign : Bool} {zExp : Int} {aSig bSig z0 z1 : BitVec 64} {X Y : ℚ}

/-- Twice a sum with a carry. -/
theorem shiftRight1_packed (hX : Same (2 ^ 63) X (((2 ^ 128 : Nat) : ℚ) + joined z0 z1)) :
    Packed (formatOf fs.floatx80RoundingPrecision) fs.floatRoundingMode zSign (X * 2 ^ (zExp - 16510))
      (shiftRight1 fs zSign zExp z0 z1) := by
  have hsame := same_shift64ExtraRightJamming z0 z1 1
  have hhalf : (shift64ExtraRightJamming z0 z1 1).1.toNat < 2 ^ 63 := by
    have hlt := z0.isLt
    change (z0 >>> 1).toNat < 2 ^ 63
    rw [BitVec.toNat_ushiftRight, Nat.shiftRight_eq_div_pow]
    omega
  unfold shiftRight1
  dsimp only
  generalize shift64ExtraRightJamming z0 z1 1 = w at *
  have hor : (w.1 ||| 0x8000000000000000).toNat = 2 ^ 63 + w.1.toNat := by
    have h := Nat.shiftLeft_add_eq_or_of_lt hhalf 1
    rw [Nat.shiftLeft_eq, Nat.one_mul] at h
    rw [BitVec.toNat_or, Nat.or_comm, h]
    rfl
  have hjoin : joined (w.1 ||| 0x8000000000000000) w.2 = 2 ^ 127 + joined w.1 w.2 := by
    rw [joined, joined, hor]
    ring
  have hx : X * 2 ^ (zExp - 16510) = X / 2 ^ 1 * 2 ^ (zExp + 1 - 16510) := by
    rw [show zExp + 1 - 16510 = zExp - 16510 + (1 : Nat) by omega, two_zpow_add_natCast]
    ring
  rw [hx]
  refine roundAndPack_correct ((msb_iff _).mpr (by rw [hor]; omega)) ?_
  rw [hjoin]
  have hscale := (hX.scale (show (0 : ℚ) < 1 / 2 ^ 1 by positivity)).mono (by positivity) (show 0 < 2 by decide)
  have hgrid : ((2 : Nat) : ℚ) * (1 / 2 ^ 1 * 2 ^ 63) = 2 ^ 63 := by norm_num
  have hcarry := hsame.add (2 ^ 64)
  rw [hgrid, one_div_mul_eq_div, one_div_mul_eq_div, add_div] at hscale
  have htop : ((2 ^ 128 : Nat) : ℚ) / 2 ^ 1 = ((2 ^ 64 : Nat) : ℚ) * 2 ^ 63 := by norm_num
  have htop' : ((2 ^ 127 + joined w.1 w.2 : Nat) : ℚ) = ((2 ^ 64 : Nat) : ℚ) * 2 ^ 63 + joined w.1 w.2 := by
    rw [Nat.cast_add]
    norm_num
  rw [htop] at hscale
  rw [htop']
  exact Same.trans (by positivity) hscale hcarry

/-- A sum of two numbers with the exponent of the larger one. -/
theorem addAligned_packed (ha : aSig.msb = true) (hb : bSig.msb = false) (hY : Same (2 ^ 63) Y (joined bSig z1)) :
    Packed (formatOf fs.floatx80RoundingPrecision) fs.floatRoundingMode zSign
      ((aSig.toNat * 2 ^ 64 + Y) * 2 ^ (zExp - 16510)) (addAligned fs zSign zExp aSig bSig z1) := by
  have ha' := (msb_iff aSig).mp ha
  have hb' : bSig.toNat < 2 ^ 63 := Nat.lt_of_not_le fun h => by
    rw [(msb_iff bSig).mpr h] at hb
    exact Bool.noConfusion hb
  have halt := aSig.isLt
  have hsum : (aSig + bSig).toNat = (aSig.toNat + bSig.toNat) % 2 ^ 64 := BitVec.toNat_add _ _
  have hexact := hY.add (aSig.toNat * 2)
  have hgrid : ((aSig.toNat * 2 : Nat) : ℚ) * 2 ^ 63 = aSig.toNat * 2 ^ 64 := by
    rw [Nat.cast_mul]
    norm_num
    ring
  rw [hgrid] at hexact
  rw [addAligned]
  split
  · rename_i hmsb
    have hlt : aSig.toNat + bSig.toNat < 2 ^ 64 := by
      have h := (msb_iff _).mp hmsb
      omega
    refine roundAndPack_correct hmsb ?_
    rwa [joined_cast, hsum, Nat.mod_eq_of_lt hlt, Nat.cast_add, add_mul, add_assoc, ← joined_cast]
  · rename_i hmsb
    have hge : 2 ^ 64 ≤ aSig.toNat + bSig.toNat := Nat.le_of_not_lt fun h => hmsb ((msb_iff _).mpr (by omega))
    refine shiftRight1_packed ?_
    have hwrap : ((2 ^ 128 : Nat) : ℚ) + joined (aSig + bSig) z1 = aSig.toNat * 2 ^ 64 + joined bSig z1 := by
      have hnat : 2 ^ 128 + joined (aSig + bSig) z1 = aSig.toNat * 2 ^ 64 + joined bSig z1 := by
        rw [joined, joined, hsum]
        omega
      exact_mod_cast hnat
    rwa [hwrap]

theorem addAligned_comm (zSign : Bool) (zExp : Int) (aSig bSig z1 : BitVec 64) :
    addAligned fs zSign zExp aSig bSig z1 = addAligned fs zSign zExp bSig aSig z1 := by
  rw [addAligned, addAligned, BitVec.add_comm]

theorem shiftLeft_clz_bounds {x : BitVec 64} (h : x ≠ 0) :
    x.toNat < 2 ^ (64 - x.clz.toNat) ∧ 2 ^ (63 - x.clz.toNat) ≤ x.toNat := by
  exact ⟨BitVec.toNat_lt_two_pow_sub_clz, BitVec.two_pow_sub_clz_le_toNat_of_ne_zero (by decide) h⟩

/-- Without its leading zeros a number may be rounded, where it is exact or had at most one. -/
theorem shifted_packed (hne : z0 ≠ 0) (hX : Same 2 X (joined z0 z1))
    (hexact : X = joined z0 z1 ∨ 2 ^ 126 ≤ joined z0 z1) :
    Packed (formatOf fs.floatx80RoundingPrecision) fs.floatRoundingMode zSign (X * 2 ^ (zExp - 16510))
      (roundAndPackFloatx80 fs zSign (zExp - z0.clz.toNat) (shortShift128Left z0 z1 z0.clz.toNat).1
        (shortShift128Left z0 z1 z0.clz.toNat).2) := by
  have hc := clz_toNat_lt hne
  obtain ⟨hlt, hge⟩ := shiftLeft_clz_bounds hne
  have hjoin := joined_shortShift128Left z1 hc hlt
  generalize z0.clz.toNat = c at *
  generalize shortShift128Left z0 z1 c = w at *
  have hpow : 2 ^ 127 = 2 ^ (63 - c) * 2 ^ 64 * 2 ^ c := by
    rw [Nat.mul_right_comm, ← Nat.pow_add, ← Nat.pow_add]
    congr 1
    omega
  have hmsb : w.1.msb = true := by
    rw [msb_iff_joined w.1 w.2, hjoin, hpow, joined]
    exact Nat.mul_le_mul_right _ (Nat.le_add_right_of_le (Nat.mul_le_mul_right _ hge))
  have hx : X * 2 ^ (zExp - 16510) = 2 ^ c * X * 2 ^ (zExp - c - 16510) := by
    rw [show zExp - 16510 = zExp - c - 16510 + c by omega, two_zpow_add_natCast]
    ring
  have hcast : (joined w.1 w.2 : ℚ) = 2 ^ c * joined z0 z1 := by
    rw [hjoin, Nat.cast_mul, Nat.cast_pow, Nat.cast_ofNat, mul_comm]
  rw [hx]
  refine roundAndPack_correct hmsb ?_
  rw [hcast]
  rcases hexact with rfl | hfull
  · exact .refl _ _
  · have hc1 : c ≤ 1 := by
      refine Nat.le_of_not_lt fun hc2 => ?_
      have hsmall : 2 ^ (64 - c) ≤ 2 ^ 62 := Nat.pow_le_pow_right (by decide) (by omega)
      have h1 := z1.isLt
      unfold joined at hfull
      omega
    have hcoarse := (hX.scale (show (0 : ℚ) < 2 ^ c by positivity)).mono (by positivity) (Nat.two_pow_pos (62 - c))
    have hgrid : ((2 ^ (62 - c) : Nat) : ℚ) * (2 ^ c * 2) = 2 ^ 63 := by
      rw [Nat.cast_pow, Nat.cast_ofNat, ← mul_assoc, ← pow_add, ← pow_succ]
      congr 1
      omega
    rwa [hgrid] at hcoarse

theorem normalize_packed (hX : Same 2 X (joined z0 z1)) (hne : joined z0 z1 ≠ 0)
    (hexact : X = joined z0 z1 ∨ 2 ^ 126 ≤ joined z0 z1) :
    Packed (formatOf fs.floatx80RoundingPrecision) fs.floatRoundingMode zSign (X * 2 ^ (zExp - 16510))
      (normalizeRoundAndPackFloatx80 fs zSign zExp z0 z1) := by
  rw [normalizeRoundAndPackFloatx80]
  by_cases hzero : z0 = 0
  · have h1 := z1.isLt
    subst hzero
    rw [joined_zero_left] at hX hne hexact
    have hX' : X = z1.toNat := hexact.resolve_right (by omega)
    have hx : X * 2 ^ (zExp - 16510) = (joined z1 0 : ℚ) * 2 ^ (zExp - 64 - 16510) := by
      rw [hX', joined_zero_right, show zExp - 16510 = zExp - 64 - 16510 + (64 : Nat) by omega, two_zpow_add_natCast,
        Nat.cast_mul, Nat.cast_pow, Nat.cast_ofNat, mul_assoc]
    rw [if_pos rfl, hx]
    exact shifted_packed (mt (eq_zero_iff z1).mp hne) (.refl _ _) (.inl rfl)
  · rw [if_neg hzero]
    exact shifted_packed hzero hX hexact

/-- A difference of two numbers with the exponent of the larger one. -/
theorem subAligned_packed (hY : Same 2 Y (joined bSig z1)) (hlt : joined bSig z1 < joined aSig 0)
    (hexact : Y = joined bSig z1 ∨ joined bSig z1 + 2 ^ 126 ≤ joined aSig 0) :
    Packed (formatOf fs.floatx80RoundingPrecision) fs.floatRoundingMode zSign
      ((aSig.toNat * 2 ^ 64 - Y) * 2 ^ (zExp - 16510)) (subAligned fs zSign zExp aSig bSig z1) := by
  have hA := joined_lt aSig 0
  have hjoin := joined_sub128 aSig 0 bSig z1
  have hdiff : joined (sub128 aSig 0 bSig z1).1 (sub128 aSig 0 bSig z1).2 = joined aSig 0 - joined bSig z1 := by
    rw [hjoin]
    omega
  have hcast : (aSig.toNat * 2 ^ 64 : ℚ) = ((aSig.toNat * 2 ^ 63 : Nat) : ℚ) * 2 := by
    rw [Nat.cast_mul]
    norm_num
    ring
  have hcast' : (joined aSig 0 : ℚ) = ((aSig.toNat * 2 ^ 63 : Nat) : ℚ) * 2 := by
    rw [joined_zero_right, ← hcast, Nat.cast_mul, Nat.cast_pow, Nat.cast_ofNat]
  have hle : Y ≤ ((aSig.toNat * 2 ^ 63 : Nat) : ℚ) * 2 := by
    refine (hY.lt_of_lt (by norm_num) ?_).le
    rw [← hcast']
    exact_mod_cast hlt
  rw [subAligned]
  refine normalize_packed ?_ (by omega) ?_
  · rw [hdiff, Nat.cast_sub hlt.le, hcast, hcast']
    exact hY.sub (by norm_num) hle
  · refine hexact.imp (fun h => ?_) (fun h => by omega)
    rw [hdiff, Nat.cast_sub hlt.le, h, hcast, hcast']

theorem zero_slt_iff {z : BitVec 64} (h : 2 ^ 62 ≤ z.toNat) : (0 : BitVec 64).slt z = true ↔ ¬ z.msb = true := by
  have hlt := z.isLt
  rw [BitVec.slt_iff_toInt_lt, BitVec.toInt_eq_msb_cond z, show (0 : BitVec 64).toInt = 0 by decide]
  by_cases hmsb : z.msb = true
  · rw [if_pos hmsb]
    exact iff_of_false (by omega) (not_not.mpr hmsb)
  · rw [if_neg hmsb]
    exact iff_of_true (by omega) hmsb

/-- A product of two significands has at most one leading zero. -/
theorem mulSigs_packed {aExp bExp : Int} (ha : aSig.msb = true) (hb : bSig.msb = true) :
    Packed (formatOf fs.floatx80RoundingPrecision) fs.floatRoundingMode zSign
      (aSig.toNat * 2 ^ (aExp - 16446) * (bSig.toNat * 2 ^ (bExp - 16446))) (mulSigs fs zSign aExp aSig bExp bSig) := by
  have hjoin := joined_mul64To128 aSig bSig
  have hge := Nat.mul_le_mul ((msb_iff aSig).mp ha) ((msb_iff bSig).mp hb)
  rw [← hjoin] at hge
  have hx : (aSig.toNat * 2 ^ (aExp - 16446) * (bSig.toNat * 2 ^ (bExp - 16446)) : ℚ) =
      ((aSig.toNat * bSig.toNat : Nat) : ℚ) * 2 ^ (aExp + bExp - 0x3FFE - 16510) := by
    rw [show aExp + bExp - 0x3FFE - 16510 = aExp - 16446 + (bExp - 16446) by omega, zpow_add₀ (by norm_num), Nat.cast_mul]
    ring
  rw [hx, ← hjoin]
  unfold mulSigs
  dsimp only
  generalize mul64To128 aSig bSig = z at *
  have hz0 : 2 ^ 62 ≤ z.1.toNat := by
    rw [← joined_div z.1 z.2]
    omega
  by_cases hmsb : z.1.msb = true
  · rw [if_neg (by rw [zero_slt_iff hz0]; exact not_not.mpr hmsb)]
    exact roundAndPack_correct hmsb (.refl _ _)
  · have hlt : z.1.toNat < 2 ^ 63 := Nat.lt_of_not_le fun h => hmsb ((msb_iff _).mpr h)
    have hshift := joined_shortShift128Left z.2 (show 1 < 64 by decide) hlt
    rw [if_pos ((zero_slt_iff hz0).mpr hmsb)]
    generalize shortShift128Left z.1 z.2 1 = w at *
    have hx : (joined z.1 z.2 : ℚ) * 2 ^ (aExp + bExp - 0x3FFE - 16510) =
        (joined w.1 w.2 : ℚ) * 2 ^ (aExp + bExp - 0x3FFE - 1 - 16510) := by
      rw [hshift, show aExp + bExp - 0x3FFE - 16510 = aExp + bExp - 0x3FFE - 1 - 16510 + (1 : Nat) by omega,
        two_zpow_add_natCast, Nat.cast_mul]
      push_cast
      ring
    rw [hx]
    refine roundAndPack_correct ?_ (.refl _ _)
    rw [msb_iff_joined w.1 w.2, hshift]
    omega

end Significands

/-! ## What operands stand for -/

section Data

variable {a b : Float80} {s : Bool}

theorem exp_bounds (a : Float80) : 0 ≤ extractFloatx80Exp a ∧ extractFloatx80Exp a < 0x8000 := by
  have h := (a.extractLsb' 64 15).isLt
  rw [extractFloatx80Exp]
  omega

theorem datum_unsupported (h : floatx80InvalidEncoding a = true) : datum a = .unsupported := by
  rw [datum, if_pos h]

theorem datum_special (h : extractFloatx80Exp a = 0x7FFF) :
    datum a = if extractFloatx80Frac a <<< 1 ≠ 0 then .nan else .infinity (extractFloatx80Sign a) := by
  have hvalid : ¬ floatx80InvalidEncoding a = true := by
    rw [floatx80InvalidEncoding, decide_eq_true_iff]
    exact fun hinvalid => hinvalid.2.2 h
  rw [datum, if_neg hvalid, floatx80IsNan]
  by_cases hnan : extractFloatx80Frac a <<< 1 ≠ 0
  · rw [if_pos (decide_eq_true ⟨h, hnan⟩), if_pos hnan]
  · rw [if_neg (by rw [decide_eq_true_iff]; exact fun hboth => hnan hboth.2), if_pos h, if_neg hnan]

theorem datum_number (hv : ¬ floatx80InvalidEncoding a = true) (h : extractFloatx80Exp a ≠ 0x7FFF) :
    datum a = .finite (extractFloatx80Sign a) (magnitude a) := by
  have hnan : ¬ floatx80IsNan a = true := by
    rw [floatx80IsNan, decide_eq_true_iff]
    exact fun hboth => h hboth.1
  rw [datum, if_neg hv, if_neg hnan, if_neg h]

theorem datum_packInfinity {zSig : BitVec 64} (h : zSig <<< 1 = 0) : datum (packFloatx80 s 0x7FFF zSig) = .infinity s := by
  have hexp : extractFloatx80Exp (packFloatx80 s 0x7FFF zSig) = 0x7FFF := exp_packFloatx80 (by decide) (by decide)
  have hsign : extractFloatx80Sign (packFloatx80 s 0x7FFF zSig) = s := sign_packFloatx80 (by decide) (by decide)
  rw [datum_special hexp, frac_packFloatx80, if_neg (not_not.mpr h), hsign]

/-- A number with a first bit, or 0. -/
theorem exp_eq_zero_of_valid (hv : ¬ floatx80InvalidEncoding a = true) (h : extractFloatx80Exp a ≠ 0x7FFF)
    (hmsb : (extractFloatx80Frac a).msb = false) : extractFloatx80Exp a = 0 := by
  rw [floatx80InvalidEncoding, decide_eq_true_iff] at hv
  by_contra hne
  exact hv ⟨hmsb, hne, h⟩

theorem magnitude_nonneg (a : Float80) : 0 ≤ magnitude a := by
  unfold magnitude
  positivity

theorem magnitude_eq_zero_iff (a : Float80) : magnitude a = 0 ↔ extractFloatx80Frac a = 0 := by
  have hpos := (two_zpow_pos (extractFloatx80Exp a - 16446)).ne'
  rw [magnitude, mul_eq_zero, or_iff_left hpos, Nat.cast_eq_zero, eq_zero_iff]

theorem normalizeFloatx80Subnormal_normal {x : BitVec 64} (h : x ≠ 0) :
    (normalizeFloatx80Subnormal x).2.msb = true ∧
      (x.toNat * 2 ^ (0 - 16446 : Int) : ℚ) =
        (normalizeFloatx80Subnormal x).2.toNat * 2 ^ ((normalizeFloatx80Subnormal x).1 - 16446) ∧
      -63 ≤ (normalizeFloatx80Subnormal x).1 ∧ (normalizeFloatx80Subnormal x).1 ≤ 0 := by
  have hc := clz_toNat_lt h
  obtain ⟨hlt, hge⟩ := shiftLeft_clz_bounds h
  have hshift : (x <<< x.clz.toNat).toNat = x.toNat * 2 ^ x.clz.toNat := by
    have hpow : 2 ^ 64 = 2 ^ (64 - x.clz.toNat) * 2 ^ x.clz.toNat := by rw [← Nat.pow_add]; congr 1; omega
    rw [BitVec.toNat_shiftLeft, Nat.shiftLeft_eq, Nat.mod_eq_of_lt]
    rw [hpow]
    exact Nat.mul_lt_mul_of_pos_right hlt (Nat.two_pow_pos _)
  rw [normalizeFloatx80Subnormal]
  refine ⟨?_, ?_, by omega, by omega⟩
  · have hpow : 2 ^ 63 = 2 ^ (63 - x.clz.toNat) * 2 ^ x.clz.toNat := by rw [← Nat.pow_add]; congr 1; omega
    rw [msb_iff, hshift, hpow]
    exact Nat.mul_le_mul_right _ hge
  · rw [hshift, show (0 - 16446 : Int) = -(x.clz.toNat : Int) - 16446 + x.clz.toNat by omega, two_zpow_add_natCast,
      Nat.cast_mul, Nat.cast_pow, Nat.cast_ofNat, mul_assoc]

/-- An operand of a sum, with its exponent and significand. -/
structure IsOperand (x : ℚ) (o : Int × BitVec 64) : Prop where
  value : x = o.2.toNat * 2 ^ (o.1 - 16446)
  normal : o.2.msb = true ∧ -63 ≤ o.1 ∨ o.2 = 0 ∧ o.1 = -64
  exp : o.1 < 0x7FFF

theorem addOperand_isOperand (hv : ¬ floatx80InvalidEncoding a = true) (h : extractFloatx80Exp a ≠ 0x7FFF) :
    IsOperand (magnitude a) (addOperand a) := by
  have hexp := exp_bounds a
  unfold addOperand
  dsimp only
  by_cases hzero : extractFloatx80Exp a = 0
  · rw [if_pos hzero]
    by_cases hsig : extractFloatx80Frac a = 0
    · rw [if_pos hsig]
      refine ⟨?_, .inr ⟨hsig, rfl⟩, by change (-64 : Int) < _; decide⟩
      rw [(magnitude_eq_zero_iff a).mpr hsig, (eq_zero_iff _).mp hsig, Nat.cast_zero, zero_mul]
    · obtain ⟨hmsb, hvalue, hlo, hhi⟩ := normalizeFloatx80Subnormal_normal hsig
      rw [if_neg hsig]
      refine ⟨?_, .inl ⟨hmsb, hlo⟩, by omega⟩
      rw [magnitude, hzero, hvalue]
  · rw [if_neg hzero]
    refine ⟨rfl, .inl ⟨?_, by change -63 ≤ extractFloatx80Exp a; omega⟩, by change extractFloatx80Exp a < _; omega⟩
    by_contra hmsb
    exact hzero (exp_eq_zero_of_valid hv h (Bool.eq_false_iff.mpr hmsb))

theorem addOperand_special (h : extractFloatx80Exp a = 0x7FFF) : addOperand a = (0x7FFF, extractFloatx80Frac a) := by
  rw [addOperand, h]
  rfl

end Data

/-! ## Sums -/

section Sums

variable {sp : SpecialFlags} {fs : FloatStatus} {a b : Float80} {s t zSign : Bool} {x y : ℚ}

theorem delivered_of_packed {s : Bool} {r : Float80 × Byte} (hx : x ≠ 0)
    (h : Packed (formatOf fs.floatx80RoundingPrecision) fs.floatRoundingMode s x r) :
    (Exact.finite s x).Delivered fs a b r := by
  rw [Exact.Delivered, if_neg hx]
  exact h

theorem shift64ExtraRightJamming_msb (z0 z1 : BitVec 64) {count : Nat} (h : 0 < count) :
    (shift64ExtraRightJamming z0 z1 count).1.msb = false := by
  have hlt := z0.isLt
  rw [← Bool.not_eq_true, msb_iff, shift64ExtraRightJamming, if_neg (by omega)]
  by_cases hshort : count < 64
  · rw [if_pos hshort, BitVec.toNat_ushiftRight, Nat.shiftRight_eq_div_pow]
    have hle : z0.toNat / 2 ^ count ≤ z0.toNat / 2 ^ 1 :=
      Nat.div_le_div_left (Nat.pow_le_pow_right (by decide) h) (by decide)
    omega
  · have hzero : ¬ 2 ^ 63 ≤ (0 : BitVec 64).toNat := by decide
    rw [if_neg hshort]
    split <;> exact hzero

/-- Two numbers in units of the larger one. -/
theorem aligned_value (A B : ℚ) (e : Int) (n : Nat) :
    (A * 2 ^ 64 + B * 2 ^ 64 / 2 ^ n) * 2 ^ (e - 16510) = A * 2 ^ (e - 16446) + B * 2 ^ (e - n - 16446) ∧
      (A * 2 ^ 64 - B * 2 ^ 64 / 2 ^ n) * 2 ^ (e - 16510) = A * 2 ^ (e - 16446) - B * 2 ^ (e - n - 16446) := by
  have hword : (2 : ℚ) ^ (e - 16446) = 2 ^ 64 * 2 ^ (e - 16510) := by
    rw [← two_zpow_add_natCast]
    congr 1
    omega
  have hdiff : (2 : ℚ) ^ (e - 16446) = 2 ^ n * 2 ^ (e - n - 16446) := by
    rw [← two_zpow_add_natCast]
    congr 1
    omega
  have hB : B * 2 ^ 64 / 2 ^ n * 2 ^ (e - 16510) = B * 2 ^ (e - n - 16446) := by
    have hpos : (2 : ℚ) ^ n ≠ 0 := by positivity
    rw [div_mul_eq_mul_div, div_eq_iff hpos, mul_assoc, ← hword, hdiff]
    ring
  rw [add_mul, sub_mul, hB, hword]
  constructor <;> ring

/-- The sum of a number and a smaller one. -/
theorem addAligned_operands {aExp bExp : Int} {aSig bSig : BitVec 64} (ha : IsOperand x (aExp, aSig))
    (hb : IsOperand y (bExp, bSig)) (h : bExp < aExp) :
    Packed (formatOf fs.floatx80RoundingPrecision) fs.floatRoundingMode zSign (x + y)
      (addAligned fs zSign aExp aSig (shift64ExtraRightJamming bSig 0 (aExp - bExp).toNat).1
        (shift64ExtraRightJamming bSig 0 (aExp - bExp).toNat).2) := by
  have hx : x = aSig.toNat * 2 ^ (aExp - 16446) := ha.value
  have hy : y = bSig.toNat * 2 ^ (bExp - 16446) := hb.value
  have han : aSig.msb = true ∧ -63 ≤ aExp ∨ aSig = 0 ∧ aExp = -64 := ha.normal
  have hbn : bSig.msb = true ∧ -63 ≤ bExp ∨ bSig = 0 ∧ bExp = -64 := hb.normal
  have hmsb : aSig.msb = true := han.elim And.left fun _ => by omega
  have hvalue := (aligned_value aSig.toNat bSig.toNat aExp (aExp - bExp).toNat).1
  have hsame := same_shift64ExtraRightJamming bSig 0 (aExp - bExp).toNat
  rw [joined_zero_right, Nat.cast_mul, Nat.cast_pow, Nat.cast_ofNat] at hsame
  rw [show aExp - ((aExp - bExp).toNat : Int) - 16446 = bExp - 16446 by omega, ← hx, ← hy] at hvalue
  rw [← hvalue]
  exact addAligned_packed hmsb (shift64ExtraRightJamming_msb _ _ (by omega)) hsame

/-- Two finite numbers. -/
theorem addFloatx80Sigs_finite (ha : IsOperand x (addOperand a)) (hb : IsOperand y (addOperand b)) :
    (Exact.finite zSign (x + y)).Delivered fs a b (addFloatx80Sigs sp fs a b zSign) := by
  have hx : 0 ≤ x := by rw [ha.value]; positivity
  have hy : 0 ≤ y := by rw [hb.value]; positivity
  have hpos : ∀ {x : ℚ} {o : Int × BitVec 64}, IsOperand x o → o.2.msb = true → 0 < x := fun {x o} ho hmsb => by
    have hsig : 0 < o.2.toNat := by
      have := (msb_iff _).mp hmsb
      omega
    rw [ho.value]
    exact mul_pos (by exact_mod_cast hsig) (two_zpow_pos _)
  unfold addFloatx80Sigs
  generalize addOperand a = o at *
  generalize addOperand b = o' at *
  obtain ⟨aExp, aSig⟩ := o
  obtain ⟨bExp, bSig⟩ := o'
  have hae : aExp < 0x7FFF := ha.exp
  have hbe : bExp < 0x7FFF := hb.exp
  have han : aSig.msb = true ∧ -63 ≤ aExp ∨ aSig = 0 ∧ aExp = -64 := ha.normal
  have hbn : bSig.msb = true ∧ -63 ≤ bExp ∨ bSig = 0 ∧ bExp = -64 := hb.normal
  dsimp only
  by_cases hgt : 0 < aExp - bExp
  · have hmsb : aSig.msb = true := han.elim And.left fun h => by omega
    rw [if_pos hgt, if_neg (by omega)]
    refine delivered_of_packed (ne_of_gt (add_pos_of_pos_of_nonneg (hpos ha hmsb) hy)) ?_
    exact addAligned_operands ha hb (by omega)
  by_cases hlt : aExp - bExp < 0
  · have hmsb : bSig.msb = true := hbn.elim And.left fun h => by omega
    rw [if_neg hgt, if_pos hlt, if_neg (by omega), addAligned_comm, show -(aExp - bExp) = bExp - aExp by omega, add_comm]
    refine delivered_of_packed (ne_of_gt (add_pos_of_pos_of_nonneg (hpos hb hmsb) hx)) ?_
    exact addAligned_operands hb ha (by omega)
  obtain rfl : aExp = bExp := by omega
  rw [if_neg hgt, if_neg hlt, if_neg (by omega)]
  rcases han with ⟨hmsb, hexp⟩ | ⟨rfl, hexp⟩
  · have hmsb' : bSig.msb = true := hbn.elim And.left fun h => by omega
    have hnz : ∀ {z : BitVec 64}, z.msb = true → z ≠ 0 := by
      rintro z hz rfl
      exact Bool.noConfusion hz
    rw [if_neg (fun h => hnz hmsb h.1), if_neg (not_or.mpr ⟨hnz hmsb, hnz hmsb'⟩)]
    refine delivered_of_packed (ne_of_gt (add_pos_of_pos_of_nonneg (hpos ha hmsb) hy)) ?_
    have hvalue := (aligned_value aSig.toNat bSig.toNat aExp 0).1
    rw [Nat.cast_zero, sub_zero, pow_zero, div_one] at hvalue
    rw [ha.value, hb.value, ← hvalue]
    refine shiftRight1_packed (.inl ?_)
    have h1 := (msb_iff _).mp hmsb
    have h2 := (msb_iff _).mp hmsb'
    have hnat : aSig.toNat * 2 ^ 64 + bSig.toNat * 2 ^ 64 = 2 ^ 128 + joined (aSig + bSig) 0 := by
      have h1' := aSig.isLt
      have h2' := bSig.isLt
      rw [joined_zero_right, BitVec.toNat_add]
      omega
    exact_mod_cast hnat
  · have hb0 : bSig = 0 := hbn.elim (fun h => by omega) And.left
    subst hb0
    have hsum : x + y = 0 := by
      rw [ha.value, hb.value, (eq_zero_iff 0).mp rfl, Nat.cast_zero, zero_mul, add_zero]
    rw [if_pos ⟨rfl, rfl⟩, hsum, Exact.Delivered, if_pos rfl]

/-- A number and its sign, with another sign. -/
def Datum.withSign (s : Bool) : Datum → Datum
  | .infinity _ => .infinity s
  | .finite _ x => .finite s x
  | d => d

theorem or_shiftLeft_one (x y : BitVec 64) : (x ||| y) <<< 1 ≠ 0 ↔ x <<< 1 ≠ 0 ∨ y <<< 1 ≠ 0 := by
  rw [BitVec.shiftLeft_or_distrib, ne_eq, or_eq_zero_iff, not_and_or]

/-- Where one of two is a NaN, or an infinity. -/
theorem addFloatx80Sigs_delivered (sp : SpecialFlags) (fs : FloatStatus)
    (ha : ¬ floatx80InvalidEncoding a = true) (hb : ¬ floatx80InvalidEncoding b = true)
    (hswap : datum a = .infinity (extractFloatx80Sign a) → datum b = .infinity (extractFloatx80Sign b) →
      sp.infinityClearIntbit = false → sp.addsubSwapInf = true → extractFloatx80Sign b = extractFloatx80Sign a) :
    (exactAdd fs.floatRoundingMode (datum a) ((datum b).withSign (extractFloatx80Sign a))).Delivered fs a b
      (addFloatx80Sigs sp fs a b (extractFloatx80Sign a)) := by
  by_cases hea : extractFloatx80Exp a = 0x7FFF
  · have hda := datum_special hea
    by_cases heb : extractFloatx80Exp b = 0x7FFF
    · have hdb := datum_special heb
      rw [addFloatx80Sigs, addOperand_special hea, addOperand_special heb]
      dsimp only
      rw [if_neg (by decide), if_neg (by decide), if_pos rfl]
      simp only [or_shiftLeft_one]
      by_cases hna : extractFloatx80Frac a <<< 1 ≠ 0
      · rw [if_pos hna] at hda
        rw [if_pos (.inl hna), hda, hdb]
        split <;> rfl
      · rw [if_neg hna] at hda
        by_cases hnb : extractFloatx80Frac b <<< 1 ≠ 0
        · rw [if_pos hnb] at hdb
          rw [if_pos (.inr hnb), hda, hdb]
          rfl
        · rw [if_neg hnb] at hdb
          rw [if_neg (not_or.mpr ⟨hna, hnb⟩), hda, hdb, Datum.withSign, exactAdd, if_pos rfl]
          by_cases hclear : sp.infinityClearIntbit = true
          · rw [if_pos hclear]
            exact ⟨datum_packInfinity (by decide), rfl⟩
          · rw [if_neg hclear]
            refine ⟨?_, rfl⟩
            change datum (if sp.addsubSwapInf = true then b else a) = _
            split
            · rename_i hs
              rw [hdb, hswap hda hdb (Bool.eq_false_iff.mpr hclear) hs]
            · exact hda
    · have hob := addOperand_isOperand hb heb
      have hlt := hob.exp
      rw [datum_number hb heb, addFloatx80Sigs, addOperand_special hea]
      dsimp only
      rw [if_pos (by omega), if_pos rfl]
      by_cases hna : extractFloatx80Frac a <<< 1 ≠ 0
      · rw [if_pos hna] at hda
        rw [if_pos hna, hda]
        rfl
      · rw [if_neg hna] at hda
        rw [if_neg hna, hda]
        refine ⟨?_, rfl⟩
        change datum (if sp.infinityClearIntbit = true then packFloatx80 (extractFloatx80Sign a) 0x7FFF 0 else a) = _
        split
        · exact datum_packInfinity (by decide)
        · exact hda
  · by_cases heb : extractFloatx80Exp b = 0x7FFF
    · have hoa := addOperand_isOperand ha hea
      have hlt := hoa.exp
      have hdb := datum_special heb
      rw [datum_number ha hea, addFloatx80Sigs, addOperand_special heb]
      dsimp only
      rw [if_neg (by omega), if_pos (by omega), if_pos rfl]
      by_cases hnb : extractFloatx80Frac b <<< 1 ≠ 0
      · rw [if_pos hnb] at hdb
        rw [if_pos hnb, hdb]
        rfl
      · rw [if_neg hnb] at hdb
        rw [if_neg hnb, hdb]
        refine ⟨datum_packInfinity ?_, rfl⟩
        split
        · decide
        · exact not_not.mp hnb
    · have h : (Exact.finite (extractFloatx80Sign a) (magnitude a + magnitude b)).Delivered fs a b
          (addFloatx80Sigs sp fs a b (extractFloatx80Sign a)) :=
        addFloatx80Sigs_finite (addOperand_isOperand ha hea) (addOperand_isOperand hb heb)
      rw [datum_number ha hea, datum_number hb heb]
      rw [Datum.withSign, exactAdd, exactSum, if_pos rfl]
      exact h

/-- Two numbers of which one has the larger exponent. -/
theorem subAligned_operands (fs : FloatStatus) (zSign : Bool) {aExp bExp : Int} {aSig bSig : BitVec 64}
    (hx : x = aSig.toNat * 2 ^ (aExp - 16446))
    (hy : y = bSig.toNat * 2 ^ (bExp - 16446)) (hmsb : aSig.msb = true) (h : bExp < aExp) :
    y < x ∧ Packed (formatOf fs.floatx80RoundingPrecision) fs.floatRoundingMode zSign (x - y)
      (subAligned fs zSign aExp aSig (shift128RightJamming bSig 0 (aExp - bExp).toNat).1
        (shift128RightJamming bSig 0 (aExp - bExp).toNat).2) := by
  obtain ⟨n, hn⟩ : ∃ n : Nat, aExp - bExp = n := ⟨(aExp - bExp).toNat, by omega⟩
  have hn0 : 0 < n := by omega
  have hvalue := (aligned_value aSig.toNat bSig.toNat aExp n).2
  rw [show aExp - (n : Int) - 16446 = bExp - 16446 by omega, ← hx, ← hy] at hvalue
  rw [hn, show (n : Int).toNat = n by omega]
  have hjam := joined_shift128RightJamming bSig n
  generalize shift128RightJamming bSig 0 n = w at *
  have ha := (msb_iff aSig).mp hmsb
  have hb := bSig.isLt
  have hsame := same_jam (joined bSig 0) n
  rw [← hjam, joined_zero_right, Nat.cast_mul, Nat.cast_pow, Nat.cast_ofNat] at hsame
  have hle := jam_le (joined bSig 0) n
  rw [← hjam, joined_zero_right] at hle
  have hshift : bSig.toNat * 2 ^ 64 / 2 ^ n ≤ bSig.toNat * 2 ^ 64 / 2 ^ 1 :=
    Nat.div_le_div_left (Nat.pow_le_pow_right (by decide) hn0) (by decide)
  have hlt : joined w.1 w.2 < joined aSig 0 := by
    rw [joined_zero_right]
    omega
  refine ⟨?_, ?_⟩
  · have hpos : (0 : ℚ) < 2 ^ n := by positivity
    have htwo : (2 : ℚ) ^ 1 ≤ 2 ^ n := pow_le_pow_right₀ (by norm_num) hn0
    have haq : (2 : ℚ) ^ 63 ≤ aSig.toNat := by exact_mod_cast ha
    have hbq : (bSig.toNat : ℚ) < 2 ^ 64 := by exact_mod_cast hb
    rw [← sub_pos, ← hvalue]
    refine mul_pos (sub_pos.mpr ?_) (two_zpow_pos _)
    rw [div_lt_iff₀ hpos]
    calc (bSig.toNat * 2 ^ 64 : ℚ) < 2 ^ 63 * 2 ^ 64 * 2 ^ 1 := by linarith
      _ ≤ aSig.toNat * 2 ^ 64 * 2 ^ n := by gcongr
  · rw [← hvalue]
    refine subAligned_packed hsame hlt ?_
    by_cases hshort : n ≤ 64
    · refine .inl ?_
      have hpow : 2 ^ 64 = 2 ^ (64 - n) * 2 ^ n := by rw [← Nat.pow_add]; congr 1; omega
      have hpowq : (2 : ℚ) ^ 64 = 2 ^ (64 - n) * 2 ^ n := by exact_mod_cast hpow
      rw [hjam, jam, joined_zero_right, hpow, ← Nat.mul_assoc, Nat.mul_mod_left, if_pos rfl,
        Nat.mul_div_cancel _ (Nat.two_pow_pos _), hpowq, ← mul_assoc, mul_div_cancel_right₀ _ (by positivity),
        Nat.cast_mul,
        Nat.cast_pow, Nat.cast_ofNat]
    · refine .inr ?_
      have hsmall : bSig.toNat * 2 ^ 64 / 2 ^ n ≤ bSig.toNat * 2 ^ 64 / 2 ^ 64 :=
        Nat.div_le_div_left (Nat.pow_le_pow_right (by decide) (by omega)) (by decide)
      rw [joined_zero_right]
      omega

/-- .. and two with one exponent. -/
theorem subAligned_same (fs : FloatStatus) (zSign : Bool) {aExp : Int} {aSig bSig : BitVec 64}
    (hx : x = aSig.toNat * 2 ^ (aExp - 16446))
    (hy : y = bSig.toNat * 2 ^ (aExp - 16446)) (h : bSig < aSig) :
    y < x ∧ Packed (formatOf fs.floatx80RoundingPrecision) fs.floatRoundingMode zSign (x - y)
      (subAligned fs zSign aExp aSig bSig 0) := by
  have hlt : bSig.toNat < aSig.toNat := BitVec.lt_def.mp h
  have hvalue := (aligned_value aSig.toNat bSig.toNat aExp 0).2
  rw [Nat.cast_zero, sub_zero, ← hx, ← hy, pow_zero, div_one] at hvalue
  refine ⟨?_, ?_⟩
  · rw [hx, hy]
    exact mul_lt_mul_of_pos_right (by exact_mod_cast hlt) (two_zpow_pos _)
  · have hexact : (bSig.toNat : ℚ) * 2 ^ 64 = joined bSig 0 := by
      rw [joined_zero_right, Nat.cast_mul, Nat.cast_pow, Nat.cast_ofNat]
    rw [← hvalue]
    refine subAligned_packed (.inl hexact) ?_ (.inl hexact)
    rw [joined_zero_right, joined_zero_right]
    omega

theorem delivered_sub (h : y < x) {r : Float80 × Byte}
    (hp : Packed (formatOf fs.floatx80RoundingPrecision) fs.floatRoundingMode zSign (x - y) r) :
    (exactSum fs.floatRoundingMode zSign x (!zSign) y).Delivered fs a b r := by
  rw [exactSum, if_neg (by cases zSign <;> decide), if_pos h]
  exact delivered_of_packed (sub_pos.mpr h).ne' hp

theorem delivered_sub_neg (h : x < y) {r : Float80 × Byte}
    (hp : Packed (formatOf fs.floatx80RoundingPrecision) fs.floatRoundingMode (!zSign) (y - x) r) :
    (exactSum fs.floatRoundingMode zSign x (!zSign) y).Delivered fs a b r := by
  rw [exactSum, if_neg (by cases zSign <;> decide), if_neg (not_lt.mpr h.le), if_pos h]
  exact delivered_of_packed (sub_pos.mpr h).ne' hp

theorem msb_of_exp (ha : ¬ floatx80InvalidEncoding a = true) (hea : extractFloatx80Exp a ≠ 0x7FFF)
    (h : 0 < extractFloatx80Exp a) : (extractFloatx80Frac a).msb = true := by
  by_contra hfalse
  have := exp_eq_zero_of_valid ha hea (Bool.eq_false_iff.mpr hfalse)
  omega

/-- The difference of two finite numbers. -/
theorem subFloatx80Sigs_finite (ha : ¬ floatx80InvalidEncoding a = true) (hea : extractFloatx80Exp a ≠ 0x7FFF)
    (hb : ¬ floatx80InvalidEncoding b = true) (heb : extractFloatx80Exp b ≠ 0x7FFF) :
    (exactSum fs.floatRoundingMode zSign (magnitude a) (!zSign) (magnitude b)).Delivered fs a b
      (subFloatx80Sigs sp fs a b zSign) := by
  have hboundsa := exp_bounds a
  have hboundsb := exp_bounds b
  have hxa : magnitude a = (extractFloatx80Frac a).toNat * 2 ^ (extractFloatx80Exp a - 16446) := rfl
  have hxb : magnitude b = (extractFloatx80Frac b).toNat * 2 ^ (extractFloatx80Exp b - 16446) := rfl
  have hmsba := msb_of_exp ha hea
  have hmsbb := msb_of_exp hb heb
  unfold subFloatx80Sigs
  dsimp only
  generalize extractFloatx80Exp a = aExp at *
  generalize extractFloatx80Exp b = bExp at *
  generalize extractFloatx80Frac a = aSig at *
  generalize extractFloatx80Frac b = bSig at *
  by_cases hgt : 0 < aExp - bExp
  · obtain ⟨hlt, hp⟩ := subAligned_operands fs zSign hxa hxb (hmsba (by omega)) (by omega)
    rw [if_pos hgt, if_neg hea]
    exact delivered_sub hlt hp
  by_cases hlt : aExp - bExp < 0
  · obtain ⟨hgt', hp⟩ := subAligned_operands fs (!zSign) hxb hxa (hmsbb (by omega)) (by omega)
    rw [if_neg hgt, if_pos hlt, if_neg heb, show -(aExp - bExp) = bExp - aExp by omega]
    exact delivered_sub_neg hgt' hp
  obtain rfl : aExp = bExp := by omega
  rw [if_neg hgt, if_neg hlt, if_neg hea]
  by_cases hab : bSig < aSig
  · obtain ⟨hlt', hp⟩ := subAligned_same fs zSign hxa hxb hab
    rw [if_pos hab]
    exact delivered_sub hlt' hp
  by_cases hba : aSig < bSig
  · obtain ⟨hlt', hp⟩ := subAligned_same fs (!zSign) hxb hxa hba
    rw [if_neg hab, if_pos hba]
    exact delivered_sub_neg hlt' hp
  · obtain rfl : aSig = bSig := BitVec.le_antisymm (BitVec.not_lt.mp hab) (BitVec.not_lt.mp hba)
    rw [if_neg hab, if_neg hba, hxa, hxb, exactSum, if_neg (by cases zSign <;> decide), if_neg (lt_irrefl _),
      if_neg (lt_irrefl _), Exact.Delivered, if_pos rfl]

theorem subFloatx80Sigs_delivered (sp : SpecialFlags) (fs : FloatStatus)
    (ha : ¬ floatx80InvalidEncoding a = true) (hb : ¬ floatx80InvalidEncoding b = true) :
    (exactAdd fs.floatRoundingMode (datum a) ((datum b).withSign (!extractFloatx80Sign a))).Delivered fs a b
      (subFloatx80Sigs sp fs a b (extractFloatx80Sign a)) := by
  by_cases hea : extractFloatx80Exp a = 0x7FFF
  · have hda := datum_special hea
    by_cases heb : extractFloatx80Exp b = 0x7FFF
    · have hdb := datum_special heb
      rw [subFloatx80Sigs]
      dsimp only
      rw [hea, heb, if_neg (by decide), if_neg (by decide), if_pos rfl]
      simp only [or_shiftLeft_one]
      by_cases hna : extractFloatx80Frac a <<< 1 ≠ 0
      · rw [if_pos hna] at hda
        rw [if_pos (.inl hna), hda, hdb]
        split <;> rfl
      · rw [if_neg hna] at hda
        by_cases hnb : extractFloatx80Frac b <<< 1 ≠ 0
        · rw [if_pos hnb] at hdb
          rw [if_pos (.inr hnb), hda, hdb]
          rfl
        · rw [if_neg hnb] at hdb
          rw [if_neg (not_or.mpr ⟨hna, hnb⟩), hda, hdb, Datum.withSign, exactAdd,
            if_neg (by cases extractFloatx80Sign a <;> decide)]
          rfl
    · have hbounds := exp_bounds b
      rw [datum_number hb heb, subFloatx80Sigs]
      dsimp only
      rw [hea, if_pos (by omega), if_pos rfl]
      by_cases hna : extractFloatx80Frac a <<< 1 ≠ 0
      · rw [if_pos hna] at hda
        rw [if_pos hna, hda]
        rfl
      · rw [if_neg hna] at hda
        rw [if_neg hna, hda]
        refine ⟨?_, rfl⟩
        change datum (if sp.infinityClearIntbit = true then packFloatx80 (extractFloatx80Sign a) 0x7FFF 0 else a) = _
        split
        · exact datum_packInfinity (by decide)
        · exact hda
  · by_cases heb : extractFloatx80Exp b = 0x7FFF
    · have hbounds := exp_bounds a
      have hdb := datum_special heb
      rw [datum_number ha hea, subFloatx80Sigs]
      dsimp only
      rw [heb, if_neg (by omega), if_pos (by omega), if_pos rfl]
      by_cases hnb : extractFloatx80Frac b <<< 1 ≠ 0
      · rw [if_pos hnb] at hdb
        rw [if_pos hnb, hdb]
        rfl
      · rw [if_neg hnb] at hdb
        rw [if_neg hnb, hdb]
        refine ⟨datum_packInfinity ?_, rfl⟩
        split
        · decide
        · exact not_not.mp hnb
    · rw [datum_number ha hea, datum_number hb heb]
      rw [Datum.withSign, exactAdd]
      exact subFloatx80Sigs_finite ha hea hb heb

theorem datum_withSign (b : Float80) : (datum b).withSign (extractFloatx80Sign b) = datum b := by
  unfold datum
  split_ifs <;> rfl

theorem datum_neg (b : Float80) : (datum b).neg = (datum b).withSign (!extractFloatx80Sign b) := by
  unfold datum
  split_ifs <;> rfl

theorem exactAdd_unsupported (mode : RoundingMode) (d : Datum) : exactAdd mode d .unsupported = .invalid := by
  cases d <;> rfl

/-- A sum is the exact one, rounded once. -/
theorem floatx80Add_delivered (sp : SpecialFlags) (fs : FloatStatus) (a b : Float80) :
    (exactAdd fs.floatRoundingMode (datum a) (datum b)).Delivered fs a b (floatx80Add sp fs a b) := by
  rw [floatx80Add]
  by_cases hinvalid : floatx80InvalidEncoding a = true ∨ floatx80InvalidEncoding b = true
  · rw [if_pos hinvalid]
    rcases hinvalid with ha | hb
    · rw [datum_unsupported ha]
      rfl
    · rw [datum_unsupported hb, exactAdd_unsupported]
      rfl
  obtain ⟨ha, hb⟩ := not_or.mp hinvalid
  rw [if_neg hinvalid]
  by_cases hsign : extractFloatx80Sign a = extractFloatx80Sign b
  · rw [if_pos hsign]
    have h := addFloatx80Sigs_delivered sp fs ha hb fun _ _ _ _ => hsign.symm
    rwa [hsign, datum_withSign, ← hsign] at h
  · rw [if_neg hsign]
    have h := subFloatx80Sigs_delivered sp fs ha hb
    rwa [Bool.eq_not_of_ne hsign, Bool.not_not, datum_withSign, ← Bool.eq_not_of_ne hsign] at h

/-- A difference of two infinities on a 68881: the second operand comes back as it is. -/
def SwapsInfinities (sp : SpecialFlags) (a b : Float80) : Prop :=
  datum a = .infinity (extractFloatx80Sign a) ∧ datum b = .infinity (extractFloatx80Sign b) ∧
    sp.infinityClearIntbit = false ∧ sp.addsubSwapInf = true ∧ extractFloatx80Sign b ≠ extractFloatx80Sign a

theorem infinity_special {s : Bool} (h : datum a = .infinity s) :
    extractFloatx80Exp a = 0x7FFF ∧ extractFloatx80Frac a <<< 1 = 0 := by
  by_cases he : extractFloatx80Exp a = 0x7FFF
  · refine ⟨he, ?_⟩
    by_contra hne
    rw [datum_special he, if_pos hne] at h
    exact Datum.noConfusion h
  · by_cases hv : floatx80InvalidEncoding a = true
    · rw [datum_unsupported hv] at h
      exact Datum.noConfusion h
    · rw [datum_number hv he] at h
      exact Datum.noConfusion h

theorem addFloatx80Sigs_swap (h : SwapsInfinities sp a b) : addFloatx80Sigs sp fs a b zSign = (b, 0) := by
  obtain ⟨ha, hb, hclear, hswap, -⟩ := h
  obtain ⟨hea, hna⟩ := infinity_special ha
  obtain ⟨heb, hnb⟩ := infinity_special hb
  rw [addFloatx80Sigs, addOperand_special hea, addOperand_special heb]
  dsimp only
  rw [if_neg (by decide), if_neg (by decide), if_pos rfl, if_neg, if_neg (by rw [hclear]; decide), if_pos hswap]
  rw [or_shiftLeft_one]
  exact not_or.mpr ⟨not_not.mpr hna, not_not.mpr hnb⟩

theorem exactAdd_neg_unsupported (mode : RoundingMode) (d : Datum) : exactAdd mode d (Datum.unsupported.neg) = .invalid :=
  exactAdd_unsupported mode d

/-- So is a difference. -/
theorem floatx80Sub_delivered (sp : SpecialFlags) (fs : FloatStatus) (a b : Float80) (hswap : ¬ SwapsInfinities sp a b) :
    (exactAdd fs.floatRoundingMode (datum a) (datum b).neg).Delivered fs a b (floatx80Sub sp fs a b) := by
  rw [floatx80Sub]
  by_cases hinvalid : floatx80InvalidEncoding a = true ∨ floatx80InvalidEncoding b = true
  · rw [if_pos hinvalid]
    rcases hinvalid with ha | hb
    · rw [datum_unsupported ha]
      rfl
    · rw [datum_unsupported hb, exactAdd_neg_unsupported]
      rfl
  obtain ⟨ha, hb⟩ := not_or.mp hinvalid
  rw [if_neg hinvalid, datum_neg]
  by_cases hsign : extractFloatx80Sign a = extractFloatx80Sign b
  · have h := subFloatx80Sigs_delivered sp fs ha hb
    rw [if_pos hsign]
    rwa [hsign] at h ⊢
  · rw [if_neg hsign, ← Bool.eq_not_of_ne hsign]
    refine addFloatx80Sigs_delivered sp fs ha hb fun hda hdb hclear hs => ?_
    by_contra hne
    exact hswap ⟨hda, hdb, hclear, hs, hne⟩

/-- .. but for one of infinities, which the 68881 gets wrong. -/
theorem floatx80Sub_delivered_iff (sp : SpecialFlags) (fs : FloatStatus) (a b : Float80) :
    (exactAdd fs.floatRoundingMode (datum a) (datum b).neg).Delivered fs a b (floatx80Sub sp fs a b) ↔
      ¬ SwapsInfinities sp a b := by
  refine ⟨fun h hswap => ?_, floatx80Sub_delivered sp fs a b⟩
  have hne := hswap.2.2.2.2
  have hvalid : ∀ {c : Float80} {s : Bool}, datum c = .infinity s → ¬ floatx80InvalidEncoding c = true := by
    intro c s hc hinv
    rw [datum_unsupported hinv] at hc
    exact Datum.noConfusion hc
  have hsign : ¬ extractFloatx80Sign a = extractFloatx80Sign b := fun heq => hne heq.symm
  rw [floatx80Sub, if_neg (not_or.mpr ⟨hvalid hswap.1, hvalid hswap.2.1⟩), if_neg hsign, addFloatx80Sigs_swap hswap,
    datum_neg, ← Bool.eq_not_of_ne hsign, hswap.1, hswap.2.1, Datum.withSign, exactAdd, if_pos rfl] at h
  have hinf := hswap.2.1.symm.trans h.1
  injection hinf with heq
  exact hne heq

end Sums

/-! ## Products -/

section Products

variable {sp : SpecialFlags} {fs : FloatStatus} {a b : Float80}

theorem exactMul_unsupported (d : Datum) : exactMul d .unsupported = .invalid := by
  cases d <;> rfl

/-- A zero has one encoding but for its sign. -/
theorem zero_iff (ha : ¬ floatx80InvalidEncoding a = true) (hea : extractFloatx80Exp a ≠ 0x7FFF) :
    extractFloatx80Exp a = 0 ∧ extractFloatx80Frac a = 0 ↔ magnitude a = 0 := by
  rw [magnitude_eq_zero_iff]
  refine ⟨And.right, fun h => ⟨exp_eq_zero_of_valid ha hea ?_, h⟩⟩
  rw [h]
  rfl

theorem mulOperand_normal (ha : ¬ floatx80InvalidEncoding a = true) (hea : extractFloatx80Exp a ≠ 0x7FFF)
    (hne : ¬ (extractFloatx80Exp a = 0 ∧ extractFloatx80Frac a = 0)) :
    (mulOperand (extractFloatx80Exp a) (extractFloatx80Frac a)).2.msb = true ∧
      magnitude a = (mulOperand (extractFloatx80Exp a) (extractFloatx80Frac a)).2.toNat *
        2 ^ ((mulOperand (extractFloatx80Exp a) (extractFloatx80Frac a)).1 - 16446) := by
  rw [mulOperand]
  by_cases hzero : extractFloatx80Exp a = 0
  · obtain ⟨hmsb, hvalue, -⟩ := normalizeFloatx80Subnormal_normal fun h => hne ⟨hzero, h⟩
    rw [if_pos hzero, magnitude, hzero, hvalue]
    exact ⟨hmsb, rfl⟩
  · rw [if_neg hzero]
    refine ⟨?_, rfl⟩
    by_contra hmsb
    exact hzero (exp_eq_zero_of_valid ha hea (Bool.eq_false_iff.mpr hmsb))

theorem delivered_zero {s : Bool} {x : ℚ} (hx : x = 0) :
    (Exact.finite s x).Delivered fs a b (packFloatx80 s 0 0, 0) := by
  rw [Exact.Delivered, if_pos hx]

theorem delivered_infinity {s : Bool} {zSig : BitVec 64} (h : zSig <<< 1 = 0) :
    (Exact.infinity s).Delivered fs a b (packFloatx80 s 0x7FFF (if sp.infinityClearIntbit = true then 0 else zSig), 0) := by
  refine ⟨datum_packInfinity ?_, rfl⟩
  split
  · decide
  · exact h

/-- A product is the exact one, rounded once. -/
theorem floatx80Mul_delivered (sp : SpecialFlags) (fs : FloatStatus) (a b : Float80) :
    (exactMul (datum a) (datum b)).Delivered fs a b (floatx80Mul sp fs a b) := by
  rw [floatx80Mul]
  by_cases hinvalid : floatx80InvalidEncoding a = true ∨ floatx80InvalidEncoding b = true
  · rw [if_pos hinvalid]
    rcases hinvalid with ha | hb
    · rw [datum_unsupported ha]
      rfl
    · rw [datum_unsupported hb, exactMul_unsupported]
      rfl
  obtain ⟨ha, hb⟩ := not_or.mp hinvalid
  rw [if_neg hinvalid]
  dsimp only
  by_cases hea : extractFloatx80Exp a = 0x7FFF
  · have hda := datum_special hea
    rw [if_pos hea, hea]
    by_cases hna : extractFloatx80Frac a <<< 1 ≠ 0
    · rw [if_pos hna] at hda
      rw [if_pos (.inl hna), hda]
      by_cases heb : extractFloatx80Exp b = 0x7FFF
      · rw [datum_special heb]
        split <;> rfl
      · rw [datum_number hb heb]
        rfl
    rw [if_neg hna] at hda
    by_cases heb : extractFloatx80Exp b = 0x7FFF
    · have hdb := datum_special heb
      by_cases hnb : extractFloatx80Frac b <<< 1 ≠ 0
      · rw [if_pos hnb] at hdb
        rw [if_pos (.inr ⟨heb, hnb⟩), hda, hdb]
        rfl
      · rw [if_neg hnb] at hdb
        rw [if_neg (not_or.mpr ⟨hna, fun h => hnb h.2⟩), if_neg (fun h => by omega), hda, hdb]
        exact delivered_infinity (not_not.mp hna)
    · rw [if_neg (not_or.mpr ⟨hna, fun h => heb h.1⟩), hda, datum_number hb heb, exactMul]
      by_cases hzero : extractFloatx80Exp b = 0 ∧ extractFloatx80Frac b = 0
      · rw [if_pos hzero, if_pos ((zero_iff hb heb).mp hzero)]
        rfl
      · rw [if_neg hzero, if_neg (mt (zero_iff hb heb).mpr hzero)]
        exact delivered_infinity (not_not.mp hna)
  rw [if_neg hea, datum_number ha hea]
  by_cases heb : extractFloatx80Exp b = 0x7FFF
  · have hdb := datum_special heb
    rw [if_pos heb, heb]
    by_cases hnb : extractFloatx80Frac b <<< 1 ≠ 0
    · rw [if_pos hnb] at hdb
      rw [if_pos hnb, hdb]
      rfl
    · rw [if_neg hnb] at hdb
      rw [if_neg hnb, hdb, exactMul]
      by_cases hzero : extractFloatx80Exp a = 0 ∧ extractFloatx80Frac a = 0
      · rw [if_pos hzero, if_pos ((zero_iff ha hea).mp hzero)]
        rfl
      · rw [if_neg hzero, if_neg (mt (zero_iff ha hea).mpr hzero)]
        exact delivered_infinity (not_not.mp hnb)
  rw [if_neg heb, datum_number hb heb, exactMul]
  by_cases hzero : extractFloatx80Exp a = 0 ∧ extractFloatx80Frac a = 0
  · rw [if_pos hzero]
    exact delivered_zero (by rw [(zero_iff ha hea).mp hzero, zero_mul])
  by_cases hzero' : extractFloatx80Exp b = 0 ∧ extractFloatx80Frac b = 0
  · rw [if_neg hzero, if_pos hzero']
    exact delivered_zero (by rw [(zero_iff hb heb).mp hzero', mul_zero])
  obtain ⟨hmsb, hvalue⟩ := mulOperand_normal ha hea hzero
  obtain ⟨hmsb', hvalue'⟩ := mulOperand_normal hb heb hzero'
  have hx := mt (zero_iff ha hea).mpr hzero
  have hy := mt (zero_iff hb heb).mpr hzero'
  rw [if_neg hzero, if_neg hzero']
  refine delivered_of_packed (mul_ne_zero hx hy) ?_
  rw [hvalue, hvalue']
  exact mulSigs_packed hmsb hmsb'

end Products

end UaeCpu.Fpu
