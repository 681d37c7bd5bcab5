import UaeCpu.SoftFloatArith

/-!
# UaeCpu.SoftFloatDiv

`floatx80_div`: the quotient of two significands, word by word.

* `quotient`                — the estimates and the loops that put them right.
* `quotient_same`           — what it gives is rounded as the exact quotient is.
* `floatx80Div_delivered`   — a division ends, with the exact quotient rounded once.
-/

namespace UaeCpu.Fpu

open Rounding

/-! ## The routine -/

section Routine

variable (fuel : Nat)

/-- The exact quotient of `a0 a1` and `b`, from an estimate of it, and the remainder. -/
def corrected (a0 a1 b z : BitVec 64) : Option (BitVec 64 × BitVec 64 × BitVec 64) :=
  let term := mul64To128 b z
  let rem := sub128 a0 a1 term.1 term.2
  whileNegative 1 0 b fuel z rem.1 rem.2

/-- Both words of a quotient. The second one is exact where it decides how to round. -/
def quotient (aSig rem1 bSig : BitVec 64) : Option (BitVec 64 × BitVec 64) := do
  let zSig0 ← estimateDiv128To64 fuel aSig rem1 bSig
  let (zSig0, _, rem1) ← corrected fuel aSig rem1 bSig zSig0
  let zSig1 ← estimateDiv128To64 fuel rem1 0 bSig
  if zSig1 <<< 1 ≤ 8 then
    let (zSig1, rem1, rem2) ← corrected fuel rem1 0 bSig zSig1
    return (zSig0, zSig1 ||| (if rem1 ||| rem2 ≠ 0 then 1 else 0))
  else return (zSig0, zSig1)

variable (sp : SpecialFlags) (fs : FloatStatus)

def divSigs (zSign : Bool) (aExp : Int) (aSig : BitVec 64) (bExp : Int) (bSig : BitVec 64) : Option (Float80 × Byte) := do
  let zExp := aExp - bExp + 0x3FFE
  let shifted := shift128Right aSig 0 (if bSig ≤ aSig then 1 else 0)
  let z ← quotient fuel shifted.1 shifted.2 bSig
  return roundAndPackFloatx80 fs zSign (if bSig ≤ aSig then zExp + 1 else zExp) z.1 z.2

def floatx80Div (a b : Float80) : Option (Float80 × Byte) :=
  if floatx80InvalidEncoding a ∨ floatx80InvalidEncoding b then some (floatx80DefaultNan, floatFlagInvalid)
  else
    let aSig := extractFloatx80Frac a
    let aExp := extractFloatx80Exp a
    let bSig := extractFloatx80Frac b
    let bExp := extractFloatx80Exp b
    let zSign := extractFloatx80Sign a ^^ extractFloatx80Sign b
    if aExp = 0x7FFF then
      if aSig <<< 1 ≠ 0 then some (propagateFloatx80NaN a b)
      else if bExp = 0x7FFF then
        if bSig <<< 1 ≠ 0 then some (propagateFloatx80NaN a b) else some (floatx80DefaultNan, floatFlagInvalid)
      else some (packFloatx80 zSign aExp (if sp.infinityClearIntbit then 0 else aSig), 0)
    else if bExp = 0x7FFF then
      if bSig <<< 1 ≠ 0 then some (propagateFloatx80NaN a b) else some (packFloatx80 zSign 0 0, 0)
    else if bExp = 0 ∧ bSig = 0 then
      if aExp = 0 ∧ aSig = 0 then some (floatx80DefaultNan, floatFlagInvalid)
      else some (packFloatx80 zSign 0x7FFF 0, floatFlagDivbyzero)
    else if aExp = 0 ∧ aSig = 0 then some (packFloatx80 zSign 0 0, 0)
    else
      let (bExp, bSig) := mulOperand bExp bSig
      let (aExp, aSig) := mulOperand aExp aSig
      divSigs fuel fs zSign aExp aSig bExp bSig

end Routine

/-! ## Quotients of significands -/

section Quotient

variable {a0 a1 b z z0 z1 : BitVec 64} {fuel N : Nat}

theorem corrected_exact (hb : b ≠ 0) (hlo : joined a0 a1 / b.toNat ≤ z.toNat)
    (hhi : z.toNat ≤ joined a0 a1 / b.toNat + 2)
    (hfuel : 2 < fuel) : ∃ z' r0 r1, corrected fuel a0 a1 b z = some (z', r0, r1) ∧
      z'.toNat = joined a0 a1 / b.toNat ∧ joined r0 r1 = joined a0 a1 % b.toNat := by
  have hpos : 0 < b.toNat := Nat.pos_of_ne_zero (mt (eq_zero_iff b).mpr hb)
  have hblt := b.isLt
  obtain ⟨k, hk⟩ := Nat.exists_eq_add_of_le hlo
  have hterm := joined_mul64To128 b z
  have hsub := joined_sub128 a0 a1 (mul64To128 b z).1 (mul64To128 b z).2
  have hfit : (k + 1) * b.toNat ≤ 2 ^ 127 := by
    have hle := Nat.mul_le_mul_right b.toNat (show k + 1 ≤ 3 by omega)
    omega
  have hrem : (joined a0 a1 + (2 ^ 128 - joined (mul64To128 b z).1 (mul64To128 b z).2)) % 2 ^ 128 =
      (joined a0 a1 % b.toNat + (2 ^ 128 - k * b.toNat)) % 2 ^ 128 := by
    have hdiv := Nat.div_add_mod' (joined a0 a1) b.toNat
    have hlt := joined_lt (mul64To128 b z).1 (mul64To128 b z).2
    have hsplit : b.toNat * z.toNat = joined a0 a1 / b.toNat * b.toNat + k * b.toNat := by
      rw [hk]
      ring
    rw [hterm, hsplit] at hlt
    rw [hterm, hsplit]
    omega
  obtain ⟨z', r0, r1, hloop, hz', hr⟩ := whileNegative_correct (Nat.mod_lt _ hpos) (joined_zero_left b) hfit
    (show z.toNat = (joined a0 a1 / b.toNat + k) * (1 : BitVec 64).toNat by rw [hk]; exact (Nat.mul_one _).symm)
    (hsub.trans hrem) (show k < fuel by omega)
  exact ⟨z', r0, r1, hloop, hz'.trans (Nat.mul_one _), hr⟩

/-- A quotient with a sticky bit for its remainder. -/
theorem same_sticky {N d : Nat} (hd : 0 < d) :
    Same (2 ^ 63) ((N : ℚ) / d) ((N / d ||| if N % d ≠ 0 then 1 else 0 : Nat) : ℚ) := by
  have hdq : (0 : ℚ) < d := by exact_mod_cast hd
  have hdiv := Nat.div_add_mod' N d
  have hmod := Nat.mod_lt N hd
  by_cases hexact : N % d = 0
  · rw [if_neg (not_not.mpr hexact), Nat.or_zero]
    refine .inl ?_
    rw [div_eq_iff hdq.ne']
    rw [hexact, Nat.add_zero] at hdiv
    exact_mod_cast hdiv.symm
  · rw [if_pos hexact, or_one_eq]
    generalize hq : N / d = q at *
    have hlo : q / 2 ^ 63 * 2 ^ 63 * d < N := by
      have hle := Nat.mul_le_mul_right d (Nat.div_mul_le_self q (2 ^ 63))
      omega
    have hhi : N < (q / 2 ^ 63 + 1) * 2 ^ 63 * d := by
      have hle : (q + 1) * d ≤ (q / 2 ^ 63 + 1) * 2 ^ 63 * d := Nat.mul_le_mul_right d (by omega)
      rw [Nat.succ_mul] at hle
      omega
    have hlo' : q / 2 ^ 63 * 2 ^ 63 < 2 * (q / 2) + 1 := by omega
    have hhi' : 2 * (q / 2) + 1 < (q / 2 ^ 63 + 1) * 2 ^ 63 := by omega
    refine .inr ⟨q / 2 ^ 63, ⟨?_, ?_⟩, ?_, ?_⟩
    · rw [lt_div_iff₀ hdq]
      exact_mod_cast hlo
    · rw [div_lt_iff₀ hdq]
      exact_mod_cast hhi
    · exact_mod_cast hlo'
    · exact_mod_cast hhi'

/-- An estimate that is not near the half of a last place need not be put right. -/
theorem same_estimate {N d e : Nat} (hd : 0 < d) (hlo : N / d ≤ e) (hhi : e ≤ N / d + 2) (hfar : 8 < e * 2 % 2 ^ 64) :
    Same (2 ^ 63) ((N : ℚ) / d) e := by
  have hdq : (0 : ℚ) < d := by exact_mod_cast hd
  have hdiv := Nat.div_add_mod' N d
  have hmod := Nat.mod_lt N hd
  generalize hq : N / d = q at *
  have hcell : e / 2 ^ 63 * 2 ^ 63 < q := by omega
  have hlo' : e / 2 ^ 63 * 2 ^ 63 * d < N := by
    have hle := Nat.mul_lt_mul_of_pos_right hcell hd
    omega
  have hhi' : N < (e / 2 ^ 63 + 1) * 2 ^ 63 * d := by
    have hle : (q + 1) * d ≤ (e / 2 ^ 63 + 1) * 2 ^ 63 * d := Nat.mul_le_mul_right d (by omega)
    rw [Nat.succ_mul] at hle
    omega
  have hlow : e / 2 ^ 63 * 2 ^ 63 < e := by omega
  have hhigh : e < (e / 2 ^ 63 + 1) * 2 ^ 63 := by omega
  refine .inr ⟨e / 2 ^ 63, ⟨?_, ?_⟩, ?_, ?_⟩
  · rw [lt_div_iff₀ hdq]
    exact_mod_cast hlo'
  · rw [div_lt_iff₀ hdq]
    exact_mod_cast hhi'
  · exact_mod_cast hlow
  · exact_mod_cast hhigh

theorem quotient_same (a0 a1 : BitVec 64) (hb : b.msb = true) (ha : a0 < b)
    (hge : b.toNat * 2 ^ 63 ≤ joined a0 a1) (hfuel : 2 < fuel) :
    ∃ z, quotient fuel a0 a1 b = some z ∧ z.1.msb = true ∧
      Same (2 ^ 63) ((joined a0 a1 : ℚ) * 2 ^ 64 / b.toNat) (joined z.1 z.2) := by
  have hb0 : b ≠ 0 := by
    rintro rfl
    exact Bool.noConfusion hb
  have hpos : 0 < b.toNat := Nat.pos_of_ne_zero (mt (eq_zero_iff b).mpr hb0)
  have hposq : (0 : ℚ) < b.toNat := by exact_mod_cast hpos
  obtain ⟨e0, hest, hlo, hhi⟩ := estimateDiv128To64_bounds a1 hb ha hfuel
  obtain ⟨z0, r0, r1, hcorr, hz0, hr⟩ := corrected_exact hb0 hlo hhi hfuel
  have hmod := Nat.mod_lt (joined a0 a1) hpos
  have hblt := b.isLt
  have hr1 : r1.toNat = joined a0 a1 % b.toNat := by
    rw [← hr, ← joined_mod r0 r1]
    omega
  have hr1lt : r1 < b := BitVec.lt_def.mpr (hr1 ▸ hmod)
  -- the second word, of the remainder
  obtain ⟨e1, hest', hlo', hhi'⟩ := estimateDiv128To64_bounds 0 hb hr1lt hfuel
  obtain ⟨z1, s0, s1, hcorr', hz1, hs⟩ := corrected_exact hb0 hlo' hhi' hfuel
  rw [joined_zero_right] at hlo' hhi' hz1 hs
  have hmsb : z0.msb = true := by
    rw [msb_iff, hz0, Nat.le_div_iff_mul_le hpos, Nat.mul_comm]
    exact hge
  have hvalue : (joined a0 a1 : ℚ) * 2 ^ 64 / b.toNat =
      ((z0.toNat * 2 : Nat) : ℚ) * 2 ^ 63 + ((r1.toNat * 2 ^ 64 : Nat) : ℚ) / b.toNat := by
    have hdiv : (joined a0 a1 : ℚ) = b.toNat * z0.toNat + r1.toNat := by
      rw [hz0, hr1]
      exact_mod_cast (Nat.div_add_mod (joined a0 a1) b.toNat).symm
    rw [hdiv, div_eq_iff hposq.ne', add_mul, add_mul, div_mul_cancel₀ _ hposq.ne']
    push_cast
    ring
  have hjoin : ∀ w : BitVec 64, (joined z0 w : ℚ) = ((z0.toNat * 2 : Nat) : ℚ) * 2 ^ 63 + w.toNat := fun w => by
    rw [joined_cast, Nat.cast_mul]
    norm_num
    ring
  have hshift : e1 <<< 1 ≤ 8 ↔ e1.toNat * 2 % 2 ^ 64 ≤ 8 := by
    rw [BitVec.le_def, BitVec.toNat_shiftLeft, Nat.shiftLeft_eq]
    rfl
  rw [hvalue]
  simp only [quotient, hest, hcorr, hest', Option.bind_eq_bind, Option.bind_some]
  by_cases hnear : e1 <<< 1 ≤ 8
  · have hor : (s0 ||| s1 ≠ 0) ↔ r1.toNat * 2 ^ 64 % b.toNat ≠ 0 := by
      rw [ne_eq, or_eq_zero_iff, eq_zero_iff, eq_zero_iff, ← hs]
      unfold joined
      omega
    rw [if_pos hnear, hcorr']
    refine ⟨_, rfl, hmsb, ?_⟩
    rw [hjoin, BitVec.toNat_or, toNat_sticky, hz1]
    simp only [hor]
    exact (same_sticky hpos).add _
  · rw [if_neg hnear]
    refine ⟨_, rfl, hmsb, ?_⟩
    rw [hjoin]
    exact (same_estimate hpos hlo' hhi' (Nat.lt_of_not_le (mt hshift.mpr hnear))).add _

end Quotient

/-! ## Division -/

section Division

variable {fs : FloatStatus} {zSign : Bool} {aExp bExp : Int} {aSig bSig : BitVec 64} {fuel : Nat}

/-- Two normalised numbers are divided in at most three rounds of each loop. -/
theorem divSigs_packed (ha : aSig.msb = true) (hb : bSig.msb = true) (hfuel : 2 < fuel) :
    ∃ r, divSigs fuel fs zSign aExp aSig bExp bSig = some r ∧
      Packed (formatOf fs.floatx80RoundingPrecision) fs.floatRoundingMode zSign
        (aSig.toNat * 2 ^ (aExp - 16446) / (bSig.toNat * 2 ^ (bExp - 16446))) r := by
  have ha' := (msb_iff aSig).mp ha
  have hb' := (msb_iff bSig).mp hb
  have halt := aSig.isLt
  have hblt := bSig.isLt
  have hbq : (bSig.toNat : ℚ) ≠ 0 := by
    have hpos : 0 < bSig.toNat := by omega
    exact_mod_cast hpos.ne'
  have hle : bSig ≤ aSig ↔ bSig.toNat ≤ aSig.toNat := BitVec.le_def
  have hexp : (2 : ℚ) ^ (aExp - 16446) = 2 ^ (aExp - bExp) * 2 ^ (bExp - 16446) := by
    rw [← zpow_add₀ (by norm_num)]
    congr 1
    omega
  have hx : (aSig.toNat * 2 ^ (aExp - 16446) / (bSig.toNat * 2 ^ (bExp - 16446)) : ℚ) =
      aSig.toNat / bSig.toNat * 2 ^ (aExp - bExp) := by
    have hpos := (two_zpow_pos (bExp - 16446)).ne'
    rw [hexp]
    field_simp
  rw [hx, divSigs]
  by_cases hshift : bSig ≤ aSig
  · have hjoin := joined_shift128Right aSig (show 1 < 64 by decide)
    rw [if_pos hshift, if_pos hshift]
    generalize shift128Right aSig 0 1 = w at *
    rw [joined_zero_right] at hjoin
    have hlow := joined_div w.1 w.2
    obtain ⟨z, hz, hmsb, hsame⟩ := quotient_same w.1 w.2 hb (BitVec.lt_def.mpr (by omega))
      (by have := hle.mp hshift; omega) hfuel
    rw [hz]
    refine ⟨_, rfl, ?_⟩
    have hvalue : (aSig.toNat / bSig.toNat * 2 ^ (aExp - bExp) : ℚ) =
        (joined w.1 w.2 : ℚ) * 2 ^ 64 / bSig.toNat * 2 ^ (aExp - bExp + 0x3FFE + 1 - 16510) := by
      have hcast : (joined w.1 w.2 : ℚ) * 2 = aSig.toNat * 2 ^ 64 := by exact_mod_cast hjoin
      have hcast' : (joined w.1 w.2 : ℚ) = aSig.toNat * 2 ^ 63 := by linarith
      rw [show aExp - bExp = aExp - bExp + 0x3FFE + 1 - 16510 + (127 : Nat) by omega, two_zpow_add_natCast, hcast',
        show aExp - bExp + 0x3FFE + 1 - 16510 + (127 : Nat) + 0x3FFE + 1 - 16510 = aExp - bExp + 0x3FFE + 1 - 16510 by omega]
      ring
    rw [hvalue]
    exact roundAndPack_correct hmsb hsame
  · have hlt : aSig < bSig := BitVec.not_le.mp hshift
    rw [if_neg hshift, if_neg hshift, shift128Right, if_pos rfl]
    obtain ⟨z, hz, hmsb, hsame⟩ := quotient_same aSig 0 hb hlt
      (by rw [joined_zero_right]; omega) hfuel
    rw [hz]
    refine ⟨_, rfl, ?_⟩
    have hvalue : (aSig.toNat / bSig.toNat * 2 ^ (aExp - bExp) : ℚ) =
        (joined aSig 0 : ℚ) * 2 ^ 64 / bSig.toNat * 2 ^ (aExp - bExp + 0x3FFE - 16510) := by
      rw [show aExp - bExp = aExp - bExp + 0x3FFE - 16510 + (128 : Nat) by omega, two_zpow_add_natCast, joined_zero_right,
        show aExp - bExp + 0x3FFE - 16510 + (128 : Nat) + 0x3FFE - 16510 = aExp - bExp + 0x3FFE - 16510 by omega,
        Nat.cast_mul, Nat.cast_pow, Nat.cast_ofNat]
      ring
    rw [hvalue]
    exact roundAndPack_correct hmsb hsame

def exactDiv : Datum → Datum → Exact
  | .unsupported, _ => .invalid
  | _, .unsupported => .invalid
  | .nan, _ => .nan
  | _, .nan => .nan
  | .infinity _, .infinity _ => .invalid
  | .infinity s, .finite t _ => .infinity (s != t)
  | .finite s _, .infinity t => .finite (s != t) 0
  | .finite s x, .finite t y =>
    if y = 0 then if x = 0 then .invalid else .divByZero (s != t) else .finite (s != t) (x / y)

theorem exactDiv_unsupported (d : Datum) : exactDiv d .unsupported = .invalid := by
  cases d <;> rfl

/-- A division ends with the exact quotient, rounded once. Three rounds are enough for each loop. -/
theorem floatx80Div_delivered (n : Nat) (sp : SpecialFlags) (fs : FloatStatus) (a b : Float80) :
    ∃ r, floatx80Div (n + 3) sp fs a b = some r ∧ (exactDiv (datum a) (datum b)).Delivered fs a b r := by
  rw [floatx80Div]
  by_cases hinvalid : floatx80InvalidEncoding a = true ∨ floatx80InvalidEncoding b = true
  · rw [if_pos hinvalid]
    refine ⟨_, rfl, ?_⟩
    rcases hinvalid with ha | hb
    · rw [datum_unsupported ha]
      rfl
    · rw [datum_unsupported hb, exactDiv_unsupported]
      rfl
  obtain ⟨ha, hb⟩ := not_or.mp hinvalid
  rw [if_neg hinvalid]
  dsimp only
  by_cases hea : extractFloatx80Exp a = 0x7FFF
  · have hda := datum_special hea
    rw [if_pos hea, hea]
    by_cases hna : extractFloatx80Frac a <<< 1 ≠ 0
    · rw [if_pos hna] at hda
      rw [if_pos hna, hda]
      refine ⟨_, rfl, ?_⟩
      by_cases heb : extractFloatx80Exp b = 0x7FFF
      · rw [datum_special heb]
        split <;> rfl
      · rw [datum_number hb heb]
        rfl
    rw [if_neg hna] at hda
    rw [if_neg hna, hda]
    by_cases heb : extractFloatx80Exp b = 0x7FFF
    · have hdb := datum_special heb
      rw [if_pos heb]
      by_cases hnb : extractFloatx80Frac b <<< 1 ≠ 0
      · rw [if_pos hnb] at hdb
        rw [if_pos hnb, hdb]
        exact ⟨_, rfl, rfl⟩
      · rw [if_neg hnb] at hdb
        rw [if_neg hnb, hdb]
        exact ⟨_, rfl, rfl⟩
    · rw [if_neg heb, datum_number hb heb]
      exact ⟨_, rfl, delivered_infinity (not_not.mp hna)⟩
  rw [if_neg hea, datum_number ha hea]
  by_cases heb : extractFloatx80Exp b = 0x7FFF
  · have hdb := datum_special heb
    rw [if_pos heb]
    by_cases hnb : extractFloatx80Frac b <<< 1 ≠ 0
    · rw [if_pos hnb] at hdb
      rw [if_pos hnb, hdb]
      exact ⟨_, rfl, rfl⟩
    · rw [if_neg hnb] at hdb
      rw [if_neg hnb, hdb]
      exact ⟨_, rfl, delivered_zero rfl⟩
  rw [if_neg heb, datum_number hb heb, exactDiv]
  by_cases hzero' : extractFloatx80Exp b = 0 ∧ extractFloatx80Frac b = 0
  · rw [if_pos hzero', if_pos ((zero_iff hb heb).mp hzero')]
    by_cases hzero : extractFloatx80Exp a = 0 ∧ extractFloatx80Frac a = 0
    · rw [if_pos hzero, if_pos ((zero_iff ha hea).mp hzero)]
      exact ⟨_, rfl, rfl⟩
    · rw [if_neg hzero, if_neg (mt (zero_iff ha hea).mpr hzero)]
      exact ⟨_, rfl, datum_packInfinity (by decide), rfl⟩
  have hy := mt (zero_iff hb heb).mpr hzero'
  rw [if_neg hzero', if_neg hy]
  by_cases hzero : extractFloatx80Exp a = 0 ∧ extractFloatx80Frac a = 0
  · rw [if_pos hzero]
    exact ⟨_, rfl, delivered_zero (by rw [(zero_iff ha hea).mp hzero, zero_div])⟩
  obtain ⟨hmsb, hvalue⟩ := mulOperand_normal ha hea hzero
  obtain ⟨hmsb', hvalue'⟩ := mulOperand_normal hb heb hzero'
  have hx := mt (zero_iff ha hea).mpr hzero
  obtain ⟨r, hr, hp⟩ := divSigs_packed hmsb hmsb' (show 2 < n + 3 by omega)
  rw [if_neg hzero]
  refine ⟨r, hr, delivered_of_packed (div_ne_zero hx hy) ?_⟩
  rw [hvalue, hvalue']
  exact hp

end Division
end UaeCpu.Fpu
