import UaeCpu.StatusReg
import Mathlib.Algebra.Order.Group.Abs
import Mathlib.Algebra.Order.Group.Int
import Mathlib.Algebra.Order.Ring.Int
import Mathlib.Algebra.Order.Ring.Abs
import Mathlib.Tactic.Linarith

/-!
# UaeCpu.LongArith

The long multiplications and divisions: `m68k_divl` and `m68k_mull`, with the C operations on
`uae_s64` each of them makes.

* `m68kDivl_law` — quotient and remainder are those of truncated division.
* `m68kMull_law` — the product is exact.
-/

namespace UaeCpu

/-- A C operation on `uae_s64`. -/
inductive SignedOp where
  | shl (a : Int) (k : Nat)
  | div (a b : Int)
  | rem (a b : Int)
  | neg (a : Int)
  | mul (a b : Int)
  deriving DecidableEq

/-- What has to be representable for the operation to be defined. A remainder goes with its
quotient. -/
def SignedOp.exact : SignedOp → Int
  | shl a k => a * 2 ^ k
  | div a b => a.tdiv b
  | rem a b => a.tdiv b
  | neg a => -a
  | mul a b => a * b

def SignedOp.Overflows (op : SignedOp) : Prop := ¬ (-2 ^ 63 ≤ op.exact ∧ op.exact < 2 ^ 63)

instance (op : SignedOp) : Decidable op.Overflows := by unfold SignedOp.Overflows; infer_instance

/-- How `m68k_divl` and `m68k_mull` return: 1, 0 behind the exception, or -1 for the caller's
`op_unimpl`. -/
inductive LongOutcome where
  | done (c : Core)
  | zeroDivide (c : Core)
  | unimplemented
  deriving DecidableEq

/-! ## Operands -/

/-- `extra & 0x800`. -/
def extraSigned (extra : Word) : Bool := extra.getLsbD 11

/-- `extra & 0x400`. -/
def extraLong (extra : Word) : Bool := extra.getLsbD 10

/-- `(extra >> 12) & 7`. -/
def extraDq (extra : Word) : Fin 8 := Fin.ofNat 8 (extra >>> 12).toNat

/-- `extra & 7`. -/
def extraDr (extra : Word) : Fin 8 := Fin.ofNat 8 extra.toNat

def Core.dreg (c : Core) (i : Fin 8) : Long := c.regs.d.get i

def Core.setDreg (c : Core) (i : Fin 8) (v : Long) : Core :=
  { c with regs := { c.regs with d := c.regs.d.set i v (reg_lt i) } }

def Core.setFlags (c : Core) (f : Flags → Flags) : Core := { c with flags := f c.flags }

/-- `UVAL64 (0xffffffff80000000)`. -/
def signMask : BitVec 64 := 0xffffffff80000000

/-! ## Division -/

/-- `divsl_overflow`. -/
def divslOverflow (p : Prefs) (c : Core) (extra : Word) (a : BitVec 64) (divider : Long) : Core :=
  if 68040 ≤ p.cpuModel.num then c.setFlags fun f => { f with v := true, c := false }
  else
    let a32 : Long := a.setWidth 32
    let neg64 := a.msb
    let neg32 := a32.msb
    let c := c.setFlags fun f => { f with v := true }
    let c :=
      if extraLong extra then
        let ahigh : Long := (a.sshiftRight 32).setWidth 32
        if ahigh = 0 then c.setFlags fun f => { f with z := true, n := false }
        else if ahigh.slt 0 && divider.slt 0 && divider.slt ahigh then
          c.setFlags fun f => { f with z := false, n := false }
        else if a32 = 0 then c.setFlags fun f => { f with z := true, n := false }
        else c.setFlags fun f => { f with z := false, n := neg32 ^^ neg64 }
      else if a32 = 0 then c.setFlags fun f => { f with z := true, n := false }
      else c.setFlags fun f => { f with n := neg32, z := false }
    c.setFlags fun f => { f with c := false }

/-- `divul_overflow`. -/
def divulOverflow (p : Prefs) (c : Core) (a : BitVec 64) : Core :=
  if 68040 ≤ p.cpuModel.num then c.setFlags fun f => { f with v := true, c := false }
  else
    let a32 : Long := a.setWidth 32
    c.setFlags fun f => { f with v := true, n := a32.msb, z := decide (a32 = 0), c := false }

/-- `divsl_divbyzero`, up to the exception. -/
def divslDivbyzero (p : Prefs) (c : Core) : Core :=
  if 68040 ≤ p.cpuModel.num then c.setFlags fun f => { f with c := false }
  else c.setFlags fun f => { f with n := false, z := true, c := false }

/-- `divul_divbyzero`, up to the exception. -/
def divulDivbyzero (p : Prefs) (c : Core) (a : BitVec 64) : Core :=
  if 68040 ≤ p.cpuModel.num then c.setFlags fun f => { f with c := false }
  else
    let a32 : Long := a.setWidth 32
    c.setFlags fun f => { f with n := a32.msb, z := decide (a32 = 0), v := true, c := false }

/-- The end of both variants: flags of the quotient, the remainder stored before the quotient. -/
def storeQuotient (c : Core) (extra : Word) (quot rem : BitVec 64) : Core :=
  let q : Long := quot.setWidth 32
  let c := c.setFlags fun f => { f with v := false, c := false, z := decide (q = 0), n := q.msb }
  (c.setDreg (extraDr extra) (rem.setWidth 32)).setDreg (extraDq extra) q

/-- The signed variant of `m68k_divl`. -/
def divsl (p : Prefs) (c : Core) (src : Long) (extra : Word) : LongOutcome × List SignedOp :=
  let dr := c.dreg (extraDr extra)
  let a : BitVec 64 := (c.dreg (extraDq extra)).signExtend 64
  let (a, ops) : BitVec 64 × List SignedOp :=
    if extraLong extra then ((a &&& (0xffffffff : BitVec 64)) ||| dr.setWidth 64 <<< 32, [.shl dr.toNat 32]) else (a, [])
  if src = 0 then (.zeroDivide (divslDivbyzero p c), ops)
  else if a = 0x8000000000000000 ∧ src = 0xffffffff then (.done (divslOverflow p c extra a src), ops)
  else
    let b : BitVec 64 := src.signExtend 64
    let rem := a.srem b
    let quot := a.sdiv b
    let ops := ops ++ [.rem a.toInt b.toInt, .div a.toInt b.toInt]
    if quot &&& signMask ≠ 0 ∧ quot &&& signMask ≠ signMask then
      (.done (divslOverflow p c extra a src), ops)
    else if (rem.setWidth 32).msb ≠ a.msb then
      (.done (storeQuotient c extra quot (-rem)), ops ++ [.neg rem.toInt])
    else (.done (storeQuotient c extra quot rem), ops)

/-- The unsigned variant of `m68k_divl`. -/
def divul (p : Prefs) (c : Core) (src : Long) (extra : Word) : LongOutcome :=
  let dr := c.dreg (extraDr extra)
  let a : BitVec 64 := (c.dreg (extraDq extra)).setWidth 64
  let a := if extraLong extra then (a &&& (0xffffffff : BitVec 64)) ||| dr.setWidth 64 <<< 32 else a
  if src = 0 then .zeroDivide (divulDivbyzero p c a)
  else
    let rem := a % src.setWidth 64
    let quot := a / src.setWidth 64
    if 0xffffffff < quot then .done (divulOverflow p c a) else .done (storeQuotient c extra quot rem)

/-- The form a 68060 without unimplemented instructions leaves to software. -/
def leftToSoftware (p : Prefs) (intNoUnimplemented : Bool) (extra : Word) : Bool :=
  extraLong extra && intNoUnimplemented && decide (p.cpuModel = .m68060)

def m68kDivl (p : Prefs) (intNoUnimplemented : Bool) (c : Core) (src : Long) (extra : Word) :
    LongOutcome × List SignedOp :=
  if leftToSoftware p intNoUnimplemented extra then (.unimplemented, [])
  else if extraSigned extra then divsl p c src extra
  else (divul p c src extra, [])

/-! ## Multiplication -/

/-- The two halves of a product, in the order of the model. -/
def storeProduct (p : Prefs) (c : Core) (extra : Word) (a : BitVec 64) : Core :=
  -- the signed variant shifts the sign in, above the bits that are stored
  let high : Long := (a >>> 32).setWidth 32
  let low : Long := a.setWidth 32
  -- "68040 is different."
  if 68040 ≤ p.cpuModel.num then (c.setDreg (extraDr extra) high).setDreg (extraDq extra) low
  else (c.setDreg (extraDq extra) low).setDreg (extraDr extra) high

/-- The signed variant of `m68k_mull`. -/
def mulsl (p : Prefs) (c : Core) (src : Long) (extra : Word) : Core × List SignedOp :=
  let d : BitVec 64 := (c.dreg (extraDq extra)).signExtend 64
  let a := d * src.signExtend 64
  let ops := [SignedOp.mul d.toInt (src.signExtend 64).toInt]
  let c := c.setFlags fun f => { f with v := false, c := false }
  if extraLong extra then
    ((storeProduct p c extra a).setFlags fun f => { f with z := decide (a = 0), n := a.msb }, ops)
  else
    let b : Long := a.setWidth 32
    let c := c.setDreg (extraDq extra) b
    let c := if a &&& signMask ≠ 0 ∧ a &&& signMask ≠ signMask then c.setFlags fun f => { f with v := true } else c
    (c.setFlags fun f => { f with z := decide (b = 0), n := b.msb }, ops)

/-- The unsigned variant of `m68k_mull`. -/
def mulul (p : Prefs) (c : Core) (src : Long) (extra : Word) : Core :=
  let a : BitVec 64 := (c.dreg (extraDq extra)).setWidth 64 * src.setWidth 64
  let c := c.setFlags fun f => { f with v := false, c := false }
  if extraLong extra then
    (storeProduct p c extra a).setFlags fun f => { f with z := decide (a = 0), n := a.msb }
  else
    let b : Long := a.setWidth 32
    let c := c.setDreg (extraDq extra) b
    let c := if a &&& (0xffffffff00000000 : BitVec 64) ≠ 0 then c.setFlags fun f => { f with v := true } else c
    c.setFlags fun f => { f with z := decide (b = 0), n := b.msb }

def m68kMull (p : Prefs) (intNoUnimplemented : Bool) (c : Core) (src : Long) (extra : Word) :
    LongOutcome × List SignedOp :=
  if leftToSoftware p intNoUnimplemented extra then (.unimplemented, [])
  else if extraSigned extra then
    let (c, ops) := mulsl p c src extra
    (.done c, ops)
  else (.done (mulul p c src extra), [])

/-! ## Words and numbers -/

/-- The number a longword stands for. -/
def longValue (signed : Bool) (v : Long) : Int := if signed then v.toInt else v.toNat

def quadValue (signed : Bool) (v : BitVec 64) : Int := if signed then v.toInt else v.toNat

/-- The numbers 32 bits hold. -/
def Fits32 (signed : Bool) (z : Int) : Prop :=
  if signed then -2 ^ 31 ≤ z ∧ z < 2 ^ 31 else 0 ≤ z ∧ z < 2 ^ 32

theorem setWidth_ofInt (signed : Bool) (v : BitVec 64) : (v.setWidth 32 : Long) = BitVec.ofInt 32 (quadValue signed v) := by
  apply BitVec.eq_of_toNat_eq
  have hv := v.isLt
  rw [BitVec.toNat_setWidth, BitVec.toNat_ofInt, quadValue]
  cases signed
  · simp only [Bool.false_eq_true, if_false]
    omega
  · simp only [if_true, BitVec.toInt_eq_toNat_cond]
    split <;> omega

theorem and_signMask (v : BitVec 64) : (v &&& signMask).toNat = v.toNat / 2 ^ 31 * 2 ^ 31 := by
  have hmask : signMask = BitVec.allOnes 64 <<< 31 := by decide
  have heq : v &&& signMask = v >>> 31 <<< 31 := by
    apply BitVec.eq_of_getLsbD_eq
    intro i hi
    rw [hmask, BitVec.getLsbD_and, BitVec.getLsbD_shiftLeft, BitVec.getLsbD_shiftLeft,
      BitVec.getLsbD_ushiftRight, BitVec.getLsbD_allOnes]
    by_cases h : i < 31
    · simp [h]
    · simp [h, hi, show 31 + (i - 31) = i by omega, show i - 31 < 64 by omega]
  have hv := v.isLt
  rw [heq, BitVec.toNat_shiftLeft, BitVec.toNat_ushiftRight, Nat.shiftRight_eq_div_pow, Nat.shiftLeft_eq,
    Nat.mod_eq_of_lt (by omega)]

/-- The mask test: whether a signed value fits 32 bits. -/
theorem signMask_iff (v : BitVec 64) :
    (v &&& signMask ≠ 0 ∧ v &&& signMask ≠ signMask) ↔ ¬ Fits32 true v.toInt := by
  have hv := v.isLt
  have hmask : signMask.toNat = 2 ^ 64 - 2 ^ 31 := by decide
  have h0 : v &&& signMask = 0 ↔ v.toNat < 2 ^ 31 := by
    rw [← BitVec.toNat_inj, and_signMask, show (0 : BitVec 64).toNat = 0 from rfl]
    omega
  have h1 : v &&& signMask = signMask ↔ 2 ^ 64 - 2 ^ 31 ≤ v.toNat := by
    rw [← BitVec.toNat_inj, and_signMask, hmask]
    omega
  rw [Ne, Ne, h0, h1, Fits32, if_pos rfl, BitVec.toInt_eq_toNat_cond]
  split <;> omega

/-- The longwords `hi` and `lo` put together. -/
theorem join_halves (x : BitVec 64) (hi : Long) {lo : Long} (hx : x.setWidth 32 = lo) :
    (x &&& (0xffffffff : BitVec 64)) ||| hi.setWidth 64 <<< 32 = (hi ++ lo : BitVec 64) := by
  subst hx
  have hmask : (0xffffffff : BitVec 64) = (BitVec.allOnes 32).setWidth 64 := by decide
  apply BitVec.eq_of_getLsbD_eq
  intro i hi'
  rw [BitVec.getLsbD_or, BitVec.getLsbD_and, hmask, BitVec.getLsbD_setWidth, BitVec.getLsbD_allOnes,
    BitVec.getLsbD_shiftLeft, BitVec.getLsbD_setWidth, BitVec.getLsbD_append, BitVec.getLsbD_setWidth]
  by_cases h : i < 32
  · simp [h, hi']
  · simp [h, hi', show i - 32 < 64 by omega]

theorem signExtend_low (x : Long) : ((x.signExtend 64 : BitVec 64).setWidth 32 : Long) = x := by
  apply BitVec.eq_of_getLsbD_eq
  intro i hi
  rw [BitVec.getLsbD_setWidth, BitVec.getLsbD_signExtend]
  simp [hi, show i < 64 by omega]

theorem zeroExtend_low (x : Long) : ((x.setWidth 64 : BitVec 64).setWidth 32 : Long) = x := by
  apply BitVec.eq_of_getLsbD_eq
  intro i hi
  rw [BitVec.getLsbD_setWidth, BitVec.getLsbD_setWidth]
  simp [hi, show i < 64 by omega]

/-! ## The law of division -/

/-- The dividend as a number. -/
def dividend (c : Core) (extra : Word) : Int :=
  if extraLong extra then quadValue (extraSigned extra) (c.dreg (extraDr extra) ++ c.dreg (extraDq extra))
  else longValue (extraSigned extra) (c.dreg (extraDq extra))

/-- The quotient `q` of `a` and `b` leaves `r`. -/
structure Leaves (a b q r : Int) : Prop where
  exact : a = q * b + r
  less : |r| < |b|
  sign : r = 0 ∨ r.sign = a.sign

theorem leaves_tdiv (a : Int) {b : Int} (hb : b ≠ 0) : Leaves a b (a.tdiv b) (a.tmod b) := by
  have habs : |a.tmod b| < |b| := by
    rw [← Int.natCast_natAbs, ← Int.natCast_natAbs, Int.natAbs_tmod]
    exact_mod_cast Nat.mod_lt _ (Int.natAbs_pos.mpr hb)
  refine ⟨by rw [mul_comm]; exact (Int.mul_tdiv_add_tmod a b).symm, habs, ?_⟩
  rcases Int.lt_trichotomy a 0 with ha | ha | ha
  · have hle : a.tmod b ≤ 0 := by
      have hneg := Int.tmod_nonneg b (show 0 ≤ -a by omega)
      rw [Int.neg_tmod] at hneg
      omega
    by_cases h0 : a.tmod b = 0
    · exact .inl h0
    · rw [Int.sign_eq_neg_one_of_neg ha, Int.sign_eq_neg_one_of_neg (by omega)]
      exact .inr rfl
  · rw [ha]
    exact .inl (Int.zero_tmod b)
  · have hge := Int.tmod_nonneg b (show 0 ≤ a by omega)
    by_cases h0 : a.tmod b = 0
    · exact .inl h0
    · rw [Int.sign_eq_one_of_pos ha, Int.sign_eq_one_of_pos (by omega)]
      exact .inr rfl

/-- The core behind a division that fits: where `Dr` and `Dq` are one register it has the quotient. -/
def divided (c : Core) (extra : Word) (q r : Int) : Core :=
  let quot : Long := BitVec.ofInt 32 q
  let c := c.setFlags fun f => { f with v := false, c := false, z := decide (q = 0), n := quot.msb }
  (c.setDreg (extraDr extra) (BitVec.ofInt 32 r)).setDreg (extraDq extra) quot

/-- A number that fits is zero when its 32 bits are. -/
theorem Fits32.ofInt_eq_zero {signed : Bool} {z : Int} (h : Fits32 signed z) :
    (BitVec.ofInt 32 z = 0) ↔ z = 0 := by
  rw [← BitVec.toNat_inj, BitVec.toNat_ofInt, show (0 : Long).toNat = 0 from rfl]
  cases signed
  · simp only [Fits32, Bool.false_eq_true, if_false] at h
    omega
  · simp only [Fits32, if_true] at h
    omega

theorem storeQuotient_eq {c : Core} {extra : Word} {signed : Bool} {quot rem : BitVec 64}
    (h : Fits32 signed (quadValue signed quot)) :
    storeQuotient c extra quot rem = divided c extra (quadValue signed quot) (quadValue signed rem) := by
  have hz : decide ((BitVec.ofInt 32 (quadValue signed quot) : Long) = 0) = decide (quadValue signed quot = 0) :=
    decide_eq_decide.mpr h.ofInt_eq_zero
  rw [storeQuotient, divided, setWidth_ofInt signed quot, setWidth_ofInt signed rem]
  simp only [hz]

theorem divslOverflow_flags (p : Prefs) (c : Core) (extra : Word) (a : BitVec 64) (d : Long) :
    ∃ f : Flags, f.v = true ∧ divslOverflow p c extra a d = { c with flags := f } := by
  unfold divslOverflow Core.setFlags
  dsimp only
  split_ifs <;> exact ⟨_, rfl, rfl⟩

theorem divulOverflow_flags (p : Prefs) (c : Core) (a : BitVec 64) :
    ∃ f : Flags, f.v = true ∧ divulOverflow p c a = { c with flags := f } := by
  unfold divulOverflow Core.setFlags
  split_ifs <;> exact ⟨_, rfl, rfl⟩

/-- What a division of `a` by `b` has to end with. -/
def DivEnds (c : Core) (extra : Word) (signed : Bool) (a b : Int) (o : LongOutcome) : Prop :=
  (Fits32 signed (a.tdiv b) → o = .done (divided c extra (a.tdiv b) (a.tmod b))) ∧
    (¬ Fits32 signed (a.tdiv b) → ∃ f : Flags, f.v = true ∧ o = .done { c with flags := f })

/-- The sign test of the remainder never turns one that is not zero. -/
theorem rem_sign {a rem : BitVec 64} {b : Int} (hb : -2 ^ 31 ≤ b ∧ b < 2 ^ 31) (hb0 : b ≠ 0)
    (hrem : rem.toInt = a.toInt.tmod b) (hne : (rem.setWidth 32 : Long).msb ≠ a.msb) : rem = 0 := by
  obtain ⟨-, hless, hsign⟩ := leaves_tdiv a.toInt hb0
  rw [← hrem] at hless hsign
  have hbabs : |b| ≤ 2 ^ 31 := abs_le.mpr ⟨hb.1, hb.2.le⟩
  obtain ⟨hlo, hhi⟩ := abs_lt.mp (lt_of_lt_of_le hless hbabs)
  have hr := rem.isLt
  have ha := a.isLt
  have hmsb : (rem.setWidth 32 : Long).msb = decide (rem.toInt < 0) := by
    rw [BitVec.msb_eq_decide, BitVec.toNat_setWidth, decide_eq_decide]
    rw [BitVec.toInt_eq_toNat_cond] at hlo hhi ⊢
    split at hlo <;> omega
  have hamsb : a.msb = decide (a.toInt < 0) := BitVec.msb_eq_toInt
  obtain h0 | hs := hsign
  · exact BitVec.toInt_inj.mp (by rw [h0]; rfl)
  · rw [hmsb, hamsb] at hne
    refine absurd ?_ hne
    rw [decide_eq_decide, ← Int.sign_eq_neg_one_iff_neg, ← Int.sign_eq_neg_one_iff_neg, hs]

theorem divsl_ends (p : Prefs) (c : Core) {src : Long} (extra : Word) (hsrc : src ≠ 0)
    (hs : extraSigned extra = true) :
    DivEnds c extra true (dividend c extra) src.toInt (divsl p c src extra).1 ∧
      ∀ op ∈ (divsl p c src extra).2, op.Overflows → ∃ a k, op = .shl a k := by
  obtain ⟨a, ops, hpair, ha, hops⟩ : ∃ (a : BitVec 64) (ops : List SignedOp),
      (if extraLong extra then
        (((c.dreg (extraDq extra)).signExtend 64 &&& (0xffffffff : BitVec 64)) |||
          (c.dreg (extraDr extra)).setWidth 64 <<< 32, [SignedOp.shl (c.dreg (extraDr extra)).toNat 32])
      else ((c.dreg (extraDq extra)).signExtend 64, [])) = (a, ops) ∧
      a.toInt = dividend c extra ∧ ∀ op ∈ ops, ∃ a k, op = .shl a k := by
    by_cases hl : extraLong extra = true
    · refine ⟨_, _, if_pos hl, ?_, by simp⟩
      rw [join_halves _ _ (signExtend_low _), dividend, if_pos hl, hs, quadValue, if_pos rfl]
    · refine ⟨_, _, if_neg hl, ?_, by simp⟩
      rw [dividend, if_neg hl, hs, longValue, if_pos rfl, BitVec.toInt_signExtend_of_le (by omega)]
  have hb : (src.signExtend 64).toInt = src.toInt := BitVec.toInt_signExtend_of_le (by omega)
  have hb0 : src.toInt ≠ 0 := fun h => hsrc (BitVec.toInt_inj.mp (by rw [h]; rfl))
  have hrange : -2 ^ 31 ≤ src.toInt ∧ src.toInt < 2 ^ 31 := ⟨BitVec.le_toInt src, BitVec.toInt_lt⟩
  unfold divsl
  simp only [hpair, if_neg hsrc]
  by_cases hmin : a = 0x8000000000000000 ∧ src = 0xffffffff
  · rw [if_pos hmin]
    have hq : (dividend c extra).tdiv src.toInt = 2 ^ 63 := by
      rw [← ha, hmin.1, hmin.2]
      decide
    refine ⟨⟨fun hfit => ?_, fun _ => ?_⟩, fun op hop _ => hops op hop⟩
    · rw [hq, Fits32, if_pos rfl] at hfit
      omega
    · obtain ⟨f, hv, hf⟩ := divslOverflow_flags p c extra a src
      exact ⟨f, hv, congrArg LongOutcome.done hf⟩
  · rw [if_neg hmin]
    have hquot : (a.sdiv (src.signExtend 64)).toInt = (dividend c extra).tdiv src.toInt := by
      rw [BitVec.toInt_sdiv_of_ne_or_ne, ha, hb]
      by_contra hc
      rw [not_or, not_not, not_not] at hc
      refine hmin ⟨hc.1, BitVec.toInt_inj.mp ?_⟩
      rw [← hb, hc.2]
      decide
    have hrem : (a.srem (src.signExtend 64)).toInt = a.toInt.tmod src.toInt := by
      rw [BitVec.toInt_srem, hb]
    have hrange64 := And.intro (BitVec.le_toInt (a.sdiv (src.signExtend 64)))
      (BitVec.toInt_lt (x := a.sdiv (src.signExtend 64)))
    rw [hquot] at hrange64
    have hdiv : ∀ op ∈ ops ++ [SignedOp.rem a.toInt (src.signExtend 64).toInt,
        SignedOp.div a.toInt (src.signExtend 64).toInt], op.Overflows → ∃ a k, op = .shl a k := by
      intro op hop hover
      rw [List.mem_append, ha, hb] at hop
      obtain hop | hop := hop
      · exact hops op hop
      · simp only [List.mem_cons, List.not_mem_nil, or_false] at hop
        obtain rfl | rfl := hop <;> exact absurd hrange64 hover
    have hmask := signMask_iff (a.sdiv (src.signExtend 64))
    rw [hquot] at hmask
    by_cases hfit : Fits32 true ((dividend c extra).tdiv src.toInt)
    · rw [if_neg fun h => hmask.mp h hfit]
      have hstore : ∀ rem : BitVec 64, rem.toInt = (dividend c extra).tmod src.toInt →
          storeQuotient c extra (a.sdiv (src.signExtend 64)) rem =
            divided c extra ((dividend c extra).tdiv src.toInt) ((dividend c extra).tmod src.toInt) := by
        intro rem hr
        have hq : quadValue true (a.sdiv (src.signExtend 64)) = (dividend c extra).tdiv src.toInt := hquot
        have hfits : Fits32 true (quadValue true (a.sdiv (src.signExtend 64))) := by
          rw [hq]
          exact hfit
        rw [storeQuotient_eq hfits, hq]
        exact congrArg _ hr
      split_ifs with hsign
      · have hz := rem_sign hrange hb0 hrem hsign
        refine ⟨⟨fun _ => ?_, fun h => absurd hfit h⟩, fun op hop hover => ?_⟩
        · rw [hz] at hrem ⊢
          refine congrArg LongOutcome.done (hstore _ ?_)
          rw [← ha, ← hrem]
          decide
        · obtain hop | hop := List.mem_append.mp hop
          · exact hdiv op hop hover
          · rw [List.mem_singleton.mp hop, hz] at hover
            exact absurd hover (by decide)
      · exact ⟨⟨fun _ => congrArg LongOutcome.done (hstore _ (by rw [hrem, ha])), fun h => absurd hfit h⟩, hdiv⟩
    · rw [if_pos (hmask.mpr hfit)]
      refine ⟨⟨fun h => absurd h hfit, fun _ => ?_⟩, hdiv⟩
      obtain ⟨f, hv, hf⟩ := divslOverflow_flags p c extra a src
      exact ⟨f, hv, congrArg LongOutcome.done hf⟩

theorem divul_ends (p : Prefs) (c : Core) {src : Long} (extra : Word) (hsrc : src ≠ 0)
    (hs : extraSigned extra = false) :
    DivEnds c extra false (dividend c extra) (src.toNat : Int) (divul p c src extra) := by
  obtain ⟨a, heq, ha⟩ : ∃ a : BitVec 64,
      (if extraLong extra then
        ((c.dreg (extraDq extra)).setWidth 64 &&& (0xffffffff : BitVec 64)) ||| (c.dreg (extraDr extra)).setWidth 64 <<< 32
      else (c.dreg (extraDq extra)).setWidth 64) = a ∧ (a.toNat : Int) = dividend c extra := by
    by_cases hl : extraLong extra = true
    · refine ⟨_, if_pos hl, ?_⟩
      rw [join_halves _ _ (zeroExtend_low _), dividend, if_pos hl, hs, quadValue, if_neg (by simp)]
    · refine ⟨_, if_neg hl, ?_⟩
      rw [dividend, if_neg hl, hs, longValue, if_neg (by simp), BitVec.toNat_setWidth_of_le (by omega)]
  have hb : (src.setWidth 64 : BitVec 64).toNat = src.toNat := BitVec.toNat_setWidth_of_le (by omega)
  unfold divul
  simp only [heq, if_neg hsrc]
  have hquot : quadValue false (a / src.setWidth 64) = (dividend c extra).tdiv src.toNat := by
    rw [← ha, quadValue, if_neg (by simp), BitVec.toNat_udiv, hb]
    exact (Int.ofNat_tdiv _ _).symm
  have hrem : quadValue false (a % src.setWidth 64) = (dividend c extra).tmod src.toNat := by
    rw [← ha, quadValue, if_neg (by simp), BitVec.toNat_umod, hb]
    exact (Int.ofNat_tmod _ _).symm
  have hlt : 0xffffffff < a / src.setWidth 64 ↔ ¬ Fits32 false ((dividend c extra).tdiv src.toNat) := by
    rw [← hquot, Fits32, if_neg (by simp), quadValue, if_neg (by simp), BitVec.lt_def,
      show (0xffffffff : BitVec 64).toNat = 2 ^ 32 - 1 from rfl]
    omega
  by_cases hfit : Fits32 false ((dividend c extra).tdiv src.toNat)
  · rw [if_neg fun h => hlt.mp h hfit]
    refine ⟨fun _ => ?_, fun h => absurd hfit h⟩
    rw [← hquot] at hfit
    rw [storeQuotient_eq hfit, hquot, hrem]
  · rw [if_pos (hlt.mpr hfit)]
    refine ⟨fun h => absurd h hfit, fun _ => ?_⟩
    obtain ⟨f, hv, hf⟩ := divulOverflow_flags p c a
    exact ⟨f, hv, congrArg LongOutcome.done hf⟩

/-- Quotient and remainder are those of truncated division where the quotient fits, and nothing but
the flags changes where it does not; only the shift that builds a long dividend can overflow. -/
theorem m68kDivl_law (p : Prefs) (intNoUnimplemented : Bool) (c : Core) {src : Long} (extra : Word)
    (hsrc : src ≠ 0) :
    let r := m68kDivl p intNoUnimplemented c src extra
    let a := dividend c extra
    let b := longValue (extraSigned extra) src
    (leftToSoftware p intNoUnimplemented extra = true → r.1 = .unimplemented) ∧
      (leftToSoftware p intNoUnimplemented extra = false →
        DivEnds c extra (extraSigned extra) a b r.1 ∧ Leaves a b (a.tdiv b) (a.tmod b)) ∧
      ∀ op ∈ r.2, op.Overflows → ∃ a k, op = .shl a k := by
  intro r a b
  have hb0 : b ≠ 0 := by
    intro h
    apply hsrc
    change longValue (extraSigned extra) src = 0 at h
    rw [longValue] at h
    split_ifs at h
    · exact BitVec.toInt_inj.mp (by rw [h]; rfl)
    · exact BitVec.toNat_inj.mp (by rw [show (0 : Long).toNat = 0 from rfl]; omega)
  change (_ → (m68kDivl p intNoUnimplemented c src extra).1 = _) ∧
    (_ → DivEnds c extra (extraSigned extra) a b (m68kDivl p intNoUnimplemented c src extra).1 ∧ _) ∧
    ∀ op ∈ (m68kDivl p intNoUnimplemented c src extra).2, _
  rw [m68kDivl]
  cases hl : leftToSoftware p intNoUnimplemented extra
  · refine ⟨fun h => absurd h (by simp), fun _ => ⟨?_, leaves_tdiv a hb0⟩, ?_⟩
    · cases hs : extraSigned extra
      · have hbv : b = src.toNat := by simp [b, hs, longValue]
        rw [hbv]
        exact divul_ends p c extra hsrc hs
      · have hbv : b = src.toInt := by simp [b, hs, longValue]
        rw [hbv]
        exact (divsl_ends p c extra hsrc hs).1
    · cases hs : extraSigned extra
      · simp
      · exact (divsl_ends p c extra hsrc hs).2
  · exact ⟨fun _ => rfl, fun h => absurd h (by simp), by simp⟩

/-- 10 and 3 by the signed 32-bit form; 3 * 2^32 and 2 by the unsigned one with a long dividend, whose
quotient does not fit. -/
theorem m68kDivl_ten :
    DivEnds (Core.zero.setDreg 0 10) 0x0801 true (dividend (Core.zero.setDreg 0 10) 0x0801) 3
      (m68kDivl (.plain .m68020) false (Core.zero.setDreg 0 10) 3 0x0801).1 ∧
    ¬ Fits32 false ((dividend (Core.zero.setDreg 1 3) 0x0401).tdiv 2) ∧
    DivEnds (Core.zero.setDreg 1 3) 0x0401 false (dividend (Core.zero.setDreg 1 3) 0x0401) 2
      (m68kDivl (.plain .m68020) false (Core.zero.setDreg 1 3) 2 0x0401).1 := by
  refine ⟨((m68kDivl_law (.plain .m68020) false (Core.zero.setDreg 0 10) 0x0801
    (show (3 : Long) ≠ 0 by decide)).2.1 rfl).1, ?_, ((m68kDivl_law (.plain .m68020) false
    (Core.zero.setDreg 1 3) 0x0401 (show (2 : Long) ≠ 0 by decide)).2.1 rfl).1⟩
  have hd : dividend (Core.zero.setDreg 1 3) 0x0401 = 3 * 2 ^ 32 := by decide
  rw [hd, Fits32, if_neg (by simp)]
  decide

/-- A 68060 without unimplemented instructions leaves 0:10 by 3 to software; and the high half of a
negative dividend does not fit where C shifts it. -/
theorem m68kDivl_left :
    Fits32 false ((dividend (Core.zero.setDreg 0 10) 0x0401).tdiv 3) ∧
      (m68kDivl (.plain .m68060) true (Core.zero.setDreg 0 10) 3 0x0401).1 = .unimplemented ∧
      ∃ op ∈ (m68kDivl (.plain .m68020) false (Core.zero.setDreg 1 0xffffffff) 3 0x0c01).2, op.Overflows := by
  refine ⟨?_, by decide, .shl 0xffffffff 32, by decide, by decide⟩
  have hd : dividend (Core.zero.setDreg 0 10) 0x0401 = 10 := by decide
  rw [hd, Fits32, if_neg (by simp)]
  decide

/-! ## The law of multiplication -/

instance (signed : Bool) (z : Int) : Decidable (Fits32 signed z) := by unfold Fits32; infer_instance

/-- The numbers 64 bits hold. -/
def Fits64 (signed : Bool) (z : Int) : Prop :=
  if signed then -2 ^ 63 ≤ z ∧ z < 2 ^ 63 else 0 ≤ z ∧ z < 2 ^ 64

def factor (c : Core) (extra : Word) : Int := longValue (extraSigned extra) (c.dreg (extraDq extra))

/-- The core behind a multiplication whose product is `z`. -/
def multiplied (p : Prefs) (c : Core) (extra : Word) (z : Int) (overflow : Bool) : Core :=
  let product : BitVec 64 := BitVec.ofInt 64 z
  if extraLong extra then
    let high : Long := product.extractLsb' 32 32
    let low : Long := product.extractLsb' 0 32
    let c := c.setFlags fun f => { f with v := false, c := false, z := decide (z = 0), n := product.msb }
    if 68040 ≤ p.cpuModel.num then (c.setDreg (extraDr extra) high).setDreg (extraDq extra) low
    else (c.setDreg (extraDq extra) low).setDreg (extraDr extra) high
  else
    let low : Long := BitVec.ofInt 32 z
    (c.setFlags fun f => { f with v := overflow, c := false, z := decide (low = 0), n := low.msb }).setDreg
      (extraDq extra) low

theorem longValue_range (signed : Bool) (v : Long) : Fits32 signed (longValue signed v) := by
  have hv := v.isLt
  rw [Fits32, longValue]
  cases signed
  · simp only [Bool.false_eq_true, if_false]
    omega
  · simp only [if_true]
    exact ⟨BitVec.le_toInt v, BitVec.toInt_lt⟩

/-- The product of two longwords fits 64 bits. -/
theorem product_fits (signed : Bool) (v u : Long) : Fits64 signed (longValue signed v * longValue signed u) := by
  have hv := longValue_range signed v
  have hu := longValue_range signed u
  generalize longValue signed v = x at hv
  generalize longValue signed u = y at hu
  rw [Fits32] at hv hu
  rw [Fits64]
  cases signed
  · rw [if_neg (by simp)] at hv hu ⊢
    exact ⟨mul_nonneg hv.1 hu.1, by nlinarith [hv.1, hv.2, hu.1, hu.2]⟩
  · rw [if_pos rfl] at hv hu ⊢
    have habs : |x * y| ≤ 2 ^ 31 * 2 ^ 31 := by
      rw [abs_mul]
      exact mul_le_mul (abs_le.mpr ⟨hv.1, hv.2.le⟩) (abs_le.mpr ⟨hu.1, hu.2.le⟩) (abs_nonneg y) (by norm_num)
    obtain ⟨hlo, hhi⟩ := abs_le.mp habs
    constructor <;> omega

theorem quadValue_ofInt {signed : Bool} {z : Int} (h : Fits64 signed z) : quadValue signed (BitVec.ofInt 64 z) = z := by
  rw [Fits64] at h
  rw [quadValue]
  cases signed
  · rw [if_neg (by simp)] at h ⊢
    rw [BitVec.toNat_ofInt]
    omega
  · rw [if_pos rfl] at h ⊢
    exact BitVec.toInt_ofInt_eq_self (by omega) h.1 h.2

theorem Fits64.ofInt_eq_zero {signed : Bool} {z : Int} (h : Fits64 signed z) : BitVec.ofInt 64 z = 0 ↔ z = 0 := by
  constructor
  · intro h0
    rw [← quadValue_ofInt h, h0, quadValue]
    split_ifs <;> rfl
  · rintro rfl
    rfl

/-- A factor widened to 64 bits. -/
theorem widened_signed (v : Long) : (v.signExtend 64 : BitVec 64) = BitVec.ofInt 64 (longValue true v) := by
  rw [longValue, if_pos rfl, ← BitVec.toInt_signExtend_of_le (v := 64) (by omega), BitVec.ofInt_toInt]

theorem widened_unsigned (v : Long) : (v.setWidth 64 : BitVec 64) = BitVec.ofInt 64 (longValue false v) := by
  rw [longValue, if_neg (by simp), BitVec.ofInt_natCast, BitVec.ofNat_toNat]

theorem highMask_iff (v : BitVec 64) :
    v &&& (0xffffffff00000000 : BitVec 64) ≠ 0 ↔ ¬ Fits32 false (quadValue false v) := by
  have hmask : (0xffffffff00000000 : BitVec 64) = BitVec.allOnes 64 <<< 32 := by decide
  have heq : v &&& (0xffffffff00000000 : BitVec 64) = v >>> 32 <<< 32 := by
    apply BitVec.eq_of_getLsbD_eq
    intro i hi
    rw [hmask, BitVec.getLsbD_and, BitVec.getLsbD_shiftLeft, BitVec.getLsbD_shiftLeft,
      BitVec.getLsbD_ushiftRight, BitVec.getLsbD_allOnes]
    by_cases h : i < 32
    · simp [h]
    · simp [h, hi, show 32 + (i - 32) = i by omega, show i - 32 < 64 by omega]
  have hv := v.isLt
  rw [heq, Ne, ← BitVec.toNat_inj, BitVec.toNat_shiftLeft, BitVec.toNat_ushiftRight,
    Nat.shiftRight_eq_div_pow, Nat.shiftLeft_eq, Nat.mod_eq_of_lt (by omega),
    show (0 : BitVec 64).toNat = 0 from rfl, Fits32, if_neg (by simp), quadValue, if_neg (by simp)]
  omega

theorem storeProduct_eq (p : Prefs) (c : Core) (extra : Word) (a : BitVec 64) :
    storeProduct p c extra a =
      if 68040 ≤ p.cpuModel.num then
        (c.setDreg (extraDr extra) (a.extractLsb' 32 32)).setDreg (extraDq extra) (a.extractLsb' 0 32)
      else (c.setDreg (extraDq extra) (a.extractLsb' 0 32)).setDreg (extraDr extra) (a.extractLsb' 32 32) := by
  have hhigh : ((a >>> 32).setWidth 32 : Long) = a.extractLsb' 32 32 := by
    apply BitVec.eq_of_getLsbD_eq
    intro i hi
    simp [hi]
  have hlow : (a.setWidth 32 : Long) = a.extractLsb' 0 32 := by
    apply BitVec.eq_of_getLsbD_eq
    intro i hi
    simp [hi]
  rw [storeProduct, hhigh, hlow]

theorem mulsl_eq (p : Prefs) (c : Core) (src : Long) (extra : Word) (hs : extraSigned extra = true) :
    (mulsl p c src extra).1 = multiplied p c extra (factor c extra * longValue true src)
        (!decide (Fits32 true (factor c extra * longValue true src))) ∧
      ∀ op ∈ (mulsl p c src extra).2, ¬ op.Overflows := by
  have hfit := product_fits true (c.dreg (extraDq extra)) src
  have hfactor : factor c extra = longValue true (c.dreg (extraDq extra)) := by rw [factor, hs]
  have hprod : (c.dreg (extraDq extra)).signExtend 64 * src.signExtend 64 =
      BitVec.ofInt 64 (factor c extra * longValue true src) := by
    rw [widened_signed, widened_signed, hfactor, BitVec.ofInt_mul]
  rw [← hfactor] at hfit
  constructor
  · rw [mulsl, multiplied, hprod]
    by_cases hl : extraLong extra = true
    · simp only [if_pos hl, storeProduct_eq, hfit.ofInt_eq_zero]
      split_ifs <;> rfl
    · have hv := signMask_iff (BitVec.ofInt 64 (factor c extra * longValue true src))
      have hq := quadValue_ofInt hfit
      rw [quadValue, if_pos rfl] at hq
      rw [hq] at hv
      have hlow := setWidth_ofInt true (BitVec.ofInt 64 (factor c extra * longValue true src))
      rw [quadValue_ofInt hfit] at hlow
      simp only [if_neg hl, hlow, hv]
      by_cases h32 : Fits32 true (factor c extra * longValue true src)
      · simp only [h32, not_true, if_false, decide_true, Bool.not_true]
        rfl
      · simp only [h32, not_false_eq_true, if_true, decide_false, Bool.not_false]
        rfl
  · intro op hop
    rw [mulsl] at hop
    have hop : op = .mul ((c.dreg (extraDq extra)).signExtend 64).toInt (src.signExtend 64).toInt := by
      split_ifs at hop <;> exact List.mem_singleton.mp hop
    rw [hop, SignedOp.Overflows, not_not, SignedOp.exact, BitVec.toInt_signExtend_of_le (by omega),
      BitVec.toInt_signExtend_of_le (by omega)]
    rw [hfactor, longValue, longValue, if_pos rfl, if_pos rfl, Fits64, if_pos rfl] at hfit
    exact hfit

theorem mulul_eq (p : Prefs) (c : Core) (src : Long) (extra : Word) (hs : extraSigned extra = false) :
    mulul p c src extra = multiplied p c extra (factor c extra * longValue false src)
      (!decide (Fits32 false (factor c extra * longValue false src))) := by
  have hfit := product_fits false (c.dreg (extraDq extra)) src
  have hfactor : factor c extra = longValue false (c.dreg (extraDq extra)) := by rw [factor, hs]
  have hprod : (c.dreg (extraDq extra)).setWidth 64 * src.setWidth 64 =
      BitVec.ofInt 64 (factor c extra * longValue false src) := by
    rw [widened_unsigned, widened_unsigned, hfactor, BitVec.ofInt_mul]
  rw [← hfactor] at hfit
  rw [mulul, multiplied, hprod]
  by_cases hl : extraLong extra = true
  · simp only [if_pos hl, storeProduct_eq, hfit.ofInt_eq_zero]
    split_ifs <;> rfl
  · have hv := highMask_iff (BitVec.ofInt 64 (factor c extra * longValue false src))
    rw [quadValue_ofInt hfit] at hv
    have hlow := setWidth_ofInt false (BitVec.ofInt 64 (factor c extra * longValue false src))
    rw [quadValue_ofInt hfit] at hlow
    simp only [if_neg hl, hlow, hv]
    by_cases h32 : Fits32 false (factor c extra * longValue false src)
    · simp only [h32, not_true, if_false, decide_true, Bool.not_true]
      rfl
    · simp only [h32, not_false_eq_true, if_true, decide_false, Bool.not_false]
      rfl

/-- The product is exact, and no signed multiplication overflows. -/
theorem m68kMull_law (p : Prefs) (intNoUnimplemented : Bool) (c : Core) (src : Long) (extra : Word) :
    let r := m68kMull p intNoUnimplemented c src extra
    let z := factor c extra * longValue (extraSigned extra) src
    (leftToSoftware p intNoUnimplemented extra = true → r.1 = .unimplemented) ∧
      (leftToSoftware p intNoUnimplemented extra = false →
        r.1 = .done (multiplied p c extra z (!decide (Fits32 (extraSigned extra) z))) ∧
          Fits64 (extraSigned extra) z) ∧
      ∀ op ∈ r.2, ¬ op.Overflows := by
  intro r z
  change (_ → (m68kMull p intNoUnimplemented c src extra).1 = _) ∧
    (_ → (m68kMull p intNoUnimplemented c src extra).1 = _ ∧ _) ∧
    ∀ op ∈ (m68kMull p intNoUnimplemented c src extra).2, _
  have hfit : Fits64 (extraSigned extra) z := product_fits (extraSigned extra) _ src
  rw [m68kMull]
  cases hl : leftToSoftware p intNoUnimplemented extra
  · refine ⟨fun h => absurd h (by simp), fun _ => ⟨?_, hfit⟩, ?_⟩
    · cases hs : extraSigned extra
      · have hz : z = factor c extra * longValue false src := by simp only [z, hs]
        rw [hz]
        exact congrArg LongOutcome.done (mulul_eq p c src extra hs)
      · have hz : z = factor c extra * longValue true src := by simp only [z, hs]
        rw [hz]
        exact congrArg LongOutcome.done (mulsl_eq p c src extra hs).1
    · cases hs : extraSigned extra
      · simp
      · exact (mulsl_eq p c src extra hs).2
  · exact ⟨fun _ => rfl, fun h => absurd h (by simp), by simp⟩

/-- A 68060 without unimplemented instructions leaves the 64-bit product of 10 and 3 to software. -/
theorem m68kMull_left :
    (m68kMull (.plain .m68060) true (Core.zero.setDreg 0 10) 3 0x0401).1 = .unimplemented ∧
      (m68kMull (.plain .m68060) false (Core.zero.setDreg 0 10) 3 0x0401).1 ≠ .unimplemented := by
  decide

end UaeCpu
