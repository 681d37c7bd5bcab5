import UaeCpu.Lib.Run
import UaeCpu.Regs
import Mathlib.Logic.Function.Basic

/-!
# UaeCpu.JitConstants

The constants the compiler tracks: a virtual register with the status ISCONST has its value in
`live.state[r].val`, a `uintptr`, and with flags not needed the mid-level functions compute on it
instead of emitting code.

* `Live`             — the status and the constants.
* `midfunc`          — the functions that fold, on 64 bits.
* `execute`          — what their code computes at run time, on 32 bits.
* `constants_folded` — the two agree in every state exactly where no step leaves the 32 bits.
-/

namespace UaeCpu
namespace MidFunc

open Function

abbrev UIntPtr := BitVec 64

/-- `IMM`, an `int`. -/
abbrev Imm := BitVec 32

/-- ISCONST with `val`, or any other status: in a native register, in memory, undefined. -/
inductive VRegState where
  | isConst (val : UIntPtr)
  | held

abbrev Live := Nat → VRegState

/-- The virtual register that holds a host pointer. -/
def pcP : Nat := 16

/-! ## The functions -/

def setConst (live : Live) (r : Nat) (val : UIntPtr) : Live :=
  update live r (.isConst (if r ≠ pcP then (val.setWidth 32).setWidth 64 else val))

def movLRi (live : Live) (d : Nat) (s : UIntPtr) : Live := setConst live d s

def movLRr (live : Live) (d s : Nat) : Live :=
  if d = s then live
  else match live s with
    | .isConst val => if s = pcP then update live d .held else movLRi live d val
    | .held => update live d .held

/-- `sign_extend_pc_disp`. -/
def signExtendPcDisp (i : UIntPtr) : UIntPtr :=
  if i ≤ 0xffffffff ∧ i &&& 0x80000000 ≠ 0 then (i.setWidth 32).signExtend 64 else i

/-- `add_l_ri`. To a register that is not constant the number is added later, at run time. -/
def addLRi (live : Live) (d : Nat) (i : UIntPtr) : Live :=
  if i = 0#64 then live
  else match live d with
    | .isConst val =>
      if d = pcP then update live d (.isConst (val + signExtendPcDisp i))
      else if 0xffffffff < i ∨ 0xffffffff < val then
        let val := if val ≤ 0xffffffff ∧ 0xffffffff < i then (val.setWidth 32).signExtend 64 else val
        update live d (.isConst (val + i))
      else update live d (.isConst (((val + i).setWidth 32).setWidth 64))
    | .held => live

def addL (live : Live) (d s : Nat) : Live :=
  match live s with
  | .isConst val => addLRi live d val
  | .held => update live d .held

/-- `sub_l_ri`: the `int` is converted to a `uintptr`. -/
def subLRi (live : Live) (d : Nat) (i : Imm) : Live :=
  if i = 0#32 then live
  else match live d with
    | .isConst val => update live d (.isConst (val - i.signExtend 64))
    | .held => live

/-- A shift of `val`: C leaves counts that are negative or 64 and more undefined. -/
def shiftLRi (f : UIntPtr → Nat → UIntPtr) (live : Live) (r : Nat) (i : Imm) : Option Live :=
  if i = 0#32 then some live
  else match live r with
    | .isConst val => if i.toNat < 64 then some (update live r (.isConst (f val i.toNat))) else none
    | .held => some live

def shllLRi : Live → Nat → Imm → Option Live := shiftLRi BitVec.shiftLeft
def shrlLRi : Live → Nat → Imm → Option Live := shiftLRi BitVec.ushiftRight

def bitLRi (f : UIntPtr → UIntPtr → UIntPtr) (live : Live) (d : Nat) (i : Imm) : Live :=
  match live d with
  | .isConst val => update live d (.isConst (f val (i.signExtend 64)))
  | .held => live

def orLRi : Live → Nat → Imm → Live := bitLRi BitVec.or
def andLRi : Live → Nat → Imm → Live := bitLRi BitVec.and

/-- Reading a constant into a native register ends its being one. -/
def readBoth (live : Live) (d s : Nat) : Live := update (update live s .held) d .held

def orL (live : Live) (d s : Nat) : Live :=
  match live d, live s with
  | .isConst val, .isConst val' => update live d (.isConst (val ||| val'))
  | _, _ => readBoth live d s

def andL (live : Live) (d s : Nat) : Live := readBoth live d s

def extendRr (f : UIntPtr → UIntPtr) (live : Live) (d s : Nat) : Live :=
  match live s with
  | .isConst val => setConst live d (f val)
  | .held => update live d .held

def signExtend32Rr : Live → Nat → Nat → Live := extendRr fun val => (val.setWidth 32).signExtend 64
def signExtend16Rr : Live → Nat → Nat → Live :=
  extendRr fun val => ((val.setWidth 16).signExtend 32).signExtend 64
def signExtend8Rr : Live → Nat → Nat → Live :=
  extendRr fun val => ((val.setWidth 8).signExtend 32).signExtend 64
def zeroExtend16Rr : Live → Nat → Nat → Live := extendRr fun val => (val.setWidth 16).setWidth 64
def zeroExtend8Rr : Live → Nat → Nat → Live := extendRr fun val => (val.setWidth 8).setWidth 64

def leaLBrr (live : Live) (d s : Nat) (offset : Imm) : Live :=
  match live s with
  | .isConst val => movLRi live d (val + offset.signExtend 64)
  | .held => if d = s then live else update live d .held

def leaLRrIndexed (live : Live) (d s index : Nat) : Live :=
  update (update (update live s .held) index .held) d .held

def leaLBrrIndexed (live : Live) (d s index : Nat) (offset : Imm) : Live :=
  if offset = 0#32 then leaLRrIndexed live d s index
  else update (update (update live s .held) index .held) d .held

/-! ## Calls on guest registers -/

/-- A virtual register other than PC_P. -/
abbrev Guest := { r : Nat // r ≠ pcP }

inductive Op where
  | movLRi (d : Guest) (s : UIntPtr)
  | movLRr (d s : Guest)
  | addL (d s : Guest)
  | addLRi (d : Guest) (i : UIntPtr)
  | subLRi (d : Guest) (i : Imm)
  | shllLRi (r : Guest) (i : Imm)
  | shrlLRi (r : Guest) (i : Imm)
  | orLRi (d : Guest) (i : Imm)
  | orL (d s : Guest)
  | andLRi (d : Guest) (i : Imm)
  | andL (d s : Guest)
  | signExtend32Rr (d s : Guest)
  | signExtend16Rr (d s : Guest)
  | signExtend8Rr (d s : Guest)
  | zeroExtend16Rr (d s : Guest)
  | zeroExtend8Rr (d s : Guest)
  | leaLBrr (d s : Guest) (offset : Imm)
  | leaLRrIndexed (d s index : Guest) (factor : Imm)
  | leaLBrrIndexed (d s index : Guest) (factor offset : Imm)

/-- What a call does to the tracked constants; nothing where C leaves it undefined. -/
def midfunc (live : Live) : Op → Option Live
  | .movLRi d s => some (movLRi live d s)
  | .movLRr d s => some (movLRr live d s)
  | .addL d s => some (addL live d s)
  | .addLRi d i => some (addLRi live d i)
  | .subLRi d i => some (subLRi live d i)
  | .shllLRi r i => shllLRi live r i
  | .shrlLRi r i => shrlLRi live r i
  | .orLRi d i => some (orLRi live d i)
  | .orL d s => some (orL live d s)
  | .andLRi d i => some (andLRi live d i)
  | .andL d s => some (andL live d s)
  | .signExtend32Rr d s => some (signExtend32Rr live d s)
  | .signExtend16Rr d s => some (signExtend16Rr live d s)
  | .signExtend8Rr d s => some (signExtend8Rr live d s)
  | .zeroExtend16Rr d s => some (zeroExtend16Rr live d s)
  | .zeroExtend8Rr d s => some (zeroExtend8Rr live d s)
  | .leaLBrr d s offset => some (leaLBrr live d s offset)
  | .leaLRrIndexed d s index _ => some (leaLRrIndexed live d s index)
  | .leaLBrrIndexed d s index _ offset => some (leaLBrrIndexed live d s index offset)

abbrev Values := Guest → Long

/-- The register a call writes, and the 32-bit result its code has at run time. The processor takes
a shift count modulo 32. -/
def result (x : Values) : Op → Guest × Long
  | .movLRi d s => (d, s.setWidth 32)
  | .movLRr d s => (d, x s)
  | .addL d s => (d, x d + x s)
  | .addLRi d i => (d, x d + i.setWidth 32)
  | .subLRi d i => (d, x d - i)
  | .shllLRi r i => (r, x r <<< (i.toNat % 32))
  | .shrlLRi r i => (r, x r >>> (i.toNat % 32))
  | .orLRi d i => (d, x d ||| i)
  | .orL d s => (d, x d ||| x s)
  | .andLRi d i => (d, x d &&& i)
  | .andL d s => (d, x d &&& x s)
  | .signExtend32Rr d s => (d, x s)
  | .signExtend16Rr d s => (d, ((x s).setWidth 16).signExtend 32)
  | .signExtend8Rr d s => (d, ((x s).setWidth 8).signExtend 32)
  | .zeroExtend16Rr d s => (d, ((x s).setWidth 16).setWidth 32)
  | .zeroExtend8Rr d s => (d, ((x s).setWidth 8).setWidth 32)
  | .leaLBrr d s offset => (d, x s + offset)
  | .leaLRrIndexed d s index factor => (d, x s + x index * factor)
  | .leaLBrrIndexed d s index factor offset => (d, x s + x index * factor + offset)

def execute (x : Values) (op : Op) : Values := update x (result x op).1 (result x op).2

/-- One call: what it makes of the constants beside the values at run time. -/
def step (op : Op) (s : Option (Live × Values)) : Option (Live × Values) :=
  s.bind fun s => (midfunc s.1 op).map fun live => (live, execute s.2 op)

/-- `val` is below 2^32, and is this 32-bit value. -/
def Value (val : UIntPtr) (y : Long) : Prop := val.toNat < 2 ^ 32 ∧ val.setWidth 32 = y

/-- Every tracked constant is the value at run time. -/
def Folded (live : Live) (x : Values) : Prop :=
  ∀ (r : Guest) (val : UIntPtr), live r = .isConst val → Value val (x r)

/-- The calls so far are defined, and have folded right. -/
def Exact (s : Option (Live × Values)) : Prop := ∃ live x, s = some (live, x) ∧ Folded live x

def InWord (z : Int) : Prop := 0 ≤ z ∧ z < 2 ^ 32

/-- What a call must meet, where it folds: the sum or difference does not leave the 32 bits, no set
bit is shifted out, and no negative number is ORed in. An `IMPTR` above 32 bits is a signed number
to a signed register. -/
def Fits (live : Live) : Op → Prop
  | .addLRi d i => ∀ val, live d = .isConst val →
      i.toNat < 2 ^ 32 ∨ InWord ((val.setWidth 32).toInt + i.toInt)
  | .subLRi d i => ∀ val, live d = .isConst val → InWord (val.toNat - i.toInt)
  | .shllLRi r i => ∀ val, live r = .isConst val →
      if i.toNat < 32 then val.toNat * 2 ^ i.toNat < 2 ^ 32
      else i.toNat < 64 ∧ 2 ^ (64 - i.toNat) ∣ val.toNat
  | .shrlLRi r i => ∀ val, live r = .isConst val →
      i.toNat < 32 ∨ i.toNat < 64 ∧ val.toNat < 2 ^ (i.toNat - 32)
  | .orLRi d i => ∀ val, live d = .isConst val → 0 ≤ i.toInt
  | _ => True

/-! ## One constant -/

section Value

variable {val val' : UIntPtr} {y y' : Long}

theorem value_iff : Value val y ↔ val = y.setWidth 64 := by
  constructor
  · rintro ⟨hlt, rfl⟩
    apply BitVec.eq_of_toNat_eq
    rw [BitVec.toNat_setWidth, BitVec.toNat_setWidth]
    omega
  · rintro rfl
    have hy := y.isLt
    refine ⟨?_, ?_⟩
    · rw [BitVec.toNat_setWidth]
      omega
    · apply BitVec.eq_of_toNat_eq
      rw [BitVec.toNat_setWidth, BitVec.toNat_setWidth]
      omega

theorem Value.toNat_eq (h : Value val y) : val.toNat = y.toNat := by
  rw [← h.2, BitVec.toNat_setWidth]
  exact (Nat.mod_eq_of_lt h.1).symm

theorem value_setWidth (y : Long) : Value (y.setWidth 64) y := value_iff.mpr rfl

/-- Where the lower half is right, the value is as soon as it is below 2^32. -/
theorem value_iff_lt (h : val.setWidth 32 = y) : Value val y ↔ val.toNat < 2 ^ 32 :=
  ⟨fun hv => hv.1, fun hlt => ⟨hlt, h⟩⟩

theorem setWidth_signExtend (i : Imm) : (i.signExtend 64).setWidth 32 = i := by
  ext j hj
  simp only [BitVec.getElem_setWidth, BitVec.getLsbD_signExtend]
  simp only [decide_eq_true (show j < 64 by omega), Bool.true_and, if_pos hj, BitVec.getLsbD_eq_getElem hj]

theorem signExtend_toInt (i : Imm) : (i.signExtend 64).toInt = i.toInt :=
  BitVec.toInt_signExtend_of_le (by decide)

/-- A number of 64 bits below 2^32, as a signed one. -/
theorem lt_iff_inWord (z : UIntPtr) : z.toNat < 2 ^ 32 ↔ InWord z.toInt := by
  have hz := z.isLt
  unfold InWord
  rw [BitVec.toInt_eq_toNat_cond]
  split <;> omega

/-- A 32-bit number and any other, sign extended: no sum of the two wraps into the first 2^32. -/
theorem add_inWord (y : Imm) (i : UIntPtr) :
    (y.signExtend 64 + i).toNat < 2 ^ 32 ↔ InWord (y.toInt + i.toInt) := by
  have hy := y.isLt
  have hi := i.isLt
  have hint := signExtend_toInt y
  have hs := (y.signExtend 64).isLt
  unfold InWord
  rw [BitVec.toNat_add]
  rw [BitVec.toInt_eq_toNat_cond, BitVec.toInt_eq_toNat_cond] at hint
  rw [BitVec.toInt_eq_toNat_cond, BitVec.toInt_eq_toNat_cond]
  split at hint <;> split at hint <;> split <;> split <;> omega

theorem add_value (h : Value val y) (i : UIntPtr) :
    ((val + i).setWidth 32).setWidth 64 = (y + i.setWidth 32).setWidth 64 := by
  rw [BitVec.setWidth_add _ _ (by decide), h.2]

theorem wide_add_value (h : Value val y) (i : UIntPtr) :
    Value ((val.setWidth 32).signExtend 64 + i) (y + i.setWidth 32) ↔
      InWord ((val.setWidth 32).toInt + i.toInt) := by
  rw [value_iff_lt, add_inWord]
  rw [BitVec.setWidth_add _ _ (by decide), setWidth_signExtend, h.2]

theorem sub_value (h : Value val y) (i : Imm) :
    Value (val - i.signExtend 64) (y - i) ↔ InWord (val.toNat - i.toInt) := by
  have hlow : (val - i.signExtend 64).setWidth 32 = y - i := by
    rw [BitVec.sub_eq_add_neg, BitVec.setWidth_add _ _ (by decide), BitVec.setWidth_neg_of_le (by decide),
      setWidth_signExtend, h.2, BitVec.sub_eq_add_neg]
  have hlt := h.1
  have hi := i.isLt
  have hs := (i.signExtend 64).isLt
  have hint := signExtend_toInt i
  rw [value_iff_lt hlow, BitVec.toNat_sub]
  unfold InWord
  rw [← hint]
  rw [BitVec.toInt_eq_toNat_cond, BitVec.toInt_eq_toNat_cond] at hint
  rw [BitVec.toInt_eq_toNat_cond]
  split at hint <;> split at hint <;> split <;> omega

theorem and_value (h : Value val y) (i : Imm) : Value (val &&& i.signExtend 64) (y &&& i) := by
  constructor
  · exact Nat.lt_of_le_of_lt (by rw [BitVec.toNat_and]; exact Nat.and_le_left) h.1
  · rw [BitVec.setWidth_and, h.2, setWidth_signExtend]

theorem or_value (h : Value val y) (h' : Value val' y') : Value (val ||| val') (y ||| y') := by
  rw [value_iff, value_iff.mp h, value_iff.mp h', BitVec.setWidth_or]

/-- A negative number sets the upper half. -/
theorem or_imm_value (h : Value val y) (i : Imm) :
    Value (val ||| i.signExtend 64) (y ||| i) ↔ 0 ≤ i.toInt := by
  have hint := signExtend_toInt i
  have hi := i.isLt
  constructor
  · rintro ⟨hlt, -⟩
    have hle : (i.signExtend 64).toNat ≤ (val ||| i.signExtend 64).toNat := by
      rw [BitVec.toNat_or]
      exact Nat.right_le_or
    rw [← hint, BitVec.toInt_eq_toNat_cond]
    split <;> omega
  · intro hpos
    refine or_value h ⟨?_, setWidth_signExtend i⟩
    rw [lt_iff_inWord, hint]
    refine ⟨hpos, ?_⟩
    rw [BitVec.toInt_eq_toNat_cond]
    split <;> omega

theorem shl_value (h : Value val y) {n : Nat} (hn : n < 32) :
    Value (val <<< n) (y <<< (n % 32)) ↔ val.toNat * 2 ^ n < 2 ^ 32 := by
  have hsmall : val.toNat * 2 ^ n < 2 ^ 64 := by
    calc val.toNat * 2 ^ n < 2 ^ 32 * 2 ^ 32 :=
          Nat.mul_lt_mul_of_lt_of_le h.1 (Nat.pow_le_pow_right (by decide) (Nat.le_of_lt hn)) (by decide)
      _ = 2 ^ 64 := by decide
  have hnat : (val <<< n).toNat = val.toNat * 2 ^ n := by
    rw [BitVec.toNat_shiftLeft, Nat.shiftLeft_eq, Nat.mod_eq_of_lt hsmall]
  rw [Nat.mod_eq_of_lt hn, value_iff_lt, hnat]
  apply BitVec.eq_of_toNat_eq
  rw [BitVec.toNat_setWidth, hnat, BitVec.toNat_shiftLeft, Nat.shiftLeft_eq, h.toNat_eq]

/-- A count from 32 on, which the processor takes modulo 32: nothing may be left of the number. -/
theorem shl_value_wide (h : Value val y) {n : Nat} (hn : 32 ≤ n) (hn' : n < 64) :
    Value (val <<< n) (y <<< (n % 32)) ↔ 2 ^ (64 - n) ∣ val.toNat := by
  have hcount : n % 32 = n - 32 := by omega
  have hpow : 2 ^ n = 2 ^ 32 * 2 ^ (n - 32) := by rw [← pow_add, Nat.add_sub_cancel' hn]
  have hwide : (val <<< n).toNat = 2 ^ 32 * (2 ^ (n - 32) * (val.toNat % 2 ^ (64 - n))) := by
    rw [BitVec.toNat_shiftLeft, Nat.shiftLeft_eq, Nat.mul_comm, ← mul_assoc, ← hpow]
    rw [show 2 ^ 64 = 2 ^ n * 2 ^ (64 - n) by rw [← pow_add, Nat.add_sub_cancel' (Nat.le_of_lt hn')]]
    exact Nat.mul_mod_mul_left _ _ _
  have hnarrow : (y <<< (n % 32)).toNat = 2 ^ (n - 32) * (val.toNat % 2 ^ (64 - n)) := by
    rw [hcount, BitVec.toNat_shiftLeft, Nat.shiftLeft_eq, Nat.mul_comm, ← h.toNat_eq]
    rw [show 2 ^ 32 = 2 ^ (n - 32) * 2 ^ (64 - n) by rw [← pow_add]; congr 1; omega]
    exact Nat.mul_mod_mul_left _ _ _
  constructor
  · intro hv
    have heq := hv.toNat_eq
    rw [hwide, hnarrow] at heq
    have hzero : 2 ^ (n - 32) * (val.toNat % 2 ^ (64 - n)) = 0 := by omega
    exact Nat.dvd_of_mod_eq_zero
      ((Nat.mul_eq_zero.mp hzero).resolve_left (Nat.ne_of_gt (Nat.two_pow_pos _)))
  · intro hdvd
    rw [Nat.mod_eq_zero_of_dvd hdvd, Nat.mul_zero] at hwide hnarrow
    refine ⟨by omega, BitVec.eq_of_toNat_eq ?_⟩
    rw [BitVec.toNat_setWidth, hwide, hnarrow]
    decide

theorem shr_value (h : Value val y) {n : Nat} (hn' : n < 64) :
    Value (val >>> n) (y >>> (n % 32)) ↔ n < 32 ∨ n < 64 ∧ val.toNat < 2 ^ (n - 32) := by
  have hwide : (val >>> n).toNat = val.toNat / 2 ^ n := by
    rw [BitVec.toNat_ushiftRight, Nat.shiftRight_eq_div_pow]
  have hnarrow : (y >>> (n % 32)).toNat = val.toNat / 2 ^ (n % 32) := by
    rw [BitVec.toNat_ushiftRight, Nat.shiftRight_eq_div_pow, h.toNat_eq]
  have hlt : (val >>> n).toNat < 2 ^ 32 := by
    rw [hwide]
    exact Nat.lt_of_le_of_lt (Nat.div_le_self _ _) h.1
  have hiff : Value (val >>> n) (y >>> (n % 32)) ↔ val.toNat / 2 ^ n = val.toNat / 2 ^ (n % 32) := by
    constructor
    · intro hv
      rw [← hwide, ← hnarrow]
      exact hv.toNat_eq
    · intro heq
      refine ⟨hlt, BitVec.eq_of_toNat_eq ?_⟩
      rw [BitVec.toNat_setWidth, Nat.mod_eq_of_lt hlt, hwide, hnarrow, heq]
  rw [hiff]
  by_cases hn : n < 32
  · rw [Nat.mod_eq_of_lt hn]
    exact ⟨fun _ => .inl hn, fun _ => rfl⟩
  · have hcount : n % 32 = n - 32 := by omega
    have hgone : val.toNat / 2 ^ n = 0 :=
      Nat.div_eq_of_lt (Nat.lt_of_lt_of_le h.1 (Nat.pow_le_pow_right (by decide) (by omega)))
    rw [hcount, hgone, eq_comm, Nat.div_eq_zero_iff_lt (Nat.two_pow_pos _)]
    exact ⟨fun hv => .inr ⟨hn', hv⟩, fun hv => (hv.resolve_left hn).2⟩

end Value

/-! ## All constants -/

section Folded

variable {live : Live} {x : Values}

/-- Where a call leaves a constant, that one alone is in question. -/
theorem Folded.const_iff (h : Folded live x) (d : Guest) (val : UIntPtr) (y : Long) :
    Folded (update live d (.isConst val)) (update x d y) ↔ Value val y := by
  constructor
  · intro hf
    have hd := hf d val (update_self _ _ _)
    rwa [update_self] at hd
  · intro hv r val' hr
    by_cases hrd : r = d
    · subst hrd
      rw [update_self] at hr ⊢
      cases hr
      exact hv
    · rw [update_of_ne fun hne => hrd (Subtype.ext hne)] at hr
      rw [update_of_ne hrd]
      exact h r val' hr

theorem Folded.held (h : Folded live x) (d : Guest) (y : Long) :
    Folded (update live d .held) (update x d y) := by
  intro r val hr
  by_cases hrd : r = d
  · subst hrd
    rw [update_self] at hr
    cases hr
  · rw [update_of_ne fun hne => hrd (Subtype.ext hne)] at hr
    rw [update_of_ne hrd]
    exact h r val hr

/-- A register that is not constant may take any value. -/
theorem Folded.same {d : Guest} (h : Folded live x) (hd : live d = .held) (y : Long) :
    Folded live (update x d y) := by
  have hlive : update live d .held = live := by rw [← hd, update_eq_self]
  rw [← hlive]
  exact h.held d y

theorem Folded.read (h : Folded live x) (s : Guest) : Folded (update live s .held) x := by
  have hs := h.held s (x s)
  rwa [update_eq_self] at hs

theorem Folded.setConst (h : Folded live x) (d : Guest) {val : UIntPtr} {y : Long}
    (hv : val.setWidth 32 = y) : Folded (setConst live d val) (update x d y) := by
  rw [MidFunc.setConst, if_pos d.2, hv]
  exact (h.const_iff d _ y).mpr (value_setWidth y)

theorem Folded.extendRr (h : Folded live x) (d s : Guest) {f : UIntPtr → UIntPtr} {y : Long}
    (hf : ∀ val, val.setWidth 32 = x s → (f val).setWidth 32 = y) :
    Folded (extendRr f live d s) (update x d y) := by
  unfold MidFunc.extendRr
  cases hs : live s with
  | isConst val => exact h.setConst d (hf val (h s val hs).2)
  | held => exact h.held d y

theorem Folded.signExtend32Rr (h : Folded live x) (d s : Guest) :
    Folded (signExtend32Rr live d s) (update x d (x s)) :=
  h.extendRr d s fun val hval => by rw [setWidth_signExtend, hval]

theorem Folded.signExtend16Rr (h : Folded live x) (d s : Guest) :
    Folded (signExtend16Rr live d s) (update x d (((x s).setWidth 16).signExtend 32)) :=
  h.extendRr d s fun val hval => by
    rw [setWidth_signExtend, ← hval, BitVec.setWidth_setWidth_of_le _ (by decide)]

theorem Folded.signExtend8Rr (h : Folded live x) (d s : Guest) :
    Folded (signExtend8Rr live d s) (update x d (((x s).setWidth 8).signExtend 32)) :=
  h.extendRr d s fun val hval => by
    rw [setWidth_signExtend, ← hval, BitVec.setWidth_setWidth_of_le _ (by decide)]

theorem Folded.zeroExtend16Rr (h : Folded live x) (d s : Guest) :
    Folded (zeroExtend16Rr live d s) (update x d (((x s).setWidth 16).setWidth 32)) :=
  h.extendRr d s fun val hval => by
    rw [← hval, BitVec.setWidth_setWidth_of_le val (show 16 ≤ 32 by decide),
      BitVec.setWidth_setWidth_of_le _ (show 32 ≤ 64 by decide)]

theorem Folded.zeroExtend8Rr (h : Folded live x) (d s : Guest) :
    Folded (zeroExtend8Rr live d s) (update x d (((x s).setWidth 8).setWidth 32)) :=
  h.extendRr d s fun val hval => by
    rw [← hval, BitVec.setWidth_setWidth_of_le val (show 8 ≤ 32 by decide),
      BitVec.setWidth_setWidth_of_le _ (show 32 ≤ 64 by decide)]

theorem Folded.movLRr (h : Folded live x) (d s : Guest) :
    Folded (movLRr live d s) (update x d (x s)) := by
  unfold MidFunc.movLRr
  by_cases hds : d.1 = s.1
  · rw [if_pos hds, Subtype.ext hds, update_eq_self]
    exact h
  · rw [if_neg hds]
    cases hs : live s with
    | isConst val =>
      simp only [if_neg s.2]
      exact h.setConst d (h s val hs).2
    | held => exact h.held d (x s)

theorem Folded.leaLBrr (h : Folded live x) (d s : Guest) (offset : Imm) :
    Folded (leaLBrr live d s offset) (update x d (x s + offset)) := by
  unfold MidFunc.leaLBrr
  cases hs : live s with
  | isConst val =>
    refine h.setConst d ?_
    rw [BitVec.setWidth_add _ _ (by decide), setWidth_signExtend, (h s val hs).2]
  | held =>
    simp only
    split
    · rename_i hds
      exact h.same (by rw [Subtype.ext hds]; exact hs) _
    · exact h.held d _

theorem Folded.leaLRrIndexed (h : Folded live x) (d s index : Guest) (y : Long) :
    Folded (leaLRrIndexed live d s index) (update x d y) := ((h.read s).read index).held d y

theorem Folded.readBoth (h : Folded live x) (d s : Guest) (y : Long) :
    Folded (readBoth live d s) (update x d y) := (h.read s).held d y

theorem Folded.orL (h : Folded live x) (d s : Guest) :
    Folded (orL live d s) (update x d (x d ||| x s)) := by
  unfold MidFunc.orL
  cases hd : live d with
  | isConst val =>
    cases hs : live s with
    | isConst val' => exact (h.const_iff d _ _).mpr (or_value (h d val hd) (h s val' hs))
    | held => exact h.readBoth d s _
  | held => exact h.readBoth d s _

theorem Folded.andLRi (h : Folded live x) (d : Guest) (i : Imm) :
    Folded (andLRi live d i) (update x d (x d &&& i)) := by
  unfold MidFunc.andLRi bitLRi
  cases hd : live d with
  | isConst val => exact (h.const_iff d _ _).mpr (and_value (h d val hd) i)
  | held => exact h.same hd _

/-! A condition on the constant of a register, where it has one. -/

theorem forall_const {r : Nat} {val : UIntPtr} (hr : live r = .isConst val) {P : UIntPtr → Prop} :
    (∀ val, live r = .isConst val → P val) ↔ P val := by
  refine ⟨fun h => h val hr, fun h val' hr' => ?_⟩
  rw [hr] at hr'
  cases hr'
  exact h

theorem forall_held {r : Nat} (hr : live r = .held) {P : UIntPtr → Prop} :
    ∀ val, live r = .isConst val → P val := by
  intro val hr'
  rw [hr] at hr'
  cases hr'

theorem Folded.orLRi_iff (h : Folded live x) (d : Guest) (i : Imm) :
    Folded (orLRi live d i) (update x d (x d ||| i)) ↔ Fits live (.orLRi d i) := by
  unfold MidFunc.orLRi bitLRi
  cases hd : live d with
  | isConst val =>
    rw [Fits, forall_const hd]
    exact (h.const_iff d _ _).trans (or_imm_value (h d val hd) i)
  | held => exact ⟨fun _ => forall_held hd, fun _ => h.same hd _⟩

theorem Folded.subLRi_iff (h : Folded live x) (d : Guest) (i : Imm) :
    Folded (subLRi live d i) (update x d (x d - i)) ↔ Fits live (.subLRi d i) := by
  unfold MidFunc.subLRi
  cases hd : live d with
  | isConst val =>
    have hval := h d val hd
    rw [Fits, forall_const hd]
    by_cases hi : i = 0#32
    · subst hi
      rw [if_pos rfl, BitVec.sub_zero, update_eq_self, BitVec.toInt_zero, Int.sub_zero]
      exact ⟨fun _ => ⟨Int.natCast_nonneg _, by have := hval.1; omega⟩, fun _ => h⟩
    · rw [if_neg hi]
      exact (h.const_iff d _ _).trans (sub_value hval i)
  | held =>
    refine ⟨fun _ => forall_held hd, fun _ => ?_⟩
    split
    · exact h.same hd _
    · exact h.same hd _

/-- The constant of the other register, or one that is below 2^32 as well, never carries out. -/
theorem Folded.addLRi_low (h : Folded live x) (d : Guest) {i : UIntPtr} (hi : i.toNat < 2 ^ 32) :
    Folded (addLRi live d i) (update x d (x d + i.setWidth 32)) := by
  unfold MidFunc.addLRi
  split
  · rename_i hz
    subst hz
    have hzero : (0#64).setWidth 32 = 0#32 := by decide
    rw [hzero, BitVec.add_zero, update_eq_self]
    exact h
  · cases hd : live d with
    | isConst val =>
      have hval := h d val hd
      have hlow : ¬ (0xffffffff < i ∨ 0xffffffff < val) := by
        rw [BitVec.lt_def, BitVec.lt_def]
        have hlt := hval.1
        rintro (hlt' | hlt') <;> simp at hlt' <;> omega
      simp only [if_neg d.2, if_neg hlow]
      rw [add_value hval]
      exact (h.const_iff d _ _).mpr (value_setWidth _)
    | held => exact h.same hd _

theorem Folded.addLRi_iff (h : Folded live x) (d : Guest) (i : UIntPtr) :
    Folded (addLRi live d i) (update x d (x d + i.setWidth 32)) ↔ Fits live (.addLRi d i) := by
  by_cases hi : i.toNat < 2 ^ 32
  · exact ⟨fun _ _ _ => .inl hi, fun _ => h.addLRi_low d hi⟩
  · unfold MidFunc.addLRi
    have hne : i ≠ 0#64 := by
      rintro rfl
      exact hi (by decide)
    rw [if_neg hne]
    cases hd : live d with
    | isConst val =>
      have hval := h d val hd
      have hhigh : 0xffffffff < i := by
        rw [BitVec.lt_def]
        simp
        omega
      have hlow : val ≤ 0xffffffff := by
        have hlt := hval.1
        rw [BitVec.le_def]
        simp
        omega
      rw [Fits, forall_const hd, or_iff_right hi]
      simp only [if_neg d.2, if_pos (Or.inl hhigh), if_pos (And.intro hlow hhigh)]
      exact (h.const_iff d _ _).trans (wide_add_value hval i)
    | held => exact ⟨fun _ => forall_held hd, fun _ => h.same hd _⟩

theorem Folded.addL (h : Folded live x) (d s : Guest) :
    Folded (addL live d s) (update x d (x d + x s)) := by
  unfold MidFunc.addL
  cases hs : live s with
  | isConst val =>
    have hval := h s val hs
    rw [← hval.2]
    exact h.addLRi_low d hval.1
  | held => exact h.held d _

/-- A shift, by what it must meet: a count of nothing always does, an undefined count never. -/
theorem Folded.shiftLRi_iff (h : Folded live x) (r : Guest) (i : Imm) {f : UIntPtr → Nat → UIntPtr} {y : Long}
    {P : UIntPtr → Prop} (hzero : i = 0#32 → y = x r ∧ ∀ val, Value val (x r) → P val)
    (hshift : ∀ val, Value val (x r) → i.toNat < 64 → (Value (f val i.toNat) y ↔ P val))
    (hcount : ∀ val, P val → i.toNat < 64) :
    (∃ live', shiftLRi f live r i = some live' ∧ Folded live' (update x r y)) ↔
      ∀ val, live r = .isConst val → P val := by
  unfold shiftLRi
  by_cases hi : i = 0#32
  · obtain ⟨rfl, hP⟩ := hzero hi
    rw [if_pos hi, update_eq_self]
    exact ⟨fun _ val hval => hP val (h r val hval), fun _ => ⟨live, rfl, h⟩⟩
  · rw [if_neg hi]
    cases hr : live r with
    | isConst val =>
      have hval := h r val hr
      simp only [VRegState.isConst.injEq, forall_eq']
      by_cases hlt : i.toNat < 64
      · rw [if_pos hlt, ← hshift val hval hlt, ← h.const_iff r (f val i.toNat) y]
        exact ⟨fun ⟨_, heq, hf⟩ => Option.some.inj heq ▸ hf, fun hf => ⟨_, rfl, hf⟩⟩
      · rw [if_neg hlt]
        exact ⟨fun ⟨_, heq, _⟩ => (by cases heq), fun hP => absurd (hcount val hP) hlt⟩
    | held => exact ⟨fun _ _ hval => (by cases hval), fun _ => ⟨live, rfl, h.same hr y⟩⟩

theorem Folded.shllLRi_iff (h : Folded live x) (r : Guest) (i : Imm) :
    (∃ live', shllLRi live r i = some live' ∧ Folded live' (update x r (x r <<< (i.toNat % 32)))) ↔
      Fits live (.shllLRi r i) := by
  refine h.shiftLRi_iff r i (fun hi => ?_) (fun val hval hlt => ?_) fun val hP => ?_
  · subst hi
    refine ⟨BitVec.shiftLeft_zero _, fun val hval => ?_⟩
    rw [if_pos (by decide)]
    have hlt := hval.1
    simpa using hlt
  · by_cases hn : i.toNat < 32
    · rw [if_pos hn]
      exact shl_value hval hn
    · rw [if_neg hn, and_iff_right hlt]
      exact shl_value_wide hval (Nat.le_of_not_lt hn) hlt
  · split at hP
    · omega
    · exact hP.1

theorem Folded.shrlLRi_iff (h : Folded live x) (r : Guest) (i : Imm) :
    (∃ live', shrlLRi live r i = some live' ∧ Folded live' (update x r (x r >>> (i.toNat % 32)))) ↔
      Fits live (.shrlLRi r i) := by
  refine h.shiftLRi_iff r i (fun hi => ?_) (fun val hval hlt => shr_value hval hlt) fun val hP => ?_
  · subst hi
    exact ⟨BitVec.ushiftRight_zero _, fun _ _ => .inl (by decide)⟩
  · rcases hP with hP | hP
    · omega
    · exact hP.1

/-- One call from constants that are right. -/
theorem step_iff (h : Folded live x) (op : Op) :
    Exact (step op (some (live, x))) ↔ Fits live op := by
  have hdef : Exact (step op (some (live, x))) ↔
      ∃ live', midfunc live op = some live' ∧ Folded live' (execute x op) := by
    unfold Exact step
    cases hm : midfunc live op with
    | none => simp [hm]
    | some live' => simp [hm]
  have hsome : ∀ {live'}, midfunc live op = some live' →
      (Exact (step op (some (live, x))) ↔ Folded live' (execute x op)) := by
    intro live' hm
    rw [hdef, hm]
    simp
  cases op with
  | movLRi d s => exact (hsome rfl).trans (iff_of_true (h.setConst d rfl) trivial)
  | movLRr d s => exact (hsome rfl).trans (iff_of_true (h.movLRr d s) trivial)
  | addL d s => exact (hsome rfl).trans (iff_of_true (h.addL d s) trivial)
  | addLRi d i => exact (hsome rfl).trans (h.addLRi_iff d i)
  | subLRi d i => exact (hsome rfl).trans (h.subLRi_iff d i)
  | shllLRi r i => exact hdef.trans (h.shllLRi_iff r i)
  | shrlLRi r i => exact hdef.trans (h.shrlLRi_iff r i)
  | orLRi d i => exact (hsome rfl).trans (h.orLRi_iff d i)
  | orL d s => exact (hsome rfl).trans (iff_of_true (h.orL d s) trivial)
  | andLRi d i => exact (hsome rfl).trans (iff_of_true (h.andLRi d i) trivial)
  | andL d s => exact (hsome rfl).trans (iff_of_true (h.readBoth d s _) trivial)
  | signExtend32Rr d s => exact (hsome rfl).trans (iff_of_true (h.signExtend32Rr d s) trivial)
  | signExtend16Rr d s => exact (hsome rfl).trans (iff_of_true (h.signExtend16Rr d s) trivial)
  | signExtend8Rr d s => exact (hsome rfl).trans (iff_of_true (h.signExtend8Rr d s) trivial)
  | zeroExtend16Rr d s => exact (hsome rfl).trans (iff_of_true (h.zeroExtend16Rr d s) trivial)
  | zeroExtend8Rr d s => exact (hsome rfl).trans (iff_of_true (h.zeroExtend8Rr d s) trivial)
  | leaLBrr d s offset => exact (hsome rfl).trans (iff_of_true (h.leaLBrr d s offset) trivial)
  | leaLRrIndexed d s index factor => exact (hsome rfl).trans (iff_of_true (h.leaLRrIndexed d s index _) trivial)
  | leaLBrrIndexed d s index factor offset =>
    refine (hsome rfl).trans (iff_of_true ?_ trivial)
    rw [leaLBrrIndexed]
    split
    · exact h.leaLRrIndexed d s index _
    · exact h.leaLRrIndexed d s index _

end Folded

/-! ## Sequences of calls -/

/-- From constants that are right, the calls of a sequence keep them right throughout exactly where
each of them meets its condition. -/
theorem constants_folded (ops : List Op) (live : Live) (x : Values) (h : Folded live x) :
    Trans.Calls.Throughout step Exact ops (some (live, x)) ↔
      Trans.Calls.AllMeet step (fun op s => ∀ live x, s = some (live, x) → Fits live op) ops (some (live, x)) := by
  refine Trans.Calls.throughout_iff (A := fun _ _ => True) (I := fun _ => True) (fun _ _ _ _ => trivial)
    (fun op s _ _ hs => ?_) (Trans.Calls.allMeet_of_forall (fun _ _ => trivial) _ _) trivial ⟨live, x, rfl, h⟩
  obtain ⟨live', x', rfl, hfolded⟩ := hs
  rw [step_iff hfolded op]
  exact ⟨fun hfits l y heq => by cases heq; exact hfits, fun hfits => hfits live' x' rfl⟩

/-- No register is constant. -/
def noConst : Live := fun _ => .held

theorem folded_noConst (x : Values) : Folded noConst x := fun _ _ hr => VRegState.noConfusion hr

/-- The scratch register S1. -/
def s1 : Guest := ⟨20, by decide⟩

/-- An index of $80000000, scaled by two. -/
theorem constants_wide : ¬ ∀ (ops : List Op) (live : Live) (x : Values), Folded live x →
    Trans.Calls.Throughout step Exact ops (some (live, x)) := by
  intro h
  obtain ⟨-, -, live, x, heq, hf⟩ :=
    h [.movLRi s1 0x80000000, .shllLRi s1 1] noConst (fun _ => 0) (folded_noConst _)
  cases heq
  exact absurd (hf s1 0x100000000 rfl).1 (by decide)

/-- The same address with an index of $40000000 is right. -/
theorem constants_folded_s1 : Trans.Calls.Throughout step Exact
    [.movLRi s1 0x40000000, .shllLRi s1 1, .addLRi s1 0xfffffffc] (some (noConst, fun _ => 0)) := by
  refine (constants_folded _ noConst (fun _ => 0) (folded_noConst _)).mpr ⟨?_, ?_, ?_, trivial⟩
  · rintro live x -
    trivial
  · rintro live x heq
    cases heq
    intro val hval
    cases hval
    decide
  · rintro live x heq
    cases heq
    intro val hval
    exact .inl (by decide)

end MidFunc
end UaeCpu
