import UaeCpu.Regs
import UaeCpu.Lib.ByteMem

/-!
# UaeCpu.Bitfield

The bitfield instructions' access to memory: `get_bitfield`, which reads the one to five bytes a
field lies in and keeps what surrounds it, and `put_bitfield`, which writes them back around a new
value; with their `x_` copies for the accessors a handler table brings along.

A field lies in at most two parts, a byte, a word or a long each. `kept_right`, `kept_left`,
`put_left` and `put_right` say bit by bit what the shifts of a part do; `Part` puts them together.
-/

namespace UaeCpu

open Fault FaultM Mem

/-- The access functions of the handlers: `get_byte`, ..., or `x_cp_get_byte`, ... -/
structure FieldAccess (σ : Type) where
  getByte : Long → FaultM σ Byte
  getWord : Long → FaultM σ Word
  getLong : Long → FaultM σ Long
  putByte : Long → Byte → FaultM σ Unit
  putWord : Long → Word → FaultM σ Unit
  putLong : Long → Long → FaultM σ Unit

variable {σ : Type}

/-! ## The four functions -/

namespace FieldAccess

variable (q : FieldAccess σ)

/-- `mask`. -/
def fieldMask (width : Nat) : Long := (0xffffffff : Long) <<< (32 - width)

/-- `offset & 7`. -/
def fieldOffset (offset : Long) : Nat := (offset &&& 7).toNat

/-- `get_bitfield`: the field in the top bits, and what it leaves in `bdata`. -/
def getBitfield (src : Long) (bdata : Long × Long) (offset : Long) (width : Nat) :
    FaultM σ (Long × Long × Long) :=
  let offset := fieldOffset offset
  let mask := fieldMask width
  match (offset + width + 7) >>> 3 with
  | 1 => do
    let tmp : Long := (← q.getByte src).setWidth 32
    return (tmp <<< (24 + offset), tmp &&& ~~~(mask >>> (24 + offset)), bdata.2)
  | 2 => do
    let tmp : Long := (← q.getWord src).setWidth 32
    return (tmp <<< (16 + offset), tmp &&& ~~~(mask >>> (16 + offset)), bdata.2)
  | 3 => do
    let tmp : Long := (← q.getWord src).setWidth 32
    let res := tmp <<< (16 + offset)
    let bdata₀ := tmp &&& ~~~(mask >>> (16 + offset))
    let tmp : Long := (← q.getByte (src + 2)).setWidth 32
    return (res ||| tmp <<< (8 + offset), bdata₀, tmp &&& ~~~(mask >>> (8 + offset)))
  | 4 => do
    let tmp ← q.getLong src
    return (tmp <<< offset, tmp &&& ~~~(mask >>> offset), bdata.2)
  | 5 => do
    let tmp ← q.getLong src
    let res := tmp <<< offset
    let bdata₀ := tmp &&& ~~~(mask >>> offset)
    let tmp : Long := (← q.getByte (src + 4)).setWidth 32
    return (res ||| tmp >>> (8 - offset), bdata₀, tmp &&& ~~~(mask <<< (8 - offset)))
  | _ => return (0, bdata)

/-- `put_bitfield`. -/
def putBitfield (dst : Long) (bdata : Long × Long) (val : Long) (offset : Long) (width : Nat) :
    FaultM σ Unit :=
  let offset := fieldOffset offset + width
  match (offset + 7) >>> 3 with
  | 1 => q.putByte dst ((bdata.1 ||| val <<< (8 - offset)).setWidth 8)
  | 2 => q.putWord dst ((bdata.1 ||| val <<< (16 - offset)).setWidth 16)
  | 3 => do
    q.putWord dst ((bdata.1 ||| val >>> (offset - 16)).setWidth 16)
    q.putByte (dst + 2) ((bdata.2 ||| val <<< (24 - offset)).setWidth 8)
  | 4 => q.putLong dst (bdata.1 ||| val <<< (32 - offset))
  | 5 => do
    q.putLong dst (bdata.1 ||| val >>> (offset - 32))
    q.putByte (dst + 4) ((bdata.2 ||| val <<< (40 - offset)).setWidth 8)
  | _ => return ()

/-- `x_get_bitfield`, which makes both reads before it shifts. -/
def xGetBitfield (src : Long) (bdata : Long × Long) (offset : Long) (width : Nat) :
    FaultM σ (Long × Long × Long) :=
  let offset := fieldOffset offset
  let mask := fieldMask width
  match (offset + width + 7) >>> 3 with
  | 1 => do
    let tmp1 : Long := (← q.getByte src).setWidth 32
    return (tmp1 <<< (24 + offset), tmp1 &&& ~~~(mask >>> (24 + offset)), bdata.2)
  | 2 => do
    let tmp1 : Long := (← q.getWord src).setWidth 32
    return (tmp1 <<< (16 + offset), tmp1 &&& ~~~(mask >>> (16 + offset)), bdata.2)
  | 3 => do
    let tmp1 : Long := (← q.getWord src).setWidth 32
    let tmp2 : Long := (← q.getByte (src + 2)).setWidth 32
    return (tmp1 <<< (16 + offset) ||| tmp2 <<< (8 + offset), tmp1 &&& ~~~(mask >>> (16 + offset)),
      tmp2 &&& ~~~(mask >>> (8 + offset)))
  | 4 => do
    let tmp1 ← q.getLong src
    return (tmp1 <<< offset, tmp1 &&& ~~~(mask >>> offset), bdata.2)
  | 5 => do
    let tmp1 ← q.getLong src
    let tmp2 : Long := (← q.getByte (src + 4)).setWidth 32
    return (tmp1 <<< offset ||| tmp2 >>> (8 - offset), tmp1 &&& ~~~(mask >>> offset),
      tmp2 &&& ~~~(mask <<< (8 - offset)))
  | _ => return (0, bdata)

/-- `x_put_bitfield`. -/
def xPutBitfield (dst : Long) (bdata : Long × Long) (val : Long) (offset : Long) (width : Nat) :
    FaultM σ Unit :=
  let offset := fieldOffset offset + width
  match (offset + 7) >>> 3 with
  | 1 => q.putByte dst ((bdata.1 ||| val <<< (8 - offset)).setWidth 8)
  | 2 => q.putWord dst ((bdata.1 ||| val <<< (16 - offset)).setWidth 16)
  | 3 => do
    q.putWord dst ((bdata.1 ||| val >>> (offset - 16)).setWidth 16)
    q.putByte (dst + 2) ((bdata.2 ||| val <<< (24 - offset)).setWidth 8)
  | 4 => q.putLong dst (bdata.1 ||| val <<< (32 - offset))
  | 5 => do
    q.putLong dst (bdata.1 ||| val >>> (offset - 32))
    q.putByte (dst + 4) ((bdata.2 ||| val <<< (40 - offset)).setWidth 8)
  | _ => return ()

end FieldAccess

open FieldAccess

/-! ## Memory behind the accessors -/

/-- The accessors read and write the bytes of `mem` big-endian and fault nowhere; they may keep
what state they like beside it. -/
structure FieldAccess.Plain (q : FieldAccess σ) (mem : σ → Long → Byte) : Prop where
  getByte : ∀ a s, Returns (q.getByte a) s fun v s' => v = mem s a ∧ mem s' = mem s
  getWord : ∀ a s, Returns (q.getWord a) s fun v s' => v = rd16 ofFun (mem s) a ∧ mem s' = mem s
  getLong : ∀ a s, Returns (q.getLong a) s fun v s' => v = rd32 ofFun (mem s) a ∧ mem s' = mem s
  putByte : ∀ a v s, Returns (q.putByte a v) s fun _ s' => mem s' = ofFun.wr (mem s) a v
  putWord : ∀ a v s, Returns (q.putWord a v) s fun _ s' => mem s' = wr16 ofFun (mem s) a v
  putLong : ∀ a v s, Returns (q.putLong a v) s fun _ s' => mem s' = wr32 ofFun (mem s) a v

/-- Bit `i` from the most significant bit of the byte at `a` on. -/
def bitAt (m : Long → Byte) (a : Long) (i : Nat) : Bool := (m (a + BitVec.ofNat 32 (i / 8))).getMsbD (i % 8)

/-- Bit `i` of the field's bytes belongs to the field. -/
def InField (o width i : Nat) : Prop := o ≤ i ∧ i < o + width

instance (o width i : Nat) : Decidable (InField o width i) := by unfold InField; infer_instance

/-! ## What the shifts do to a part -/

section Part

-- A part of `n` bits, the first of them bit `p` of the field's bytes.
variable {n p o w : Nat}

/-- The bits of a part as they are kept for the write. -/
def KeepsPart (n p o w : Nat) (t : BitVec n) (b : Long) : Prop :=
  ∀ i < n, b.getLsbD (n - 1 - i) = (t.getMsbD i && !decide (InField o w (p + i)))

/-- The bits of a part around a new value. -/
def PutsPart (n p o w : Nat) (t : BitVec n) (val : Long) (t' : BitVec n) : Prop :=
  ∀ i < n, t'.getMsbD i = if InField o w (p + i) then val.getLsbD (o + w - 1 - (p + i)) else t.getMsbD i

theorem fieldMask_getLsbD (w i : Nat) :
    (fieldMask w).getLsbD i = (decide (i < 32) && !decide (i < 32 - w)) := by
  have hones : (0xffffffff : Long) = BitVec.allOnes 32 := by decide
  rw [fieldMask, hones, BitVec.getLsbD_shiftLeft, BitVec.getLsbD_allOnes]
  by_cases hi : i < 32
  · simp [hi, show i - (32 - w) < 32 by omega]
  · simp [hi]

/-- The mask brought down onto a part that starts no later than the field's longword. -/
theorem kept_right (hn : n ≤ 32) (t : BitVec n) {sh : Nat} (hsh : sh + p + n = 32 + o) :
    KeepsPart n p o w t (t.setWidth 32 &&& ~~~(fieldMask w >>> sh)) := by
  intro i hi
  have hlt : n - 1 - i < 32 := by omega
  rw [BitVec.getLsbD_and, BitVec.getLsbD_setWidth, BitVec.getLsbD_not, BitVec.getLsbD_ushiftRight,
    fieldMask_getLsbD, BitVec.getMsbD_eq_getLsbD]
  have hin : decide (InField o w (p + i)) =
      (decide (sh + (n - 1 - i) < 32) && !decide (sh + (n - 1 - i) < 32 - w)) := by
    rw [← decide_not, ← Bool.decide_and, decide_eq_decide]
    simp only [InField]
    omega
  simp only [hlt, hi, hin, decide_true, Bool.true_and]

/-- The mask carried up onto a part behind it. -/
theorem kept_left (hn : n ≤ 32) (hw : w ≤ 32) (t : BitVec n) {sh : Nat} (hsh : 32 + o + sh = p + n) :
    KeepsPart n p o w t (t.setWidth 32 &&& ~~~(fieldMask w <<< sh)) := by
  intro i hi
  have hlt : n - 1 - i < 32 := by omega
  rw [BitVec.getLsbD_and, BitVec.getLsbD_setWidth, BitVec.getLsbD_not, BitVec.getLsbD_shiftLeft,
    fieldMask_getLsbD, BitVec.getMsbD_eq_getLsbD]
  have hin : decide (InField o w (p + i)) = (!decide (n - 1 - i < sh) &&
      (decide (n - 1 - i - sh < 32) && !decide (n - 1 - i - sh < 32 - w))) := by
    rw [← decide_not, ← decide_not, ← Bool.decide_and, ← Bool.decide_and, decide_eq_decide]
    simp only [InField]
    omega
  simp only [hlt, hi, hin, decide_true, Bool.true_and]

theorem highBit_clear {val : Long} (hval : val.toNat < 2 ^ w) {i : Nat} (hi : w ≤ i) :
    val.getLsbD i = false :=
  Nat.testBit_lt_two_pow (lt_of_lt_of_le hval (Nat.pow_le_pow_right (by omega) hi))

theorem putsPart_of {t : BitVec n} {b val v : Long} (hn : n ≤ 32) (hb : KeepsPart n p o w t b)
    (hv : ∀ i < n, v.getLsbD (n - 1 - i) =
      (decide (InField o w (p + i)) && val.getLsbD (o + w - 1 - (p + i)))) :
    PutsPart n p o w t val ((b ||| v).setWidth n) := by
  intro i hi
  have hlt : n - 1 - i < 32 := by omega
  rw [BitVec.getMsbD_eq_getLsbD, BitVec.getLsbD_setWidth, BitVec.getLsbD_or, hb i hi, hv i hi]
  by_cases h : InField o w (p + i) <;> simp [hi, h, show n - 1 - i < n by omega]

theorem put_left {t : BitVec n} {b val : Long} (hn : n ≤ 32) (hval : val.toNat < 2 ^ w)
    (hb : KeepsPart n p o w t b) {sh : Nat} (hsh : o + w + sh = p + n) :
    PutsPart n p o w t val ((b ||| val <<< sh).setWidth n) := by
  refine putsPart_of hn hb fun i hi => ?_
  rw [BitVec.getLsbD_shiftLeft]
  by_cases hlt : p + i < o + w
  · have hidx : n - 1 - i - sh = o + w - 1 - (p + i) := by omega
    rw [hidx]
    by_cases ho : o ≤ p + i
    · simp [InField, ho, hlt, show n - 1 - i < 32 by omega, show sh ≤ n - 1 - i by omega]
    · have hbit := highBit_clear hval (show w ≤ o + w - 1 - (p + i) by omega)
      simp [hbit]
  · simp [InField, hlt, show n - 1 - i < sh by omega]

theorem put_right {t : BitVec n} {b val : Long} (hn : n ≤ 32) (hval : val.toNat < 2 ^ w)
    (hb : KeepsPart n p o w t b) {sh : Nat} (hsh : o + w = p + n + sh) :
    PutsPart n p o w t val ((b ||| val >>> sh).setWidth n) := by
  refine putsPart_of hn hb fun i hi => ?_
  have hidx : sh + (n - 1 - i) = o + w - 1 - (p + i) := by omega
  rw [BitVec.getLsbD_ushiftRight, hidx]
  by_cases ho : o ≤ p + i
  · simp [InField, ho, show p + i < o + w by omega]
  · have hbit := highBit_clear hval (show w ≤ o + w - 1 - (p + i) by omega)
    simp [hbit]

/-- What a part gives of the value read. -/
def ReadsPart (n p o : Nat) (t : BitVec n) (v : Long) : Prop :=
  ∀ k < 32, v.getMsbD k = (decide (p ≤ o + k ∧ o + k < p + n) && t.getMsbD (o + k - p))

theorem read_left (hn : n ≤ 32) (t : BitVec n) {sh : Nat} (hsh : sh + p + n = 32 + o) :
    ReadsPart n p o t (t.setWidth 32 <<< sh) := by
  intro k hk
  rw [BitVec.getMsbD_eq_getLsbD, BitVec.getLsbD_shiftLeft, BitVec.getLsbD_setWidth,
    BitVec.getMsbD_eq_getLsbD]
  by_cases hp : p ≤ o + k ∧ o + k < p + n
  · have hidx : 32 - 1 - k - sh = n - 1 - (o + k - p) := by omega
    simp [hp, hk, hidx, show o + k - p < n by omega, show sh ≤ 31 - k by omega,
      show n - 1 - (o + k - p) < 32 by omega, show 31 - k < 32 by omega]
  · by_cases hge : sh ≤ 31 - k
    · have hout : t.getLsbD (32 - 1 - k - sh) = false := BitVec.getLsbD_of_ge _ _ (by omega)
      simp [hp, hout]
    · simp [hp, hge]

theorem read_right (hn : n ≤ 32) (t : BitVec n) {sh : Nat} (hsh : 32 + o + sh = p + n) :
    ReadsPart n p o t (t.setWidth 32 >>> sh) := by
  intro k hk
  rw [BitVec.getMsbD_eq_getLsbD, BitVec.getLsbD_ushiftRight, BitVec.getLsbD_setWidth,
    BitVec.getMsbD_eq_getLsbD]
  by_cases hp : p ≤ o + k ∧ o + k < p + n
  · have hidx : sh + (32 - 1 - k) = n - 1 - (o + k - p) := by omega
    simp [hp, hk, hidx, show o + k - p < n by omega, show n - 1 - (o + k - p) < 32 by omega]
  · have hout : t.getLsbD (sh + (32 - 1 - k)) = false := BitVec.getLsbD_of_ge _ _ (by omega)
    simp [hp, hout]

end Part

/-! ## Bits of memory -/

variable {m m₁ m' : Long → Byte} {a : Long}

theorem byte_bit (m : Long → Byte) (a : Long) {i : Nat} (hi : i < 8) : (m a).getMsbD i = bitAt m a i := by
  rw [bitAt, Nat.div_eq_of_lt hi, Nat.mod_eq_of_lt hi]
  simp

theorem word_bit (m : Long → Byte) (a : Long) {i : Nat} (hi : i < 16) :
    (rd16 ofFun m a).getMsbD i = bitAt m a i := by
  rw [rd16, BitVec.getMsbD_append, bitAt]
  by_cases h : i < 8
  · rw [Nat.div_eq_of_lt h, Nat.mod_eq_of_lt h]
    simp [h, ofFun]
  · have hdiv : i / 8 = 1 := by omega
    have hmod : i % 8 = i - 8 := by omega
    rw [hdiv, hmod]
    simp [h, ofFun]

theorem bitAt_add (m : Long → Byte) (a : Long) (k i : Nat) :
    bitAt m (a + BitVec.ofNat 32 k) i = bitAt m a (8 * k + i) := by
  rw [bitAt, bitAt, Nat.mul_add_div (by omega), Nat.mul_add_mod, BitVec.add_assoc, BitVec.ofNat_add_ofNat]

theorem long_bit (m : Long → Byte) (a : Long) {i : Nat} (hi : i < 32) :
    (rd32 ofFun m a).getMsbD i = bitAt m a i := by
  rw [rd32, BitVec.getMsbD_append]
  by_cases h : i < 16
  · simp [h, word_bit m a h]
  · have hk := bitAt_add m a 2 (i - 16)
    rw [show 8 * 2 + (i - 16) = i by omega] at hk
    rw [← hk]
    simp [h, word_bit m (a + 2#32) (show i - 16 < 16 by omega)]

/-- The `n` bits from `a` on become those of `v`. -/
def Writes (m m' : Long → Byte) (a : Long) (n : Nat) (v : BitVec n) : Prop :=
  ∀ x, ∀ j < 8, (m' x).getMsbD j =
    if 8 * (x - a).toNat + j < n then v.getMsbD (8 * (x - a).toNat + j) else (m x).getMsbD j

theorem writes_byte (m : Long → Byte) (a : Long) (v : Byte) : Writes m (ofFun.wr m a v) a 8 v := by
  intro x j hj
  by_cases hx : x = a
  · subst hx
    simp [ofFun, hj]
  · have hne : (x - a).toNat ≠ 0 := fun h0 => hx (by
      have := BitVec.eq_of_toNat_eq (x := x - a) (y := 0#32) (by simpa using h0)
      exact BitVec.sub_eq_iff_eq_add.mp this |>.trans (BitVec.zero_add a))
    rw [if_neg (by omega)]
    simp [ofFun, hx]

/-- Two writes side by side. -/
theorem Writes.append {n k : Nat} {v : BitVec (8 * k)} {u : BitVec n} {t : BitVec (8 * k + n)}
    (h : Writes m m₁ a (8 * k) v) (h' : Writes m₁ m' (a + BitVec.ofNat 32 k) n u) (hk : 8 * k + n < 2 ^ 32)
    (hv : ∀ i < 8 * k, t.getMsbD i = v.getMsbD i) (hu : ∀ i < n, t.getMsbD (8 * k + i) = u.getMsbD i) :
    Writes m m' a (8 * k + n) t := by
  intro x j hj
  have hsub : (x - (a + BitVec.ofNat 32 k)).toNat =
      if k ≤ (x - a).toNat then (x - a).toNat - k else (x - a).toNat + 2 ^ 32 - k := by
    have hkk : k < 2 ^ 32 := by omega
    have hx := x.isLt
    have ha := a.isLt
    simp only [BitVec.toNat_sub, BitVec.toNat_add, BitVec.toNat_ofNat]
    split <;> omega
  rw [h' x j hj, h x j hj, hsub]
  by_cases hle : k ≤ (x - a).toNat
  · rw [if_pos hle, if_neg (show ¬ 8 * (x - a).toNat + j < 8 * k by omega)]
    by_cases hin : 8 * ((x - a).toNat - k) + j < n
    · rw [if_pos hin, if_pos (by omega), ← hu _ hin]
      congr 1
      omega
    · rw [if_neg hin, if_neg (by omega)]
  · rw [if_neg hle, if_neg (by omega)]
    by_cases hin : 8 * (x - a).toNat + j < 8 * k
    · rw [if_pos hin, if_pos (by omega), hv _ hin]
    · omega

theorem writes_word (m : Long → Byte) (a : Long) (v : Word) : Writes m (wr16 ofFun m a v) a 16 v := by
  refine Writes.append (k := 1) (n := 8) (writes_byte m a _) (writes_byte _ (a + 1#32) _) (by omega) ?_ ?_
  · intro i hi
    simp [BitVec.getMsbD_eq_getLsbD, hi, show i < 16 by omega, show 8 + (7 - i) = 15 - i by omega,
      show 7 - i < 8 by omega]
  · intro i hi
    simp [BitVec.getMsbD_eq_getLsbD, hi, show 8 + i < 16 by omega, show 15 - (8 + i) = 7 - i by omega,
      show 7 - i < 8 by omega]

theorem writes_long (m : Long → Byte) (a : Long) (v : Long) : Writes m (wr32 ofFun m a v) a 32 v := by
  refine Writes.append (k := 2) (n := 16) (writes_word m a _) (writes_word _ (a + 2#32) _) (by omega) ?_ ?_
  · intro i hi
    simp [BitVec.getMsbD_eq_getLsbD, hi, show i < 32 by omega, show 16 + (15 - i) = 31 - i by omega,
      show 15 - i < 16 by omega]
  · intro i hi
    simp [BitVec.getMsbD_eq_getLsbD, hi, show 16 + i < 32 by omega, show 31 - (16 + i) = 15 - i by omega,
      show 15 - i < 16 by omega]

/-! ## Fields -/

/-- The bits of the field become those of `val`, the others stay. -/
def FieldWritten (m m' : Long → Byte) (src : Long) (o width : Nat) (val : Long) : Prop :=
  ∀ x, ∀ j < 8, (m' x).getMsbD j =
    if InField o width (8 * (x - src).toNat + j) then val.getLsbD (o + width - 1 - (8 * (x - src).toNat + j))
    else (m x).getMsbD j

/-- A part stands in memory from bit `p` of the field's bytes on. -/
def Stands (m : Long → Byte) (src : Long) (n p : Nat) (t : BitVec n) : Prop :=
  ∀ i < n, t.getMsbD i = bitAt m src (p + i)

section Field

variable {src : Long} {n k o w : Nat} {val : Long}

theorem bitAt_eq (m : Long → Byte) (src x : Long) {j : Nat} (hj : j < 8) :
    bitAt m src (8 * (x - src).toNat + j) = (m x).getMsbD j := by
  have hdiv : (8 * (x - src).toNat + j) / 8 = (x - src).toNat := by omega
  have hmod : (8 * (x - src).toNat + j) % 8 = j := by omega
  have hx : src + (x - src) = x := by
    rw [BitVec.add_comm, BitVec.sub_add_cancel]
  rw [bitAt, hdiv, hmod, BitVec.ofNat_toNat, BitVec.setWidth_eq, hx]

/-- A field in one part. -/
theorem written_one {t t' : BitVec n} (ht : Stands m src n 0 t) (hput : PutsPart n 0 o w t val t')
    (hwr : Writes m m' src n t') (hfit : o + w ≤ n) : FieldWritten m m' src o w val := by
  intro x j hj
  rw [hwr x j hj]
  by_cases hin : 8 * (x - src).toNat + j < n
  · rw [if_pos hin, hput _ hin, Nat.zero_add, ht _ hin, Nat.zero_add, bitAt_eq m src x hj]
  · have hout : ¬ InField o w (8 * (x - src).toNat + j) := fun h => hin (lt_of_lt_of_le h.2 hfit)
    rw [if_neg hin, if_neg hout]

/-- A field in two parts. -/
theorem written_two {t t' : BitVec (8 * k)} {u u' : BitVec n} (ht : Stands m src (8 * k) 0 t)
    (hput : PutsPart (8 * k) 0 o w t val t') (hu : Stands m src n (8 * k) u)
    (hput' : PutsPart n (8 * k) o w u val u') (hwr : Writes m m₁ src (8 * k) t')
    (hwr' : Writes m₁ m' (src + BitVec.ofNat 32 k) n u') (hk : 8 * k + n < 2 ^ 32)
    (hfit : o + w ≤ 8 * k + n) : FieldWritten m m' src o w val := by
  have hall : Writes m m' src (8 * k + n) (t' ++ u') := by
    refine hwr.append hwr' hk ?_ ?_
    · intro i hi
      rw [BitVec.getMsbD_append]
      simp [hi]
    · intro i _
      rw [BitVec.getMsbD_append]
      simp
  refine written_one (t := t ++ u) ?_ ?_ hall hfit
  · intro i hi
    rw [BitVec.getMsbD_append]
    by_cases h : 8 * k ≤ i
    · have hsub : 8 * k + (i - 8 * k) = i := by omega
      rw [if_pos h, hu (i - 8 * k) (by omega), hsub, Nat.zero_add]
    · rw [if_neg h, ht i (by omega)]
  · intro i hi
    rw [BitVec.getMsbD_append, BitVec.getMsbD_append]
    by_cases h : 8 * k ≤ i
    · have hsub : 8 * k + (i - 8 * k) = i := by omega
      rw [if_pos h, if_pos h, hput' (i - 8 * k) (by omega), hsub, Nat.zero_add]
    · rw [if_neg h, if_neg h, hput i (by omega)]

end Field

/-! ## Reading and writing back -/

section Access

variable {q : FieldAccess σ} {mem : σ → Long → Byte} {src : Long} {o w : Nat}

/-- What `bdata` holds between the read and the write. -/
def FieldKept (m : Long → Byte) (src : Long) (o w : Nat) (bdata : Long × Long) : Prop :=
  match (o + w + 7) >>> 3 with
  | 1 => KeepsPart 8 0 o w (m src) bdata.1
  | 2 => KeepsPart 16 0 o w (rd16 ofFun m src) bdata.1
  | 3 => KeepsPart 16 0 o w (rd16 ofFun m src) bdata.1 ∧ KeepsPart 8 16 o w (m (src + 2)) bdata.2
  | 4 => KeepsPart 32 0 o w (rd32 ofFun m src) bdata.1
  | 5 => KeepsPart 32 0 o w (rd32 ofFun m src) bdata.1 ∧ KeepsPart 8 32 o w (m (src + 4)) bdata.2
  | _ => False

/-- The top bits of `res` are the field. -/
def FieldRead (m : Long → Byte) (src : Long) (o w : Nat) (res : Long) : Prop :=
  ∀ k < w, res.getMsbD k = bitAt m src (o + k)

theorem span_cases (ho : o < 8) (hw : 1 ≤ w) (hw' : w ≤ 32) :
    (o + w + 7) >>> 3 = 1 ∧ o + w ≤ 8 ∨ (o + w + 7) >>> 3 = 2 ∧ 8 < o + w ∧ o + w ≤ 16 ∨
      (o + w + 7) >>> 3 = 3 ∧ 16 < o + w ∧ o + w ≤ 24 ∨ (o + w + 7) >>> 3 = 4 ∧ 24 < o + w ∧ o + w ≤ 32 ∨
      (o + w + 7) >>> 3 = 5 ∧ 32 < o + w ∧ o + w ≤ 40 := by
  rw [Nat.shiftRight_eq_div_pow]
  omega

theorem fieldOffset_lt (offset : Long) : fieldOffset offset < 8 := by
  have h : (offset &&& 7).toNat ≤ (7 : Long).toNat := by
    rw [BitVec.toNat_and]
    exact Nat.and_le_right
  exact Nat.lt_succ_of_le h

theorem read_one {m : Long → Byte} {n : Nat} {t : BitVec n} {v : Long} (ht : Stands m src n 0 t)
    (hv : ReadsPart n 0 o t v) (hw' : w ≤ 32) (hfit : o + w ≤ n) : FieldRead m src o w v := by
  intro k hk
  have hin : 0 ≤ o + k ∧ o + k < 0 + n := by omega
  rw [hv k (by omega), decide_eq_true hin, Bool.true_and, Nat.sub_zero, ht _ (by omega), Nat.zero_add]

theorem read_two {m : Long → Byte} {n n' : Nat} {t : BitVec n} {u : BitVec n'} {v v' : Long}
    (ht : Stands m src n 0 t) (hu : Stands m src n' n u) (hv : ReadsPart n 0 o t v)
    (hv' : ReadsPart n' n o u v') (hw' : w ≤ 32) (hfit : o + w ≤ n + n') :
    FieldRead m src o w (v ||| v') := by
  intro k hk
  rw [BitVec.getMsbD_or, hv k (by omega), hv' k (by omega)]
  by_cases h : o + k < n
  · have hout : ¬ (n ≤ o + k ∧ o + k < n + n') := by omega
    rw [decide_eq_true (show 0 ≤ o + k ∧ o + k < 0 + n by omega), decide_eq_false hout, Nat.sub_zero,
      ht _ h, Nat.zero_add]
    simp
  · have hout : ¬ (0 ≤ o + k ∧ o + k < 0 + n) := by omega
    rw [decide_eq_false hout, decide_eq_true (show n ≤ o + k ∧ o + k < n + n' by omega),
      hu _ (by omega), show n + (o + k - n) = o + k by omega]
    simp

theorem stands_byte (m : Long → Byte) (src : Long) (k : Nat) :
    Stands m src 8 (8 * k) (m (src + BitVec.ofNat 32 k)) := by
  intro i hi
  rw [byte_bit m _ hi, bitAt_add]

theorem stands_byte_zero (m : Long → Byte) (src : Long) : Stands m src 8 0 (m src) := fun i hi => by
  rw [byte_bit m _ hi, Nat.zero_add]

theorem stands_word (m : Long → Byte) (src : Long) : Stands m src 16 0 (rd16 ofFun m src) := fun i hi => by
  rw [word_bit m _ hi, Nat.zero_add]

theorem stands_long (m : Long → Byte) (src : Long) : Stands m src 32 0 (rd32 ofFun m src) := fun i hi => by
  rw [long_bit m _ hi, Nat.zero_add]

theorem getBitfield_reads (h : q.Plain mem) (src : Long) (bdata : Long × Long) (offset : Long)
    (hw : 1 ≤ w) (hw' : w ≤ 32) (s : σ) :
    Returns (q.getBitfield src bdata offset w) s fun r s' => mem s' = mem s ∧
      FieldRead (mem s) src (fieldOffset offset) w r.1 ∧ FieldKept (mem s) src (fieldOffset offset) w r.2 := by
  have ho := fieldOffset_lt offset
  unfold getBitfield FieldKept
  generalize fieldOffset offset = o at ho
  obtain ⟨hs, hfit⟩ | ⟨hs, hlo, hfit⟩ | ⟨hs, hlo, hfit⟩ | ⟨hs, hlo, hfit⟩ | ⟨hs, hlo, hfit⟩ :=
    span_cases ho hw hw'
  · simp only [hs]
    refine (h.getByte src s).bind fun t s' ⟨ht, hm⟩ => returns_pure.mpr ?_
    subst ht
    exact ⟨hm, read_one (stands_byte_zero _ _) (read_left (by omega) _ (by omega)) hw' hfit,
      kept_right (by omega) _ (by omega)⟩
  · simp only [hs]
    refine (h.getWord src s).bind fun t s' ⟨ht, hm⟩ => returns_pure.mpr ?_
    subst ht
    exact ⟨hm, read_one (stands_word _ _) (read_left (by omega) _ (by omega)) hw' hfit,
      kept_right (by omega) _ (by omega)⟩
  · simp only [hs]
    refine (h.getWord src s).bind fun t s' ⟨ht, hm⟩ =>
      (h.getByte (src + 2) s').bind fun u s'' ⟨hu, hm'⟩ => returns_pure.mpr ?_
    rw [hm] at hu hm'
    subst ht hu
    exact ⟨hm', read_two (stands_word _ _) (stands_byte _ _ 2) (read_left (by omega) _ (by omega))
      (read_left (by omega) _ (by omega)) hw' hfit, kept_right (by omega) _ (by omega),
      kept_right (by omega) _ (by omega)⟩
  · simp only [hs]
    refine (h.getLong src s).bind fun t s' ⟨ht, hm⟩ => returns_pure.mpr ?_
    subst ht
    have hread := read_left (p := 0) (o := o) le_rfl (rd32 ofFun (mem s) src) (show o + 0 + 32 = 32 + o by omega)
    have hkept := kept_right (p := 0) (o := o) (w := w) le_rfl (rd32 ofFun (mem s) src)
      (show o + 0 + 32 = 32 + o by omega)
    rw [BitVec.setWidth_eq] at hread hkept
    exact ⟨hm, read_one (stands_long _ _) hread hw' hfit, hkept⟩
  · simp only [hs]
    refine (h.getLong src s).bind fun t s' ⟨ht, hm⟩ =>
      (h.getByte (src + 4) s').bind fun u s'' ⟨hu, hm'⟩ => returns_pure.mpr ?_
    rw [hm] at hu hm'
    subst ht hu
    have hread := read_left (p := 0) (o := o) le_rfl (rd32 ofFun (mem s) src) (show o + 0 + 32 = 32 + o by omega)
    have hkept := kept_right (p := 0) (o := o) (w := w) le_rfl (rd32 ofFun (mem s) src)
      (show o + 0 + 32 = 32 + o by omega)
    rw [BitVec.setWidth_eq] at hread hkept
    exact ⟨hm', read_two (stands_long _ _) (stands_byte _ _ 4) hread (read_right (by omega) _ (by omega)) hw'
      hfit, hkept, kept_left (by omega) hw' _ (by omega)⟩

theorem putBitfield_writes (h : q.Plain mem) {bdata : Long × Long} {offset val : Long} (hw : 1 ≤ w)
    (hw' : w ≤ 32) (hval : val.toNat < 2 ^ w) {s : σ} (hk : FieldKept (mem s) src (fieldOffset offset) w bdata) :
    Returns (q.putBitfield src bdata val offset w) s fun _ s' =>
      FieldWritten (mem s) (mem s') src (fieldOffset offset) w val := by
  have ho := fieldOffset_lt offset
  unfold putBitfield
  unfold FieldKept at hk
  generalize fieldOffset offset = o at ho hk
  obtain ⟨hs, hfit⟩ | ⟨hs, hlo, hfit⟩ | ⟨hs, hlo, hfit⟩ | ⟨hs, hlo, hfit⟩ | ⟨hs, hlo, hfit⟩ :=
    span_cases ho hw hw'
  · simp only [hs] at hk ⊢
    refine (h.putByte _ _ s).mono fun _ s' hm => ?_
    rw [hm]
    exact written_one (stands_byte_zero _ _) (put_left (by omega) hval hk (by omega)) (writes_byte _ _ _) hfit
  · simp only [hs] at hk ⊢
    refine (h.putWord _ _ s).mono fun _ s' hm => ?_
    rw [hm]
    exact written_one (stands_word _ _) (put_left (by omega) hval hk (by omega)) (writes_word _ _ _) hfit
  · simp only [hs] at hk ⊢
    refine (h.putWord _ _ s).bind fun _ s' hm => (h.putByte _ _ s').mono fun _ s'' hm' => ?_
    rw [hm', hm]
    exact written_two (k := 2) (stands_word _ _) (put_right (by omega) hval hk.1 (by omega))
      (stands_byte _ _ 2) (put_left (by omega) hval hk.2 (by omega)) (writes_word _ _ _) (writes_byte _ _ _)
      (by omega) hfit
  · simp only [hs] at hk ⊢
    refine (h.putLong _ _ s).mono fun _ s' hm => ?_
    rw [hm]
    have hput := put_left le_rfl hval hk (show o + w + (32 - (o + w)) = 0 + 32 by omega)
    rw [BitVec.setWidth_eq] at hput
    exact written_one (stands_long _ _) hput (writes_long _ _ _) hfit
  · simp only [hs] at hk ⊢
    refine (h.putLong _ _ s).bind fun _ s' hm => (h.putByte _ _ s').mono fun _ s'' hm' => ?_
    rw [hm', hm]
    have hput := put_right le_rfl hval hk.1 (show o + w = 0 + 32 + (o + w - 32) by omega)
    rw [BitVec.setWidth_eq] at hput
    exact written_two (k := 4) (stands_long _ _) hput (stands_byte _ _ 4)
      (put_left (by omega) hval hk.2 (by omega)) (writes_long _ _ _) (writes_byte _ _ _) (by omega) hfit

/-- The value read, written back, is memory as it was. -/
theorem FieldWritten.restored {m m' : Long → Byte} {res : Long} (hread : FieldRead m src o w res)
    (hwr : FieldWritten m m' src o w (res >>> (32 - w))) (hw' : w ≤ 32) : m' = m := by
  funext x
  apply BitVec.eq_of_getMsbD_eq
  intro j hj
  rw [hwr x j hj]
  by_cases hin : InField o w (8 * (x - src).toNat + j)
  · obtain ⟨hlo, hhi⟩ := hin
    have hr := hread (8 * (x - src).toNat + j - o) (by omega)
    rw [show o + (8 * (x - src).toNat + j - o) = 8 * (x - src).toNat + j by omega, bitAt_eq m src x hj] at hr
    rw [if_pos ⟨hlo, hhi⟩, ← hr, BitVec.getLsbD_ushiftRight, BitVec.getMsbD_eq_getLsbD,
      decide_eq_true (show 8 * (x - src).toNat + j - o < 32 by omega), Bool.true_and]
    congr 1
    omega
  · rw [if_neg hin]

/-- Reading a bitfield gives its bits, and writing one back changes these and no others. -/
theorem bitfield_exact (h : q.Plain mem) (src offset : Long) (bdata : Long × Long) (hw : 1 ≤ w)
    (hw' : w ≤ 32) (s : σ) :
    (Returns (q.getBitfield src bdata offset w) s fun r s' => mem s' = mem s ∧
      FieldRead (mem s) src (fieldOffset offset) w r.1 ∧
      ∀ s₁ val, mem s₁ = mem s → val.toNat < 2 ^ w →
        Returns (q.putBitfield src r.2 val offset w) s₁ fun _ s₂ =>
          FieldWritten (mem s) (mem s₂) src (fieldOffset offset) w val ∧
          (val = r.1 >>> (32 - w) → mem s₂ = mem s)) ∧
      q.xGetBitfield src bdata offset w = q.getBitfield src bdata offset w ∧
      ∀ bdata val, q.xPutBitfield src bdata val offset w = q.putBitfield src bdata val offset w := by
  refine ⟨?_, rfl, fun _ _ => rfl⟩
  refine (getBitfield_reads h src bdata offset hw hw' s).mono ?_
  rintro r s' ⟨hm, hread, hkept⟩
  refine ⟨hm, hread, fun s₁ val hm₁ hval => ?_⟩
  rw [← hm₁] at hkept
  refine (putBitfield_writes h hw hw' hval hkept).mono fun _ s₂ hwr => ?_
  rw [hm₁] at hwr
  refine ⟨hwr, fun hv => ?_⟩
  subst hv
  exact hwr.restored hread hw'

end Access

/-- Accessors of plain memory. -/
def plainAccess : FieldAccess (Long → Byte) where
  getByte a := reads fun m => m a
  getWord a := reads fun m => rd16 ofFun m a
  getLong a := reads fun m => rd32 ofFun m a
  putByte a v := update fun m => ofFun.wr m a v
  putWord a v := update fun m => wr16 ofFun m a v
  putLong a v := update fun m => wr32 ofFun m a v

theorem plainAccess_plain : plainAccess.Plain id where
  getByte _ _ := .of_eq rfl ⟨rfl, rfl⟩
  getWord _ _ := .of_eq rfl ⟨rfl, rfl⟩
  getLong _ _ := .of_eq rfl ⟨rfl, rfl⟩
  putByte _ _ _ := .of_eq rfl rfl
  putWord _ _ _ := .of_eq rfl rfl
  putLong _ _ _ := .of_eq rfl rfl

/-- Twenty-eight bits from bit 6 on take a long and a byte. -/
theorem bitfield_exact_five :
    Returns (plainAccess.getBitfield 0x1000 (0, 0) 6 28) (fun _ => 0xa5) fun r m =>
      m = (fun _ => 0xa5) ∧ FieldRead (fun _ => 0xa5) 0x1000 6 28 r.1 ∧
      ∀ (s₁ : Long → Byte) (val : Long), s₁ = (fun _ => 0xa5) → val.toNat < 2 ^ 28 →
        Returns (plainAccess.putBitfield 0x1000 r.2 val 6 28) s₁ fun _ m₂ =>
          FieldWritten (fun _ => 0xa5) m₂ 0x1000 6 28 val ∧ (val = r.1 >>> 4 → m₂ = fun _ => 0xa5) :=
  (bitfield_exact plainAccess_plain 0x1000 6 (0, 0) (w := 28) (by decide) (by decide) _).1

end UaeCpu
