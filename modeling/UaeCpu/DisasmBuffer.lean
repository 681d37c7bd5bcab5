import UaeCpu.Regs
import Mathlib.Algebra.Group.Nat.Defs
import Mathlib.Data.List.Infix

/-!
# UaeCpu.DisasmBuffer

The text buffer of the disassembler: `uae_cpu_disassemble` hands its length on as an `int`, and
`m68k_disasm_2` fills it with one `buf_out` after the other.

* `vsnprintf`             — writes at most `n` bytes and returns the length it wanted.
* `buf_out`               — moves the pointer and the rest of the size on by that length.
* `disassemble_in_buffer` — the calls stay in the buffer exactly where the whole text fits it.
-/

namespace UaeCpu
namespace Disasm

abbrev Memory := Int → Byte

/-- A formatted text: `vsnprintf` returns its length as an `int`. -/
abbrev Formatted := { s : List Byte // s.length < 2 ^ 31 }

/-- The memory, the write pointer, `bufsize`, and the stores made: where, and how many bytes. -/
structure Buf where
  mem : Memory
  ptr : Int
  bufsize : Long
  written : List (Int × Nat)

def store (p : Int) (bs : List Byte) (mem : Memory) : Memory := fun a =>
  if p ≤ a then (bs[(a - p).toNat]?).getD (mem a) else mem a

/-- What `vsnprintf` stores into `n` bytes: the text as far as it fits, and a zero. -/
def vsnprintf (n : Nat) (s : List Byte) : List Byte := if n = 0 then [] else s.take (n - 1) ++ [0]

/-- `buf_out`. The `int` is converted to `size_t`: a negative one is a huge size. -/
def bufOut (b : Buf) (s : Formatted) : Buf :=
  let bs := vsnprintf (b.bufsize.signExtend 64).toNat s.1
  let b := { b with mem := store b.ptr bs b.mem, written := b.written ++ [(b.ptr, bs.length)] }
  let len := s.1.length
  if 0 < len then { b with ptr := b.ptr + len, bufsize := b.bufsize - BitVec.ofNat 32 len } else b

/-- `(int)maxlen`. -/
def intSize (maxlen : BitVec 64) : Long := maxlen.setWidth 32

/-- The arguments `uae_cpu_disassemble` passes to `m68k_disasm_2`. -/
def startBuf (base : Int) (mem : Memory) (maxlen : BitVec 64) : Buf := ⟨mem, base, intSize maxlen, []⟩

/-- The calls of `buf_out` that `m68k_disasm_2` makes. -/
def bufOuts (b : Buf) (cs : List Formatted) : Buf := cs.foldl bufOut b

def text (cs : List Formatted) : List Byte := cs.flatMap Subtype.val

/-- The memory holds these bytes at `base`. -/
def Holds (mem : Memory) (base : Int) (bs : List Byte) : Prop :=
  ∀ (i : Nat) (v : Byte), bs[i]? = some v → mem (base + i) = v

/-- The pointer and every store are inside the `maxlen` bytes at `base`, the rest of the size is what
is left of it, and the buffer holds a beginning of `out` with a zero behind it. -/
structure Sound (base : Int) (maxlen : BitVec 64) (out : List Byte) (b : Buf) : Prop where
  ptr_in : base ≤ b.ptr ∧ b.ptr ≤ base + maxlen.toNat
  size_left : b.bufsize.toInt = (intSize maxlen).toInt - out.length
  size_nonneg : 0 ≤ b.bufsize.toInt
  written_in : ∀ w ∈ b.written, w.2 ≠ 0 → base ≤ w.1 ∧ w.1 + w.2 ≤ base + maxlen.toNat
  terminated : ∃ k : Nat, k < maxlen.toNat ∧ k ≤ out.length ∧ Holds b.mem base (out.take k ++ [0])

/-! ## Stores -/

theorem Holds.prefix {mem : Memory} {base : Int} {bs cs : List Byte} (h : Holds mem base (bs ++ cs)) :
    Holds mem base bs := by
  intro i v hi
  have hlt : i < bs.length := (List.getElem?_eq_some_iff.mp hi).1
  exact h i v (by rw [List.getElem?_append_left hlt, hi])

/-- A store right behind what is held is held with it. -/
theorem Holds.append_store {mem : Memory} {base : Int} {bs : List Byte} (h : Holds mem base bs)
    (cs : List Byte) : Holds (store (base + bs.length) cs mem) base (bs ++ cs) := by
  intro i v hi
  by_cases hlt : i < bs.length
  · rw [List.getElem?_append_left hlt] at hi
    rw [store, if_neg (by omega), h i v hi]
  · have hsub : (base + i - (base + bs.length)).toNat = i - bs.length := by omega
    rw [List.getElem?_append_right (by omega)] at hi
    rw [store, if_pos (by omega), hsub, hi, Option.getD_some]

theorem vsnprintf_length (n : Nat) (s : List Byte) : (vsnprintf n s).length ≤ n := by
  unfold vsnprintf
  split
  · exact Nat.zero_le _
  · rw [List.length_append, List.length_take, List.length_singleton]
    omega

theorem store_nil (p : Int) (mem : Memory) : store p [] mem = mem := by
  funext a
  rw [store, List.getElem?_nil, Option.getD_none, ite_self]

theorem bufOut_mem (b : Buf) (s : Formatted) : (bufOut b s).mem =
    store b.ptr (vsnprintf (b.bufsize.signExtend 64).toNat s.1) b.mem := by
  rw [bufOut]
  split <;> rfl

theorem bufOut_written (b : Buf) (s : Formatted) : (bufOut b s).written =
    b.written ++ [(b.ptr, (vsnprintf (b.bufsize.signExtend 64).toNat s.1).length)] := by
  rw [bufOut]
  split <;> rfl

theorem bufOut_ptr (b : Buf) (s : Formatted) : (bufOut b s).ptr = b.ptr + s.1.length := by
  rw [bufOut]
  split
  · rfl
  · rename_i h
    rw [Nat.eq_zero_of_not_pos h]
    exact (Int.add_zero _).symm

theorem bufOut_bufsize (b : Buf) (s : Formatted) :
    (bufOut b s).bufsize = b.bufsize - BitVec.ofNat 32 s.1.length := by
  rw [bufOut]
  split
  · rfl
  · rename_i h
    rw [Nat.eq_zero_of_not_pos h]
    exact (BitVec.sub_zero _).symm

/-! ## While the text fits -/

section Fits

variable {base : Int} {maxlen : BitVec 64} {out : List Byte} {b : Buf}

theorem intSize_le (maxlen : BitVec 64) : (intSize maxlen).toInt ≤ maxlen.toNat := by
  have hlt := maxlen.isLt
  rw [intSize, BitVec.toInt_eq_toNat_cond, BitVec.toNat_setWidth]
  split <;> omega

/-- A size that is not negative is the same number as a `size_t`. -/
theorem size_t_of_nonneg {x : Long} (h : 0 ≤ x.toInt) : ((x.signExtend 64).toNat : Int) = x.toInt := by
  have hx : (x.signExtend 64).toInt = x.toInt := BitVec.toInt_signExtend_of_le (by decide)
  have hlt := (x.signExtend 64).isLt
  rw [BitVec.toInt_eq_toNat_cond] at hx
  split at hx <;> omega

theorem size_sub {x : Long} {len : Nat} (hlen : (len : Int) ≤ x.toInt) :
    (x - BitVec.ofNat 32 len).toInt = x.toInt - len := by
  have hlt := x.isLt
  rw [BitVec.toInt_eq_toNat_cond] at hlen ⊢
  rw [BitVec.toInt_eq_toNat_cond, BitVec.toNat_sub, BitVec.toNat_ofNat]
  split at hlen
  · rw [if_pos (by omega)]
    omega
  · omega

/-- What is so as long as `out` fits: the buffer holds it but for the last byte of the buffer, and
from the first call on a zero. -/
structure Fits (base : Int) (maxlen : BitVec 64) (out : List Byte) (b : Buf) : Prop where
  ptr_eq : b.ptr = base + out.length
  size_left : b.bufsize.toInt = (intSize maxlen).toInt - out.length
  fits : (out.length : Int) ≤ (intSize maxlen).toInt
  written_in : ∀ w ∈ b.written, w.2 ≠ 0 → base ≤ w.1 ∧ w.1 + w.2 ≤ base + maxlen.toNat
  held : Holds b.mem base (out.take ((intSize maxlen).toInt.toNat - 1))

/-- The zero is there. -/
def Terminated (base : Int) (maxlen : BitVec 64) (out : List Byte) (b : Buf) : Prop :=
  Holds b.mem base (out.take ((intSize maxlen).toInt.toNat - 1) ++ [0])

theorem Fits.sound (hpos : 0 < (intSize maxlen).toInt) (h : Fits base maxlen out b)
    (hz : Terminated base maxlen out b) : Sound base maxlen out b := by
  have hle := intSize_le maxlen
  have hfits := h.fits
  refine ⟨?_, h.size_left, ?_, h.written_in, min ((intSize maxlen).toInt.toNat - 1) out.length, ?_, ?_, ?_⟩
  · rw [h.ptr_eq]
    omega
  · rw [h.size_left]
    omega
  · omega
  · exact Nat.min_le_right _ _
  · rw [← List.take_eq_take_min]
    exact hz

/-- What a call leaves in memory. With no room left the call has nothing to say either. -/
theorem Fits.terminated_bufOut (hpos : 0 < (intSize maxlen).toInt) (h : Fits base maxlen out b)
    (s : Formatted) (hz : out ≠ [] → Terminated base maxlen out b)
    (hfit : ((out ++ s.1).length : Int) ≤ (intSize maxlen).toInt) :
    Terminated base maxlen (out ++ s.1) (bufOut b s) := by
  have hn := size_t_of_nonneg (x := b.bufsize) (by rw [h.size_left]; have := h.fits; omega)
  rw [h.size_left] at hn
  rw [List.length_append, Int.natCast_add] at hfit
  unfold Terminated
  rw [bufOut_mem, h.ptr_eq]
  by_cases hroom : (b.bufsize.signExtend 64).toNat = 0
  · have hs : s.1 = [] := List.eq_nil_of_length_eq_zero (by omega)
    have hout : out ≠ [] := by
      rintro rfl
      rw [List.length_nil] at hn
      omega
    rw [hroom, hs, List.append_nil, vsnprintf, if_pos rfl, store_nil]
    exact hz hout
  · have hheld := h.held
    have htake : (intSize maxlen).toInt.toNat - 1 - out.length = (b.bufsize.signExtend 64).toNat - 1 := by omega
    have hwhole : out.take ((intSize maxlen).toInt.toNat - 1) = out := List.take_of_length_le (by omega)
    rw [hwhole] at hheld
    rw [vsnprintf, if_neg hroom, List.take_append, hwhole, htake, List.append_assoc]
    exact hheld.append_store _

/-- One call: as long as the text still fits, nothing is lost. -/
theorem Fits.bufOut (hpos : 0 < (intSize maxlen).toInt) (h : Fits base maxlen out b) (s : Formatted)
    (hz : out ≠ [] → Terminated base maxlen out b)
    (hfit : ((out ++ s.1).length : Int) ≤ (intSize maxlen).toInt) :
    Fits base maxlen (out ++ s.1) (bufOut b s) ∧ Terminated base maxlen (out ++ s.1) (bufOut b s) := by
  have hterm := h.terminated_bufOut hpos s hz hfit
  have hsize := h.size_left
  have hn := size_t_of_nonneg (x := b.bufsize) (by rw [hsize]; have := h.fits; omega)
  have hle := intSize_le maxlen
  refine ⟨⟨?_, ?_, hfit, ?_, hterm.prefix⟩, hterm⟩
  · rw [bufOut_ptr, h.ptr_eq, List.length_append]
    omega
  · rw [List.length_append] at hfit ⊢
    rw [bufOut_bufsize, size_sub (by omega), hsize]
    omega
  · intro w hw hne
    rw [bufOut_written, List.mem_append, List.mem_singleton] at hw
    rcases hw with hw | rfl
    · exact h.written_in w hw hne
    · have hlen := vsnprintf_length (b.bufsize.signExtend 64).toNat s.1
      have hptr := h.ptr_eq
      constructor <;> simp only <;> omega

/-- All the calls of a text that fits. -/
theorem Fits.bufOuts (hpos : 0 < (intSize maxlen).toInt) (cs : List Formatted) {out : List Byte} {b : Buf}
    (h : Fits base maxlen out b) (hz : out ≠ [] → Terminated base maxlen out b)
    (hfit : ((out ++ text cs).length : Int) ≤ (intSize maxlen).toInt) :
    Fits base maxlen (out ++ text cs) (bufOuts b cs) ∧
      (cs ≠ [] → Terminated base maxlen (out ++ text cs) (bufOuts b cs)) := by
  induction cs generalizing out b with
  | nil => exact ⟨by simpa [text, Disasm.bufOuts] using h, fun hne => absurd rfl hne⟩
  | cons s cs ih =>
    have htext : out ++ text (s :: cs) = (out ++ s.1) ++ text cs := by
      rw [text, List.flatMap_cons, List.append_assoc]
      rfl
    rw [htext] at hfit ⊢
    have hfit' : ((out ++ s.1).length : Int) ≤ (intSize maxlen).toInt := by
      rw [List.length_append] at hfit
      omega
    obtain ⟨hnext, hterm⟩ := h.bufOut hpos s hz hfit'
    obtain ⟨hall, hlast⟩ := ih hnext (fun _ => hterm) hfit
    refine ⟨hall, fun _ => ?_⟩
    cases cs with
    | nil => simpa [text, Disasm.bufOuts] using hterm
    | cons s' cs => exact hlast (List.cons_ne_nil s' cs)

theorem startBuf_fits (base : Int) (mem : Memory) (maxlen : BitVec 64) (hpos : 0 < (intSize maxlen).toInt) :
    Fits base maxlen [] (startBuf base mem maxlen) where
  ptr_eq := (Int.add_zero base).symm
  size_left := (Int.sub_zero _).symm
  fits := Int.le_of_lt hpos
  written_in := fun _ hw => absurd hw List.not_mem_nil
  held := fun i v hi => by simp at hi

end Fits

/-! ## Any text -/

/-- In a buffer without room nothing is stored. -/
theorem bufOut_no_room {b : Buf} (h : b.bufsize = 0#32) (s : Formatted) : (bufOut b s).mem = b.mem := by
  rw [bufOut_mem, h, vsnprintf, if_pos (by decide), store_nil]

/-- So a call needs room to leave a zero, whatever is in memory. -/
theorem room_of_sound {maxlen : BitVec 64} {s : Formatted} (h : ∀ mem : Memory,
    Sound 0 maxlen (text [s]) (bufOuts (startBuf 0 mem maxlen) [s])) : 0 < (intSize maxlen).toInt := by
  obtain ⟨-, hleft, hnonneg, -, k, -, -, hholds⟩ := h fun _ => 1#8
  by_contra hpos
  have hzero : intSize maxlen = 0#32 := by
    apply BitVec.eq_of_toInt_eq
    rw [BitVec.toInt_zero]
    omega
  have hmem := hholds ((text [s]).take k).length 0 (by simp)
  rw [bufOuts, List.foldl_cons, List.foldl_nil, bufOut_no_room hzero] at hmem
  exact absurd hmem (by decide : ¬ (1#8 : Byte) = 0)

/-- Every call leaves the buffer sound exactly where the size, as an `int`, is positive and the whole
text fits it; its last byte is then cut off by the zero. -/
theorem disassemble_in_buffer (maxlen : BitVec 64) (cs : List Formatted) :
    (∀ (base : Int) (mem : Memory) (pre : List Formatted), pre <+: cs → pre ≠ [] →
        Sound base maxlen (text pre) (bufOuts (startBuf base mem maxlen) pre)) ↔
      cs = [] ∨ 0 < (intSize maxlen).toInt ∧ ((text cs).length : Int) ≤ (intSize maxlen).toInt := by
  constructor
  · intro h
    cases cs with
    | nil => exact .inl rfl
    | cons s cs =>
      have hall := h 0 (fun _ => 0#8) (s :: cs) (List.prefix_refl _) (List.cons_ne_nil s cs)
      have hleft := hall.size_left
      have hnonneg := hall.size_nonneg
      exact .inr ⟨room_of_sound fun mem => h 0 mem [s] ⟨cs, rfl⟩ (List.cons_ne_nil s []), by omega⟩
  · rintro (rfl | ⟨hpos, hfit⟩) base mem pre hpre hne
    · exact absurd (List.prefix_nil.mp hpre) hne
    · obtain ⟨post, rfl⟩ := hpre
      have hlen : ((text pre).length : Int) ≤ (intSize maxlen).toInt := by
        rw [text, List.flatMap_append, List.length_append] at hfit
        rw [text]
        omega
      obtain ⟨hfits, hterm⟩ := (startBuf_fits base mem maxlen hpos).bufOuts hpos pre
        (fun hnil => absurd rfl hnil) (by simpa using hlen)
      exact hfits.sound hpos (hterm hne)

/-- The address $1000 and a NOP in a buffer of eight bytes: the second call stores six bytes behind it. -/
theorem disassemble_outside : ¬ ∀ (maxlen : BitVec 64) (cs : List Formatted) (base : Int) (mem : Memory)
    (pre : List Formatted), pre <+: cs → pre ≠ [] →
      Sound base maxlen (text pre) (bufOuts (startBuf base mem maxlen) pre) := by
  intro h
  have hout := h 8 [⟨[0x30, 0x30, 0x30, 0x30, 0x31, 0x30, 0x30, 0x30, 0x20], by decide⟩,
    ⟨[0x34, 0x65, 0x37, 0x31, 0x20], by decide⟩] 0 (fun _ => 0) _ (List.prefix_refl _) (List.cons_ne_nil _ _)
  have hin := hout.written_in (9, 6) (by decide) (by decide)
  exact absurd hin (by decide)

end Disasm
end UaeCpu
