import UaeCpu.MemoryAccess

/-!
# UaeCpu.CustomAccess

What an access to a custom region comes to, whichever callbacks are installed: the six handlers fall
back from one width to the next, down to the 8-bit callbacks.

* `Consistent` — the wider callbacks do what the 8-bit ones do one after another.
* `customAccess_bytes` — every handler does it too, and takes all bytes of an access from the region
  of its first byte.
-/

namespace UaeCpu

open Fault FaultM

variable {ω : Type}

/-! ## Bytes one after another -/

section Bytes

variable (r8 : Long → ω → Byte × ω) (w8 : Long → Byte → ω → ω)

def wordOfBytes (a : Long) (d : ω) : Word × ω :=
  let (hi, d) := r8 a d
  let (lo, d) := r8 (a + 1) d
  (hi ++ lo, d)

def longOfBytes (a : Long) (d : ω) : Long × ω :=
  let (b0, d) := r8 a d
  let (b1, d) := r8 (a + 1) d
  let (b2, d) := r8 (a + 2) d
  let (b3, d) := r8 (a + 3) d
  ((b0 ++ b1) ++ (b2 ++ b3), d)

def storeWordBytes (a : Long) (v : Word) (d : ω) : ω :=
  let d := w8 a (v.extractLsb' 8 8) d
  w8 (a + 1) (v.extractLsb' 0 8) d

def storeLongBytes (a : Long) (v : Long) (d : ω) : ω :=
  let d := w8 a (v.extractLsb' 24 8) d
  let d := w8 (a + 1) (v.extractLsb' 16 8) d
  let d := w8 (a + 2) (v.extractLsb' 8 8) d
  w8 (a + 3) (v.extractLsb' 0 8) d

theorem longOfBytes_words (a : Long) (d : ω) :
    longOfBytes r8 a d =
      ((wordOfBytes r8 a d).1 ++ (wordOfBytes r8 (a + 2) (wordOfBytes r8 a d).2).1,
        (wordOfBytes r8 (a + 2) (wordOfBytes r8 a d).2).2) := by
  have haddr : a + 2 + 1 = a + 3 := BitVec.add_assoc a 2 1
  unfold longOfBytes wordOfBytes
  rw [haddr]

theorem extract_byte (v : Long) {s t : Nat} (h : t + 8 ≤ 16) :
    (v.extractLsb' s 16).extractLsb' t 8 = v.extractLsb' (s + t) 8 := by
  refine BitVec.eq_of_getLsbD_eq fun i hi => ?_
  simp only [BitVec.getLsbD_extractLsb', hi, decide_true, Bool.true_and, show t + i < 16 by omega, Nat.add_assoc]

theorem storeLongBytes_words (a v : Long) (d : ω) :
    storeLongBytes w8 a v d =
      storeWordBytes w8 (a + 2) (v.extractLsb' 0 16) (storeWordBytes w8 a (v.extractLsb' 16 16) d) := by
  have haddr : a + 2 + 1 = a + 3 := BitVec.add_assoc a 2 1
  unfold storeLongBytes storeWordBytes
  rw [haddr, extract_byte v (by decide), extract_byte v (by decide), extract_byte v (by decide),
    extract_byte v (by decide)]

/-- The 8-bit callbacks are there, and a wider one does what they do. -/
structure Consistent (cb : Callbacks ω) : Prop where
  byteRead : cb.r8 = some r8
  byteWrite : cb.w8 = some w8
  wordRead : ∀ f, cb.r16 = some f → f = wordOfBytes r8
  longRead : ∀ f, cb.r32 = some f → f = longOfBytes r8
  wordWrite : ∀ f, cb.w16 = some f → f = storeWordBytes w8
  longWrite : ∀ f, cb.w32 = some f → f = storeLongBytes w8

end Bytes

/-! ## The handlers -/

section Handlers

variable {r8 : Long → ω → Byte × ω} {w8 : Long → Byte → ω → ω} {b : Addrbank (Callbacks ω)}
  (h : Consistent r8 w8 b.callbacks) (addr : Long)

include h

theorem customBget_eq : customBget b addr = call r8 addr := by
  unfold customBget
  rw [h.byteRead]

theorem customWget_eq : customWget b addr = call (wordOfBytes r8) addr := by
  unfold customWget
  rw [h.byteRead]
  cases h16 : b.callbacks.r16 with
  | some f => rw [h.wordRead f h16]
  | none => rfl

theorem customLget_eq : customLget b addr = call (longOfBytes r8) addr := by
  unfold customLget
  rw [h.byteRead]
  cases h32 : b.callbacks.r32 with
  | some f => rw [h.longRead f h32]
  | none =>
    cases h16 : b.callbacks.r16 with
    | some f =>
      rw [h.wordRead f h16]
      funext w
      unfold call
      rw [longOfBytes_words]
      rfl
    | none => rfl

theorem customBput_eq (v : Byte) : customBput b addr v = callPut w8 addr v := by
  unfold customBput
  rw [h.byteWrite]

theorem customWput_eq (v : Word) : customWput b addr v = callPut (storeWordBytes w8) addr v := by
  unfold customWput
  rw [h.byteWrite]
  cases h16 : b.callbacks.w16 with
  | some f => rw [h.wordWrite f h16]
  | none => rfl

theorem customLput_eq (v : Long) : customLput b addr v = callPut (storeLongBytes w8) addr v := by
  unfold customLput
  rw [h.byteWrite]
  cases h32 : b.callbacks.w32 with
  | some f => rw [h.longWrite f h32]
  | none =>
    cases h16 : b.callbacks.w16 with
    | some f =>
      rw [h.wordWrite f h16]
      funext w
      unfold callPut
      simp only [storeLongBytes_words]
      rfl
    | none => rfl

end Handlers

/-! ## Accesses -/

section Accesses

variable (env : MemEnv ω) (addr : Long)

/-- The bytes of an access, each from the bank it is in. -/
def getLongBytes : Acc ω Long := do
  let b0 ← getByte env addr
  let b1 ← getByte env (addr + 1)
  let b2 ← getByte env (addr + 2)
  let b3 ← getByte env (addr + 3)
  pure ((b0 ++ b1) ++ (b2 ++ b3))

def getWordBytes : Acc ω Word := do
  let hi ← getByte env addr
  let lo ← getByte env (addr + 1)
  pure (hi ++ lo)

def putLongBytes (v : Long) : Acc ω Unit := do
  putByte env addr (v.extractLsb' 24 8)
  putByte env (addr + 1) (v.extractLsb' 16 8)
  putByte env (addr + 2) (v.extractLsb' 8 8)
  putByte env (addr + 3) (v.extractLsb' 0 8)

def putWordBytes (v : Word) : Acc ω Unit := do
  putByte env addr (v.extractLsb' 8 8)
  putByte env (addr + 1) (v.extractLsb' 0 8)

/-- The address is in a custom region with these 8-bit callbacks. -/
def InCustom (r8 : Long → ω → Byte × ω) (w8 : Long → Byte → ω → ω) (a : Long) : Prop :=
  ∃ b, env.map.bankAt a = some b ∧ b.handlers = .custom ∧ Consistent r8 w8 b.callbacks

variable {env} {r8 : Long → ω → Byte × ω} {w8 : Long → Byte → ω → ω} {addr}

theorem InCustom.getLong (h : InCustom env r8 w8 addr) : getLong env addr = call (longOfBytes r8) addr := by
  obtain ⟨b, hb, hcustom, hc⟩ := h
  unfold UaeCpu.getLong
  simp only [hb, hcustom]
  exact customLget_eq hc addr

theorem InCustom.getWord (h : InCustom env r8 w8 addr) : getWord env addr = call (wordOfBytes r8) addr := by
  obtain ⟨b, hb, hcustom, hc⟩ := h
  unfold UaeCpu.getWord
  simp only [hb, hcustom]
  exact customWget_eq hc addr

theorem InCustom.getByte (h : InCustom env r8 w8 addr) : getByte env addr = call r8 addr := by
  obtain ⟨b, hb, hcustom, hc⟩ := h
  unfold UaeCpu.getByte
  simp only [hb, hcustom]
  exact customBget_eq hc addr

theorem InCustom.putLong (h : InCustom env r8 w8 addr) (v : Long) :
    putLong env addr v = callPut (storeLongBytes w8) addr v := by
  obtain ⟨b, hb, hcustom, hc⟩ := h
  unfold UaeCpu.putLong
  simp only [hb, hcustom]
  exact customLput_eq hc addr v

theorem InCustom.putWord (h : InCustom env r8 w8 addr) (v : Word) :
    putWord env addr v = callPut (storeWordBytes w8) addr v := by
  obtain ⟨b, hb, hcustom, hc⟩ := h
  unfold UaeCpu.putWord
  simp only [hb, hcustom]
  exact customWput_eq hc addr v

theorem InCustom.putByte (h : InCustom env r8 w8 addr) (v : Byte) :
    putByte env addr v = callPut w8 addr v := by
  obtain ⟨b, hb, hcustom, hc⟩ := h
  unfold UaeCpu.putByte
  simp only [hb, hcustom]
  exact customBput_eq hc addr v

/-- Any subset of the callbacks does what the 8-bit ones do at ascending addresses, and all bytes go
to the region of the first; where the others are in it too, each goes where it is mapped. -/
theorem customAccess_bytes (h : InCustom env r8 w8 addr) :
    (getByte env addr = call r8 addr ∧ getWord env addr = call (wordOfBytes r8) addr ∧
      getLong env addr = call (longOfBytes r8) addr) ∧
    ((∀ v, putByte env addr v = callPut w8 addr v) ∧
      (∀ v, putWord env addr v = callPut (storeWordBytes w8) addr v) ∧
      ∀ v, putLong env addr v = callPut (storeLongBytes w8) addr v) ∧
    (InCustom env r8 w8 (addr + 1) →
      getWord env addr = getWordBytes env addr ∧ (∀ v, putWord env addr v = putWordBytes env addr v) ∧
      (InCustom env r8 w8 (addr + 2) → InCustom env r8 w8 (addr + 3) →
        getLong env addr = getLongBytes env addr ∧ ∀ v, putLong env addr v = putLongBytes env addr v)) := by
  refine ⟨⟨h.getByte, h.getWord, h.getLong⟩, ⟨h.putByte, h.putWord, h.putLong⟩, fun h1 => ⟨?_, fun v => ?_, ?_⟩⟩
  · rw [h.getWord, getWordBytes, h.getByte, h1.getByte]
    rfl
  · rw [h.putWord, putWordBytes, h.putByte, h1.putByte]
    rfl
  · intro h2 h3
    refine ⟨?_, fun v => ?_⟩
    · rw [h.getLong, getLongBytes, h.getByte, h1.getByte, h2.getByte, h3.getByte]
      rfl
    · rw [h.putLong, putLongBytes, h.putByte, h1.putByte, h2.putByte, h3.putByte]
      rfl

end Accesses

/-! ## A region of cells -/

def readCell (a : Long) (d : Long → Byte) : Byte × (Long → Byte) := (d a, d)

def writeCell (a : Long) (v : Byte) (d : Long → Byte) : Long → Byte := Function.update d a v

/-- Some of the wider callbacks are installed. -/
def cellDevice : Callbacks (Long → Byte) where
  r8 := some readCell
  r16 := some (wordOfBytes readCell)
  r32 := none
  w8 := some writeCell
  w16 := none
  w32 := some (storeLongBytes writeCell)

theorem cellDevice_consistent : Consistent readCell writeCell cellDevice where
  byteRead := rfl
  byteWrite := rfl
  wordRead := fun _ h => (Option.some.inj h).symm
  longRead := fun _ h => by cases h
  wordWrite := fun _ h => by cases h
  longWrite := fun _ h => (Option.some.inj h).symm

def cellRegion : MemEnv (Long → Byte) where
  map := { MemState.initial with
    banks := fun i => if i = 1 then .region 0 else .dummy
    heap := fun n => if n = 0 then some (customBank 0x10000 cellDevice) else none }
  musashiMode := false
  unmappedBusError := false
  musashi := ⟨fun _ d => (0, d), fun _ d => (0, d), fun _ d => (0, d), fun _ _ d => d, fun _ _ d => d, fun _ _ d => d⟩
  raiseBusError := fun _ _ _ d => (none, d)

theorem cellRegion_inCustom {addr : Long} (h : bankIndex addr = 1) :
    InCustom cellRegion readCell writeCell addr :=
  ⟨customBank 0x10000 cellDevice, by simp [cellRegion, MemState.bankAt, MemState.deref, h], rfl, cellDevice_consistent⟩

/-- At an odd address, with a longword that ends in the region. -/
theorem customAccess_bytes_cells :
    (getByte cellRegion 0x10001 = call readCell 0x10001 ∧
      getWord cellRegion 0x10001 = call (wordOfBytes readCell) 0x10001 ∧
      getLong cellRegion 0x10001 = call (longOfBytes readCell) 0x10001) ∧
    (∀ v, putWord cellRegion 0x10001 v = callPut (storeWordBytes writeCell) 0x10001 v) ∧
    (∀ v, putLong cellRegion 0x10001 v = callPut (storeLongBytes writeCell) 0x10001 v) ∧
    getLong cellRegion 0x10001 = getLongBytes cellRegion 0x10001 ∧
    ∀ v, putLong cellRegion 0x10001 v = putLongBytes cellRegion 0x10001 v := by
  obtain ⟨hget, ⟨-, hword, hlong⟩, hsplit⟩ := customAccess_bytes (@cellRegion_inCustom 0x10001 rfl)
  obtain ⟨-, -, hlongs⟩ := hsplit (cellRegion_inCustom rfl)
  exact ⟨hget, hword, hlong, hlongs (cellRegion_inCustom rfl) (cellRegion_inCustom rfl)⟩

/-! ## Two regions side by side -/

/-- Callbacks that answer with one byte and take no notice of what is stored. -/
def constantDevice (v : Byte) : Callbacks Unit where
  r8 := some fun _ d => (v, d)
  r16 := none
  r32 := none
  w8 := some fun _ _ d => d
  w16 := none
  w32 := none

/-- A region at 0x10000 and one at 0x20000. -/
def twoRegions : MemEnv Unit where
  map := { MemState.initial with
    banks := fun i => if i = 1 then .region 0 else if i = 2 then .region 1 else .dummy
    heap := fun n =>
      if n = 0 then some (customBank 0x10000 (constantDevice 0xAA))
      else if n = 1 then some (customBank 0x20000 (constantDevice 0xBB))
      else none }
  musashiMode := false
  unmappedBusError := false
  musashi := ⟨fun _ d => (0, d), fun _ d => (0, d), fun _ d => (0, d), fun _ _ d => d, fun _ _ d => d, fun _ _ d => d⟩
  raiseBusError := fun _ _ _ d => (none, d)

def emptyWorld : MemWorld Unit where
  host := fun _ => 0
  touched := []
  testDevice := ⟨0, 0, 0⟩
  pendingIrqLevel := 0
  stdout := []
  dev := ()

theorem constantDevice_consistent (v : Byte) :
    Consistent (fun _ d => (v, d)) (fun _ _ d => d) (constantDevice v) where
  byteRead := rfl
  byteWrite := rfl
  wordRead := fun _ h => by cases h
  longRead := fun _ h => by cases h
  wordWrite := fun _ h => by cases h
  longWrite := fun _ h => by cases h

/-- A longword that starts two bytes before the second region takes nothing from it. -/
theorem crossing_not_split :
    InCustom twoRegions (fun _ d => (0xAA, d)) (fun _ _ d => d) 0x1FFFE ∧
      InCustom twoRegions (fun _ d => (0xBB, d)) (fun _ _ d => d) 0x20000 ∧
      getLong twoRegions 0x1FFFE emptyWorld = .ret 0xAAAAAAAA emptyWorld ∧
      getLongBytes twoRegions 0x1FFFE emptyWorld = .ret 0xAAAABBBB emptyWorld :=
  ⟨⟨_, rfl, rfl, constantDevice_consistent 0xAA⟩, ⟨_, rfl, rfl, constantDevice_consistent 0xBB⟩, rfl, rfl⟩

end UaeCpu
