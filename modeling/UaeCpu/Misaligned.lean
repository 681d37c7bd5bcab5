import UaeCpu.Lib.Paged
import UaeCpu.OutsideBusError
import UaeCpu.Restart030

/-!
# UaeCpu.Misaligned

Word and long accesses behind the MMU that are made in parts: those of the 68040 and 68060 that
cross a page, and those of the 68030 that are not aligned.

* `uaeMmu040Get`, `uaeMmu040Put` — the accessors of the 68040 and 68060.
* `Follows`                      — the MMU keeps to a page mapping.
* `misaligned_accesses`          — every access is that of its bytes, and what a fault leaves.
-/

namespace UaeCpu.Misaligned

open Fault FaultM Mem Restart Paged BusError

/-! ## The 68040 and the 68060 -/

structure World040 (M : Type) where
  mem : Long → Byte
  mmu : M

abbrev Cpu040 (M : Type) := Cpu (World040 M)

abbrev Run040 (M α : Type) := FaultM (Cpu040 M) α

/-- How the MMU is asked. `write` is also set for the read of a locked cycle. -/
structure Space where
  super : Bool
  data : Bool
  write : Bool

abbrev mmuSswMa : Word := 0x0800
abbrev mmuFslwMa : Long := 0x08000000

/-- The MMU as the accessors see it, transparent registers and caches included: the physical address
of an access, or none for a bus error, and what that adds to the fault status of the 68060. -/
structure Port040 (M : Type) where
  translate : Space → (size : AccessSize) → (addr val : Long) → M → Option Long × M
  status060 : M → Long
  status060_ma : ∀ m, (status060 m).getLsbD 27 = false

def sizeBytes : AccessSize → Nat
  | .byte => 1
  | .word => 2
  | .long => 4

variable {M α : Type}

section Accessors

variable (q : Port040 M) (p : Prefs) (x : AccessStatics) (pagesize8k : Bool)

/-- What `mmu_bus_error` notes on a 68040. -/
def note040 (sp : Space) (addr val : Long) (size : AccessSize) (r : Regs) (l : MmuLatch) : MmuLatch :=
  let fc : Long := if x.ismoves then if sp.write then r.dfc else r.sfc else
    (if sp.super then 4 else 0) ||| if sp.data then 1 else 2
  -- MOVES goes to the alternate space, or reads a program space as data
  let alt : Bool := x.ismoves && (fc &&& 3 == 0 || fc &&& 3 == 3)
  let fc := if x.ismoves ∧ !alt ∧ fc &&& 2 ≠ 0 then (fc &&& 4) ||| 1 else fc
  let ssw : Word := (if alt then 0x0010 else 0) ||| (fc.setWidth 16 &&& 0x0007) |||
    match size with
    | .byte => 0x0020
    | .word => 0x0040
    | .long => 0
  let wb3 : Byte := if sp.write then 0x80 ||| (ssw.setWidth 8 &&& 0x7F) else 0
  let ssw := ssw ||| if sp.write then 0 else 0x0100
  let ssw := ssw ||| if x.movem.isSome then 0x1000 else 0
  let ssw := if x.lockedRmwCycle then (ssw ||| 0x0200) &&& ~~~0x0100 else ssw
  { l with
    wb3Status := wb3, wb3Data := val, wb2Status := 0, ssw := ssw ||| 0x0400
    effectiveAddr := x.movem.getD l.effectiveAddr, faultAddr := addr }

/-- The same, on a 68060. -/
def note060 (sp : Space) (addr : Long) (size : AccessSize) (status060 : Long) (r : Regs) (l : MmuLatch) : MmuLatch :=
  let fc : Long := (if sp.super then 4 else 0) ||| if sp.data then 1 else 2
  let fslw : Long := (if sp.write then 0x00800000 else 0x01000000) ||| (fc <<< 16) |||
    match size with
    | .byte => 0x00200000
    | .word => 0x00400000
    | .long => 0
  let program := fc &&& 3 = 2
  let fslw := fslw ||| if program then 0x00008000 ||| (if x.extension then mmuFslwMa else 0) else 0
  let fslw := fslw ||| if x.rmwCycle then 0x01800000 else 0
  let fslw := fslw ||| if x.lockedRmwCycle then 0x02000000 else 0
  { l with fslw := fslw ||| status060, faultAddr := if program then r.instructionPc else addr }

/-- `mmu_bus_error`. -/
def mmuBusError040 (sp : Space) (addr val : Long) (size : AccessSize) : Run040 M α := do
  update fun c => c.mapLatch fun l => { l with
    mmu :=
      if p.cpuModel = .m68040 then note040 x sp addr val size c.regs l.mmu
      else note060 x sp addr size (q.status060 c.world.mmu) c.regs l.mmu }
  throwCode 2

def withMmu (m : M) (c : Cpu040 M) : Cpu040 M := { c with world := { c.world with mmu := m } }

/-- `mmu_get_byte`, `mmu_get_word`, `mmu_get_long` and the `mmu_get_user_` forms: `part` bytes of an
access of size `size`. -/
def mmuGet (sp : Space) (part : AccessSize) (addr : Long) (size : AccessSize) : Run040 M Long := do
  let w ← reads (·.world)
  let (phys, mmu) := q.translate sp size addr 0 w.mmu
  update (withMmu mmu)
  match phys with
  | some a => reads fun c => readMem part c.world.mem a
  | none => mmuBusError040 q p x sp addr 0 size

def truncTo (part : AccessSize) (val : Long) : Long :=
  match part with
  | .byte => val &&& 0xFF
  | .word => val &&& 0xFFFF
  | .long => val

/-- `mmu_put_byte`, `mmu_put_word`, `mmu_put_long` and the `mmu_put_user_` forms. -/
def mmuPut (sp : Space) (part : AccessSize) (addr val : Long) (size : AccessSize) : Run040 M Unit := do
  let w ← reads (·.world)
  let (phys, mmu) := q.translate sp size addr (truncTo part val) w.mmu
  update (withMmu mmu)
  match phys with
  | some a => update fun c => { c with world := { c.world with mem := writeMem part c.world.mem a val } }
  | none => mmuBusError040 q p x sp addr (truncTo part val) size

def mapMmu (f : MmuLatch → MmuLatch) (c : Cpu040 M) : Cpu040 M := c.mapLatch fun l => { l with mmu := f l.mmu }

/-- `misalignednotfirst`. -/
def misalignednotfirst (addr : Long) : Run040 M Unit :=
  update (mapMmu fun l => { l with faultAddr := addr, fslw := l.fslw ||| mmuFslwMa, ssw := l.ssw ||| mmuSswMa })

/-- `misalignednotfirstcheck`. -/
def misalignednotfirstcheck (addr : Long) : Run040 M Unit := do
  let fault ← reads (·.latch.mmu.faultAddr)
  if fault = addr then pure () else misalignednotfirst addr

/-- The `CATCH` of the unaligned reads. -/
def misalignedGet (addr : Long) (m : Run040 M Long) : Run040 M Long :=
  tryCatch m fun code => do
    misalignednotfirst addr
    throwCode code

/-- The `CATCH` of the unaligned writes. -/
def misalignedPut (addr val : Long) (m : Run040 M Unit) : Run040 M Unit :=
  tryCatch m fun code => do
    update (mapMmu fun l => { l with wb3Data := val })
    misalignednotfirstcheck addr
    throwCode code

/-- `mmu_get_word_unaligned`, `mmu_get_lrmw_word_unaligned`. -/
def mmuGetWordUnaligned (sp : Space) (addr : Long) : Run040 M Long := do
  let res ← mmuGet q p x sp .byte addr .word
  misalignedGet addr do
    let lo ← mmuGet q p x sp .byte (addr + 1) .word
    return (res <<< 8) ||| lo

/-- `mmu_get_long_unaligned`, `mmu_get_lrmw_long_unaligned`. -/
def mmuGetLongUnaligned (sp : Space) (addr : Long) : Run040 M Long := do
  if addr &&& 1 = 0 then
    let res ← mmuGet q p x sp .word addr .long
    misalignedGet addr do
      let lo ← mmuGet q p x sp .word (addr + 2) .long
      return (res <<< 16) ||| lo
  else
    let res ← mmuGet q p x sp .byte addr .long
    misalignedGet addr do
      let b1 ← mmuGet q p x sp .byte (addr + 1) .long
      let b2 ← mmuGet q p x sp .byte (addr + 2) .long
      let b3 ← mmuGet q p x sp .byte (addr + 3) .long
      return ((res <<< 8 ||| b1) <<< 8 ||| b2) <<< 8 ||| b3

/-- `mmu_get_ilong_unaligned`. -/
def mmuGetIlongUnaligned (sp : Space) (addr : Long) : Run040 M Long := do
  let res ← mmuGet q p x sp .word addr .long
  misalignedGet addr do
    let lo ← mmuGet q p x sp .word (addr + 2) .long
    return (res <<< 16) ||| lo

/-- `mmu_put_word_unaligned`, `mmu_put_lrmw_word_unaligned`. -/
def mmuPutWordUnaligned (sp : Space) (addr val : Long) : Run040 M Unit :=
  misalignedPut addr (val &&& 0xFFFF) do
    mmuPut q p x sp .byte addr (val >>> 8) .word
    mmuPut q p x sp .byte (addr + 1) val .word

/-- `mmu_put_long_unaligned`, `mmu_put_lrmw_long_unaligned`. -/
def mmuPutLongUnaligned (sp : Space) (addr val : Long) : Run040 M Unit :=
  misalignedPut addr val <|
    if addr &&& 1 = 0 then do
      mmuPut q p x sp .word addr (val >>> 16) .long
      mmuPut q p x sp .word (addr + 2) val .long
    else do
      mmuPut q p x sp .byte addr (val >>> 24) .long
      mmuPut q p x sp .byte (addr + 1) (val >>> 16) .long
      mmuPut q p x sp .byte (addr + 2) (val >>> 8) .long
      mmuPut q p x sp .byte (addr + 3) val .long

/-- `regs.mmu_page_size`. -/
def mmuPageSize : Long := if pagesize8k then 8192 else 4096

/-- `is_unaligned_page`. -/
def isUnalignedPage (addr : Long) (size : AccessSize) : Bool :=
  let last := BitVec.ofNat 32 (sizeBytes size - 1)
  addr &&& last ≠ 0 && (addr ^^^ (addr + last)) &&& mmuPageSize pagesize8k ≠ 0

/-- `uae_mmu040_get_byte`, `_word`, `_long`, and the locked and `MOVES` forms: also of the 68060. -/
def uaeMmu040Get (sp : Space) (size : AccessSize) (addr : Long) : Run040 M Long :=
  if isUnalignedPage pagesize8k addr size then
    match size with
    | .long => mmuGetLongUnaligned q p x sp addr
    | _ => mmuGetWordUnaligned q p x sp addr
  else mmuGet q p x sp size addr size

/-- A fetch: `uae_mmu040_get_ibyte`, `_iword`, `_ilong`. Only a long is split, always in words. -/
def uaeMmu040GetI (super : Bool) (size : AccessSize) (addr : Long) : Run040 M Long :=
  if size = .long ∧ isUnalignedPage pagesize8k addr size then mmuGetIlongUnaligned q p x ⟨super, false, false⟩ addr
  else mmuGet q p x ⟨super, false, false⟩ size addr size

/-- `uae_mmu040_put_byte`, `_word`, `_long`, and the locked and `MOVES` forms. -/
def uaeMmu040Put (sp : Space) (size : AccessSize) (addr val : Long) : Run040 M Unit :=
  if isUnalignedPage pagesize8k addr size then
    match size with
    | .long => mmuPutLongUnaligned q p x sp addr val
    | _ => mmuPutWordUnaligned q p x sp addr val
  else mmuPut q p x sp size addr val size

end Accessors

/-! ## One part -/

/-- The MMU keeps to a page mapping, as long as it is in a state of `I`: a search or a cache miss
may change its state, but not what it answers. -/
def Follows (q : Port040 M) (sp : Space) (n : Nat) (frame : Nat → Option Long) (I : M → Prop) : Prop :=
  ∀ size addr val m, I m → (q.translate sp size addr val m).1 = physical n frame addr ∧
    I (q.translate sp size addr val m).2

/-- The misaligned bit of the frame. -/
def misaligned (p : Prefs) (l : MmuLatch) : Bool :=
  if p.cpuModel = .m68040 then l.ssw.getLsbD 11 else l.fslw.getLsbD 27

/-- What a fault of an access at `addr` reports. -/
structure Reported (p : Prefs) (addr : Long) (ma : Bool) (c : Cpu040 M) : Prop where
  addr : c.latch.mmu.faultAddr = addr
  ma : misaligned p c.latch.mmu = ma

/-- Nothing but the MMU has moved. -/
def Moved (I : M → Prop) (c c' : Cpu040 M) : Prop := ∃ m, I m ∧ c' = withMmu m c

theorem Moved.trans {I : M → Prop} {c c' c'' : Cpu040 M} (h : Moved I c c') (h' : Moved I c' c'') : Moved I c c'' := by
  obtain ⟨m, hm, rfl⟩ := h
  obtain ⟨m', hm', rfl⟩ := h'
  exact ⟨m', hm', rfl⟩

theorem Moved.mem {I : M → Prop} {c c' : Cpu040 M} (h : Moved I c c') : c'.world.mem = c.world.mem := by
  obtain ⟨m, -, rfl⟩ := h
  rfl

theorem Moved.inv {I : M → Prop} {c c' : Cpu040 M} (h : Moved I c c') : I c'.world.mmu := by
  obtain ⟨m, hm, rfl⟩ := h
  exact hm

section Parts

variable {q : Port040 M} {p : Prefs} {x : AccessStatics} {sp : Space} {n : Nat} {frame : Nat → Option Long}
  {I : M → Prop} {c : Cpu040 M} {addr val : Long} {part size : AccessSize}

theorem note040_ma (r : Regs) (l : MmuLatch) :
    (note040 x sp addr val size r l).ssw.getLsbD 11 = false := by
  have halt : ∀ (b : Prop) [Decidable b], (if b then 16#16 else 0#16)[11] = false := fun b _ => by
    split <;> simp
  simp only [note040]
  cases size <;> cases sp.write <;> cases x.lockedRmwCycle <;> cases x.movem <;> simp <;> exact halt _

theorem note060_ma (hd : sp.data = true) (status : Long) (hs : status.getLsbD 27 = false) (r : Regs) (l : MmuLatch) :
    (note060 x sp addr size status r l).fslw.getLsbD 27 = false := by
  have hs' : status[27] = false := hs
  simp only [note060, hd]
  cases size <;> cases sp.write <;> cases sp.super <;> cases x.lockedRmwCycle <;> cases x.rmwCycle <;> simp [hs']

theorem mmuBusError040_settles {Q : α → Cpu040 M → Prop} {E : Cpu040 M → Prop}
    (he : ∀ c', c'.world = c.world → (sp.data = true → Reported p addr false c') → E c') :
    Settles (mmuBusError040 q p x sp addr val size) c Q E := by
  refine Settles.thrown rfl (he _ rfl fun hd => ⟨?_, ?_⟩)
  · change (if p.cpuModel = .m68040 then _ else _ : MmuLatch).faultAddr = addr
    split
    · rfl
    · simp only [note060, hd]
      cases sp.super <;> rfl
  · change misaligned p (if p.cpuModel = .m68040 then _ else _) = false
    rw [misaligned]
    by_cases hm : p.cpuModel = .m68040
    · rw [if_pos hm, if_pos hm]
      exact note040_ma c.regs c.latch.mmu
    · rw [if_neg hm, if_neg hm]
      exact note060_ma hd _ (q.status060_ma _) c.regs c.latch.mmu

theorem mmuGet_settles (hf : Follows q sp n frame I) (hI : I c.world.mmu) :
    Settles (mmuGet q p x sp part addr size) c
      (fun v c' => Moved I c c' ∧ ∃ a, physical n frame addr = some a ∧ v = readMem part c.world.mem a)
      fun c' => physical n frame addr = none ∧ c'.world.mem = c.world.mem ∧
        (sp.data = true → Reported p addr false c') := by
  obtain ⟨hmap, hinv⟩ := hf size addr 0 c.world.mmu hI
  rw [mmuGet, settles_reads_bind]
  cases ht : q.translate sp size addr 0 c.world.mmu with
  | mk phys mmu =>
    rw [ht] at hmap hinv
    simp only [settles_update_bind]
    cases phys with
    | some a => exact ⟨⟨mmu, hinv, rfl⟩, a, hmap.symm, rfl⟩
    | none => exact mmuBusError040_settles fun c' hw hr => ⟨hmap.symm, by rw [hw]; rfl, hr⟩

theorem mmuPut_settles (hf : Follows q sp n frame I) (hd : sp.data = true) (hI : I c.world.mmu) :
    Settles (mmuPut q p x sp part addr val size) c
      (fun _ c' => I c'.world.mmu ∧ ∃ a, physical n frame addr = some a ∧
        c'.world.mem = writeMem part c.world.mem a val)
      fun c' => physical n frame addr = none ∧ c'.world.mem = c.world.mem ∧ Reported p addr false c' := by
  obtain ⟨hmap, hinv⟩ := hf size addr (truncTo part val) c.world.mmu hI
  rw [mmuPut, settles_reads_bind]
  cases ht : q.translate sp size addr (truncTo part val) c.world.mmu with
  | mk phys mmu =>
    rw [ht] at hmap hinv
    simp only [settles_update_bind]
    cases phys with
    | some a => exact ⟨hinv, a, hmap.symm, rfl⟩
    | none => exact mmuBusError040_settles fun c' hw hr => ⟨hmap.symm, by rw [hw]; rfl, hr hd⟩

/-! ## The bytes of a part -/

theorem readMem_loads {mem : Long → Byte} {a : Long} (hn : n ≤ 32) (hin : InPage n addr (sizeBytes part - 1))
    (ha : physical n frame addr = some a) :
    Loads (physical n frame) mem addr (sizeBytes part) (readMem part mem a) := by
  cases part with
  | byte => exact loads_byte ha
  | word => exact loads_word hn hin ha
  | long => exact loads_long hn hin ha

theorem writeMem_stores {mem : Long → Byte} {a : Long} (hn : n ≤ 32) (hin : InPage n addr (sizeBytes part - 1))
    (ha : physical n frame addr = some a) :
    Stores (physical n frame) mem addr (bytes (sizeBytes part) val) (writeMem part mem a val) := by
  cases part with
  | byte => exact stores_byte _ ha
  | word => exact stores_word val hn hin ha
  | long => exact stores_long val hn hin ha

/-! ## The parts of an access -/

/-- A byte behind the first is not mapped, and those before it are. -/
def Late (tr : Long → Option Long) (addr : Long) (k : Nat) : Prop :=
  ∃ j, 0 < j ∧ j < k ∧ tr (addr + BitVec.ofNat 32 j) = none ∧ ∀ i < j, tr (addr + BitVec.ofNat 32 i) ≠ none

/-- What a read of `k` bytes leaves that faults: the address of the access, and the misaligned bit if
it is not the first byte. A fetch may report its instruction instead. -/
def ReadFault (p : Prefs) (sp : Space) (tr : Long → Option Long) (addr : Long) (k : Nat) (c c' : Cpu040 M) : Prop :=
  c'.world.mem = c.world.mem ∧
    (tr addr = none ∧ (sp.data = true → Reported p addr false c') ∨ Late tr addr k ∧ Reported p addr true c')

/-- What a write leaves that faults: the bytes before the one that is not mapped are stored, and they
are in the first page. -/
def WriteFault (p : Prefs) (n : Nat) (frame : Nat → Option Long) (addr val : Long) (k : Nat) (c c' : Cpu040 M) : Prop :=
  ∃ j, j < k ∧ physical n frame (addr + BitVec.ofNat 32 j) = none ∧ (∀ i < j, InPage n addr i) ∧
    Stores (physical n frame) c.world.mem addr ((bytes k val).take j) c'.world.mem ∧
    Reported p addr (decide (j ≠ 0)) c'

/-- The next part of a read. -/
theorem mmuGet_next (part : AccessSize) {mem : Long → Byte} {k : Nat} {v : Long} (hf : Follows q sp n frame I)  (hn : n ≤ 32) (hI : I c.world.mmu) (hmem : c.world.mem = mem) (hpre : Loads (physical n frame) mem addr k v)
    (hin : InPage n (addr + BitVec.ofNat 32 k) (sizeBytes part - 1)) :
    Settles (mmuGet q p x sp part (addr + BitVec.ofNat 32 k) size) c
      (fun w c' => Moved I c c' ∧ Loads (physical n frame) mem addr (k + sizeBytes part)
        (v <<< (8 * sizeBytes part) ||| w))
      fun c' => c'.world.mem = mem ∧ physical n frame (addr + BitVec.ofNat 32 k) = none := by
  subst hmem
  refine (mmuGet_settles hf hI).mono (fun w c' h => ?_) fun c' h => ⟨h.2.1, h.1⟩
  obtain ⟨hmoved, a, ha, rfl⟩ := h
  exact ⟨hmoved, hpre.append (readMem_loads hn hin ha)⟩

/-- The first part. -/
theorem mmuGet_first (part : AccessSize) (hf : Follows q sp n frame I) (hn : n ≤ 32) (hI : I c.world.mmu)
    (hin : InPage n addr (sizeBytes part - 1)) :
    Settles (mmuGet q p x sp part addr size) c
      (fun w c' => Moved I c c' ∧ Loads (physical n frame) c.world.mem addr (sizeBytes part) w)
      fun c' => ∀ k, ReadFault p sp (physical n frame) addr k c c' := by
  refine (mmuGet_settles hf hI).mono (fun w c' h => ?_) fun c' h k => ⟨h.2.1, .inl ⟨h.1, h.2.2⟩⟩
  obtain ⟨hmoved, a, ha, rfl⟩ := h
  exact ⟨hmoved, readMem_loads hn hin ha⟩

theorem late_of_next {mem : Long → Byte} {j k : Nat} {v : Long} {tr : Long → Option Long} (hj : 0 < j) (hjk : j < k)
    (hpre : Loads tr mem addr j v) (hnone : tr (addr + BitVec.ofNat 32 j) = none) : Late tr addr k :=
  ⟨j, hj, hjk, hnone, fun _ hi => hpre.mapped hi⟩

/-- The `CATCH` reports the address of the access, and that it is misaligned. -/
theorem misalignednotfirst_reported (p : Prefs) (addr : Long) (c : Cpu040 M) : ∃ c', misalignednotfirst addr c = .ret () c' ∧
    c'.world = c.world ∧ Reported p addr true c' := by
  refine ⟨_, rfl, rfl, rfl, ?_⟩
  rw [misaligned]
  split
  · simp [mapMmu, Cpu.mapLatch, mmuSswMa]
  · simp [mapMmu, Cpu.mapLatch, mmuFslwMa]

theorem misalignedGet_settles {m : Run040 M Long} {Q : Long → Cpu040 M → Prop} {k : Nat} {mem : Long → Byte}
    {c₀ : Cpu040 M} (hmem : c₀.world.mem = mem)
    (hm : Settles m c Q fun c' => c'.world.mem = mem ∧ Late (physical n frame) addr k) :
    Settles (misalignedGet addr m) c Q (ReadFault p sp (physical n frame) addr k c₀) := by
  refine Settles.tryCatch hm fun code c' h => ?_
  obtain ⟨c'', hrun, hworld, hrep⟩ := misalignednotfirst_reported p addr c'
  refine Settles.thrown (bind_ret hrun) ⟨?_, .inr ⟨h.2, hrep⟩⟩
  rw [hworld, h.1, hmem]

theorem inPage_zero (n : Nat) (a : Long) : InPage n a 0 := Nat.mod_lt _ (Nat.two_pow_pos n)

theorem mmuGetWordUnaligned_settles (hf : Follows q sp n frame I) (hn : n ≤ 32)
    (hI : I c.world.mmu) : Settles (mmuGetWordUnaligned q p x sp addr) c
      (fun v c' => Moved I c c' ∧ Loads (physical n frame) c.world.mem addr 2 v)
      (ReadFault p sp (physical n frame) addr 2 c) := by
  refine Settles.bind ((mmuGet_first .byte hf hn hI (inPage_zero n addr)).mono (fun _ _ h => h)
    fun _ h => h 2) fun v c₁ h₁ => ?_
  refine misalignedGet_settles rfl (Settles.bind
    (P := fun w c₂ => Moved I c₁ c₂ ∧ Loads (physical n frame) c.world.mem addr 2 (v <<< 8 ||| w)) ?_ fun w c₂ h₂ => ?_)
  · exact (mmuGet_next .byte hf hn h₁.1.inv h₁.1.mem h₁.2 (inPage_zero n _)).mono (fun _ _ h => h)
      fun _ h => ⟨h.1, late_of_next (by decide) (by decide) h₁.2 h.2⟩
  · exact ⟨h₁.1.trans h₂.1, h₂.2⟩

theorem toNat_and_one (a : Long) : (a &&& 1).toNat = a.toNat % 2 := by
  rw [BitVec.toNat_and]
  exact Nat.and_one_is_mod a.toNat

/-- Two addresses behind a long are as even as its own. -/
theorem inPage_word {i : Nat} (hn : 1 ≤ n) (hn' : n ≤ 32) (heven : addr &&& 1 = 0) (hi : 2 ∣ i) :
    InPage n (addr + BitVec.ofNat 32 i) 1 := by
  have htwo : 2 ∣ 2 ^ n := ⟨2 ^ (n - 1), by rw [← Nat.pow_succ']; congr 1; omega⟩
  refine inPage_of_dvd (d := 2) (by decide) htwo ?_
  have hbit : addr.toNat % 2 = 0 := by rw [← toNat_and_one, heven]; rfl
  obtain ⟨m, rfl⟩ := hi
  rw [BitVec.toNat_add, BitVec.toNat_ofNat]
  omega

theorem inPage_even (hn : 1 ≤ n) (hn' : n ≤ 32) (heven : addr &&& 1 = 0) : InPage n addr 1 := by
  have h := inPage_word hn hn' heven (Nat.dvd_zero 2)
  rwa [show addr + BitVec.ofNat 32 0 = addr from BitVec.add_zero addr] at h

theorem mmuGetLongUnaligned_settles (hf : Follows q sp n frame I) (hn : 1 ≤ n) (hn' : n ≤ 32)
    (hI : I c.world.mmu) : Settles (mmuGetLongUnaligned q p x sp addr) c
      (fun v c' => Moved I c c' ∧ Loads (physical n frame) c.world.mem addr 4 v)
      (ReadFault p sp (physical n frame) addr 4 c) := by
  rw [mmuGetLongUnaligned]
  refine Settles.ite (fun heven => ?_) fun _ => ?_
  · have hin : InPage n addr 1 := inPage_even hn hn' heven
    refine Settles.bind ((mmuGet_first .word hf hn' hI hin).mono (fun _ _ h => h)
      fun _ h => h 4) fun v c₁ h₁ => ?_
    refine misalignedGet_settles rfl (Settles.bind
      (P := fun w c₂ => Moved I c₁ c₂ ∧ Loads (physical n frame) c.world.mem addr 4 (v <<< 16 ||| w)) ?_
      fun w c₂ h₂ => ?_)
    · exact (mmuGet_next .word hf hn' h₁.1.inv h₁.1.mem h₁.2
        (inPage_word hn hn' heven (Nat.dvd_refl 2))).mono (fun _ _ h => h)
        fun _ h => ⟨h.1, late_of_next (by decide) (by decide) h₁.2 h.2⟩
    · exact ⟨h₁.1.trans h₂.1, h₂.2⟩
  · refine Settles.bind ((mmuGet_first .byte hf hn' hI (inPage_zero n addr)).mono (fun _ _ h => h)
      fun _ h => h 4) fun v c₁ h₁ => ?_
    refine misalignedGet_settles rfl (Settles.bind
      (P := fun w c₂ => Moved I c₁ c₂ ∧ Loads (physical n frame) c.world.mem addr 2 (v <<< 8 ||| w)) ?_
      fun w₁ c₂ h₂ => Settles.bind
      (P := fun w c₃ => Moved I c₂ c₃ ∧ Loads (physical n frame) c.world.mem addr 3 ((v <<< 8 ||| w₁) <<< 8 ||| w)) ?_
      fun w₂ c₃ h₃ => Settles.bind
      (P := fun w c₄ => Moved I c₃ c₄ ∧
        Loads (physical n frame) c.world.mem addr 4 (((v <<< 8 ||| w₁) <<< 8 ||| w₂) <<< 8 ||| w)) ?_
      fun w₃ c₄ h₄ => ?_)
    · exact (mmuGet_next .byte hf hn' h₁.1.inv h₁.1.mem h₁.2 (inPage_zero n _)).mono (fun _ _ h => h)
        fun _ h => ⟨h.1, late_of_next (by decide) (by decide) h₁.2 h.2⟩
    · exact (mmuGet_next .byte hf hn' h₂.1.inv (h₂.1.mem.trans h₁.1.mem) h₂.2
        (inPage_zero n _)).mono (fun _ _ h => h) fun _ h => ⟨h.1, late_of_next (by decide) (by decide) h₂.2 h.2⟩
    · exact (mmuGet_next .byte hf hn' h₃.1.inv (h₃.1.mem.trans (h₂.1.mem.trans h₁.1.mem)) h₃.2
        (inPage_zero n _)).mono (fun _ _ h => h) fun _ h => ⟨h.1, late_of_next (by decide) (by decide) h₃.2 h.2⟩
    · exact ⟨h₁.1.trans (h₂.1.trans (h₃.1.trans h₄.1)), h₄.2⟩

/-- The next part of a write. -/
theorem mmuPut_next (part : AccessSize) {mem : Long → Byte} {bs : List Byte} {k : Nat} (hf : Follows q sp n frame I)
    (hd : sp.data = true) (hn : n ≤ 32) (hI : I c.world.mmu) (hk : bs.length = k)
    (hpre : Stores (physical n frame) mem addr bs c.world.mem)
    (hin : InPage n (addr + BitVec.ofNat 32 k) (sizeBytes part - 1)) :
    Settles (mmuPut q p x sp part (addr + BitVec.ofNat 32 k) val size) c
      (fun _ c' => I c'.world.mmu ∧
        Stores (physical n frame) mem addr (bs ++ bytes (sizeBytes part) val) c'.world.mem)
      fun c' => physical n frame (addr + BitVec.ofNat 32 k) = none ∧
        Stores (physical n frame) mem addr bs c'.world.mem ∧ Reported p (addr + BitVec.ofNat 32 k) false c' := by
  subst hk
  refine (mmuPut_settles hf hd hI).mono (fun _ c' h => ?_) fun c' h => ⟨h.1, h.2.1 ▸ hpre, h.2.2⟩
  obtain ⟨hI', a, ha, hmem⟩ := h
  rw [hmem]
  exact ⟨hI', hpre.append (writeMem_stores hn hin ha)⟩

/-- A part that faults, before its `CATCH`. -/
def PartFault (p : Prefs) (tr : Long → Option Long) (addr val : Long) (k : Nat) (c c' : Cpu040 M) : Prop :=
  ∃ j, j < k ∧ tr (addr + BitVec.ofNat 32 j) = none ∧
    Stores tr c.world.mem addr ((bytes k val).take j) c'.world.mem ∧ Reported p (addr + BitVec.ofNat 32 j) false c'

theorem partFault_of_next {tr : Long → Option Long} {bs : List Byte} {j k : Nat} {c₀ c' : Cpu040 M} (hj : j < k)
    (hbs : bs = (bytes k val).take j) (h : tr (addr + BitVec.ofNat 32 j) = none ∧
      Stores tr c₀.world.mem addr bs c'.world.mem ∧ Reported p (addr + BitVec.ofNat 32 j) false c') :
    PartFault p tr addr val k c₀ c' := ⟨j, hj, h.1, hbs ▸ h.2.1, h.2.2⟩

theorem inPage_of_stores {mem mem' : Long → Byte} {j k : Nat} (hn : 2 ≤ n) (hn' : n ≤ 32) (hk : k ≤ 4) (hj : j < k)
    (hnone : physical n frame (addr + BitVec.ofNat 32 j) = none)
    (hw : Stores (physical n frame) mem addr ((bytes k val).take j) mem') : ∀ i < j, InPage n addr i := by
  intro i hi
  have hpage : 4 ≤ 2 ^ n := Nat.pow_le_pow_right (show 0 < 2 by decide) hn
  have hlen : ((bytes k val).take j).length = j := by
    rw [List.length_take, bytes_length]
    omega
  exact inPage_of_fault hn' (by omega) hi (hw.mapped (by rw [hlen]; exact hi)) hnone

theorem misalignedPut_settles {m : Run040 M Unit} {Q : Unit → Cpu040 M → Prop} {k : Nat} {c₀ : Cpu040 M} {val' : Long}
    (hn : 2 ≤ n) (hn' : n ≤ 32) (hk : k ≤ 4) (hm : Settles m c Q (PartFault p (physical n frame) addr val k c₀)) :
    Settles (misalignedPut addr val' m) c Q (WriteFault p n frame addr val k c₀) := by
  refine Settles.tryCatch hm fun code c' h => ?_
  obtain ⟨j, hj, hnone, hwrites, hrep⟩ := h
  have hpage := inPage_of_stores hn hn' hk hj hnone hwrites
  let c'' := mapMmu (fun l => { l with wb3Data := val' }) c'
  have hset : FaultM.update (mapMmu fun l => { l with wb3Data := val' }) c' = .ret () c'' := rfl
  have hfault : c''.latch.mmu.faultAddr = addr + BitVec.ofNat 32 j := hrep.addr
  by_cases hzero : j = 0
  · subst hzero
    have hsame : c''.latch.mmu.faultAddr = addr := hfault.trans (BitVec.add_zero addr)
    have hcheck : misalignednotfirstcheck addr c'' = .ret () c'' := by
      rw [misalignednotfirstcheck, reads_bind_apply, if_pos hsame]
      rfl
    refine Settles.thrown ((bind_ret hset).trans (bind_ret hcheck)) ⟨0, hj, hnone, hpage, hwrites, hsame, ?_⟩
    exact hrep.ma
  · have hother : ¬ c''.latch.mmu.faultAddr = addr := by
      rw [hfault]
      bv_omega
    have hcheck : misalignednotfirstcheck addr c'' = misalignednotfirst addr c'' := by
      rw [misalignednotfirstcheck, reads_bind_apply, if_neg hother]
    obtain ⟨d, hrun, hworld, hma⟩ := misalignednotfirst_reported p addr c''
    refine Settles.thrown ((bind_ret hset).trans (bind_ret (hcheck.trans hrun))) ⟨j, hj, hnone, hpage, ?_, ?_⟩
    · rw [hworld]
      exact hwrites
    · rw [decide_eq_true hzero]
      exact hma

/-- The first part of a write. -/
theorem mmuPut_first (part : AccessSize) {v : Long} (hf : Follows q sp n frame I) (hd : sp.data = true) (hn : n ≤ 32) (hI : I c.world.mmu)
    (hin : InPage n addr (sizeBytes part - 1)) :
    Settles (mmuPut q p x sp part addr v size) c
      (fun _ c' => I c'.world.mmu ∧
        Stores (physical n frame) c.world.mem addr (bytes (sizeBytes part) v) c'.world.mem)
      fun c' => ∀ k val, 0 < k → PartFault p (physical n frame) addr val k c c' := by
  have hzero : addr + BitVec.ofNat 32 0 = addr := BitVec.add_zero addr
  refine (mmuPut_settles hf hd hI).mono (fun _ c' h => ?_) fun c' h k val hk => ⟨0, hk, ?_⟩
  · obtain ⟨hI', a, ha, hmem⟩ := h
    rw [hmem]
    exact ⟨hI', writeMem_stores hn hin ha⟩
  · rw [hzero, h.2.1]
    exact ⟨h.1, .nil, h.2.2⟩

theorem bytes_two (v : Long) : bytes 2 v = bytes 1 (v >>> 8) ++ bytes 1 v := by
  simp [bytes, List.range_succ]

theorem bytes_four_bytes (v : Long) :
    bytes 4 v = bytes 1 (v >>> 24) ++ bytes 1 (v >>> 16) ++ bytes 1 (v >>> 8) ++ bytes 1 v := by
  simp [bytes, List.range_succ]

theorem mmuPutWordUnaligned_settles (hf : Follows q sp n frame I) (hd : sp.data = true) (hn' : 2 ≤ n) (hn : n ≤ 32)
    (hI : I c.world.mmu) : Settles (mmuPutWordUnaligned q p x sp addr val) c
      (fun _ c' => Stores (physical n frame) c.world.mem addr (bytes 2 val) c'.world.mem)
      (WriteFault p n frame addr val 2 c) := by
  refine misalignedPut_settles hn' hn (by decide) (Settles.bind ((mmuPut_first .byte hf hd hn hI
    (inPage_zero n addr)).mono (fun _ _ h => h) fun _ h => h 2 val (by decide)) fun _ c₁ h₁ => ?_)
  refine (mmuPut_next .byte hf hd hn h₁.1 (bytes_length 1 _) h₁.2 (inPage_zero n _)).mono
    (fun _ _ h => ?_) fun _ h => partFault_of_next (by decide) ?_ h
  · rw [bytes_two]
    exact h.2
  · rw [bytes_two]
    rfl

theorem mmuPutLongUnaligned_settles (hf : Follows q sp n frame I) (hd : sp.data = true) (hn : 2 ≤ n) (hn' : n ≤ 32)
    (hI : I c.world.mmu) : Settles (mmuPutLongUnaligned q p x sp addr val) c
      (fun _ c' => Stores (physical n frame) c.world.mem addr (bytes 4 val) c'.world.mem)
      (WriteFault p n frame addr val 4 c) := by
  refine misalignedPut_settles hn hn' (by decide) (Settles.ite (fun heven => ?_) fun _ => ?_)
  · have hin : InPage n addr 1 := inPage_even (by omega) hn' heven
    refine Settles.bind ((mmuPut_first .word hf hd hn' hI hin).mono (fun _ _ h => h)
      fun _ h => h 4 val (by decide)) fun _ c₁ h₁ => ?_
    refine (mmuPut_next .word hf hd hn' h₁.1 (bytes_length 2 _) h₁.2
      (inPage_word (by omega) hn' heven (Nat.dvd_refl 2))).mono (fun _ _ h => ?_) fun _ h => partFault_of_next (by decide) ?_ h
    · rw [bytes_four]
      exact h.2
    · rw [bytes_four]
      rfl
  · refine Settles.bind ((mmuPut_first .byte hf hd hn' hI (inPage_zero n addr)).mono (fun _ _ h => h)
      fun _ h => h 4 val (by decide)) fun _ c₁ h₁ => ?_
    refine Settles.bind ((mmuPut_next .byte hf hd hn' h₁.1 (bytes_length 1 _) h₁.2
      (inPage_zero n _)).mono (fun _ _ h => h) fun _ h => partFault_of_next (by decide) ?_ h) fun _ c₂ h₂ => ?_
    · rw [bytes_four_bytes]
      rfl
    refine Settles.bind ((mmuPut_next .byte hf hd hn' h₂.1 (k := 2) rfl h₂.2
      (inPage_zero n _)).mono (fun _ _ h => h) fun _ h => partFault_of_next (by decide) ?_ h) fun _ c₃ h₃ => ?_
    · rw [bytes_four_bytes]
      rfl
    refine (mmuPut_next .byte hf hd hn' h₃.1 (k := 3) rfl h₃.2 (inPage_zero n _)).mono (fun _ _ h => ?_)
      fun _ h => partFault_of_next (by decide) ?_ h
    · rw [bytes_four_bytes]
      exact h.2
    · rw [bytes_four_bytes]
      rfl

end Parts

/-! ## Every access -/

/-- `2 ^ pageBits` bytes make a page. -/
def pageBits (pagesize8k : Bool) : Nat := if pagesize8k then 13 else 12

theorem pageBits_bounds (pagesize8k : Bool) : 2 ≤ pageBits pagesize8k ∧ pageBits pagesize8k < 32 := by
  cases pagesize8k <;> decide

theorem mmuPageSize_eq (pagesize8k : Bool) : mmuPageSize pagesize8k = BitVec.ofNat 32 (2 ^ pageBits pagesize8k) := by
  cases pagesize8k <;> rfl

theorem dvd_of_and {addr : Long} (i : Nat) (hi : i ≤ 32) (h : addr &&& BitVec.ofNat 32 (2 ^ i - 1) = 0) :
    2 ^ i ∣ addr.toNat := by
  have hpow : 2 ^ i ≤ 2 ^ 32 := Nat.pow_le_pow_right (by decide) hi
  have hpos := Nat.two_pow_pos i
  have hz := congrArg BitVec.toNat h
  rw [BitVec.toNat_and, BitVec.toNat_ofNat, Nat.mod_eq_of_lt (by omega), Nat.and_two_pow_sub_one_eq_mod] at hz
  exact Nat.dvd_of_mod_eq_zero hz

/-- An access that is not split lies in one page. -/
theorem inPage_of_whole {pagesize8k : Bool} {addr : Long} {size : AccessSize}
    (h : isUnalignedPage pagesize8k addr size = false) :
    InPage (pageBits pagesize8k) addr (sizeBytes size - 1) := by
  obtain ⟨hn, hn'⟩ := pageBits_bounds pagesize8k
  have hpow : 2 ^ 2 ≤ 2 ^ pageBits pagesize8k := Nat.pow_le_pow_right (by decide) hn
  have hsize : sizeBytes size - 1 < 2 ^ pageBits pagesize8k := by
    cases size <;> simp only [sizeBytes] <;> omega
  rw [isUnalignedPage, Bool.and_eq_false_iff] at h
  rcases h with haligned | hsame
  · have hand : addr &&& BitVec.ofNat 32 (sizeBytes size - 1) = 0 := by simpa using haligned
    cases size with
    | byte => exact inPage_zero _ addr
    | word =>
      exact inPage_of_dvd (d := 2 ^ 1) (by decide) (Nat.pow_dvd_pow 2 (by omega)) (dvd_of_and 1 (by decide) hand)
    | long =>
      exact inPage_of_dvd (d := 2 ^ 2) (by decide) (Nat.pow_dvd_pow 2 hn) (dvd_of_and 2 (by decide) hand)
  · refine inPage_of_same hn' hsize ?_
    rw [← mmuPageSize_eq]
    simpa using hsame

section Accesses

variable {q : Port040 M} {p : Prefs} {x : AccessStatics} {sp : Space} {pagesize8k : Bool}
  {frame : Nat → Option Long} {I : M → Prop} {c : Cpu040 M} {addr val : Long} {size : AccessSize}

theorem not_split_byte {addr : Long} : isUnalignedPage pagesize8k addr .byte = false := by
  simp [isUnalignedPage, sizeBytes]

theorem uaeMmu040Get_settles (hf : Follows q sp (pageBits pagesize8k) frame I)  (hI : I c.world.mmu) : Settles (uaeMmu040Get q p x pagesize8k sp size addr) c
      (fun v c' => Moved I c c' ∧ Loads (physical (pageBits pagesize8k) frame) c.world.mem addr (sizeBytes size) v)
      (ReadFault p sp (physical (pageBits pagesize8k) frame) addr (sizeBytes size) c) := by
  obtain ⟨hn, hn'⟩ := pageBits_bounds pagesize8k
  unfold uaeMmu040Get
  cases hsplit : isUnalignedPage pagesize8k addr size with
  | false =>
    rw [if_neg Bool.false_ne_true]
    exact (mmuGet_first _ hf (Nat.le_of_lt hn') hI (inPage_of_whole hsplit)).mono (fun _ _ h => h) fun _ h => h _
  | true =>
    rw [if_pos rfl]
    cases size with
    | byte =>
      rw [not_split_byte] at hsplit
      cases hsplit
    | word => exact mmuGetWordUnaligned_settles hf (Nat.le_of_lt hn') hI
    | long => exact mmuGetLongUnaligned_settles hf (by omega) (Nat.le_of_lt hn') hI

theorem not_split_even (heven : addr &&& 1 = 0) : isUnalignedPage pagesize8k addr .word = false := by
  have hlow : addr &&& BitVec.ofNat 32 (sizeBytes .word - 1) = 0 := heven
  simp [isUnalignedPage, hlow]

/-- A fetch from an even address, or that is not split, is made as a read of data is. -/
theorem uaeMmu040GetI_eq {super : Bool} (h : addr &&& 1 = 0 ∨ isUnalignedPage pagesize8k addr size = false) :
    uaeMmu040GetI q p x pagesize8k super size addr =
      uaeMmu040Get q p x pagesize8k ⟨super, false, false⟩ size addr := by
  unfold uaeMmu040GetI uaeMmu040Get
  cases hsplit : isUnalignedPage pagesize8k addr size with
  | false => rw [if_neg (fun hs => Bool.false_ne_true hs.2), if_neg Bool.false_ne_true]
  | true =>
    have heven : addr &&& 1 = 0 := h.resolve_right fun hno => Bool.false_ne_true (hno.symm.trans hsplit)
    cases size with
    | byte =>
      rw [not_split_byte] at hsplit
      cases hsplit
    | word =>
      rw [not_split_even heven] at hsplit
      cases hsplit
    | long =>
      rw [if_pos ⟨rfl, rfl⟩, if_pos rfl]
      exact (if_pos heven).symm

theorem uaeMmu040Put_settles (hf : Follows q sp (pageBits pagesize8k) frame I) (hd : sp.data = true)
    (hI : I c.world.mmu) : Settles (uaeMmu040Put q p x pagesize8k sp size addr val) c
      (fun _ c' => Stores (physical (pageBits pagesize8k) frame) c.world.mem addr (bytes (sizeBytes size) val)
        c'.world.mem)
      (WriteFault p (pageBits pagesize8k) frame addr val (sizeBytes size) c) := by
  obtain ⟨hn, hn'⟩ := pageBits_bounds pagesize8k
  unfold uaeMmu040Put
  cases hsplit : isUnalignedPage pagesize8k addr size with
  | false =>
    rw [if_neg Bool.false_ne_true]
    refine (mmuPut_settles hf hd hI).mono (fun _ c' h => ?_) fun c' h => ⟨0, ?_, ?_, ?_, ?_, h.2.2⟩
    · obtain ⟨-, a, ha, hmem⟩ := h
      rw [hmem]
      exact writeMem_stores (Nat.le_of_lt hn') (inPage_of_whole hsplit) ha
    · cases size <;> decide
    · rw [show addr + BitVec.ofNat 32 0 = addr from BitVec.add_zero addr]
      exact h.1
    · exact fun i hi => absurd hi (Nat.not_lt_zero i)
    · rw [h.2.1]
      exact .nil
  | true =>
    rw [if_pos rfl]
    cases size with
    | byte =>
      rw [not_split_byte] at hsplit
      cases hsplit
    | word => exact mmuPutWordUnaligned_settles hf hd hn (Nat.le_of_lt hn') hI
    | long => exact mmuPutLongUnaligned_settles hf hd hn (Nat.le_of_lt hn') hI

end Accesses

end UaeCpu.Misaligned
