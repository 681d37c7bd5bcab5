import UaeCpu.Mmu030Search

/-!
# UaeCpu.Mmu030Access

The memory accesses of the 68030 through its MMU, up to the physical address: the `x_phys_*` call
at the end of each is left out. `MOVES`, unaligned and locked accesses use the generic forms.

An index of -1 into the translation cache has no outcome.
-/

namespace UaeCpu

open Fault FaultM

/-- `mmu030_page_fault`: `THROW(2)`. -/
def mmu030PageFault {α : Type} (addr : Long) (read : Bool) (flags : Word) (fc : Long) :
    Mmu030M α := do
  update fun m => { m with
    fault := some ⟨addr, read, flags, fc⟩
    busErrorReadWrite := read
    ismoves030 := false
    islrmw030 := false }
  throwCode 2

/-! ## Transparent translation -/

section Transparent

variable (tt : Long) (comp : TtInfo) (addr fc : Long)

def ttMatches : Bool :=
  decide (comp.fcBase &&& comp.fcMask = fc &&& comp.fcMask ∧
    comp.addrBase &&& comp.addrMask = addr &&& comp.addrMask)

/-- `mmu030_do_match_ttr` gives `TT_OK_MATCH`. -/
def mmu030DoMatchTtr (write : Bool) : Bool :=
  decide (tt &&& ttEnable ≠ 0) && ttMatches comp addr fc &&
    (decide (tt &&& ttRwm ≠ 0) || (if tt &&& ttRw ≠ 0 then !write else write))

/-- `mmu030_do_match_lrmw_ttr`. -/
def mmu030DoMatchLrmwTtr : Bool :=
  decide (tt &&& ttEnable ≠ 0 ∧ tt &&& ttRwm ≠ 0) && ttMatches comp addr fc

end Transparent

/-- `mmu030_match_ttr`, which alone looks at `CI`. -/
def mmu030MatchTtr (addr fc : Long) (write : Bool) : Mmu030M Bool := do
  let m ← reads id
  let tt0 := mmu030DoMatchTtr m.regs.tt0030 m.regs.tt0 addr fc write
  let tt1 := mmu030DoMatchTtr m.regs.tt1030 m.regs.tt1 addr fc write
  update fun m =>
    if (tt0 ∧ m.regs.tt0030 &&& ttCi ≠ 0) ∨ (tt1 ∧ m.regs.tt1030 &&& ttCi ≠ 0) then
      { m with mmu030CacheState := cacheDisableMmu }
    else m
  pure (tt0 || tt1)

/-- `mmu030_match_ttr_access`. -/
def mmu030MatchTtrAccess (m : Mmu030) (addr fc : Long) (write : Bool) : Bool :=
  m.regs.ttEnabled && (mmu030DoMatchTtr m.regs.tt0030 m.regs.tt0 addr fc write ||
    mmu030DoMatchTtr m.regs.tt1030 m.regs.tt1 addr fc write)

/-- `mmu030_match_lrmw_ttr_access`. -/
def mmu030MatchLrmwTtrAccess (m : Mmu030) (addr fc : Long) : Bool :=
  m.regs.ttEnabled && (mmu030DoMatchLrmwTtr m.regs.tt0030 m.regs.tt0 addr fc ||
    mmu030DoMatchLrmwTtr m.regs.tt1030 m.regs.tt1 addr fc)

/-! ## Through a line -/

/-- `mmu030.atc[l]`. -/
def atcAt (l : Option (Fin 22)) : Mmu030M AtcLine030 := fun m =>
  match l with
  | some i => .ret (m.atc i) m
  | none => .diverge

/-- The key of a page in the data page caches. -/
def dataCacheIdx (m : Mmu030) (addr fc : Long) : Long :=
  ((addr &&& m.regs.imask) >>> m.regs.translation.page.size3m) ||| fc

/-- `mmu030_add_data_read_cache` and `mmu030_add_data_write_cache`. -/
def mmu030AddDataCache (write : Bool) (addr phys fc : Long) : Mmu030M Unit :=
  update fun m =>
    let idx1 := dataCacheIdx m addr fc
    let idx2 := idx1.setWidth 8
    let entry : MmuFastCache := { log := idx1, phys := phys, cacheState := m.mmu030CacheState }
    if idx2 < 0xFF then
      if write then { m with atcDataCacheWrite := Function.update m.atcDataCacheWrite idx2 entry }
      else { m with atcDataCacheRead := Function.update m.atcDataCacheRead idx2 entry }
    else m

/-- The physical address of `addr` in the page of a line. -/
def lineAddr (m : Mmu030) (l : AtcLine030) (addr : Long) : Long :=
  (l.physAddr &&& m.regs.imask) + (addr &&& m.regs.pageMask)

section Line

variable (addr : Long) (l : Option (Fin 22)) (fc : Long) (flags : Word)

/-- `mmu030_put_atc`. -/
def mmu030PutAtc : Mmu030M Long := do
  let line ← atcAt l
  if line.busError ∨ line.writeProtect then mmu030PageFault addr false flags fc
  else do
    update fun m => { m with mmu030CacheState := line.cacheInhibit }
    let m ← reads id
    mmu030AddDataCache true addr (line.physAddr &&& m.regs.imask) fc
    pure (lineAddr m line addr)

/-- `mmu030_get_atc`. -/
def mmu030GetAtc : Mmu030M Long := do
  let line ← atcAt l
  if line.busError then mmu030PageFault addr true flags fc
  else do
    update fun m => { m with mmu030CacheState := line.cacheInhibit }
    let m ← reads id
    mmu030AddDataCache false addr (line.physAddr &&& m.regs.imask) fc
    pure (lineAddr m line addr)

/-- `mmu030_get_i_atc`. -/
def mmu030GetIAtc : Mmu030M Long := do
  let line ← atcAt l
  if line.busError then mmu030PageFault addr true flags fc
  else do
    update fun m => { m with
      insCacheState := line.cacheInhibit
      lastPhysicalAddress := line.physAddr &&& m.regs.imask
      lastLogicalAddress := (addr &&& m.regs.imask) ||| fc
      mmu030CacheState := line.cacheInhibit }
    let m ← reads id
    pure (lineAddr m line addr)

/-- `mmu030_put_atc_generic`, which leaves the cache state alone. -/
def mmu030PutAtcGeneric : Mmu030M Long := do
  let line ← atcAt l
  if line.writeProtect ∨ line.busError then mmu030PageFault addr false flags fc
  else do
    let m ← reads id
    mmu030AddDataCache true addr (line.physAddr &&& m.regs.imask) fc
    pure (lineAddr m line addr)

/-- `mmu030_get_atc_generic`, which leaves the cache state alone. -/
def mmu030GetAtcGeneric (checkwrite : Bool) : Mmu030M Long := do
  let line ← atcAt l
  if line.busError ∨ (checkwrite ∧ line.writeProtect) then mmu030PageFault addr true flags fc
  else do
    let m ← reads id
    mmu030AddDataCache false addr (line.physAddr &&& m.regs.imask) fc
    pure (lineAddr m line addr)

/-- `mmu030_get_addr_atc`. -/
def mmu030GetAddrAtc (write : Bool) : Mmu030M Long := do
  let line ← atcAt l
  if line.busError ∨ (write ∧ line.writeProtect) then mmu030PageFault addr (!write) flags fc
  else do
    let m ← reads id
    pure (lineAddr m line addr)

end Line

/-! ## Accesses -/

/-- `cacheablecheck`. -/
def cacheablecheck (addr : Long) : Mmu030M Unit :=
  update fun m =>
    if m.mmu030CacheState = cacheEnableAll then
      { m with mmu030CacheState := m.ceCachable (addr.extractLsb' 16 16) }
    else m

/-- The access through a line, which a miss fills first; `searchWrite` is what the search is told
the access is. -/
def throughAtc (addr fc : Long) (write searchWrite : Bool)
    (access : Option (Fin 22) → Mmu030M Long) : Mmu030M Long := do
  let l ← mmu030LogicalIsInAtc addr fc write
  if l.isSome then access l
  else do
    let _ ← mmu030TableSearch addr fc searchWrite 0
    let l ← mmu030LogicalIsInAtc addr fc write
    access l

/-- The address is translated: not for the CPU space, nor where a transparent translation matches,
nor with the MMU off. -/
def translated (m : Mmu030) (fc : Long) (transparent : Bool) : Bool :=
  decide (fc ≠ 7) && !transparent && m.regs.enabled

section Data

variable (addr fc : Long)

/-- `mmu030_put_long`, `mmu030_put_word` and `mmu030_put_byte`. -/
def mmu030Put (flags : Word) : Mmu030M Long := do
  update fun m => { m with mmu030CacheState := cacheEnableAll }
  let m ← reads id
  let entry := m.atcDataCacheWrite ((dataCacheIdx m addr fc).setWidth 8)
  let phys ←
    (if translated m fc (mmu030MatchTtrAccess m addr fc true) then
      if entry.log = dataCacheIdx m addr fc then do
        update fun m => { m with mmu030CacheState := entry.cacheState }
        pure (entry.phys ||| (addr &&& m.regs.pageMask))
      else throughAtc addr fc true true fun l => mmu030PutAtc addr l fc flags
    else pure addr)
  cacheablecheck phys
  pure phys

def mmu030PutLong : Mmu030M Long := mmu030Put addr fc mmu030SswSizeL
def mmu030PutWord : Mmu030M Long := mmu030Put addr fc mmu030SswSizeW
def mmu030PutByte : Mmu030M Long := mmu030Put addr fc mmu030SswSizeB

/-- `mmu030_get_long`, `mmu030_get_word` and `mmu030_get_byte`. -/
def mmu030Get (flags : Word) : Mmu030M Long := do
  update fun m => { m with mmu030CacheState := cacheEnableAll }
  let m ← reads id
  let entry := m.atcDataCacheRead ((dataCacheIdx m addr fc).setWidth 8)
  let phys ←
    (if translated m fc (mmu030MatchTtrAccess m addr fc false) then
      if entry.log = dataCacheIdx m addr fc then do
        update fun m => { m with mmu030CacheState := entry.cacheState }
        pure (entry.phys ||| (addr &&& m.regs.pageMask))
      else throughAtc addr fc false false fun l => mmu030GetAtc addr l fc flags
    else pure addr)
  cacheablecheck phys
  pure phys

def mmu030GetLong : Mmu030M Long := mmu030Get addr fc mmu030SswSizeL
def mmu030GetWord : Mmu030M Long := mmu030Get addr fc mmu030SswSizeW
def mmu030GetByte : Mmu030M Long := mmu030Get addr fc mmu030SswSizeB

/-- `mmu030_get_ilong` and `mmu030_get_iword`, which look at the page last used before all else. -/
def mmu030GetI (flags : Word) : Mmu030M Long := do
  let m ← reads id
  if (addr &&& m.regs.imask) ||| fc = m.lastLogicalAddress then do
    update fun m => { m with mmu030CacheState := m.insCacheState }
    pure (m.lastPhysicalAddress + (addr &&& m.regs.pageMask))
  else do
    update fun m => { m with
      lastLogicalAddress := 0xFFFFFFFF
      mmu030CacheState := cacheEnableAll }
    let m ← reads id
    let phys ←
      (if translated m fc (mmu030MatchTtrAccess m addr fc false) then
        throughAtc addr fc false false fun l => mmu030GetIAtc addr l fc flags
      else pure addr)
    cacheablecheck phys
    pure phys

def mmu030GetIlong : Mmu030M Long := mmu030GetI addr fc mmu030SswSizeL
def mmu030GetIword : Mmu030M Long := mmu030GetI addr fc mmu030SswSizeW

variable (flags : Word)

/-- `mmu030_put_generic`, with `mmu030_put_generic_lrmw` where `flags` has `RM`. -/
def mmu030PutGeneric : Mmu030M Long := do
  update fun m => { m with mmu030CacheState := cacheEnableAll }
  let m ← reads id
  let transparent :=
    if flags &&& mmu030SswRm ≠ 0 then mmu030MatchLrmwTtrAccess m addr fc
    else mmu030MatchTtrAccess m addr fc true
  let phys ←
    (if translated m fc transparent then
      throughAtc addr fc true true fun l => mmu030PutAtcGeneric addr l fc flags
    else pure addr)
  cacheablecheck phys
  pure phys

/-- `mmu030_get_generic`, with `mmu030_get_generic_lrmw` where `flags` has `RM`. -/
def mmu030GetGeneric : Mmu030M Long := do
  update fun m => { m with mmu030CacheState := cacheEnableAll }
  let m ← reads id
  let rm := decide (flags &&& mmu030SswRm ≠ 0)
  let transparent :=
    if rm then mmu030MatchLrmwTtrAccess m addr fc else mmu030MatchTtrAccess m addr fc false
  let phys ←
    (if translated m fc transparent then
      throughAtc addr fc rm rm fun l => mmu030GetAtcGeneric addr l fc flags rm
    else pure addr)
  cacheablecheck phys
  pure phys

/-- `uae_mmu030_check_fc`: after a refill it does not check for writing. -/
def uaeMmu030CheckFc (write : Bool) : Mmu030M (BitVec 8) := do
  let fc ← reads fun m => m.regs.fc030
  update fun m => { m with mmu030CacheState := cacheEnableAll }
  let m ← reads id
  let phys ←
    (if translated m fc (mmu030MatchTtrAccess m addr fc write) then do
      let l ← mmu030LogicalIsInAtc addr fc write
      if l.isSome then mmu030GetAtcGeneric addr l fc flags write
      else do
        let _ ← mmu030TableSearch addr fc write 0
        let l ← mmu030LogicalIsInAtc addr fc write
        mmu030GetAtcGeneric addr l fc flags false
    else pure addr)
  let m ← reads id
  if m.mmu030CacheState ≠ cacheEnableAll then pure m.mmu030CacheState
  else pure (m.ceCachable (phys.extractLsb' 16 16))

end Data

/-- `mmu030_translate`. -/
def mmu030Translate (addr : Long) (super data write : Bool) : Mmu030M Long := do
  let fc : Long := (if super then 4 else 0) ||| (if data then 1 else 2)
  if fc = 7 then pure addr
  else do
    let transparent ← mmu030MatchTtr addr fc write
    let m ← reads id
    if transparent ∨ !m.regs.enabled then pure addr
    else throughAtc addr fc write false fun l => mmu030GetAddrAtc addr l fc mmu030SswSizeB write

/-! ## Instructions -/

/-- The function code of a data access. -/
def uaeMmu030GetFcData (m : Mmu030) : Long := (if m.s then 4 else 0) ||| 1

/-- The function code of an instruction fetch. -/
def uaeMmu030GetFcCode (m : Mmu030) : Long := (if m.s then 4 else 0) ||| 2

/-- `x_phys_get_word`. -/
def physGetWord (addr : Long) : Mmu030M Word := fun m =>
  match m.mem (addr &&& 0xFFFFFFFC) with
  | some d => .ret (if addr &&& 2 = 0 then d.extractLsb' 16 16 else d.extractLsb' 0 16) m
  | none => mmu030PageFault addr true mmu030SswSizeW (uaeMmu030GetFcCode m) m

/-- The `TRY` of `mmu030_do_fake_prefetch`: what `x_prefetch` fetches is of no concern to the MMU,
but a `NOP` makes it fetch the word after it too. -/
def fakePrefetchTry : Mmu030M Unit := do
  let m ← reads id
  let _ ← mmu030Translate m.regs.pc m.s false false
  let phys ← mmu030GetIword m.regs.pc (uaeMmu030GetFcCode m)
  let op ← physGetWord phys
  if op = 0x4E71 then do
    let phys ← mmu030GetIword (m.regs.pc + 2) (uaeMmu030GetFcCode m)
    let _ ← physGetWord phys
    pure ()
  else pure ()

/-- `mmu030_do_fake_prefetch`. -/
def mmu030DoFakePrefetch : Mmu030M Unit := do
  let m ← reads id
  if m.regs.cpuCompatible then pure () else tryCatch fakePrefetchTry fun _ => pure ()

/-- `mmu030_ptest_atc_search`. -/
def mmu030PtestAtcSearch (logicalAddr fc : Long) (write : Bool) : Mmu030M Unit := do
  update fun m => { m with status := 0 }
  let transparent ← mmu030MatchTtr logicalAddr fc write
  if transparent then update fun m => { m with status := m.status ||| mmusrTranspAccess }
  else do
    let m ← reads id
    match (List.finRange 22).find? fun i =>
        decide ((m.atc i).fc = fc ∧ (m.atc i).logAddr = logicalAddr) && (m.atc i).valid with
    | none => update fun m => { m with status := m.status ||| mmusrInvalid }
    | some i =>
      let l := m.atc i
      update fun m => { m with
        status := m.status |||
          ((if l.busError then mmusrBusError ||| mmusrInvalid else 0) |||
            (if l.writeProtect then mmusrWriteProtected else 0) |||
            (if l.modified then mmusrModified else 0)) }

/-- `mmu_op30_ptest`: `true` is an F-line exception. -/
def mmuOp30Ptest (opcode : Long) (next : Word) (extra : Long) : Mmu030M Bool := do
  update fun m => { m with status := 0, mmusr030 := 0 }
  let level := ((next &&& 0x1C00) >>> 10).toNat
  let a := next &&& 0x100 ≠ 0
  let areg := ((next &&& 0xE0) >>> 5).extractLsb' 0 3
  let write := decide (next &&& 0x200 = 0)
  let m ← reads id
  if mmuOp30Invea opcode then pure true
  else
    match mmuOp30HelperGetFc m next with
    | none => pure true
    | some fc =>
      if level = 0 ∧ a then pure true
      else do
        (if level = 0 then mmu030PtestAtcSearch extra fc write
          else do
            let ret ← mmu030TableSearch extra fc write level
            update fun m =>
              if a then { m with aregs := Function.update m.aregs areg.toFin ret } else m)
        update fun m => { m with mmusr030 := m.status }
        pure false

/-- `mmu_op30_pload`. -/
def mmuOp30Pload (opcode : Long) (next : Word) (extra : Long) : Mmu030M Bool := do
  let write := decide (next &&& 0x200 = 0)
  let m ← reads id
  if mmuOp30Invea opcode ∨ next &&& 0x1E0 ≠ 0 then pure true
  else
    match mmuOp30HelperGetFc m next with
    | none => pure true
    | some fc => do
      mmu030FlushAtcPage extra
      let _ ← mmu030TableSearch extra fc write 0
      pure false

/-- `mmu_op30_pflush`. -/
def mmuOp30Pflush (opcode : Long) (next : Word) (extra : Long) : Mmu030M Bool := do
  let mode := (next >>> 8) &&& 31
  let fcMask := ((next &&& 0xE0) >>> 5).setWidth 32
  let m ← reads id
  if mode = 0 ∨ mode = 2 then mmuOp30Pload opcode next extra
  else if mode = 4 then
    if next &&& 0x7F ≠ 0 then pure true
    else do
      mmu030FlushAtcAll
      pure false
  else if mode = 0x10 then
    match mmuOp30HelperGetFc m next with
    | none => pure true
    | some fcBase => do
      mmu030FlushAtcFc fcBase fcMask
      pure false
  else if mode = 0x18 then
    if mmuOp30Invea opcode then pure true
    else
      match mmuOp30HelperGetFc m next with
      | none => pure true
      | some fcBase => do
        mmu030FlushAtcPageFc extra fcBase fcMask
        pure false
  else pure true

end UaeCpu
