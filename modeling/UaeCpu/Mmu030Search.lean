import Mathlib.Data.List.FinRange
import UaeCpu.Mmu030

/-!
# UaeCpu.Mmu030Search

The table search of the 68030 MMU, and the translation cache that it fills.

* `tableSearch`       — from the root pointer to `stop_search`, with its local variables as state.
* `mmu030TableSearch` — the search, its `CATCH` and the line made of its result.
* `mmu030LogicalIsInAtc` — the lookup.
-/

namespace UaeCpu

open Fault FaultM

abbrev descrTypeMask : Long := 3
abbrev descrWp : Long := 4
abbrev descrU : Long := 8
abbrev descrM : Long := 0x10
abbrev descrCi : Long := 0x40
abbrev descrS : Long := 0x100
abbrev descrTdAddrMask : Long := 0xFFFFFFF0
abbrev descrPdAddrMask : Long := 0xFFFFFF00
abbrev descrIdAddrMask : Long := 0xFFFFFFFC
abbrev descrLimitMask : Long := 0x7FFF0000
abbrev descrLowerMask : Long := 0x80000000
abbrev rpZeroBits : Long := 0xFFFC

/-! ## Variables -/

/-- The local variables of `mmu030_table_search`. -/
structure SearchVars where
  descr0 : Long
  descr1 : Long
  descrAddr : Fin 7 → Long
  t : Nat
  nextSize : Nat
  descrSize : Nat
  descrNum : Nat
  superViolation : Bool
  writeProtected : Bool
  earlyTermination : Bool
  cacheInhibit : BitVec 8
  pageAddr : Long

structure SearchState where
  m : Mmu030
  v : SearchVars

abbrev SearchM (α : Type) := FaultM SearchState α

/-- Where the search goes on. -/
inductive SearchLabel where
  | next
  | handlePageDescriptor
  | stopSearch
  deriving DecidableEq

def setVars (f : SearchVars → SearchVars) : SearchM Unit :=
  update fun st => { st with v := f st.v }

def orStatus (b : Word) : SearchM Unit :=
  update fun st => { st with m := { st.m with status := st.m.status ||| b } }

def descGetLong030 (addr : Long) : SearchM Long := fun st =>
  match st.m.mem addr with
  | some d => .ret d st
  | none => .thrown 2 { st with m := { st.m with busErrorReadWrite := true } }

def descPutLong030 (addr d : Long) : SearchM Unit := fun st =>
  match st.m.mem addr with
  | some _ =>
    .ret () { st with m := { st.m with mem := Function.update st.m.mem addr (some d) } }
  | none => .thrown 2 { st with m := { st.m with busErrorReadWrite := false } }

/-- `mmu030.translation.table[t]`. -/
def tableAt (t : Nat) : SearchM TableIndex := fun st =>
  if h : t < 4 then .ret (st.m.regs.translation.table ⟨t, h⟩) st else .diverge

/-- `descr_addr[descr_num]`. -/
def descrAddrAt (n : Nat) : SearchM Long := fun st =>
  if h : n < 7 then .ret (st.v.descrAddr ⟨n, h⟩) st else .diverge

/-- `descr_addr[++descr_num] = addr`. -/
def pushDescrAddr (addr : Long) : SearchM Unit := fun st =>
  if h : st.v.descrNum + 1 < 7 then
    .ret ()
      { st with
        v :=
          { st.v with
            descrNum := st.v.descrNum + 1
            descrAddr := Function.update st.v.descrAddr ⟨st.v.descrNum + 1, h⟩ addr } }
  else .diverge

/-! ## Pieces of the search -/

/-- The address word of the descriptor. -/
def addrWord (v : SearchVars) : Long := if v.descrSize = 4 then v.descr0 else v.descr1

/-- Fetches the descriptor at `addr`, of the size that the one before says. -/
def fetchDescr (addr : Long) : SearchM Unit := do
  pushDescrAddr addr
  let st ← reads id
  (if st.v.nextSize = 4 then do
      let d ← descGetLong030 addr
      setVars fun v => { v with descr0 := d }
    else do
      let d ← descGetLong030 addr
      setVars fun v => { v with descr0 := d }
      let d ← descGetLong030 (addr + 4)
      setVars fun v => { v with descr1 := d })
  setVars fun v => { v with descrSize := v.nextSize }

/-- The types that a table descriptor shares with a root pointer. -/
def nextSizeOf (descr0 : Long) : Nat := if descr0 &&& descrTypeMask = 2 then 4 else 8

/-- `S` and `WP` of the descriptor. -/
def protect (super : Bool) : SearchM Unit :=
  setVars fun v => { v with
    superViolation :=
      v.superViolation || (decide (v.descrSize = 8 ∧ v.descr0 &&& descrS ≠ 0) && !super)
    writeProtected := v.writeProtected || decide (v.descr0 &&& descrWp ≠ 0) }

/-- `S` and `WP` in the status. -/
def protectStatus : SearchM Unit := do
  let st ← reads id
  orStatus (if st.v.superViolation then mmusrSuperViolation else 0)
  orStatus (if st.v.writeProtected then mmusrWriteProtected else 0)

/-- A table descriptor that is not the root pointer: `true` if the level of `PTEST` is reached. -/
def handleTableDescr (super : Bool) (level : Nat) : SearchM Bool := do
  let st ← reads id
  if st.v.descrNum = 0 then pure false
  else do
    protect super
    let st ← reads id
    (if level = 0 ∧ st.v.descr0 &&& descrU = 0 ∧ !st.v.superViolation then do
        setVars fun v => { v with descr0 := v.descr0 ||| descrU }
        let addr ← descrAddrAt st.v.descrNum
        descPutLong030 addr (st.v.descr0 ||| descrU)
      else pure ())
    protectStatus
    pure (decide (level ≠ 0 ∧ level = st.v.descrNum))

/-- The limit of the long descriptor excludes the index. -/
def limitViolated (descr0 tableIndex : Long) : Bool :=
  let limit := (descr0 &&& descrLimitMask) >>> 16
  if descr0 &&& descrLowerMask ≠ 0 then decide (tableIndex < limit)
  else decide (limit < tableIndex)

def TableIndex.of (ti : TableIndex) (addr : Long) : Long := (addr &&& ti.mask) >>> ti.shift

/-- The type of a descriptor just fetched. `last` if no table follows. -/
def descrLabel (last : Bool) : SearchM SearchLabel := do
  let st ← reads id
  if st.v.descr0 &&& descrTypeMask = 0 then do
    orStatus mmusrInvalid
    pure .stopSearch
  else if st.v.descr0 &&& descrTypeMask = 1 then do
    setVars fun v => { v with earlyTermination := v.earlyTermination || !last }
    pure .handlePageDescriptor
  else do
    setVars fun v => { v with nextSize := nextSizeOf v.descr0 }
    pure .next

/-- The function code table. -/
def fclTable (fc : Long) : SearchM SearchLabel := do
  let st ← reads id
  fetchDescr ((addrWord st.v &&& descrTdAddrMask) + fc * BitVec.ofNat 32 st.v.nextSize)
  descrLabel false

/-- One round of the loop over the tables. -/
def tableRound (addr : Long) (super : Bool) (level : Nat) : SearchM SearchLabel := do
  let reached ← handleTableDescr super level
  if reached then pure .stopSearch
  else do
    let st ← reads id
    let ti ← tableAt st.v.t
    setVars fun v => { v with t := v.t + 1 }
    if st.v.descrSize = 8 ∧ limitViolated st.v.descr0 (ti.of addr) then do
      orStatus (mmusrLimitViolation ||| mmusrInvalid)
      pure .stopSearch
    else do
      fetchDescr ((addrWord st.v &&& descrTdAddrMask) +
        ti.of addr * BitVec.ofNat 32 st.v.nextSize)
      let st ← reads id
      descrLabel (decide (st.m.regs.lastTable < st.v.t))

/-- `do … while (t <= last_table)`. A fifth round would leave the array of tables. -/
def tableRounds (addr : Long) (super : Bool) (level : Nat) : Nat → SearchM SearchLabel
  | 0 => fun _ => .diverge
  | n + 1 => do
    let label ← tableRound addr super level
    if label = .next then do
      let st ← reads id
      if st.v.t ≤ st.m.regs.lastTable then tableRounds addr super level n
      else pure .next
    else pure label

/-- The descriptor that an indirect descriptor leads to. -/
def indirectDescr (level : Nat) : SearchM SearchLabel := do
  let st ← reads id
  if level ≠ 0 ∧ level = st.v.descrNum then pure .stopSearch
  else do
    fetchDescr (addrWord st.v &&& descrIdAddrMask)
    let st ← reads id
    if st.v.descr0 &&& descrTypeMask ≠ 1 then do
      orStatus mmusrInvalid
      pure .stopSearch
    else pure .handlePageDescriptor

/-- `U` and `M` of the page descriptor. -/
def touchPageDescr (write : Bool) : SearchM Unit := do
  let st ← reads id
  let m := if st.v.descr0 &&& descrM = 0 ∧ write ∧ !st.v.writeProtected then descrM else 0
  let u := if st.v.descr0 &&& descrU = 0 then descrU else 0
  if m ||| u ≠ 0 then do
    setVars fun v => { v with descr0 := v.descr0 ||| (m ||| u) }
    let addr ← descrAddrAt st.v.descrNum
    descPutLong030 addr (st.v.descr0 ||| (m ||| u))
  else pure ()

/-- The index bits that early termination leaves unused: `do … while (t <= last_table)`. -/
def unusedFieldsMask : Nat → Long → SearchM Long
  | 0, _ => fun _ => .diverge
  | n + 1, mask => do
    let st ← reads id
    let ti ← tableAt st.v.t
    setVars fun v => { v with t := v.t + 1 }
    if st.v.t + 1 ≤ st.m.regs.lastTable then unusedFieldsMask n (mask ||| ti.mask)
    else pure (mask ||| ti.mask)

/-- Protection, `U`, `M` and the status of the page descriptor, unless it is the root pointer. -/
def pageDescr (super write : Bool) (level : Nat) : SearchM Unit := do
  let st ← reads id
  if st.v.descrNum = 0 then pure ()
  else do
    protect super
    let st ← reads id
    (if level = 0 ∧ !st.v.superViolation then touchPageDescr write else pure ())
    protectStatus
    setVars fun v => { v with
      cacheInhibit := if v.descr0 &&& descrCi ≠ 0 then cacheDisableMmu else cacheEnableAll }
    let st ← reads id
    orStatus (if st.v.descr0 &&& descrM ≠ 0 then mmusrModified else 0)

/-- The limit check of early termination. -/
def earlyLimitViolated (addr : Long) : SearchM Bool := do
  let st ← reads id
  if (st.v.descrNum ≠ 0 ∨ st.m.regs.tc030 &&& tcEnableFcl = 0) ∧ st.v.descrSize = 8 then do
    let ti ← tableAt st.v.t
    pure (limitViolated st.v.descr0 (ti.of addr))
  else pure false

/-- From `handle_page_descriptor` on. -/
def handlePageDescr (addr : Long) (super write : Bool) (level : Nat) : SearchM Unit := do
  pageDescr super write level
  let st ← reads id
  if st.v.earlyTermination then do
    let violated ← earlyLimitViolated addr
    if violated then orStatus (mmusrLimitViolation ||| mmusrInvalid)
    else do
      let mask ← unusedFieldsMask 4 0
      setVars fun v => { v with
        pageAddr := (addr &&& mask) + (addrWord v &&& descrPdAddrMask) }
  else setVars fun v => { v with pageAddr := v.pageAddr + (addrWord v &&& descrPdAddrMask) }

/-- The root pointer of an access. -/
def rootPointer (m : Mmu030) (super : Bool) : BitVec 64 :=
  if m.regs.tc030 &&& tcEnableSupervisor ≠ 0 ∧ super then m.regs.srp030 else m.regs.crp030

def initVars (rp : BitVec 64) : SearchVars where
  descr0 := rp.extractLsb' 32 32 &&& ~~~rpZeroBits
  descr1 := rp.extractLsb' 0 32
  descrAddr := fun _ => 0
  t := 0
  nextSize := 0
  descrSize := 8
  descrNum := 0
  superViolation := false
  writeProtected := false
  earlyTermination := false
  cacheInhibit := cacheEnableAll
  pageAddr := 0

/-- The `TRY` part of `mmu030_table_search`. -/
def tableSearch (addr fc : Long) (write : Bool) (level : Nat) : SearchM Unit := do
  let super := decide (fc &&& 4 ≠ 0)
  let st ← reads id
  let label ← descrLabel false
  let label ←
    (if label = .next ∧ st.m.regs.tc030 &&& tcEnableFcl ≠ 0 then fclTable fc else pure label)
  let label ← (if label = .next then tableRounds addr super level 4 else pure label)
  let label ← (if label = .next then indirectDescr level else pure label)
  if label = .handlePageDescriptor then handlePageDescr addr super write level else pure ()

/-! ## The translation cache -/

/-- `mmu030_atc_handle_history_bit`. -/
def handleHistoryBit (entryNum : Fin 22) : Mmu030M Unit :=
  update fun m =>
    let marked := fun i => if i = entryNum then { m.atc i with mru := true } else m.atc i
    { m with
      atc :=
        if ∀ i, (marked i).mru then
          fun i => { marked i with mru := decide (i = entryNum) }
        else marked }

/-- The line a search replaces: the first invalid one, else the first that has not been used
since the history bits were reset. -/
def atcVictim (m : Mmu030) : Fin 22 :=
  (((List.finRange 22).find? fun i => !(m.atc i).valid).orElse fun _ =>
    (List.finRange 22).find? fun i => !(m.atc i).mru).getD 0

/-- The line made of a search; `mru` is that of the line before. -/
def searchLine (m : Mmu030) (v : SearchVars) (addr fc : Long) (mru : Bool) : AtcLine030 where
  physAddr := v.pageAddr &&& m.regs.imask
  modified := decide (m.status &&& mmusrModified ≠ 0)
  writeProtect := decide (m.status &&& mmusrWriteProtected ≠ 0)
  cacheInhibit := v.cacheInhibit
  busError :=
    decide (m.status &&& mmusrInvalid ≠ 0) || decide (m.status &&& mmusrSuperViolation ≠ 0)
  logAddr := addr &&& m.regs.imask
  fc := fc
  valid := true
  mru := mru

/-- The `CATCH` of `mmu030_table_search`. -/
def searchCatch (st : SearchState) : SearchState where
  m := { st.m with status := st.m.status ||| (mmusrBusError ||| mmusrInvalid) }
  v := if st.m.busErrorReadWrite then { st.v with descrNum := st.v.descrNum - 1 } else st.v

/-- The line of a search with `level` 0. -/
def createAtcEntry (v : SearchVars) (addr fc : Long) : Mmu030M Unit := do
  let m ← reads id
  let i := atcVictim m
  handleHistoryBit i
  update fun m => { m with
    atc := Function.update m.atc i (searchLine m v addr fc (m.atc i).mru) }
  mmu030FlushCache (addr &&& m.regs.imask)

/-- What follows the `TRY` and `CATCH`: the result of `PTEST`, or a line for `level` 0. -/
def finishSearch (addr fc : Long) (level : Nat) (oldS : Bool) (st : SearchState) :
    Outcome Mmu030 Long :=
  let m := { st.m with s := oldS }
  if level = 0 then (createAtcEntry st.v addr fc >>= fun _ => pure 0) m
  else
    let m := { m with
      status := (m.status &&& ~~~mmusrNumLevelsMask) ||| BitVec.ofNat 16 st.v.descrNum }
    if st.v.descrNum = 0 then .ret 0 m
    else if h : st.v.descrNum < 7 then .ret (st.v.descrAddr ⟨st.v.descrNum, h⟩) m
    else .diverge

/-- The state in which the search starts. -/
def startSearch (fc : Long) (m : Mmu030) : SearchState where
  m := { m with status := 0, s := true }
  v := initVars (rootPointer m (decide (fc &&& 4 ≠ 0)))

/-- `mmu030_table_search`. -/
def mmu030TableSearch (addr fc : Long) (write : Bool) (level : Nat) : Mmu030M Long := fun m =>
  match tableSearch addr fc write level (startSearch fc m) with
  | .ret _ st => finishSearch addr fc level m.s st
  | .thrown _ st => finishSearch addr fc level m.s (searchCatch st)
  | .diverge => .diverge

/-- The loop of `mmu030_logical_is_in_atc` from `index` on. -/
def atcLookup (maddr fc : Long) (write : Bool) (offset : BitVec 5) :
    Nat → Fin 22 → Mmu030M (Option (Fin 22))
  | 0, _ => pure none
  | n + 1, index => do
    let m ← reads id
    let l := m.atc index
    if maddr = l.logAddr &&& m.regs.imask ∧ l.fc = fc ∧ l.valid then
      -- a first write through a line must set `M` in the tables
      if !write || l.modified || l.writeProtect || l.busError then do
        handleHistoryBit index
        update fun m => { m with atcindextable := Function.update m.atcindextable offset index }
        pure (some index)
      else do
        update fun m => { m with atc := Function.update m.atc index { l with valid := false } }
        atcLookup maddr fc write offset n (index + 1)
    else atcLookup maddr fc write offset n (index + 1)

/-- `mmu030_logical_is_in_atc`. -/
def mmu030LogicalIsInAtc (addr fc : Long) (write : Bool) : Mmu030M (Option (Fin 22)) := do
  let m ← reads id
  let maddr := addr &&& m.regs.imask
  let offset := (maddr >>> m.regs.translation.page.size).setWidth 5
  atcLookup maddr fc write offset 22 (m.atcindextable offset)

end UaeCpu
