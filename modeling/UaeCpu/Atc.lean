import Mathlib.Logic.Function.Basic
import UaeCpu.Lib.Fault
import UaeCpu.Regs

/-!
# UaeCpu.Atc

The 68040 and 68060 MMU: the table search, the address translation cache in front of it, and
the instructions that flush and test it.

Physical memory is seen as longwords: all descriptors are aligned. A throw is always caught, since
these functions run under the `TRY` of the run loop.
-/

namespace UaeCpu

open Fault FaultM

/-! ## Bits -/

/-- `MMU_DES_WP`, which is also `MMU_MMUSR_W`. -/
abbrev mmuDesWp : Long := 4
abbrev mmuDesUsed : Long := 8
/-- `MMU_DES_MODIFIED`, which is also `MMU_MMUSR_M`. -/
abbrev mmuDesModified : Long := 16
/-- `MMU_DES_SUPER`, which is also `MMU_MMUSR_S`. -/
abbrev mmuDesSuper : Long := 0x80
/-- `MMU_DES_GLOBAL`, which is also `MMU_MMUSR_G`. -/
abbrev mmuDesGlobal : Long := 0x400

abbrev mmuRootPtrAddrMask : Long := 0xFFFFFE00
abbrev mmuPtrPageAddrMask8 : Long := 0xFFFFFF80
abbrev mmuPtrPageAddrMask4 : Long := 0xFFFFFF00
abbrev mmuPageIndirectMask : Long := 0xFFFFFFFC

abbrev mmuMmusrB : Long := 0x800
abbrev mmuMmusrT : Long := 2
abbrev mmuMmusrR : Long := 1
abbrev mmuMmusrCmDisable : Long := 0x40
abbrev mmuMmusrCmMode : Long := 0x20

/-- What an ATC line keeps of a descriptor: `G`, `Ux`, `S`, `CM`, `M`, `W` and `R`. -/
abbrev atcStatusMask : Long := 0x7F5

abbrev mmuFslwLk : Long := 0x02000000
abbrev mmuFslwPta : Long := 0x1000
abbrev mmuFslwPtb : Long := 0x800
abbrev mmuFslwIl : Long := 0x400
abbrev mmuFslwPf : Long := 0x200
abbrev mmuFslwSp : Long := 0x100
abbrev mmuFslwWp : Long := 0x80
abbrev mmuFslwTwe : Long := 0x40

abbrev cacheEnableAll : BitVec 8 := 0xC3
abbrev cacheEnableCopyback : BitVec 8 := 0x20
abbrev cacheDisableAllocate : BitVec 8 := 0x08
abbrev cacheDisableMmu : BitVec 8 := 0x10

/-! ## State -/

inductive MmuModel where
  | mmu68040
  | mmu68060
  deriving DecidableEq

/-- `struct mmu_atc_line`. -/
structure MmuAtcLine where
  tag : Long
  valid : Bool
  status : Long
  phys : Long
  deriving DecidableEq

/-- `struct mmufastcache`. -/
structure MmuFastCache where
  log : Long
  phys : Long
  cacheState : BitVec 8
  deriving DecidableEq

/-- The arguments of `mmu_bus_error`, from which it derives what the frame will hold. -/
structure MmuFault where
  addr : Long
  val : Long
  fc : Nat
  write : Bool
  size : Nat
  status060 : Long
  deriving DecidableEq

/-- The registers a translation reads; only `mmu_set_tc` and `MOVEC` change them. -/
structure MmuRegs where
  mmuModel : MmuModel
  cpuModel : Nat
  mmuEc : Bool
  urp : Long
  srp : Long
  itt0 : Long
  itt1 : Long
  dtt0 : Long
  dtt1 : Long
  mmuTtrEnabled : Bool
  mmuEnabled : Bool
  mmuPagesize8k : Bool
  cacheDefaultIns : BitVec 8
  cacheDefaultData : BitVec 8
  deriving DecidableEq

/-- The longwords of physical memory. An access to one that is `none` is a bus error. -/
abbrev PhysMem := Long → Option Long

/-- `mmu_atc_array[data][index][way]`. -/
abbrev AtcArray := Bool → BitVec 4 → Fin 4 → MmuAtcLine

structure Mmu where
  mem : PhysMem
  regs : MmuRegs
  s : Bool
  mmusr : Long
  mmuAtcArray : AtcArray
  mmuAtcWays : Bool → Fin 4
  wayRandom : Nat
  mmuCacheState : BitVec 8
  ceCachable : Word → BitVec 8
  atcLastIns : MmuFastCache
  atcDataCacheRead : Long → MmuFastCache
  atcDataCacheWrite : Long → MmuFastCache
  fault : Option MmuFault

abbrev MmuM (α : Type) := FaultM Mmu α

/-! ## Pages -/

namespace MmuRegs

variable (r : MmuRegs)

def mmuTagmask : Long := if r.mmuPagesize8k then 0xFFFF0000 else 0xFFFF8000

def mmuPagemask : Long := if r.mmuPagesize8k then 0x1FFF else 0xFFF

def mmuPagemaski : Long := ~~~r.mmuPagemask

def mmuPageshift1m : Nat := if r.mmuPagesize8k then 12 else 11

def atcTag (addr : Long) (super : Bool) : Long :=
  ((if super then (0x80000000 : Long) else 0) ||| (addr >>> 1)) &&& r.mmuTagmask

def atcIndex (addr : Long) : BitVec 4 :=
  if r.mmuPagesize8k then addr.extractLsb' 13 4 else addr.extractLsb' 12 4

/-- The root pointer of an access. -/
def root (super : Bool) : Long := if super then r.srp else r.urp

end MmuRegs

/-! ## Shortcut caches -/

/-- The key of a page in the shortcut caches. -/
def shortcutIdx (r : MmuRegs) (addr : Long) (super : Bool) : Long :=
  ((addr &&& r.mmuPagemaski) >>> r.mmuPageshift1m) ||| (if super then (1 : Long) else 0)

def flushShortcutCache (addr : Long) (super : Bool) : MmuM Unit :=
  update fun m =>
    let idx := shortcutIdx m.regs addr super
    let forget (c : MmuFastCache) : MmuFastCache :=
      if addr = 0xFFFFFFFF then { log := 0xFFFFFFFF, phys := 0xFFFFFFFF, cacheState := 0xFF }
      else if c.log = idx then { c with log := 0xFFFFFFFF }
      else c
    { m with
      atcLastIns := { m.atcLastIns with log := m.regs.mmuPagemask }
      atcDataCacheRead := fun i => forget (m.atcDataCacheRead i)
      atcDataCacheWrite := fun i => forget (m.atcDataCacheWrite i) }

/-- `mmu_add_cache`; `log` of the instruction entry is `atc_last_ins_laddr`. -/
def mmuAddCache (addr phys : Long) (super data write : Bool) : MmuM Unit :=
  update fun m =>
    if data then
      let idx1 := shortcutIdx m.regs addr super
      let idx2 := idx1 &&& 0xFF
      let entry : MmuFastCache := { log := idx1, phys := phys, cacheState := m.mmuCacheState }
      if idx2 < 0xFF then
        if write then { m with atcDataCacheWrite := Function.update m.atcDataCacheWrite idx2 entry }
        else { m with atcDataCacheRead := Function.update m.atcDataCacheRead idx2 entry }
      else m
    else
      { m with
        atcLastIns :=
          { log := (addr &&& m.regs.mmuPagemaski) ||| (if super then (1 : Long) else 0)
            phys := phys
            cacheState := m.mmuCacheState } }

/-! ## Faults -/

def mmuGetFc (super data : Bool) : Nat := (if super then 4 else 0) ||| (if data then 1 else 2)

/-- `mmu_bus_error`: `THROW(2)`. -/
def mmuBusError {α : Type} (addr val : Long) (fc : Nat) (write : Bool) (size : Nat)
    (status060 : Long) : MmuM α := do
  update fun m => { m with fault := some ⟨addr, val, fc, write, size, status060⟩ }
  throwCode 2

/-! ## Table search -/

def descGetLong (addr : Long) : MmuM Long := fun m =>
  let m := { m with
    mmuCacheState := m.ceCachable (addr.extractLsb' 16 16) ||| cacheDisableAllocate }
  match m.mem addr with
  | some v => .ret v m
  | none => .thrown 2 m

def descPutLong (addr v : Long) : MmuM Unit := fun m =>
  let m := { m with mmuCacheState := cacheDisableMmu }
  match m.mem addr with
  | some _ => .ret () { m with mem := Function.update m.mem addr (some v) }
  | none => .thrown 2 m

/-- The address of the root table descriptor. -/
def rootDescAddr (root addr : Long) : Long :=
  (root &&& mmuRootPtrAddrMask) ||| ((addr >>> 23) &&& 0x1FC)

/-- The address of the pointer table descriptor. -/
def ptrDescAddr (desc addr : Long) : Long :=
  (desc &&& mmuRootPtrAddrMask) ||| ((addr >>> 16) &&& 0x1FC)

/-- The address of the page table descriptor. -/
def pageDescAddr (pagesize8k : Bool) (desc addr : Long) : Long :=
  if pagesize8k then (desc &&& mmuPtrPageAddrMask8) + ((addr >>> 11) &&& 0x7C)
  else (desc &&& mmuPtrPageAddrMask4) + ((addr >>> 10) &&& 0xFC)

/-- Sets `U` and `M` of a resident page descriptor: `M` only for a write that is allowed. -/
def touchPageDesc (descAddr desc wp : Long) (super write : Bool) : MmuM Long :=
  if write then
    if wp &&& mmuDesWp ≠ 0 ∨ (desc &&& mmuDesSuper ≠ 0 ∧ !super) then
      if desc &&& mmuDesUsed = 0 then do
        descPutLong descAddr (desc ||| mmuDesUsed)
        pure (desc ||| mmuDesUsed)
      else pure desc
    else if desc &&& (mmuDesUsed ||| mmuDesModified) ≠ mmuDesUsed ||| mmuDesModified then do
      descPutLong descAddr (desc ||| (mmuDesUsed ||| mmuDesModified))
      pure (desc ||| (mmuDesUsed ||| mmuDesModified))
    else pure desc
  else if desc &&& mmuDesUsed = 0 then do
    descPutLong descAddr (desc ||| mmuDesUsed)
    pure (desc ||| mmuDesUsed)
  else pure desc

/-- The end of the search, at the last descriptor. The result is the descriptor, 0 if there is
none, and what the failure adds to `status060`. -/
def searchPageDesc (descAddr desc wp : Long) (super write : Bool) : MmuM (Long × Long) :=
  if desc &&& 1 = 1 then do
    let wp := wp ||| desc
    let desc ← touchPageDesc descAddr desc wp super write
    pure (desc ||| (wp &&& mmuDesWp), 0)
  else if desc &&& 3 = 2 then pure (0, mmuFslwIl)
  else pure (0, mmuFslwPf)

/-- The page table level, with at most one indirection. -/
def searchPageTable (descAddr wp : Long) (super write : Bool) : MmuM (Long × Long) := do
  let desc ← descGetLong descAddr
  if desc &&& 3 = 2 then
    let descAddr := desc &&& mmuPageIndirectMask
    let desc ← descGetLong descAddr
    searchPageDesc descAddr desc wp super write
  else searchPageDesc descAddr desc wp super write

/-- `desc_put_long(desc_addr, desc | MMU_DES_USED)` if the bit is clear. -/
def useTableDesc (descAddr desc : Long) : MmuM Unit :=
  if desc &&& mmuDesUsed = 0 then descPutLong descAddr (desc ||| mmuDesUsed) else pure ()

/-- The `TRY` part of `mmu_fill_atc` up to the descriptor found. -/
def searchTables (root : Long) (pagesize8k : Bool) (addr : Long) (super write : Bool) :
    MmuM (Long × Long) := do
  let rootAddr := rootDescAddr root addr
  let desc ← descGetLong rootAddr
  if desc &&& 2 = 0 then pure (0, mmuFslwPta)
  else
    let wp := desc
    useTableDesc rootAddr desc
    let ptrAddr := ptrDescAddr desc addr
    let desc ← descGetLong ptrAddr
    if desc &&& 2 = 0 then pure (0, mmuFslwPtb)
    else
      useTableDesc ptrAddr desc
      searchPageTable (pageDescAddr pagesize8k desc addr) (wp ||| desc) super write

/-! ## The translation cache -/

/-- Replaces one line. -/
def Mmu.setLine (m : Mmu) (data : Bool) (index : BitVec 4) (way : Fin 4) (l : MmuAtcLine) : Mmu :=
  { m with
    mmuAtcArray := fun d i w =>
      if d = data ∧ i = index ∧ w = way then l else m.mmuAtcArray d i w }

/-- What the descriptor found adds to `status060`. -/
def descStatus060 (super write : Bool) (desc status060 : Long) : Long :=
  if !super ∧ desc &&& mmuDesSuper ≠ 0 then status060 ||| mmuFslwSp
  else if write ∧ desc &&& mmuDesWp ≠ 0 then status060 ||| mmuFslwWp
  else status060

/-- Fills a line with the descriptor found, 0 if none. The 68060 keeps no line without a valid
descriptor. -/
def fillLine (super : Bool) (tag : Long) (write data : Bool) (index : BitVec 4) (way : Fin 4)
    (desc status060 : Long) : MmuM (Long × Long) := do
  let r ← reads Mmu.regs
  if r.mmuModel = .mmu68040 ∨ desc &&& mmuMmusrR ≠ 0 then
    let l : MmuAtcLine :=
      { tag := tag, valid := true, status := desc &&& atcStatusMask
        phys := desc &&& r.mmuPagemaski }
    update fun m => m.setLine data index way l
    pure (l.phys ||| l.status, descStatus060 super write desc status060)
  else pure (0, descStatus060 super write desc status060)

/-- `mmu_fill_atc` on the line `mmu_atc_array[data][index][way]`: the status and `status060`. -/
def mmuFillAtc (addr : Long) (super : Bool) (tag : Long) (write data : Bool) (index : BitVec 4)
    (way : Fin 4) : MmuM (Long × Long) := do
  let oldS ← reads Mmu.s
  update fun m => { m with s := true }
  let r ← reads Mmu.regs
  let status ← tryCatch
    (do
      let found ← searchTables (r.root super) r.mmuPagesize8k addr super write
      fillLine super tag write data index way found.1 found.2)
    (fun _ => do
      if r.mmuModel = .mmu68040 then
        update fun m =>
          m.setLine data index way { tag := tag, valid := true, status := 0, phys := 0 }
      pure (mmuMmusrB, mmuFslwLk ||| mmuFslwTwe))
  update fun m => { m with s := oldS }
  flushShortcutCache addr super
  pure status

/-- The search through the ways of a set: the way that holds the tag, or the last valid one seen
that does not. -/
def findWay (tag : Long) (lines : Fin 4 → MmuAtcLine) :
    Nat → Fin 4 → Option (Fin 4) → Fin 4 ⊕ Option (Fin 4)
  | 0, _, wayInvalid => .inr wayInvalid
  | n + 1, way, wayInvalid =>
    if (lines way).valid then
      if tag = (lines way).tag then .inl way else findWay tag lines n (way + 1) (some way)
    else findWay tag lines n (way + 1) wayInvalid

/-- The bits `status060` of a hit that is not allowed. -/
def hitStatus060 (status : Long) (super write : Bool) : Long :=
  (if status &&& mmuDesSuper ≠ 0 ∧ !super then mmuFslwSp else 0) |||
    (if status &&& mmuDesWp ≠ 0 ∧ write then mmuFslwWp else 0)

/-- An access that the line does not allow. -/
def hitFaults (status : Long) (super write : Bool) : Bool :=
  decide (status &&& mmuDesWp ≠ 0 ∧ write) || decide (status &&& mmuDesSuper ≠ 0 ∧ !super) ||
    decide (status &&& mmuMmusrR = 0)

/-- The cache state of a hit. -/
def hitCacheState (status : Long) : BitVec 8 :=
  if status &&& mmuMmusrCmDisable ≠ 0 then cacheDisableMmu
  else if status &&& mmuMmusrCmMode ≠ 0 then cacheEnableAll ||| cacheEnableCopyback
  else cacheEnableAll

section Translate

variable (addr val : Long) (super data write : Bool) (size : Nat)

/-- The table search into the way chosen, and what `goto atc_retry` leads to after it. -/
def fillAndRetry (retry : Long → MmuM Long) (way : Fin 4) (status060 : Long) : MmuM Long := do
  update fun m => { m with wayRandom := m.wayRandom % 4 }
  let r ← reads Mmu.regs
  let found ← mmuFillAtc addr super (r.atcTag addr super) write data (r.atcIndex addr) way
  if status060 ||| found.2 ≠ 0 ∧ r.mmuModel = .mmu68060 then
    mmuBusError addr val (mmuGetFc super data) write size (status060 ||| found.2)
  else do
    update fun m => { m with wayRandom := m.wayRandom + 1 }
    retry (status060 ||| found.2)

/-- From the label `atc_retry` on, with the line's way. `status060` is what the searches before
have left. A write that finds `M` clear searches the tables again, into the same line; the fuel
bounds how often. -/
def atcRetry : Nat → Fin 4 → Long → MmuM Long
  | 0, _, _ => fun _ => .diverge
  | fuel + 1, way, status060 => do
    let m ← reads id
    let l := m.mmuAtcArray data (m.regs.atcIndex addr) way
    if hitFaults l.status super write then
      mmuBusError addr val (mmuGetFc super data) write size
        (status060 ||| hitStatus060 l.status super write)
    else if l.status &&& mmuDesModified = 0 ∧ write then
      fillAndRetry addr val super data write size (atcRetry fuel way) way status060
    else do
      update fun m => { m with
        mmuAtcWays := Function.update m.mmuAtcWays data way
        mmuCacheState := hitCacheState l.status }
      mmuAddCache addr l.phys super data write
      pure (l.phys ||| (addr &&& m.regs.mmuPagemask))

/-- `mmu_translate`. `way_random` is used modulo 4 and taken not to overflow. -/
def mmuTranslate (fuel : Nat) : MmuM Long := do
  update fun m => { m with wayRandom := m.wayRandom + 1 }
  let m ← reads id
  let lines := m.mmuAtcArray data (m.regs.atcIndex addr)
  match findWay (m.regs.atcTag addr super) lines 4 (m.mmuAtcWays data) none with
  | .inl way => atcRetry addr val super data write size fuel way 0
  | .inr wayInvalid =>
    let way := wayInvalid.getD (Fin.ofNat 4 m.wayRandom)
    fillAndRetry addr val super data write size
      (atcRetry addr val super data write size fuel way) way 0

end Translate

/-! ## Flushing -/

/-- `mmu_flush_atc`. -/
def mmuFlushAtc (addr : Long) (super global : Bool) : MmuM Unit := do
  update fun m => { m with
    mmuAtcArray := fun data i way =>
      let l := m.mmuAtcArray data i way
      if i = m.regs.atcIndex addr ∧ ¬(!global ∧ l.status &&& mmuDesGlobal ≠ 0) ∧
          m.regs.atcTag addr super = l.tag then
        { l with valid := false }
      else l }
  flushShortcutCache addr super

/-- `mmu_flush_atc_all`. -/
def mmuFlushAtcAll (global : Bool) : MmuM Unit := do
  update fun m => { m with
    mmuAtcArray := fun data i way =>
      let l := m.mmuAtcArray data i way
      if !global ∧ l.status &&& mmuDesGlobal ≠ 0 then l else { l with valid := false } }
  flushShortcutCache 0xFFFFFFFF false

/-- `mmu_set_tc`. -/
def mmuSetTc (tc : Word) : MmuM Word := do
  let r ← reads Mmu.regs
  let tc := if r.mmuEc then (if r.cpuModel = 68040 then 0 else tc &&& 0x3FFF) else tc
  let dcIns := (tc >>> 3) &&& 3
  let dcData := (tc >>> 8) &&& 3
  update fun m => { m with
    regs := { r with
      mmuEnabled := decide (tc &&& 0x8000 ≠ 0)
      mmuPagesize8k := decide (tc &&& 0x4000 ≠ 0)
      cacheDefaultIns :=
        if r.mmuModel = .mmu68060 ∧ dcIns &&& 2 ≠ 0 then 0 else cacheEnableAll
      cacheDefaultData :=
        if r.mmuModel = .mmu68060 then
          if dcData &&& 2 ≠ 0 then 0
          else if dcData &&& 1 ≠ 0 then cacheEnableCopyback ||| cacheEnableAll
          else cacheEnableAll
        else cacheEnableAll } }
  mmuFlushAtcAll true
  pure tc

/-! ## PTEST -/

inductive TtrMatch where
  | noMatch
  | noWrite
  | okMatch
  deriving DecidableEq

/-- `mmu_do_match_ttr`. -/
def mmuDoMatchTtr (ttr addr : Long) (super : Bool) : MmuM TtrMatch :=
  if ttr &&& 0x8000 = 0 then pure .noMatch
  else
    let msb := ((addr ^^^ ttr) &&& 0xFF000000) >>> 24
    let mask := (ttr &&& 0x00FF0000) >>> 16
    if msb &&& ~~~mask ≠ 0 then pure .noMatch
    else if ttr &&& 0x4000 = 0 ∧ decide (ttr &&& 0x2000 = 0) ≠ !super then pure .noMatch
    else do
      update fun m => { m with
        mmuCacheState :=
          if ttr &&& 0x40 ≠ 0 then cacheDisableMmu
          else if ttr &&& 0x20 ≠ 0 then cacheEnableAll ||| cacheEnableCopyback
          else cacheEnableAll }
      pure (if ttr &&& 4 ≠ 0 then .noWrite else .okMatch)

/-- `mmu_match_ttr`. -/
def mmuMatchTtr (addr : Long) (super data : Bool) : MmuM TtrMatch := do
  let r ← reads Mmu.regs
  if r.mmuTtrEnabled then
    let res ← mmuDoMatchTtr (if data then r.dtt0 else r.itt0) addr super
    if res = .noMatch then mmuDoMatchTtr (if data then r.dtt1 else r.itt1) addr super
    else pure res
  else pure .noMatch

/-- The line `PTEST` fills: the first invalid way, or a random one. -/
def ptestWay (lines : Fin 4 → MmuAtcLine) (wayRandom : Nat) : Fin 4 :=
  if !(lines 0).valid then 0
  else if !(lines 1).valid then 1
  else if !(lines 2).valid then 2
  else if !(lines 3).valid then 3
  else Fin.ofNat 4 wayRandom

/-- `PTESTR` and `PTESTW` of `mmu_op_real`, with `dfc`. -/
def ptest (dfc : BitVec 3) (addr : Long) (write : Bool) : MmuM Unit := do
  let super := decide (dfc &&& 4 ≠ 0)
  let data := decide (dfc &&& 3 ≠ 2)
  mmuFlushAtc addr super true
  let ttrMatch ← mmuMatchTtr addr super data
  let m ← reads id
  if ttrMatch ≠ .noMatch then
    update fun m => { m with
      mmusr := if ttrMatch = .noWrite ∧ write then mmuMmusrB else mmuMmusrT ||| mmuMmusrR }
  else if m.regs.mmuEc then pure ()
  else do
    let index := m.regs.atcIndex addr
    let way := ptestWay (m.mmuAtcArray data index) m.wayRandom
    let found ← mmuFillAtc addr super (m.regs.atcTag addr super) write data index way
    update fun m => { m with mmusr := found.1 }

end UaeCpu
