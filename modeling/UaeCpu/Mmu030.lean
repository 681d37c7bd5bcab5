import Mathlib.Logic.Function.Basic
import UaeCpu.Lib.Fault
import UaeCpu.Regs
import UaeCpu.Atc

/-!
# UaeCpu.Mmu030

The state of the 68030 MMU, and what its instructions do to it apart from the table search: the
flushes, the decoding of `TC`, of the root pointers and of the transparent translation registers.

Physical memory is seen as longwords, as for the 68040. An index outside an array has no outcome.
-/

namespace UaeCpu

open Fault FaultM

/-! ## Bits -/

abbrev ttFcMask : Long := 0x7
abbrev ttFcBase : Long := 0x70
abbrev ttRwm : Long := 0x100
abbrev ttRw : Long := 0x200
abbrev ttCi : Long := 0x400
abbrev ttEnable : Long := 0x8000
abbrev ttAddrMask : Long := 0x00FF0000
abbrev ttAddrBase : Long := 0xFF000000

abbrev tcEnableTranslation : Long := 0x80000000
abbrev tcEnableSupervisor : Long := 0x02000000
abbrev tcEnableFcl : Long := 0x01000000
abbrev tcPsMask : Long := 0x00F00000
abbrev tcIsMask : Long := 0x000F0000

abbrev mmusrBusError : Word := 0x8000
abbrev mmusrLimitViolation : Word := 0x4000
abbrev mmusrSuperViolation : Word := 0x2000
abbrev mmusrWriteProtected : Word := 0x0800
abbrev mmusrInvalid : Word := 0x0400
abbrev mmusrModified : Word := 0x0200
abbrev mmusrTranspAccess : Word := 0x0040
abbrev mmusrNumLevelsMask : Word := 0x0007

abbrev mmu030SswRw : Word := 0x40
abbrev mmu030SswRm : Word := 0x80
abbrev mmu030SswSizeB : Word := 0x10
abbrev mmu030SswSizeW : Word := 0x20
abbrev mmu030SswSizeL : Word := 0

/-! ## State -/

/-- `translation.table[i]`: an index is `(addr & mask) >> shift`. -/
structure TableIndex where
  mask : Long
  shift : BitVec 8
  deriving DecidableEq

structure TranslationPage where
  mask : Long
  imask : Long
  size : Long
  size3m : Long
  deriving DecidableEq

/-- `mmu030.translation`. -/
structure TranslationParams where
  table : Fin 4 → TableIndex
  page : TranslationPage
  initShift : BitVec 8
  lastTable : BitVec 8

/-- `TT_info`. -/
structure TtInfo where
  addrBase : Long
  addrMask : Long
  fcBase : Long
  fcMask : Long
  deriving DecidableEq

/-- `MMU030_ATC_LINE`. -/
structure AtcLine030 where
  physAddr : Long
  modified : Bool
  writeProtect : Bool
  cacheInhibit : BitVec 8
  busError : Bool
  logAddr : Long
  fc : Long
  valid : Bool
  mru : Bool
  deriving DecidableEq

/-- The arguments of `mmu030_page_fault`. -/
structure PageFault where
  addr : Long
  read : Bool
  flags : Word
  fc : Long
  deriving DecidableEq

/-- What a translation reads; only instructions on these registers and a reset change them. -/
structure Mmu030Regs where
  mmuEc : Bool
  cpuCompatible : Bool
  pc : Long
  sfc : Long
  dfc : Long
  fc030 : Long
  dregs : Fin 8 → Long
  tc030 : Long
  srp030 : BitVec 64
  crp030 : BitVec 64
  tt0030 : Long
  tt1030 : Long
  translation : TranslationParams
  tt0 : TtInfo
  tt1 : TtInfo
  ttEnabled : Bool
  enabled : Bool
  mmuPageSize : Long

namespace Mmu030Regs

variable (r : Mmu030Regs)

abbrev imask : Long := r.translation.page.imask
abbrev pageMask : Long := r.translation.page.mask
abbrev lastTable : Nat := r.translation.lastTable.toNat

end Mmu030Regs

/-- `mmu030` and what is around it; `insCacheState`, `lastPhysicalAddress` and `lastLogicalAddress`
are the instruction page cache. -/
structure Mmu030 where
  mem : PhysMem
  ceCachable : Word → BitVec 8
  regs : Mmu030Regs
  s : Bool
  aregs : Fin 8 → Long
  mmusr030 : Word
  status : Word
  atc : Fin 22 → AtcLine030
  atcindextable : BitVec 5 → Fin 22
  insCacheState : BitVec 8
  lastPhysicalAddress : Long
  lastLogicalAddress : Long
  atcDataCacheRead : BitVec 8 → MmuFastCache
  atcDataCacheWrite : BitVec 8 → MmuFastCache
  mmu030CacheState : BitVec 8
  ismoves030 : Bool
  islrmw030 : Bool
  busErrorReadWrite : Bool
  fault : Option PageFault
  exception : Option Nat

abbrev Mmu030M (α : Type) := FaultM Mmu030 α

/-! ## Flushing -/

/-- `mmu030_flush_cache`. -/
def mmu030FlushCache (addr : Long) : Mmu030M Unit :=
  update fun m =>
    let idx := ((addr &&& m.regs.imask) >>> m.regs.translation.page.size3m) ||| 7
    let forget (c : MmuFastCache) : MmuFastCache :=
      if addr = 0xFFFFFFFF then { log := 0xFFFFFFFF, phys := 0xFFFFFFFF, cacheState := 0xFF }
      else if c.log ||| 7 = idx then { c with log := 0xFFFFFFFF }
      else c
    { m with
      lastLogicalAddress := 0xFFFFFFFF
      atcDataCacheRead := fun i => forget (m.atcDataCacheRead i)
      atcDataCacheWrite := fun i => forget (m.atcDataCacheWrite i) }

/-- Invalidates the lines that `drop` says. -/
def invalidateAtc (drop : Mmu030 → AtcLine030 → Bool) : Mmu030M Unit :=
  update fun m =>
    { m with
      atc := fun i => if drop m (m.atc i) then { m.atc i with valid := false } else m.atc i }

/-- `mmu030_flush_atc_fc`. -/
def mmu030FlushAtcFc (fcBase fcMask : Long) : Mmu030M Unit := do
  invalidateAtc fun _ l => decide (fcBase &&& fcMask = l.fc &&& fcMask)
  mmu030FlushCache 0xFFFFFFFF

/-- `mmu030_flush_atc_page_fc`. -/
def mmu030FlushAtcPageFc (logicalAddr fcBase fcMask : Long) : Mmu030M Unit := do
  let m ← reads id
  let logicalAddr := logicalAddr &&& m.regs.imask
  invalidateAtc fun _ l =>
    decide (fcBase &&& fcMask = l.fc &&& fcMask ∧ l.logAddr = logicalAddr)
  mmu030FlushCache logicalAddr

/-- `mmu030_flush_atc_page`. -/
def mmu030FlushAtcPage (logicalAddr : Long) : Mmu030M Unit := do
  let m ← reads id
  let logicalAddr := logicalAddr &&& m.regs.imask
  invalidateAtc fun _ l => decide (l.logAddr = logicalAddr)
  mmu030FlushCache logicalAddr

/-- `mmu030_flush_atc_all`. -/
def mmu030FlushAtcAll : Mmu030M Unit := do
  invalidateAtc fun _ _ => true
  mmu030FlushCache 0xFFFFFFFF

/-! ## Decoding -/

/-- `mmu_op30_helper_get_fc`. -/
def mmuOp30HelperGetFc (m : Mmu030) (next : Word) : Option Long :=
  if next &&& 0x18 = 0x10 then some ((next &&& 7).setWidth 32)
  else if next &&& 0x18 = 8 then some (m.regs.dregs (next.extractLsb' 0 3).toFin &&& 7)
  else if next &&& 0x18 = 0 then some (if next &&& 1 ≠ 0 then m.regs.dfc else m.regs.sfc)
  else none

/-- `mmu_op30_invea`. -/
def mmuOp30Invea (opcode : Long) : Bool :=
  let eamode := (opcode >>> 3) &&& 7
  let rreg := opcode &&& 7
  decide (eamode = 0 ∨ eamode = 1 ∨ eamode = 3 ∨ eamode = 4 ∨ (eamode = 7 ∧ 1 < rreg))

/-- `mmu030_decode_tt`. -/
def mmu030DecodeTt (tt : Long) : TtInfo where
  fcMask := ~~~((tt &&& ttFcMask) ||| 0xFFFFFFF8)
  fcBase := (tt &&& ttFcBase) >>> 4
  addrBase := tt &&& ttAddrBase
  addrMask := ~~~(((tt &&& ttAddrMask) <<< 8) ||| 0x00FFFFFF)

/-- Changes registers. -/
def updateRegs (f : Mmu030Regs → Mmu030Regs) : Mmu030M Unit :=
  update fun m => { m with regs := f m.regs }

/-- `Exception`: the entry to it is not part of the MMU. -/
def raiseException (nr : Nat) : Mmu030M Unit :=
  update fun m => { m with exception := some nr }

/-- `TI_bits[i]`. -/
def tiBits (tc : Long) (i : Fin 4) : BitVec 8 := (tc >>> ((3 - i.val) * 4)).setWidth 8 &&& 0xF

/-- The mask of the table index of `n` bits from `shift` on, one bit after the other. -/
def tableMask (shift : BitVec 8) (n : Nat) : Long :=
  (List.range n).foldl (fun mask j => mask ||| (1 : Long) <<< (shift.toNat + j)) 0

/-- The loop over the tables, up to a zero field: what is left of `shift`. -/
def decodeTables (tc : Long) :
    List (Fin 4) → BitVec 8 → TranslationParams → BitVec 8 × TranslationParams
  | [], shift, tr => (shift, tr)
  | i :: is, shift, tr =>
    if tiBits tc i = 0 then (shift, tr)
    else
      let shift := shift - tiBits tc i
      decodeTables tc is shift
        { tr with
          table := Function.update tr.table i
            { mask := (tr.table i).mask ||| tableMask shift (tiBits tc i).toNat, shift := shift }
          lastTable := BitVec.ofNat 8 i.val }

/-- The parameters before the page size is checked. -/
def resetTranslation (tc : Long) (tr : TranslationParams) : TranslationParams where
  table := fun _ => { mask := 0, shift := 0 }
  page :=
    { tr.page with
      size := (tc &&& tcPsMask) >>> 20
      size3m := ((tc &&& tcPsMask) >>> 20) - 3 }
  initShift := ((tc &&& tcIsMask) >>> 16).setWidth 8
  lastTable := tr.lastTable

/-- The parameters after it, before the tables. -/
def pageTranslation (tr : TranslationParams) : TranslationParams :=
  let mask := ((1 : Long) <<< tr.page.size) - 1
  { tr with
    page := { tr.page with mask := mask, imask := ~~~mask }
    lastTable := 0 }

/-- The rest of `mmu030_decode_tc` for a value that enables translation. -/
def decodeTranslation (tc : Long) : Mmu030M Bool := do
  updateRegs fun r => { r with
    translation := resetTranslation tc r.translation
    mmuPageSize := (1 : Long) <<< (resetTranslation tc r.translation).page.size }
  let m ← reads id
  if m.regs.translation.page.size < 8 then do
    raiseException 56
    pure true
  else do
    let tr := pageTranslation m.regs.translation
    let decoded := decodeTables tc (List.finRange 4) (32 - tr.initShift) tr
    updateRegs fun r => { r with translation := decoded.2 }
    if decoded.1.setWidth 32 - decoded.2.page.size ≠ 0 then do
      raiseException 56
      pure true
    else pure false

/-- `TC` without its enable bit where the MMU is only an EC one. -/
def effectiveTc (mmuEc : Bool) (tc : Long) : Long :=
  if mmuEc then tc &&& ~~~tcEnableTranslation else tc

/-- `mmu030_decode_tc`, with the fetch of `mmu030_do_fake_prefetch`. `true` is a configuration
exception. -/
def mmu030DecodeTc (fakePrefetch : Mmu030M Unit) (tc : Long) (check : Bool) : Mmu030M Bool := do
  update fun m => { m with lastLogicalAddress := 0xFFFFFFFF }
  let m ← reads id
  let tc := effectiveTc m.regs.mmuEc tc
  if tc &&& tcEnableTranslation ≠ 0 then do
    (if !m.regs.enabled ∧ check then fakePrefetch else pure ())
    updateRegs fun r => { r with enabled := true }
    decodeTranslation tc
  else do
    (if m.regs.enabled then fakePrefetch else pure ())
    updateRegs fun r => { r with enabled := false }
    pure false

/-- `mmu030_decode_rp`. -/
def mmu030DecodeRp (rp : BitVec 64) : Mmu030M Bool :=
  if rp &&& 0x0000000300000000 = 0 then do
    raiseException 56
    pure true
  else pure false

/-- `mmu030_reset`, with no savestate being restored. -/
def mmu030Reset (hardreset : Int) : Mmu030M Unit := do
  update fun m => { m with lastLogicalAddress := 0xFFFFFFFF }
  updateRegs fun r => { r with enabled := false, mmuPageSize := 0 }
  (if 0 ≤ hardreset then
      updateRegs fun r => { r with
        tc030 := r.tc030 &&& ~~~tcEnableTranslation
        tt0030 := r.tt0030 &&& ~~~ttEnable
        tt1030 := r.tt1030 &&& ~~~ttEnable }
    else pure ())
  if 0 < hardreset then do
    updateRegs fun r => { r with srp030 := 0, crp030 := 0, tt0030 := 0, tt1030 := 0, tc030 := 0 }
    update fun m => { m with mmusr030 := 0 }
    mmu030FlushAtcAll
  else pure ()

/-! ## PMOVE -/

/-- How an instruction reads and writes its operand: `x_get_long` and the like. -/
structure Operand030 where
  getLong : Long → Mmu030M Long
  getWord : Long → Mmu030M Word
  putLong : Long → Long → Mmu030M Unit
  putWord : Long → Word → Mmu030M Unit

/-- `mmu_op30_pmove`: 1 is an F-line exception, -1 one that has been raised. -/
def mmuOp30Pmove (x : Operand030) (fakePrefetch : Mmu030M Unit) (opcode : Long) (next : Word)
    (extra : Long) : Mmu030M Int := do
  let preg := (next >>> 10) &&& 31
  let rw := next &&& 0x200 ≠ 0
  let fd := next &&& 0x100 ≠ 0
  let done : Mmu030M Int := do
    (if ¬fd ∧ ¬rw ∧ preg ≠ 0x18 then mmu030FlushAtcAll else pure ())
    updateRegs fun r => { r with
      ttEnabled := decide (r.tt0030 &&& ttEnable ≠ 0) || decide (r.tt1030 &&& ttEnable ≠ 0) }
    pure 0
  if mmuOp30Invea opcode ∨ next &&& 0xFF ≠ 0 ∨ (rw ∧ fd) then pure 1
  else if preg = 0x10 then
    if rw then do
      let m ← reads id
      x.putLong extra m.regs.tc030
      done
    else do
      let v ← x.getLong extra
      updateRegs fun r => { r with tc030 := v }
      let bad ← mmu030DecodeTc fakePrefetch v true
      if bad then pure (-1) else done
  else if preg = 0x12 then
    if rw then do
      let m ← reads id
      x.putLong extra (m.regs.srp030.extractLsb' 32 32)
      let m ← reads id
      x.putLong (extra + 4) (m.regs.srp030.extractLsb' 0 32)
      done
    else do
      let hi ← x.getLong extra
      updateRegs fun r => { r with srp030 := hi ++ (0 : Long) }
      let lo ← x.getLong (extra + 4)
      updateRegs fun r => { r with srp030 := r.srp030 ||| lo.setWidth 64 }
      let m ← reads id
      let bad ← mmu030DecodeRp m.regs.srp030
      if bad then pure (-1) else done
  else if preg = 0x13 then
    if rw then do
      let m ← reads id
      x.putLong extra (m.regs.crp030.extractLsb' 32 32)
      let m ← reads id
      x.putLong (extra + 4) (m.regs.crp030.extractLsb' 0 32)
      done
    else do
      let hi ← x.getLong extra
      updateRegs fun r => { r with crp030 := hi ++ (0 : Long) }
      let lo ← x.getLong (extra + 4)
      updateRegs fun r => { r with crp030 := r.crp030 ||| lo.setWidth 64 }
      let m ← reads id
      let bad ← mmu030DecodeRp m.regs.crp030
      if bad then pure (-1) else done
  else if preg = 0x18 then
    if fd then pure 1
    else if rw then do
      let m ← reads id
      x.putWord extra m.mmusr030
      done
    else do
      let v ← x.getWord extra
      update fun m => { m with mmusr030 := v }
      done
  else if preg = 2 then
    if rw then do
      let m ← reads id
      x.putLong extra m.regs.tt0030
      done
    else do
      let v ← x.getLong extra
      updateRegs fun r => { r with tt0030 := v, tt0 := mmu030DecodeTt v }
      done
  else if preg = 3 then
    if rw then do
      let m ← reads id
      x.putLong extra m.regs.tt1030
      done
    else do
      let v ← x.getLong extra
      updateRegs fun r => { r with tt1030 := v, tt1 := mmu030DecodeTt v }
      done
  else pure 1

end UaeCpu
