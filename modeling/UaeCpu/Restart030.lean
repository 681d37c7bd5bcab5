import UaeCpu.Ram
import UaeCpu.RegisterApi
import UaeCpu.Mmu030

/-!
# UaeCpu.Restart030

How the 68030 restarts an instruction after a bus fault: the access log behind the `*_state`
accessors, the fault itself, and the loop head that runs the instruction again.

* `World030 M` — memory behind an MMU whose state is `M`, and the restart variables.
* `Port030 M`  — what the MMU decides, and the instruction pipeline of the compatible core.
* `Instr`      — an instruction as the generated handlers write it: a tree of `*_state` accesses.

An index outside `mmu030_ad` or `mmu030_ad_v` has no meaning in C: it is only noted, in `overrun`.
-/

namespace UaeCpu.Restart

open Fault FaultM Mem

/-! ## State -/

/-- `struct mmufixup`: `reg` is -1, or the register number with the mode and size bits. -/
structure MmuFixup where
  reg : Int
  value : Long
  deriving DecidableEq, Repr

structure World030 (M : Type) where
  mem : Long → Byte
  mmu : M
  fixup0 : MmuFixup
  fixup1 : MmuFixup
  retry : Bool
  opcodeStageb : Int
  overrun : Bool

abbrev Cpu030 (M : Type) := Cpu (World030 M)

abbrev Run030 (M α : Type) := FaultM (Cpu030 M) α

/-- Nothing happened to the counters of the log, and no index left it. -/
structure SameLog {M : Type} (c c' : Cpu030 M) : Prop where
  idx : c'.latch.log.idx = c.latch.log.idx
  idxDone : c'.latch.log.idxDone = c.latch.log.idxDone
  overrun : c'.world.overrun = c.world.overrun

/-- The MMU as the accessors see it: the physical address of an access, or none for a page fault.
`wordPrefetch` is `get_word_030_prefetch`, `refill` what `fill_prefetch_030_ntx` and its
`_continue` form do after they have reset the log. -/
structure Port030 (M : Type) where
  translate : (write rm : Bool) → (fc addr : Long) → M → Option Long × M
  wordPrefetch : Long → Run030 M Long
  refill : Run030 M Unit
  wordPrefetch_log : ∀ o, Stays SameLog (wordPrefetch o)
  refill_log : Stays SameLog refill

inductive AccessSize where
  | byte | word | long
  deriving DecidableEq, Repr

/-- The size bits of the special status word. -/
def AccessSize.flags : AccessSize → Word
  | .byte => mmu030SswSizeB
  | .word => mmu030SswSizeW
  | .long => mmu030SswSizeL

/-- The three families of data accessors: plain, `MOVES` and locked read-modify-write. -/
inductive DataSpace where
  | data | moves | lrmw
  deriving DecidableEq, Repr

abbrev mmu030SswFc : Word := 0x8000
abbrev mmu030SswFb : Word := 0x4000
abbrev mmu030SswRc : Word := 0x2000
abbrev mmu030SswRb : Word := 0x1000
abbrev mmu030SswDf : Word := 0x100

abbrev stateflag1Subaccess0 : Word := 0x4
abbrev stateflag1Subaccess1 : Word := 0x8
abbrev stateflag1Subaccess2 : Word := 0x10
abbrev stateflag1Subaccess3 : Word := 0x20
abbrev stateflag1Subaccessx : Word := 0x40
abbrev stateflag1Subaccessl : Word := 0x80
abbrev stateflag1Lastwrite : Word := 0x100
abbrev stateflag1Fmovem : Word := 0x2000
abbrev stateflag1Movem1 : Word := 0x4000
abbrev stateflag1Movem2 : Word := 0x8000

variable {M α : Type}

section Access

def mapLog (f : Mmu030Log → Mmu030Log) (c : Cpu030 M) : Cpu030 M :=
  c.mapLatch fun l => { l with log := f l.log }

def mapWorld (f : World030 M → World030 M) (c : Cpu030 M) : Cpu030 M := { c with world := f c.world }

def readMem (size : AccessSize) (mem : Long → Byte) (a : Long) : Long :=
  match size with
  | .byte => (mem a).setWidth 32
  | .word => (rd16 ofFun mem a).setWidth 32
  | .long => rd32 ofFun mem a

def writeMem (size : AccessSize) (mem : Long → Byte) (a v : Long) : Long → Byte :=
  match size with
  | .byte => ofFun.wr mem a (v.setWidth 8)
  | .word => wr16 ofFun mem a (v.setWidth 16)
  | .long => wr32 ofFun mem a v

end Access

/-! ## The fault -/

/-- `mmu030fixupreg`. -/
def mmu030fixupreg (f : MmuFixup) : Byte :=
  let r := BitVec.ofInt 32 f.reg
  if f.reg < 0 ∨ r &&& 0x300 = 0 then 0
  else
    ((r &&& 7) ||| (((r >>> 10) &&& 3) <<< 3) ||| (if r &&& 0x200 ≠ 0 then 0x20 else 0) |||
      0x40).setWidth 8

/-- What `mmu030fixupmod` adds to the register. -/
def fixupAdj (data : Byte) (dir : Bool) : Long :=
  let adj : Long := if data &&& 0x20 ≠ 0 then -1 else 1
  (if dir then -adj else adj) <<< ((data >>> 3) &&& 3)

/-- `mmu030fixupmod`, the register part. -/
def mmu030fixupmod (data : Byte) (dir : Bool) (c : Cpu030 M) : Cpu030 M :=
  if data = 0 then c
  else c.mapRegs fun r =>
    let reg := (data.setWidth 3).toFin
    r.setAreg reg (r.areg reg + fixupAdj data dir)

def MmuFixup.mod (data : Byte) (dir : Bool) (f : MmuFixup) : MmuFixup :=
  if data = 0 then f else { f with value := f.value + fixupAdj data dir }

/-- Both fixups, noted in the write-back status registers and applied. -/
def noteFixups (c : Cpu030 M) : Cpu030 M :=
  let s0 := mmu030fixupreg c.world.fixup0
  let s1 := mmu030fixupreg c.world.fixup1
  let c := c.mapLatch fun l => { l with mmu := { l.mmu with wb2Status := s0, wb3Status := s1 } }
  let c := mmu030fixupmod s1 false (mmu030fixupmod s0 false c)
  mapWorld (fun w => { w with fixup0 := w.fixup0.mod s0 false, fixup1 := w.fixup1.mod s1 false }) c

/-- What `mmu030_page_fault` leaves for the stack frame. -/
def notePageFault (p : Prefs) (addr : Long) (read : Bool) (flags : Word) (fc : Long)
    (c : Cpu030 M) : Cpu030 M :=
  let data := fc.getLsbD 0
  let c := c.mapLatch fun l => { l with mmu := { l.mmu with wb2Status := 0, wb3Status := 0 } }
  let c :=
    if (data ∧ c.latch.log.state1 &&& stateflag1Lastwrite = 0) ∨ (!data ∧ p.cpuCompatible) then
      noteFixups c
    else c
  let ssw :=
    (if data then mmu030SswDf ||| (mmu030SswDf <<< 1) else mmu030SswFb ||| mmu030SswRb) |||
      (if read then mmu030SswRw else 0) ||| (if data then flags else mmu030SswSizeW) |||
      fc.setWidth 16
  c.mapLatch fun l => { l with
    mmu := { l.mmu with
      ssw := ssw, faultAddr := addr, wb3Data := l.log.dataBufferOut
      wb2Address := l.log.state1.setWidth 32 }
    log := { l.log with stagebAddress := addr } }

/-- `mmu030_page_fault`. -/
def mmu030PageFault (p : Prefs) (addr : Long) (read : Bool) (flags : Word) (fc : Long) :
    Run030 M α := do
  update (notePageFault p addr read flags fc)
  throwCode 2

/-! ## Accesses -/

section Accesses

variable (q : Port030 M) (p : Prefs)

/-- `mmu030_get_generic`, and `mmu030_get_byte`, `_word` and `_long` with the flags of their
size. -/
def mmu030GetGeneric (addr fc : Long) (size : AccessSize) (flags : Word) : Run030 M Long := do
  let w ← reads (·.world)
  let (phys, mmu) := q.translate false (flags &&& mmu030SswRm ≠ 0) fc addr w.mmu
  update (mapWorld fun w => { w with mmu := mmu })
  match phys with
  | some a => reads fun c => readMem size c.world.mem a
  | none => mmu030PageFault p addr true flags fc

/-- `mmu030_put_generic`, and `mmu030_put_byte`, `_word` and `_long`. -/
def mmu030PutGeneric (addr val fc : Long) (size : AccessSize) (flags : Word) : Run030 M Unit := do
  let w ← reads (·.world)
  let (phys, mmu) := q.translate true (flags &&& mmu030SswRm ≠ 0) fc addr w.mmu
  update (mapWorld fun w => { w with mmu := mmu })
  match phys with
  | some a => update (mapWorld fun w => { w with mem := writeMem size w.mem a val })
  | none => mmu030PageFault p addr false flags fc

def setState1 (f : Word → Word) : Run030 M Unit :=
  update (mapLog fun l => { l with state1 := f l.state1 })

def setDataBufferOut (f : Long → Long) : Run030 M Unit :=
  update (mapLog fun l => { l with dataBufferOut := f l.dataBufferOut })

/-- `unalign_init`. -/
def unalignInit (l l2 : Bool) : Run030 M Unit :=
  setState1 fun s => s ||| (if l2 then stateflag1Subaccessx else 0) |||
    (if l then stateflag1Subaccessl else 0) ||| stateflag1Subaccess0

/-- `unalign_set`. -/
def unalignSet (state : Nat) : Run030 M Unit := setState1 (· ||| ((1 <<< state) <<< 3))

/-- `unalign_clear`. -/
def unalignClear : Run030 M Unit :=
  setState1 (· &&& ~~~(stateflag1Subaccessl ||| stateflag1Subaccessx ||| stateflag1Subaccess0 |||
    stateflag1Subaccess1 ||| stateflag1Subaccess2 ||| stateflag1Subaccess3))

/-- `mmu030_get_word_unaligned`. -/
def mmu030GetWordUnaligned (addr fc : Long) (flags : Word) : Run030 M Long := do
  unalignInit false false
  let v ← mmu030GetGeneric q p addr fc .byte (flags ||| mmu030SswSizeW)
  setDataBufferOut fun _ => v <<< 8
  unalignSet 0
  let v ← mmu030GetGeneric q p (addr + 1) fc .byte (flags ||| mmu030SswSizeB)
  setDataBufferOut (· ||| v)
  unalignClear
  reads (·.latch.log.dataBufferOut)

/-- `mmu030_get_long_unaligned`. -/
def mmu030GetLongUnaligned (addr fc : Long) (flags : Word) : Run030 M Long := do
  if addr &&& 1 = 0 then
    unalignInit true false
    let v ← mmu030GetGeneric q p addr fc .word (flags ||| mmu030SswSizeL)
    setDataBufferOut fun _ => v <<< 16
    unalignSet 0
    let v ← mmu030GetGeneric q p (addr + 2) fc .word (flags ||| mmu030SswSizeW)
    setDataBufferOut (· ||| v)
  else
    unalignInit true true
    let v ← mmu030GetGeneric q p addr fc .byte (flags ||| mmu030SswSizeL)
    setDataBufferOut fun _ => v <<< 24
    unalignSet 0
    let v ← mmu030GetGeneric q p (addr + 1) fc .word (flags ||| mmu030SswSizeW)
    setDataBufferOut (· ||| (v <<< 8))
    unalignSet 1
    let v ← mmu030GetGeneric q p (addr + 3) fc .byte (flags ||| mmu030SswSizeB)
    setDataBufferOut (· ||| v)
  unalignClear
  reads (·.latch.log.dataBufferOut)

/-- `mmu030_put_word_unaligned`. -/
def mmu030PutWordUnaligned (addr val fc : Long) (flags : Word) : Run030 M Unit := do
  unalignInit false false
  mmu030PutGeneric q p addr (val >>> 8) fc .byte (flags ||| mmu030SswSizeW)
  unalignSet 0
  mmu030PutGeneric q p (addr + 1) val fc .byte (flags ||| mmu030SswSizeB)
  unalignClear

/-- `mmu030_put_long_unaligned`. -/
def mmu030PutLongUnaligned (addr val fc : Long) (flags : Word) : Run030 M Unit := do
  if addr &&& 1 = 0 then
    unalignInit true false
    mmu030PutGeneric q p addr (val >>> 16) fc .word (flags ||| mmu030SswSizeL)
    unalignSet 0
    mmu030PutGeneric q p (addr + 2) val fc .word (flags ||| mmu030SswSizeW)
  else
    unalignInit true true
    mmu030PutGeneric q p addr (val >>> 24) fc .byte (flags ||| mmu030SswSizeL)
    unalignSet 0
    mmu030PutGeneric q p (addr + 1) (val >>> 8) fc .word (flags ||| mmu030SswSizeW)
    unalignSet 1
    mmu030PutGeneric q p (addr + 3) val fc .byte (flags ||| mmu030SswSizeB)
  unalignClear

/-- `is_unaligned_bus`. -/
def isUnalignedBus (addr : Long) : AccessSize → Bool
  | .byte => false
  | .word => addr &&& 1 ≠ 0
  | .long => addr &&& 3 ≠ 0

/-- `uae_mmu030_get_byte_fcx`, `_word_fcx`, `_long_fcx`, and the locked forms, which add `RM`. -/
def mmu030GetFcx (size : AccessSize) (addr fc : Long) (rm : Word) : Run030 M Long :=
  if isUnalignedBus addr size then
    match size with
    | .long => mmu030GetLongUnaligned q p addr fc rm
    | _ => mmu030GetWordUnaligned q p addr fc rm
  else mmu030GetGeneric q p addr fc size (rm ||| size.flags)

/-- `uae_mmu030_put_byte_fcx`, `_word_fcx`, `_long_fcx`, and the locked forms. -/
def mmu030PutFcx (size : AccessSize) (addr val fc : Long) (rm : Word) : Run030 M Unit :=
  if isUnalignedBus addr size then
    match size with
    | .long => mmu030PutLongUnaligned q p addr val fc rm
    | _ => mmu030PutWordUnaligned q p addr val fc rm
  else mmu030PutGeneric q p addr val fc size (rm ||| size.flags)

/-- The function code of a data access. -/
def dataFc (r : Regs) : Long := (if r.s then 4 else 0) ||| 1

/-- `uae_mmu030_get_byte`, `_word`, `_long`: also `get_long_mmu030` and its kin. -/
def uaeMmu030Get (size : AccessSize) (addr : Long) : Run030 M Long := do
  let r ← reads (·.regs)
  mmu030GetFcx q p size addr (dataFc r) 0

/-- `uae_mmu030_put_byte`, `_word`, `_long`. -/
def uaeMmu030Put (size : AccessSize) (addr val : Long) : Run030 M Unit := do
  let r ← reads (·.regs)
  mmu030PutFcx q p size addr val (dataFc r) 0

/-- `uae_mmu030_get_iword`. -/
def uaeMmu030GetIword (addr : Long) : Run030 M Long := do
  let r ← reads (·.regs)
  mmu030GetGeneric q p addr ((if r.s then 4 else 0) ||| 2) .word mmu030SswSizeW

/-- `uae_mmu030_get_ilong`: split in two words when it is not aligned. -/
def uaeMmu030GetIlong (addr : Long) : Run030 M Long := do
  if addr &&& 3 ≠ 0 then
    let hi ← uaeMmu030GetIword q p addr
    let lo ← uaeMmu030GetIword q p (addr + 2)
    pure ((hi <<< 16) ||| lo)
  else
    let r ← reads (·.regs)
    mmu030GetGeneric q p addr ((if r.s then 4 else 0) ||| 2) .long mmu030SswSizeL

/-! ## The access log -/

/-- An index of `mmu030_ad` or `mmu030_ad_v` is used. -/
def useIndex (i : Nat) : Run030 M Unit :=
  update (mapWorld fun w => { w with overrun := w.overrun || decide (maxMmu030Access < i) })

/-- `mmu030_ad[i].val = v`. -/
def setAd (i : Nat) (v : Long) : Run030 M Unit := do
  useIndex i
  update (mapLog fun l => { l with ad := Function.update l.ad i v })

/-- `ACCESS_EXIT_GET`, and `ACCESS_EXIT_PUT` with the output buffer. -/
def accessExit (v : Long) : Run030 M Unit := do
  let i ← reads (·.latch.log.idxDone)
  setAd i v
  update (mapLog fun l => { l with idxDone := i + 1 })

/-- `if (mmu030_idx++ < mmu030_idx_done)`: the access before this one, if it has been logged. -/
def accessCheck : Run030 M (Option Nat) := do
  let l ← reads (·.latch.log)
  update (mapLog fun l => { l with idx := l.idx + 1 })
  pure (if l.idx < l.idxDone then some l.idx else none)

/-- A `get_*_state` accessor around what performs the access. `hit` is done when the value comes
from the log, `miss` when it comes from memory. -/
def accessGet (hit miss : Run030 M Unit) (perform : Run030 M Long) : Run030 M Long := do
  match ← accessCheck with
  | some i =>
    useIndex i
    hit
    reads fun c => c.latch.log.ad i
  | none =>
    let v ← perform
    miss
    accessExit v
    pure v

/-- A `put_*_state` accessor around what performs the access. -/
def accessPut (v : Long) (perform : Run030 M Unit) : Run030 M Unit := do
  match ← accessCheck with
  | some _ => pure ()
  | none =>
    setDataBufferOut fun _ => v
    perform
    let d ← reads (·.latch.log.dataBufferOut)
    accessExit d

/-- The function code and the lock of an accessor. -/
def DataSpace.fc (read : Bool) (r : Regs) : DataSpace → Long
  | .moves => if read then r.sfc else r.dfc
  | _ => dataFc r

def DataSpace.rm : DataSpace → Word
  | .lrmw => mmu030SswRm
  | _ => 0

/-- `get_byte_mmu030_state`, `sfc030_get_long_state`, `get_lrmw_word_mmu030_state`, .. -/
def getState (space : DataSpace) (size : AccessSize) (addr : Long) : Run030 M Long :=
  accessGet (pure ()) (pure ()) do
    let r ← reads (·.regs)
    mmu030GetFcx q p size addr (space.fc true r) space.rm

/-- `put_byte_mmu030_state`, `dfc030_put_long_state`, `put_lrmw_word_mmu030_state`, .. -/
def putState (space : DataSpace) (size : AccessSize) (addr v : Long) : Run030 M Unit :=
  accessPut v do
    let r ← reads (·.regs)
    mmu030PutFcx q p size addr v (space.fc false r) space.rm

def incPci (n : Long) : Run030 M Unit := update fun c => c.mapRegs fun r => { r with pc := r.pc + n }

/-- `next_iword_mmu030_state`, and `next_iword_mmu030c_state` of the compatible core. -/
def nextIwordState : Run030 M Long :=
  accessGet (incPci 2) (incPci 2) do
    let r ← reads (·.regs)
    if p.cpuCompatible then q.wordPrefetch 0 else uaeMmu030GetIword q p r.pc

/-- `next_ilong_mmu030_state`: the compatible core takes two words. -/
def nextIlongState : Run030 M Long := do
  if p.cpuCompatible then
    let hi ← nextIwordState q p
    let lo ← nextIwordState q p
    pure ((hi <<< 16) ||| (lo &&& 0xFFFF))
  else
    accessGet (incPci 4) (incPci 4) do
      let r ← reads (·.regs)
      uaeMmu030GetIlong q p r.pc

/-- `get_iword_mmu030_state`, and `get_iword_mmu030c_state` of the compatible core. -/
def getIwordState (o : Long) : Run030 M Long :=
  accessGet (pure ()) (pure ()) do
    let r ← reads (·.regs)
    if p.cpuCompatible then q.wordPrefetch o else uaeMmu030GetIword q p (r.pc + o)

/-- `get_ilong_mmu030_state`: the compatible core takes two words. -/
def getIlongState (o : Long) : Run030 M Long := do
  if p.cpuCompatible then
    let hi ← getIwordState q p o
    let lo ← getIwordState q p (o + 2)
    pure ((hi <<< 16) ||| (lo &&& 0xFFFF))
  else
    accessGet (pure ()) (pure ()) do
      let r ← reads (·.regs)
      uaeMmu030GetIlong q p (r.pc + o)

/-- `state_store_mmu030`: a value that is to be the same when the instruction is started over. -/
def stateStoreMmu030 (v : Long) : Run030 M Long := accessGet (pure ()) (pure ()) (pure v)

/-- `regs.regs[i]`. -/
def reg16 (r : Regs) (i : BitVec 4) : Long :=
  if h : i.toNat < 8 then r.d.get ⟨i.toNat, h⟩ else r.areg ⟨i.toNat - 8, by omega⟩

/-- The words of an extension word's displacement of size `s`: none, a word or a long. -/
def nextDisp (s : Word) : Run030 M (Long × Word) := do
  if s = 2 then
    let v ← nextIwordState q p
    pure ((v.setWidth 16).signExtend 32, 1)
  else if s = 3 then
    let v ← nextIlongState q p
    pure (v, 2)
  else pure (0, 0)

/-- The address of a full format extension word, and the words it takes. -/
def fullFormatEa (dp : Word) (base regd : Long) : Run030 M (Long × Word) := do
  let base := if dp &&& 0x80 ≠ 0 then 0 else base
  let regd := if dp &&& 0x40 ≠ 0 then 0 else regd
  let (disp, n) ← nextDisp q p ((dp &&& 0x30) >>> 4)
  let (outer, k) ← nextDisp q p (dp &&& 3)
  let base := base + disp + if dp &&& 4 = 0 then regd else 0
  let base ← if dp &&& 3 ≠ 0 then getState q p .data .long base else pure base
  pure (base + (if dp &&& 4 ≠ 0 then regd else 0) + outer, 1 + n + k)

/-- The address an extension word stands for. -/
def extensionEa (dp : Word) (base : Long) : Run030 M (Long × Word) := do
  let r ← reads (·.regs)
  let regd := reg16 r (dp.extractLsb' 12 4)
  let regd := if dp &&& 0x800 = 0 then (regd.setWidth 16).signExtend 32 else regd
  let regd := regd <<< ((dp >>> 9) &&& 3)
  if dp &&& 0x100 ≠ 0 then fullFormatEa q p dp base regd
  else pure (base + (dp.setWidth 8).signExtend 32 + regd, 1)

/-- `get_disp_ea_020_mmu030`: its accesses leave the log once the address is known. -/
def getDispEa020Mmu030 (base : Long) (idx : Fin 2) : Run030 M Long := do
  let l ← reads (·.latch.log)
  if l.state1 &&& (1 <<< idx.val) ≠ 0 then
    incPci (((l.state2 >>> (idx.val * 4)) &&& 15).setWidth 32 * 2)
    pure (if idx.val = 0 then l.dispStore0 else l.dispStore1)
  else
    let oldidx := l.idx
    let dp ← nextIwordState q p
    let (v, pcadd) ← extensionEa q p (dp.setWidth 16) base
    update (mapLog fun l => { l with
      state1 := l.state1 ||| (1 <<< idx.val), state2 := l.state2 ||| (pcadd <<< (idx.val * 4))
      dispStore0 := if idx.val = 0 then v else l.dispStore0
      dispStore1 := if idx.val = 0 then l.dispStore1 else v
      idx := oldidx, idxDone := oldidx })
    pure v

/-- `fill_prefetch_030_ntx` and `fill_prefetch_030_ntx_continue`. -/
def fillPrefetch030Ntx : Run030 M Unit := do
  update (mapLog fun l => { l with idx := 0, idxDone := 0 })
  q.refill

/-! ## MOVEM -/

/-- A register of a MOVEM list, from memory or to memory. The last write stands behind the prefetch at `o`. -/
inductive Transfer where
  | load (size : AccessSize) (addr : Long) (f : Long → Core → Core)
  | save (size : AccessSize) (addr : Long) (v : Core → Long)
  | last (size : AccessSize) (addr : Long) (v : Core → Long) (o : Long) (f : Core → Core)

def mapCore (f : Core → Core) : Run030 M Unit := update fun c => { c with toCore := f c.toCore }

/-- `gen_set_fault_pc`. -/
def setFaultPc : Run030 M Unit := do
  update fun c => c.mapRegs fun r => { r with instructionPc := r.pc }
  setState1 (· ||| stateflag1Lastwrite)

/-- `mmu030_data_buffer_out`, and the write of it. -/
def saveBuffer (size : AccessSize) (addr : Long) (v : Core → Long) (before : Run030 M Unit) : Run030 M Unit := do
  update fun c => mapLog (fun l => { l with dataBufferOut := v c.toCore }) c
  before
  let w ← reads (·.latch.log.dataBufferOut)
  uaeMmu030Put q p size addr w

/-- `get_prefetch_020` of the compatible core. -/
def getPrefetch020 (o : Long) : Run030 M Unit :=
  if p.cpuCompatible then do
    let w ← getIwordState q p o
    update fun c => c.mapRegs fun r => { r with irc := w.setWidth 16 }
  else pure ()

def Transfer.move : Transfer → Run030 M Unit
  | .load size addr f => do
    let v ← uaeMmu030Get q p size addr
    mapCore (f v)
  | .save size addr v => saveBuffer q p size addr v (pure ())
  | .last size addr v o f => saveBuffer q p size addr v do
    getPrefetch020 q p o
    mapCore f
    setFaultPc
    setState1 (· &&& ~~~stateflag1Movem1)

/-- RTE has made the access already: what has been read is in the data buffer. -/
def Transfer.skip : Transfer → Run030 M Unit
  | .load _ _ f => do
    let v ← reads (·.latch.log.dataBufferOut)
    mapCore (f v)
  | _ => pure ()

/-- Transfer number `n` of the loops of `movem_mmu030`: `mmu030_state[0]` counts those that are through. -/
def transferState (n : Nat) (x : Transfer) : Run030 M Unit := do
  let l ← reads (·.latch.log)
  if l.state0.toNat = n then do
    if l.state1 &&& stateflag1Movem2 ≠ 0 then do
      setState1 (· &&& ~~~stateflag1Movem2)
      x.skip
    else x.move q p
    update (mapLog fun l => { l with state0 := l.state0 + 1 })
  else pure ()

/-- The registers of a list in turn, numbered from `n` on. -/
def transfers (one : Nat → Transfer → Run030 M Unit) : (n : Nat) → List Transfer → Run030 M Unit
  | _, [] => pure ()
  | n, x :: xs => do
    one n x
    transfers one (n + 1) xs

end Accesses

/-! ## Instructions -/

/-- A handler of the opcode table: the accesses it makes in turn, what each read leads to, and what
it does to the registers in the end. `refill` is a branch of the compatible core. -/
inductive Instr where
  | done (f : Core → Core)
  | get (space : DataSpace) (size : AccessSize) (addr : Long) (k : Long → Instr)
  | put (space : DataSpace) (size : AccessSize) (addr v : Long) (k : Instr)
  | iword (o : Long) (k : Long → Instr)
  | ilong (o : Long) (k : Long → Instr)
  | nextIword (k : Long → Instr)
  | nextIlong (k : Long → Instr)
  | disp (base : Long) (idx : Fin 2) (k : Long → Instr)
  | store (v : Long) (k : Long → Instr)
  | movem (xs : List Transfer) (k : Instr)
  | lastWrite (k : Instr)
  | refill (k : Instr)

def Instr.exec (q : Port030 M) (p : Prefs) : Instr → Run030 M Unit
  | .done f => update fun c => { c with toCore := f c.toCore }
  | .get space size addr k => do
    let v ← getState q p space size addr
    (k v).exec q p
  | .put space size addr v k => do
    putState q p space size addr v
    k.exec q p
  | .iword o k => do
    let v ← getIwordState q p o
    (k v).exec q p
  | .ilong o k => do
    let v ← getIlongState q p o
    (k v).exec q p
  | .nextIword k => do
    let v ← nextIwordState q p
    (k v).exec q p
  | .nextIlong k => do
    let v ← nextIlongState q p
    (k v).exec q p
  | .disp base idx k => do
    let v ← getDispEa020Mmu030 q p base idx
    (k v).exec q p
  | .store v k => do
    let v ← stateStoreMmu030 v
    (k v).exec q p
  | .movem xs k => do
    setState1 (· ||| stateflag1Movem1)
    transfers (transferState q p) 0 xs
    k.exec q p
  | .lastWrite k => do
    setFaultPc
    k.exec q p
  | .refill k => do
    fillPrefetch030Ntx q
    k.exec q p

end UaeCpu.Restart
