import UaeCpu.Mmu030Access

/-!
# UaeCpu.Mmu030Ops

What a guest can do to the 68030 MMU, one operation at a time: the accesses, the instructions of
the MMU with their operands in translated memory, a reset, and changes of memory and of registers
outside the MMU.

* `Mmu030Op.next` — the state after an operation, whether it returns or throws.
* `resetMmu030`   — a state to start in.
-/

namespace UaeCpu

open Fault FaultM

/-! ## Operands -/

/-- `x_phys_get_long`. -/
def physGetLong (addr : Long) : Mmu030M Long := fun m =>
  match m.mem addr with
  | some d => .ret d m
  | none => mmu030PageFault addr true mmu030SswSizeL (uaeMmu030GetFcData m) m

/-- `x_phys_get_byte`. -/
def physGetByte (addr : Long) : Mmu030M Byte := do
  let w ← physGetWord (addr &&& 0xFFFFFFFE)
  pure (if addr &&& 1 = 0 then w.extractLsb' 8 8 else w.extractLsb' 0 8)

section Unaligned

variable (addr fc : Long) (flags : Word)

/-- `mmu030_get_long_unaligned`. -/
def mmu030GetLongUnaligned : Mmu030M Long :=
  if addr &&& 1 = 0 then do
    let hi ← mmu030GetGeneric addr fc (flags ||| mmu030SswSizeL) >>= physGetWord
    let lo ← mmu030GetGeneric (addr + 2) fc (flags ||| mmu030SswSizeW) >>= physGetWord
    pure (hi ++ lo)
  else do
    let b0 ← mmu030GetGeneric addr fc (flags ||| mmu030SswSizeL) >>= physGetByte
    let w1 ← mmu030GetGeneric (addr + 1) fc (flags ||| mmu030SswSizeW) >>= physGetWord
    let b3 ← mmu030GetGeneric (addr + 3) fc (flags ||| mmu030SswSizeB) >>= physGetByte
    pure (b0 ++ (w1 ++ b3))

/-- `mmu030_get_word_unaligned`. -/
def mmu030GetWordUnaligned : Mmu030M Word := do
  let b0 ← mmu030GetGeneric addr fc (flags ||| mmu030SswSizeW) >>= physGetByte
  let b1 ← mmu030GetGeneric (addr + 1) fc (flags ||| mmu030SswSizeB) >>= physGetByte
  pure (b0 ++ b1)

/-- `mmu030_put_long_unaligned`, up to the physical addresses. -/
def mmu030PutLongUnaligned : Mmu030M Unit :=
  if addr &&& 1 = 0 then do
    let _ ← mmu030PutGeneric addr fc (flags ||| mmu030SswSizeL)
    let _ ← mmu030PutGeneric (addr + 2) fc (flags ||| mmu030SswSizeW)
  else do
    let _ ← mmu030PutGeneric addr fc (flags ||| mmu030SswSizeL)
    let _ ← mmu030PutGeneric (addr + 1) fc (flags ||| mmu030SswSizeW)
    let _ ← mmu030PutGeneric (addr + 3) fc (flags ||| mmu030SswSizeB)

/-- `mmu030_put_word_unaligned`, up to the physical addresses. -/
def mmu030PutWordUnaligned : Mmu030M Unit := do
  let _ ← mmu030PutGeneric addr fc (flags ||| mmu030SswSizeW)
  let _ ← mmu030PutGeneric (addr + 1) fc (flags ||| mmu030SswSizeB)

end Unaligned

def uaeMmu030GetLong (addr : Long) : Mmu030M Long := do
  let fc ← reads uaeMmu030GetFcData
  if addr &&& 3 ≠ 0 then mmu030GetLongUnaligned addr fc 0
  else mmu030GetLong addr fc >>= physGetLong

def uaeMmu030GetWord (addr : Long) : Mmu030M Word := do
  let fc ← reads uaeMmu030GetFcData
  if addr &&& 1 ≠ 0 then mmu030GetWordUnaligned addr fc 0
  else mmu030GetWord addr fc >>= physGetWord

def uaeMmu030PutLong (addr : Long) : Mmu030M Unit := do
  let fc ← reads uaeMmu030GetFcData
  if addr &&& 3 ≠ 0 then mmu030PutLongUnaligned addr fc 0
  else do
    let _ ← mmu030PutLong addr fc

def uaeMmu030PutWord (addr : Long) : Mmu030M Unit := do
  let fc ← reads uaeMmu030GetFcData
  if addr &&& 1 ≠ 0 then mmu030PutWordUnaligned addr fc 0
  else do
    let _ ← mmu030PutWord addr fc

/-- The operands of the MMU instructions. What they store is an edit of memory of its own. -/
def operand030 : Operand030 where
  getLong := uaeMmu030GetLong
  getWord := uaeMmu030GetWord
  putLong addr _ := uaeMmu030PutLong addr
  putWord addr _ := uaeMmu030PutWord addr

/-! ## Operations -/

inductive Access030 where
  | put (flags : Word) (addr fc : Long)
  | get (flags : Word) (addr fc : Long)
  | getI (flags : Word) (addr fc : Long)
  | putGeneric (flags : Word) (addr fc : Long)
  | getGeneric (flags : Word) (addr fc : Long)
  | translate (addr : Long) (super data write : Bool)

/-- The physical address of an access. -/
def Access030.perform : Access030 → Mmu030M Long
  | put flags addr fc => mmu030Put addr fc flags
  | get flags addr fc => mmu030Get addr fc flags
  | getI flags addr fc => mmu030GetI addr fc flags
  | putGeneric flags addr fc => mmu030PutGeneric addr fc flags
  | getGeneric flags addr fc => mmu030GetGeneric addr fc flags
  | translate addr super data write => mmu030Translate addr super data write

inductive Mmu030Op where
  | access (a : Access030)
  | checkFc (flags : Word) (addr : Long) (write : Bool)
  | pmove (opcode : Long) (next : Word) (extra : Long)
  | pflush (opcode : Long) (next : Word) (extra : Long)
  | ptest (opcode : Long) (next : Word) (extra : Long)
  | reset (hardreset : Bool)
  | edit (mem : PhysMem)
  | cpu (pc sfc dfc fc030 : Long) (dregs aregs : Fin 8 → Long) (s : Bool)

def Mmu030Op.perform : Mmu030Op → Mmu030M Unit
  | access a => do
    let _ ← a.perform
  | checkFc flags addr write => do
    let _ ← uaeMmu030CheckFc addr flags write
  | pmove opcode next extra => do
    let _ ← mmuOp30Pmove operand030 mmu030DoFakePrefetch opcode next extra
  | pflush opcode next extra => do
    let _ ← mmuOp30Pflush opcode next extra
  | ptest opcode next extra => do
    let _ ← mmuOp30Ptest opcode next extra
  | reset hardreset => mmu030Reset (if hardreset then 1 else 0)
  | edit mem => update fun m => { m with mem := mem }
  | cpu pc sfc dfc fc030 dregs aregs s => do
    updateRegs fun r => { r with pc := pc, sfc := sfc, dfc := dfc, fc030 := fc030, dregs := dregs }
    update fun m => { m with aregs := aregs, s := s }

/-- The state after an operation. An operation of no outcome leads nowhere. -/
def Mmu030Op.next (op : Mmu030Op) (m : Mmu030) : Option Mmu030 :=
  match op.perform m with
  | .ret _ m' => some m'
  | .thrown _ m' => some m'
  | .diverge => none

/-- A 68030 after a hard reset, in supervisor mode. -/
def resetMmu030 (mem : PhysMem) : Mmu030 where
  mem := mem
  ceCachable := fun _ => 0
  regs :=
    { mmuEc := false, cpuCompatible := true, pc := 0, sfc := 0, dfc := 0, fc030 := 0
      dregs := fun _ => 0, tc030 := 0, srp030 := 0, crp030 := 0, tt0030 := 0, tt1030 := 0
      translation :=
        { table := fun _ => ⟨0, 0⟩, page := ⟨0, 0, 0, 0⟩, initShift := 0, lastTable := 0 }
      tt0 := ⟨0, 0, 0, 0⟩, tt1 := ⟨0, 0, 0, 0⟩, ttEnabled := false, enabled := false
      mmuPageSize := 0 }
  s := true
  aregs := fun _ => 0
  mmusr030 := 0
  status := 0
  atc := fun _ => ⟨0, false, false, 0, false, 0, 0, false, false⟩
  atcindextable := fun _ => ⟨0, by decide⟩
  insCacheState := 0
  lastPhysicalAddress := 0xFFFFFFFF
  lastLogicalAddress := 0xFFFFFFFF
  atcDataCacheRead := fun _ => ⟨0xFFFFFFFF, 0xFFFFFFFF, 0xFF⟩
  atcDataCacheWrite := fun _ => ⟨0xFFFFFFFF, 0xFFFFFFFF, 0xFF⟩
  mmu030CacheState := 0
  ismoves030 := false
  islrmw030 := false
  busErrorReadWrite := false
  fault := none
  exception := none

end UaeCpu
