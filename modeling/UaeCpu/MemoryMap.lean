import UaeCpu.Regs
import UaeCpu.Lib.Loop
import Mathlib.Logic.Function.Basic

/-!
# UaeCpu.MemoryMap

The memory map: the 65536 entries of `mem_banks`, the regions they point to, and the calls that
change them (`memory_init`, `memory_map_ptr`, `memory_map_custom`, `memory_unmap`,
`memory_uninit`, `map_banks`), with the view of it all that translated code uses.

`free` takes a region out of `heap` and logs it in `freed`. Regions are numbered in the order of
their `calloc`; a number is never given again, so an entry that outlived its region would show.

`δ` is what a custom region keeps for its callbacks.
-/

namespace UaeCpu

/-- A pointer of the host; `NULL` is 0. -/
abbrev HostPtr := Nat

/-- An index into `mem_banks`: the upper half of an address. -/
abbrev BankIdx := BitVec 16

/-- Which set of accessors a bank has. -/
inductive Handlers where
  | dummy | musashi | testdev | ram | custom
  deriving DecidableEq, Repr

/-- `addrbank`. -/
structure Addrbank (δ : Type) where
  handlers : Handlers
  baseaddr : HostPtr
  flags : Long
  start : Long
  allocatedSize : Long
  hostFlags : Long
  jitReadFlag : Long
  jitWriteFlag : Long
  device : Option δ

/-- The value of an `addrbank *`. -/
inductive BankRef where
  | null | dummy | musashi | testdev
  | region (id : Nat)
  deriving DecidableEq, Repr

/-- An entry of `baseaddr[]`: a host address, or `(uae_u8 *)bank + 1`, which is never `NULL`. -/
inductive JitBase where
  | host (p : Int)
  | poison (bank : BankRef)
  deriving DecidableEq, Repr

/-- `CE_MEMBANK_NONE` and `CE_MEMBANK_FAST32`, the two values the map stores. -/
inductive CeMembank where
  | none | fast32
  deriving DecidableEq, Repr

/-! ## Flag bits -/

def sRead : Long := 1
def sWrite : Long := 2

def abflagRam : Long := 1
def abflagRom : Long := 2
def abflagIo : Long := 8
def abflagNone : Long := 16
def abflagJitUnsafeBurst : Long := 0x10000

def uaeMemRom : Long := 0x02
def uaeMemIo : Long := 0x04
def uaeMemCacheable : Long := 0x08
def uaeMemJitDirect : Long := 0x10
def uaeMemJitUnsafeBurst : Long := 0x20

/-- `flags & bit`, as a condition. -/
def hasFlag (flags bit : Long) : Bool := flags &&& bit != 0

namespace Addrbank

variable {δ : Type}

/-- A bank after `memset` or `calloc`, with its accessors. -/
def zeroed (h : Handlers) (flags : Long) : Addrbank δ :=
  { handlers := h, baseaddr := 0, flags := flags, start := 0, allocatedSize := 0,
    hostFlags := 0, jitReadFlag := 0, jitWriteFlag := 0, device := none }

def isRom (b : Addrbank δ) : Bool := hasFlag b.flags abflagRom

def isBurst (b : Addrbank δ) : Bool := hasFlag b.flags abflagJitUnsafeBurst

end Addrbank

/-! ## State -/

structure MemState (δ : Type) where
  banks : BankIdx → BankRef
  heap : Nat → Option (Addrbank δ)
  next : Nat
  freed : List Nat
  dummyBank : Addrbank δ
  musashiBridgeBank : Addrbank δ
  testDeviceBank : Addrbank δ
  ceCachable : BankIdx → Bool
  ceBanktype : BankIdx → CeMembank
  baseaddr : BankIdx → JitBase
  canbang : Bool
  natmemOffset : HostPtr
  nAddrBankUnsafe : Bool

namespace MemState

variable {δ : Type}

/-- The zeroed globals before the first call. -/
def initial : MemState δ :=
  { banks := fun _ => .null, heap := fun _ => none, next := 0, freed := [],
    dummyBank := .zeroed .dummy 0, musashiBridgeBank := .zeroed .musashi 0,
    testDeviceBank := .zeroed .testdev 0, ceCachable := fun _ => false,
    ceBanktype := fun _ => .none, baseaddr := fun _ => .host 0, canbang := false,
    natmemOffset := 0, nAddrBankUnsafe := false }

/-- `*bank`. -/
def deref (st : MemState δ) : BankRef → Option (Addrbank δ)
  | .null => none
  | .dummy => some st.dummyBank
  | .musashi => some st.musashiBridgeBank
  | .testdev => some st.testDeviceBank
  | .region id => st.heap id

/-- `*bank = b`. -/
def store (st : MemState δ) (ref : BankRef) (b : Addrbank δ) : MemState δ :=
  match ref with
  | .null => st
  | .dummy => { st with dummyBank := b }
  | .musashi => { st with musashiBridgeBank := b }
  | .testdev => { st with testDeviceBank := b }
  | .region id => { st with heap := Function.update st.heap id (some b) }

/-- `calloc` and the assignments to the fields of the new region. -/
def alloc (st : MemState δ) (b : Addrbank δ) : MemState δ :=
  { st with heap := Function.update st.heap st.next (some b), next := st.next + 1 }

/-- `free`. -/
def free (st : MemState δ) (id : Nat) : MemState δ :=
  { st with heap := Function.update st.heap id none, freed := st.freed ++ [id] }

end MemState

/-! ## The view of translated code -/

section Jit

variable {δ : Type}

/-- The bank may be accessed at `natmem_offset + address`. -/
def Addrbank.direct (b : Addrbank δ) (canbang : Bool) (natmemOffset : HostPtr) : Bool :=
  canbang && natmemOffset != 0 && b.baseaddr != 0 && hasFlag b.hostFlags uaeMemJitDirect &&
    b.baseaddr == natmemOffset + b.start.toNat

/-- The bank with its two flags recomputed. -/
def Addrbank.synced (b : Addrbank δ) (canbang : Bool) (natmemOffset : HostPtr) : Addrbank δ :=
  let direct := b.direct canbang natmemOffset
  { b with
    jitReadFlag := if direct then 0 else sRead
    jitWriteFlag := if direct && !b.isRom then 0 else sWrite }

/-- The entry of `baseaddr[]` for a bank that `ref` points to. -/
def Addrbank.jitBase (b : Addrbank δ) (ref : BankRef) : JitBase :=
  if b.baseaddr ≠ 0 then .host ((b.baseaddr : Int) - b.start.toNat) else .poison ref

def jitSyncBaseaddr (idx : BankIdx) (st : MemState δ) : MemState δ :=
  let ref := st.banks idx
  match st.deref ref with
  | none => { st with baseaddr := Function.update st.baseaddr idx (.poison ref) }
  | some bank =>
    let st := { st with baseaddr := Function.update st.baseaddr idx (bank.jitBase ref) }
    st.store ref (bank.synced st.canbang st.natmemOffset)

/-- `mem_banks[i] && (mem_banks[i]->flags & ABFLAG_JIT_UNSAFE_BURST)`. -/
def MemState.burstAt (st : MemState δ) (i : BankIdx) : Bool :=
  match st.deref (st.banks i) with
  | none => false
  | some bank => bank.isBurst

/-- `MEMORY_BANKS`. -/
@[irreducible] def memoryBanks : Nat := 65536

theorem memoryBanks_eq : memoryBanks = 2 ^ 16 := by unfold memoryBanks; rfl

/-- One pass of `memory_jit_sync_all`: the state and whether a burst region was met. -/
def jitSyncPass (i : Nat) (t : MemState δ × Bool) : MemState δ × Bool :=
  let st := jitSyncBaseaddr (BitVec.ofNat 16 i) t.1
  (st, t.2 || st.burstAt (BitVec.ofNat 16 i))

/-- `jit_n_addr_bank_unsafe = canbang && burst`. -/
def noteBurst (t : MemState δ × Bool) : MemState δ :=
  { t.1 with nAddrBankUnsafe := t.1.canbang && t.2 }

def memoryJitSyncAll (st : MemState δ) : MemState δ :=
  noteBurst (Loop.upto jitSyncPass memoryBanks (st, false))

end Jit

/-! ## Operations -/

section Ops

variable {δ : Type}

/-- `mem_banks[idx] = bank; JIT_SYNC_BASEADDR(idx);`. -/
def setEntry (idx : BankIdx) (ref : BankRef) (st : MemState δ) : MemState δ :=
  jitSyncBaseaddr idx { st with banks := Function.update st.banks idx ref }

def setCe (idx : BankIdx) (cachable : Bool) (type : CeMembank) (st : MemState δ) : MemState δ :=
  { st with
    ceCachable := Function.update st.ceCachable idx cachable
    ceBanktype := Function.update st.ceBanktype idx type }

/-- `mem_banks[idx] = &dummy_bank` with the cache type of unmapped space. -/
def resetEntry (idx : BankIdx) (st : MemState δ) : MemState δ :=
  setCe idx false .none (setEntry idx .dummy st)

/-- The test device counters `memory_init` also clears are not part of the map. -/
def memoryInit (st : MemState δ) : MemState δ :=
  let st := { st with
    dummyBank := { Addrbank.zeroed .dummy abflagNone with
      jitReadFlag := sRead, jitWriteFlag := sWrite }
    musashiBridgeBank := .zeroed .musashi abflagNone
    testDeviceBank := .zeroed .testdev abflagIo }
  Loop.upto (fun i st => resetEntry (BitVec.ofNat 16 i) st) memoryBanks st

/-- The inner loop of `memory_uninit`: no entry from `i` on points to `bank` any more. -/
def dropFrom (i : Nat) (bank : BankRef) (st : MemState δ) : MemState δ :=
  Loop.upto (fun k st =>
    let j := BitVec.ofNat 16 (i + k)
    if st.banks j = bank then setEntry j .dummy st else st) (memoryBanks - i) st

/-- One pass of `memory_uninit`: the region of an entry is freed at its first entry. -/
def uninitPass (i : Nat) (st : MemState δ) : MemState δ :=
  let bank := st.banks (BitVec.ofNat 16 i)
  let st := match bank with
    | .region id => (dropFrom (i + 1) bank st).free id
    | _ => st
  setEntry (BitVec.ofNat 16 i) .dummy st

def memoryUninit (st : MemState δ) : MemState δ := Loop.upto uninitPass memoryBanks st

def mapBanks (bank : BankRef) (start size : Int) (st : MemState δ) : MemState δ :=
  Loop.upto (fun i st => setEntry (BitVec.ofInt 16 (start + i)) bank st) size.toNat st

def startBank (startAddr : Long) : BankIdx := (startAddr >>> 16).setWidth 16

def numBanks (size : Long) : Nat := ((size + 0xFFFF) >>> 16).toNat

/-- The region `memory_map_ptr` makes. -/
def ramBank (startAddr size : Long) (hostPtr : HostPtr) (flags : Long) : Addrbank δ :=
  { handlers := .ram
    baseaddr := hostPtr
    flags := abflagRam ||| (if hasFlag flags uaeMemRom then abflagRom else 0) |||
      (if hasFlag flags uaeMemJitUnsafeBurst then abflagJitUnsafeBurst else 0)
    start := startAddr
    allocatedSize := size
    hostFlags := flags
    jitReadFlag := sRead
    jitWriteFlag := sWrite
    device := none }

/-- `callocOk` says whether `calloc` gave memory. -/
def memoryMapPtr (callocOk : Bool) (startAddr size : Long) (hostPtr : HostPtr) (flags : Long)
    (st : MemState δ) : Int × MemState δ :=
  if !callocOk then (-1, st)
  else
    let bank := BankRef.region st.next
    let st := st.alloc (ramBank startAddr size hostPtr flags)
    let st := Loop.upto (fun i st =>
      let idx := startBank startAddr + BitVec.ofNat 16 i
      setCe idx (hasFlag flags uaeMemCacheable) .fast32 (setEntry idx bank st))
      (numBanks size) st
    (0, memoryJitSyncAll st)

/-- The region `memory_map_custom` makes. -/
def customBank (startAddr : Long) (device : δ) : Addrbank δ :=
  { handlers := .custom
    baseaddr := 0
    flags := abflagIo
    start := startAddr
    allocatedSize := 0
    hostFlags := uaeMemIo
    jitReadFlag := sRead
    jitWriteFlag := sWrite
    device := some device }

def memoryMapCustom (callocOk : Bool) (startAddr size : Long) (device : δ)
    (st : MemState δ) : Int × MemState δ :=
  if !callocOk then (-1, st)
  else
    let bank := BankRef.region st.next
    let st := st.alloc (customBank startAddr device)
    let st := Loop.upto (fun i st => setEntry (startBank startAddr + BitVec.ofNat 16 i) bank st)
      (numBanks size) st
    (0, memoryJitSyncAll st)

/-- The search of `memory_unmap` for an entry that still points to the region. -/
def MemState.refers (st : MemState δ) (ref : BankRef) : Bool :=
  Loop.upto (fun i found => found || st.banks (BitVec.ofNat 16 i) == ref) memoryBanks false

def memoryUnmap (startAddr size : Long) (st : MemState δ) : MemState δ :=
  let bankToFree := if 0 < numBanks size then st.banks (startBank startAddr) else .null
  let st := Loop.upto (fun i st => resetEntry (startBank startAddr + BitVec.ofNat 16 i) st)
    (numBanks size) st
  let st := match bankToFree with
    | .region id => if st.refers bankToFree then st else st.free id
    | _ => st
  memoryJitSyncAll st

end Ops

end UaeCpu
