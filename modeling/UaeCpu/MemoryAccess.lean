import UaeCpu.MemoryMap
import UaeCpu.Lib.Fault

/-!
# UaeCpu.MemoryAccess

Guest accesses: `get_long` and its siblings choose the handler of the bank of the first byte,
and the handler goes to host memory, to the callbacks of a custom region, to the Musashi
callbacks, to the test device, or nowhere.

Every host byte a handler reads or writes is logged in `touched`.
-/

namespace UaeCpu

open Fault FaultM

/-! ## State and environment -/

/-- `uae_test_device_t`. -/
structure TestDevice where
  passCount : Long
  failCount : Long
  interruptLevel : Level
  deriving DecidableEq

/-- What an access can change: host memory, the test device with `pending_irq_level` and
`stdout`, and `dev`, the state behind all callbacks and bus errors. -/
structure MemWorld (ω : Type) where
  host : HostPtr → Byte
  touched : List HostPtr
  testDevice : TestDevice
  pendingIrqLevel : Level
  stdout : List Byte
  dev : ω

/-- An access. It may throw, as a bus error does; with a `NULL` entry it does not come back. -/
abbrev Acc (ω α : Type) := FaultM (MemWorld ω) α

/-- The callbacks of a custom region, each with its `userdata`. A `NULL` one is `none`. -/
structure Callbacks (ω : Type) where
  r8 : Option (Long → ω → Byte × ω)
  r16 : Option (Long → ω → Word × ω)
  r32 : Option (Long → ω → Long × ω)
  w8 : Option (Long → Byte → ω → ω)
  w16 : Option (Long → Word → ω → ω)
  w32 : Option (Long → Long → ω → ω)

/-- The `m68k_read_memory_*` and `m68k_write_memory_*` of the host. -/
structure MusashiMemory (ω : Type) where
  read8 : Long → ω → Byte × ω
  read16 : Long → ω → Word × ω
  read32 : Long → ω → Long × ω
  write8 : Long → Byte → ω → ω
  write16 : Long → Word → ω → ω
  write32 : Long → Long → ω → ω

/-- What stays the same during an access. `raiseBusError` is `uae_host_raise_bus_error` with
the address, whether it is a write, and the size: it throws, or returns if it is ignored. -/
structure MemEnv (ω : Type) where
  map : MemState (Callbacks ω)
  musashiMode : Bool
  unmappedBusError : Bool
  musashi : MusashiMemory ω
  raiseBusError : Long → Bool → Nat → ω → Option Int × ω

variable {ω : Type}

/-! ## Host memory -/

def touch (p : HostPtr) : Acc ω Unit := update fun w => { w with touched := w.touched ++ [p] }

def hostRead (p : HostPtr) : Acc ω Byte := do
  touch p
  reads fun w => w.host p

def hostWrite (p : HostPtr) (b : Byte) : Acc ω Unit := do
  touch p
  update fun w => { w with host := fun x => if x = p then b else w.host x }

/-- `do_get_mem_long`: big endian. -/
def doGetMemLong (p : HostPtr) : Acc ω Long := do
  let b0 ← hostRead p
  let b1 ← hostRead (p + 1)
  let b2 ← hostRead (p + 2)
  let b3 ← hostRead (p + 3)
  pure ((b0 ++ b1) ++ (b2 ++ b3))

def doGetMemWord (p : HostPtr) : Acc ω Word := do
  let b0 ← hostRead p
  let b1 ← hostRead (p + 1)
  pure (b0 ++ b1)

def doPutMemLong (p : HostPtr) (v : Long) : Acc ω Unit := do
  hostWrite p (v.extractLsb' 24 8)
  hostWrite (p + 1) (v.extractLsb' 16 8)
  hostWrite (p + 2) (v.extractLsb' 8 8)
  hostWrite (p + 3) (v.extractLsb' 0 8)

def doPutMemWord (p : HostPtr) (v : Word) : Acc ω Unit := do
  hostWrite p (v.extractLsb' 8 8)
  hostWrite (p + 1) (v.extractLsb' 0 8)

/-! ## RAM and ROM -/

/-- `bank->baseaddr + (addr - bank->start)`. -/
def Addrbank.hostAddr {δ : Type} (b : Addrbank δ) (addr : Long) : HostPtr :=
  b.baseaddr + (addr - b.start).toNat

section Handlers

variable (b : Addrbank (Callbacks ω)) (addr : Long)

def ramLget : Acc ω Long := doGetMemLong (b.hostAddr addr)

def ramWget : Acc ω Word := doGetMemWord (b.hostAddr addr)

def ramBget : Acc ω Byte := hostRead (b.hostAddr addr)

def ramLput (v : Long) : Acc ω Unit :=
  if !b.isRom then doPutMemLong (b.hostAddr addr) v else pure ()

def ramWput (v : Word) : Acc ω Unit :=
  if !b.isRom then doPutMemWord (b.hostAddr addr) v else pure ()

def ramBput (v : Byte) : Acc ω Unit :=
  if !b.isRom then hostWrite (b.hostAddr addr) v else pure ()

/-! ## Custom regions -/

/-- Calls a callback that returns a value. -/
def call {α : Type} (f : Long → ω → α × ω) (a : Long) : Acc ω α := fun w =>
  .ret (f a w.dev).1 { w with dev := (f a w.dev).2 }

/-- Calls a callback that stores a value. -/
def callPut {α : Type} (f : Long → α → ω → ω) (a : Long) (v : α) : Acc ω Unit :=
  update fun w => { w with dev := f a v w.dev }

def Callbacks.none : Callbacks ω :=
  { r8 := .none, r16 := .none, r32 := .none, w8 := .none, w16 := .none, w32 := .none }

def Addrbank.callbacks : Callbacks ω := b.device.getD .none

def customLget : Acc ω Long :=
  match b.callbacks.r32, b.callbacks.r16, b.callbacks.r8 with
  | some r32, _, _ => call r32 addr
  | none, some r16, _ => do
    let hi ← call r16 addr
    let lo ← call r16 (addr + 2)
    pure (hi ++ lo)
  | none, none, some r8 => do
    let b0 ← call r8 addr
    let b1 ← call r8 (addr + 1)
    let b2 ← call r8 (addr + 2)
    let b3 ← call r8 (addr + 3)
    pure ((b0 ++ b1) ++ (b2 ++ b3))
  | none, none, none => pure 0xFFFFFFFF

def customWget : Acc ω Word :=
  match b.callbacks.r16, b.callbacks.r8 with
  | some r16, _ => call r16 addr
  | none, some r8 => do
    let hi ← call r8 addr
    let lo ← call r8 (addr + 1)
    pure (hi ++ lo)
  | none, none => pure 0xFFFF

def customBget : Acc ω Byte :=
  match b.callbacks.r8 with
  | some r8 => call r8 addr
  | none => pure 0xFF

def customLput (v : Long) : Acc ω Unit :=
  match b.callbacks.w32, b.callbacks.w16, b.callbacks.w8 with
  | some w32, _, _ => callPut w32 addr v
  | none, some w16, _ => do
    callPut w16 addr (v.extractLsb' 16 16)
    callPut w16 (addr + 2) (v.extractLsb' 0 16)
  | none, none, some w8 => do
    callPut w8 addr (v.extractLsb' 24 8)
    callPut w8 (addr + 1) (v.extractLsb' 16 8)
    callPut w8 (addr + 2) (v.extractLsb' 8 8)
    callPut w8 (addr + 3) (v.extractLsb' 0 8)
  | none, none, none => pure ()

def customWput (v : Word) : Acc ω Unit :=
  match b.callbacks.w16, b.callbacks.w8 with
  | some w16, _ => callPut w16 addr v
  | none, some w8 => do
    callPut w8 addr (v.extractLsb' 8 8)
    callPut w8 (addr + 1) (v.extractLsb' 0 8)
  | none, none => pure ()

def customBput (v : Byte) : Acc ω Unit :=
  match b.callbacks.w8 with
  | some w8 => callPut w8 addr v
  | none => pure ()

end Handlers

/-! ## Unmapped banks and the test device -/

section Fixed

variable (env : MemEnv ω) (addr : Long)

def uaeHostRaiseBusError (write : Bool) (size : Nat) : Acc ω Unit := fun w =>
  match env.raiseBusError addr write size w.dev with
  | (some code, d) => .thrown code { w with dev := d }
  | (none, d) => .ret () { w with dev := d }

/-- The common shape of the six dummy handlers. -/
def dummyAccess {α : Type} (musashi : Acc ω α) (write : Bool) (size : Nat) (floating : α) :
    Acc ω α :=
  if env.musashiMode then musashi
  else if env.unmappedBusError then do
    uaeHostRaiseBusError env addr write size
    pure floating
  else pure floating

def dummyLget : Acc ω Long :=
  dummyAccess env addr (call env.musashi.read32 addr) false 4 0xFFFFFFFF

def dummyWget : Acc ω Word :=
  dummyAccess env addr (call env.musashi.read16 addr) false 2 0xFFFF

def dummyBget : Acc ω Byte :=
  dummyAccess env addr (call env.musashi.read8 addr) false 1 0xFF

def dummyLput (v : Long) : Acc ω Unit :=
  dummyAccess env addr (callPut env.musashi.write32 addr v) true 4 ()

def dummyWput (v : Word) : Acc ω Unit :=
  dummyAccess env addr (callPut env.musashi.write16 addr v) true 2 ()

def dummyBput (v : Byte) : Acc ω Unit :=
  dummyAccess env addr (callPut env.musashi.write8 addr v) true 1 ()

/-- `handle_test_device_write`. -/
def handleTestDeviceWrite (offset val : Long) : Acc ω Unit := update fun w =>
  if offset &&& 0xFF = 0x00 then
    { w with testDevice := { w.testDevice with failCount := w.testDevice.failCount + 1 } }
  else if offset &&& 0xFF = 0x04 then
    { w with testDevice := { w.testDevice with passCount := w.testDevice.passCount + 1 } }
  else if offset &&& 0xFF = 0x0C then
    { w with
      testDevice := { w.testDevice with interruptLevel := val.setWidth 3 }
      pendingIrqLevel := val.setWidth 3 }
  else if offset &&& 0xFF = 0x14 then { w with stdout := w.stdout ++ [val.setWidth 8] }
  else w

/-! ## Dispatch -/

def bankIndex (addr : Long) : BankIdx := (addr >>> 16).setWidth 16

/-- `get_mem_bank(addr)`. -/
def MemState.bankAt {δ : Type} (st : MemState δ) (addr : Long) : Option (Addrbank δ) :=
  st.deref (st.banks (bankIndex addr))

/-- Reading through a `NULL` entry, before `memory_init`. -/
def crash {α : Type} : Acc ω α := fun _ => .diverge

def getLong : Acc ω Long :=
  match env.map.bankAt addr with
  | none => crash
  | some b =>
    match b.handlers with
    | .dummy => dummyLget env addr
    | .musashi => call env.musashi.read32 addr
    | .testdev => pure 0
    | .ram => ramLget b addr
    | .custom => customLget b addr

def getWord : Acc ω Word :=
  match env.map.bankAt addr with
  | none => crash
  | some b =>
    match b.handlers with
    | .dummy => dummyWget env addr
    | .musashi => call env.musashi.read16 addr
    | .testdev => pure 0
    | .ram => ramWget b addr
    | .custom => customWget b addr

def getByte : Acc ω Byte :=
  match env.map.bankAt addr with
  | none => crash
  | some b =>
    match b.handlers with
    | .dummy => dummyBget env addr
    | .musashi => call env.musashi.read8 addr
    | .testdev => pure 0
    | .ram => ramBget b addr
    | .custom => customBget b addr

def putLong (v : Long) : Acc ω Unit :=
  match env.map.bankAt addr with
  | none => crash
  | some b =>
    match b.handlers with
    | .dummy => dummyLput env addr v
    | .musashi => callPut env.musashi.write32 addr v
    | .testdev => handleTestDeviceWrite (addr &&& 0xFF) v
    | .ram => ramLput b addr v
    | .custom => customLput b addr v

def putWord (v : Word) : Acc ω Unit :=
  match env.map.bankAt addr with
  | none => crash
  | some b =>
    match b.handlers with
    | .dummy => dummyWput env addr v
    | .musashi => callPut env.musashi.write16 addr v
    | .testdev => handleTestDeviceWrite (addr &&& 0xFF) (v.setWidth 32)
    | .ram => ramWput b addr v
    | .custom => customWput b addr v

def putByte (v : Byte) : Acc ω Unit :=
  match env.map.bankAt addr with
  | none => crash
  | some b =>
    match b.handlers with
    | .dummy => dummyBput env addr v
    | .musashi => callPut env.musashi.write8 addr v
    | .testdev => handleTestDeviceWrite (addr &&& 0xFF) (v.setWidth 32)
    | .ram => ramBput b addr v
    | .custom => customBput b addr v

/-- `get_real_address`: only RAM and ROM banks have one; the others give `NULL`. -/
def getRealAddress : HostPtr :=
  match env.map.bankAt addr with
  | none => 0
  | some b => if b.handlers = .ram then b.hostAddr addr else 0

end Fixed

/-! ## One access of any size -/

/-- A data access, with the value it stores. -/
inductive Access where
  | lget | wget | bget
  | lput (v : Long) | wput (v : Word) | bput (v : Byte)
  deriving DecidableEq

namespace Access

def size : Access → Nat
  | .lget | .lput _ => 4
  | .wget | .wput _ => 2
  | .bget | .bput _ => 1

def isPut : Access → Bool
  | .lget | .wget | .bget => false
  | .lput _ | .wput _ | .bput _ => true

/-- The access with its result as a long; a put gives 0. -/
def run (env : MemEnv ω) (addr : Long) : Access → Acc ω Long
  | .lget => getLong env addr
  | .wget => do pure ((← getWord env addr).setWidth 32)
  | .bget => do pure ((← getByte env addr).setWidth 32)
  | .lput v => do putLong env addr v; pure 0
  | .wput v => do putWord env addr v; pure 0
  | .bput v => do putByte env addr v; pure 0

end Access

/-! ## A host without callbacks -/

/-- Memory alone: no Musashi host, and unmapped space reads as all ones. -/
def MemEnv.bare (map : MemState (Callbacks Unit)) : MemEnv Unit where
  map := map
  musashiMode := false
  unmappedBusError := false
  musashi :=
    { read8 := fun _ _ => (0, ()), read16 := fun _ _ => (0, ()), read32 := fun _ _ => (0, ())
      write8 := fun _ _ _ => (), write16 := fun _ _ _ => (), write32 := fun _ _ _ => () }
  raiseBusError := fun _ _ _ d => (none, d)

/-- Host memory `host`, nothing touched. -/
def MemWorld.holding (host : HostPtr → Byte) : MemWorld Unit where
  host := host
  touched := []
  testDevice := { passCount := 0, failCount := 0, interruptLevel := 0 }
  pendingIrqLevel := 0
  stdout := []
  dev := ()

end UaeCpu
