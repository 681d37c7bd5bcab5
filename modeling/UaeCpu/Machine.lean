import UaeCpu.StatusReg

/-!
# UaeCpu.Machine

The whole machine state and the places where the core leaves its own code.

* `Cpu μ`   — registers, flags, requests, clock, the latches exception frames are made from,
              and the world `μ` behind the bus.
* `Port μ`  — the `x_get_*`/`x_put_*` function pointers `set_x_funcs` selects.
* `Host μ`  — configuration, port, host hooks and the opcode table `cpufunctbl`, whose entries
              are generated code.
-/

namespace UaeCpu

open Fault

/-! ## State -/

/-- The `last_*_for_exception_3` variables: the last bus or address error. -/
structure LastFault where
  addr : Long
  fault : Long
  op : Long
  writeaccess : Bool
  fc : Word
  notinstruction : Bool
  size : Int
  di : Int
  sr : Word
  deriving DecidableEq, Repr

/-- MMU fault registers and write-back latches of `regs`. -/
structure MmuLatch where
  faultAddr : Long
  effectiveAddr : Long
  ssw : Word
  fslw : Long
  wb2Address : Long
  wb3Data : Long
  wb2Status : Byte
  wb3Status : Byte
  move16 : Vector Long 4
  deriving DecidableEq

/-- The 68030 access log and restart state (`mmu030_*`). -/
structure Mmu030Log where
  idx : Nat
  idxDone : Nat
  ad : Nat → Long
  state0 : Word
  state1 : Word
  state2 : Word
  dataBufferOut : Long
  fmovemStore0 : Long
  fmovemStore1 : Long
  dispStore0 : Long
  dispStore1 : Long
  opcode : Int
  stagebAddress : Long

/-- Prefetch pipeline words and data buffers of `regs`. -/
structure Pipe where
  prefetch020 : Vector Word 4
  prefetch020Valid : Vector Bool 4
  r8 : Vector (BitVec 3) 2
  pos : BitVec 4
  stop : BitVec 4
  readBuffer : Word
  writeBuffer : Word
  deriving DecidableEq

theorem stageD_lt : 0 < 4 := by decide

theorem stageC_lt : 1 < 4 := by decide

theorem stageB_lt : 2 < 4 := by decide

/-- FPU latches of `regs` that exception frames read. -/
structure FpuLatch where
  ea : Long
  opword : Word
  unimpIns : Bool
  unimpPend : Nat
  expPre : Bool
  disabled : Bool
  deriving DecidableEq, Repr

/-- Everything an exception frame is filled from. -/
structure Latch where
  last : LastFault
  mmu : MmuLatch
  log : Mmu030Log
  pipe : Pipe
  fpu : FpuLatch
  exceptionInException : Int
  hardwareBusError : Bool

structure Cpu (μ : Type) extends Core where
  pending : Pending
  clock : Clock
  latch : Latch
  executeDepth : Nat
  currentInstrCycles : Int
  world : μ

/-! ## The boundary -/

/-- The access functions the core calls through, as `set_x_funcs` chooses them for a
configuration, and `fill_prefetch`. `getLong` is `x_get_long`, `physGetLong` plain `get_long`. -/
structure Port (μ : Type) where
  getLong : Long → FaultM (Cpu μ) Long
  getWord : Long → FaultM (Cpu μ) Word
  getIword : FaultM (Cpu μ) Word
  physGetLong : Long → FaultM (Cpu μ) Long
  putLong : Long → Long → FaultM (Cpu μ) Unit
  putWord : Long → Word → FaultM (Cpu μ) Unit
  fillPrefetch : FaultM (Cpu μ) Unit

/-- `uae_cpu_exception_info_t`. -/
structure ExceptionInfo where
  vector : Nat
  faultPc : Long
  currentPc : Long
  opcode : Word
  sr : Word
  interrupt : Bool
  deriving DecidableEq, Repr

/-- The host side: hooks may do anything a host can, nested execution included. `group1` is
`generates_group1_exception`, a lookup in the generated opcode table; `compiled` is one call of
`pushall_call_handler`, translated code until it returns to the dispatcher or faults. -/
structure Host (μ : Type) where
  prefs : Prefs
  port : Port μ
  getIrq : Option (FaultM (Cpu μ) Long)
  intAck : Option (Level → FaultM (Cpu μ) Int)
  trap : Option (Nat → FaultM (Cpu μ) Bool)
  instr : Option (Long → FaultM (Cpu μ) Unit)
  exception : Option (ExceptionInfo → FaultM (Cpu μ) Unit)
  group1 : Word → Cpu μ → Bool
  cpufunctbl : Word → FaultM (Cpu μ) Long
  compiled : FaultM (Cpu μ) Unit

/-! ## State access -/

section Access

variable {μ : Type}

def Cpu.mapRegs (f : Regs → Regs) (c : Cpu μ) : Cpu μ := { c with regs := f c.regs }

def Cpu.mapSpc (f : SpcFlags → SpcFlags) (c : Cpu μ) : Cpu μ :=
  { c with regs := { c.regs with spc := f c.regs.spc } }

def Cpu.mapLatch (f : Latch → Latch) (c : Cpu μ) : Cpu μ := { c with latch := f c.latch }

/-- `MakeSR`. -/
def Cpu.makeSR (c : Cpu μ) : Cpu μ := { c with toCore := UaeCpu.makeSR c.toCore }

/-- `regs.sr = v` and one of the `MakeFromSR` wrappers. -/
def Cpu.writeSR (p : Prefs) (k : SrWrite) (v : Word) (c : Cpu μ) : Cpu μ :=
  { c with toCore := UaeCpu.writeSR p k v c.toCore }

end Access

end UaeCpu
