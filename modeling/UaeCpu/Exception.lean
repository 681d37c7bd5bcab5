import UaeCpu.Frame

/-!
# UaeCpu.Exception

Exception processing: `ExceptionX` and the four engines it selects from, `Exception_normal`,
`Exception_mmu030`, `Exception_mmu` and the cycle-exact `Exception_ce000`.

An engine that meets an odd stack pointer, an odd vector or a bus error on its way raises an
address or bus error of its own, through the `nested` argument. Vectors 2 and 3 never do: for
them every such path ends in `cpu_halt`, so `exceptionX` ties the knot after one level.
-/

namespace UaeCpu

open Fault FaultM

variable {μ : Type}

/-! ## Interrupt level -/

/-- The highest level whose bit is set in `pendingInterrupts`, or 0. -/
def virqLevel (virq : Byte) : Level :=
  if virq.getLsbD 7 then 7
  else if virq.getLsbD 6 then 6
  else if virq.getLsbD 5 then 5
  else if virq.getLsbD 4 then 4
  else if virq.getLsbD 3 then 3
  else if virq.getLsbD 2 then 2
  else if virq.getLsbD 1 then 1
  else 0

/-- The level of the pushed requests: `pending_irq_level` wins over virtual lines. -/
def Pending.level (q : Pending) : Level :=
  if 0 < q.irqLevel then q.irqLevel else virqLevel q.virq

/-- `intlev`: a host that installed `get_irq` owns the level. -/
def intlev (h : Host μ) : FaultM (Cpu μ) Level :=
  match h.getIrq with
  | some hook => do return (← hook).setWidth 3
  | none => reads (·.pending.level)

/-- `ipl_fetch_now`. -/
def iplFetchNow (r : Regs) : Regs := { r with ipl := { r.ipl with ipl0 := r.ipl.pin, ipl1 := 0 } }

/-- `cpucycleunit`, with no clock multiplier configured. -/
def cpuCycleUnit : Int := 256

/-- `ipl_fetch_next`: a level that changed too late is left for the next instruction. -/
def iplFetchNext (now : Int) (r : Regs) : Regs :=
  if 4 * cpuCycleUnit ≤ now - r.ipl.changeEvt then
    { r with ipl := { r.ipl with ipl0 := r.ipl.pin, ipl1 := 0 } }
  else if 2 * cpuCycleUnit ≤ now - r.ipl.changeEvtP then
    { r with ipl := { r.ipl with ipl0 := r.ipl.pinP, ipl1 := 0 } }
  else { r with ipl := { r.ipl with ipl1 := r.ipl.pin } }

/-- `iack_cycle`: the host may supply the vector of an interrupt. -/
def iackCycle (h : Host μ) (nr : Nat) : FaultM (Cpu μ) Nat :=
  match h.intAck with
  | some hook => do
    let v ← hook (BitVec.ofNat 3 (nr - 24))
    return if 0 ≤ v then v.toNat else nr
  | none => pure nr

/-! ## Helpers of the engines -/

/-- `cpu_halt`. In this build it is `Dialog_HaltDlg()`, a macro with an empty body. -/
def cpuHalt : FaultM (Cpu μ) Unit := pure ()

def isInterrupt (nr : Nat) : Bool := decide (24 ≤ nr ∧ nr < 32)

def internalException (nr : Nat) : Bool :=
  decide (nr = 5 ∨ nr = 6 ∨ nr = 7 ∨ (32 ≤ nr ∧ nr ≤ 47))

/-- `exception_check_trace`. -/
def exceptionCheckTrace (p : Prefs) (nr : Nat) (r : Regs) : Regs :=
  { r with
    spc := { r.spc with
      trace := false
      doTrace := r.t1 && (decide (p.cpuModel.num < 68040) && internalException nr ||
        decide (nr = 14 ∧ p.cpuModel = .m68010)) }
    t1 := false
    t0 := false }

/-- `exception_pc`. -/
def exceptionPc (nr : Nat) (r : Regs) : Long :=
  if nr = 2 ∨ nr = 3 ∨ nr = 4 ∨ nr = 8 ∨ nr = 10 ∨ nr = 11 then r.instructionPc else r.pc

/-- The switch to supervisor mode on entry; from the 68060 on there is no master stack to
switch to. -/
def enterSupervisor (p : Prefs) (r : Regs) : Regs :=
  if r.s then r
  else
    let a7 :=
      if 68020 ≤ p.cpuModel.num ∧ p.cpuModel.num < 68060 then
        if r.m then r.sp.msp else r.sp.isp
      else r.sp.isp
    { r with sp := { r.sp with usp := r.sp.a7, a7 := a7 }, s := true }

/-- With the JIT on, an exception ends the block being compiled. -/
def endCompile (p : Prefs) (r : Regs) : Regs :=
  if p.cachesize ≠ 0 then { r with spc := { r.spc with endCompile := true } } else r

/-- The vector offset as a guest address: `regs.vbr + 4 * vector_nr`. -/
def vectorAddr (r : Regs) (vectorNr : Nat) : Long := r.vbr + BitVec.ofNat 32 (4 * vectorNr)

/-- `exception3f`: records an address error and raises it. `pc` and `fc` are `none` where the
source passes -1. -/
def exception3f (h : Host μ) (nested : Nat → FaultM (Cpu μ) Unit) (op addr : Long)
    (writeaccess instructionaccess notinstruction : Bool) (pc : Option Long) (size : Int)
    (fc : Option Word) (secondarysr : Word) : FaultM (Cpu μ) Unit := do
  update fun c => c.mapLatch fun l => { l with last := { l.last with
    addr := pc.getD
      (if 68020 ≤ h.prefs.cpuModel.num then c.regs.instructionPc else c.regs.pc)
    fault := if 68040 ≤ h.prefs.cpuModel.num then addr &&& ~~~1 else addr
    op := op
    writeaccess := writeaccess
    fc := fc.getD (if instructionaccess then 2 else 1)
    notinstruction := notinstruction
    size := size
    sr := secondarysr } }
  nested 3

def setLastDi (di : Int) : FaultM (Cpu μ) Unit :=
  update fun c => c.mapLatch fun l => { l with last := { l.last with di := di } }

/-- `exception3_notinstruction`. -/
def exception3Notinstruction (h : Host μ) (nested : Nat → FaultM (Cpu μ) Unit) (op addr : Long) :
    FaultM (Cpu μ) Unit := do
  setLastDi 1
  exception3f h nested op addr true false true none 1 none 0

/-- `exception3_read_special`. -/
def exception3ReadSpecial (h : Host μ) (nested : Nat → FaultM (Cpu μ) Unit) (op addr : Long)
    (size : Int) (fc : Word) : FaultM (Cpu μ) Unit :=
  exception3f h nested op addr false false false none size (some fc) 0

/-- `exception3_read_access`, always of a word here. -/
def exception3ReadAccess (h : Host μ) (nested : Nat → FaultM (Cpu μ) Unit) (op addr : Long)
    (fc : Word) : FaultM (Cpu μ) Unit := do
  update fun c => c.xDoCycles h.prefs (4 * cpuCycleUnit)
  let c ← reads id
  let m68000 := h.prefs.cpuModel = .m68000 ∧ h.prefs.cpuCompatible
  let g1 := m68000 ∧ h.group1 c.regs.ir c ∧ op &&& 0x20000 = 0
  setLastDi 1
  exception3f h nested (if m68000 then c.regs.ir.setWidth 32 else op) addr false
    (decide (m68000 ∧ op &&& 0x40000 ≠ 0)) (decide (g1 ∨ (m68000 ∧ op &&& 0x10000 ≠ 0)))
    none 1 (if g1 then none else some fc) 0

/-- `exception3_read_prefetch` and its 68040 variant, which also records a second status
register. -/
def exception3ReadPrefetch (h : Host μ) (nested : Nat → FaultM (Cpu μ) Unit) (op addr : Long)
    (secondarysr : Word) : FaultM (Cpu μ) Unit := do
  update fun c => c.xDoCycles h.prefs (4 * cpuCycleUnit)
  setLastDi 0
  if h.prefs.cpuModel = .m68000 then update fun c => c.mapRegs fun r => { r with pc := r.pc + 2 }
  let pc ← reads (·.regs.pc)
  exception3f h nested op addr false true false (some pc) 1 none secondarysr

/-- `exception2_fetch` and `exception2_fetch_opcode`: a bus error of the prefetch at `PC + offset`. Bits
16 and 17 of `op` are flags of the handler. -/
def exception2Fetch (h : Host μ) (nested : Nat → FaultM (Cpu μ) Unit) (op : Long)
    (offset pcoffset : Long) : FaultM (Cpu μ) Unit := do
  update fun c => c.mapLatch fun l => { l with
    last := { l.last with
      fault := c.regs.pc + offset, addr := c.regs.pc + offset + pcoffset, writeaccess := false, op := op
      fc := if h.prefs.cpuModel = .m68000 ∧ h.prefs.cpuCompatible ∧
            (h.group1 c.regs.ir c ∧ op &&& 0x20000 = 0 ∨ op &&& 0x10000 ≠ 0) then 10
        else 2
      notinstruction := decide (l.exceptionInException ≠ 0), size := 1, di := 0 }
    hardwareBusError := false }
  nested 2

/-! ## `Exception_normal` -/

/-- `add_approximate_exception_cycles`: only the 68000 and 68010 have a table. -/
def approximateExceptionCycles (m : Model) (nr : Nat) : Option Int :=
  match m with
  | .m68000 =>
    some (if 24 ≤ nr ∧ nr ≤ 31 then 44
      else if 32 ≤ nr ∧ nr ≤ 47 then 34
      else match nr with
        | 2 => 58
        | 3 => 54
        | 7 => 30
        | 4 | 5 | 6 | 8 | 9 | 10 | 11 => 34
        | _ => 4)
  | .m68010 =>
    some (if 24 ≤ nr ∧ nr ≤ 31 then 48
      else if 32 ≤ nr ∧ nr ≤ 47 then 38
      else match nr with
        | 2 => 140
        | 3 => 136
        | 7 => 40
        | 4 | 5 | 6 | 8 | 9 | 10 | 11 | 14 => 38
        | _ => 4)
  | _ => none

def addApproximateExceptionCycles (h : Host μ) (nr : Nat) : FaultM (Cpu μ) Unit :=
  match approximateExceptionCycles h.prefs.cpuModel nr with
  | some cycles => do
    update fun c => c.doCycles cycles
    update fun c => c.xDoCycles h.prefs (cycles * cycleUnit / 2)
  | none => pure ()

/-- The special status word of a 68010 bus or address error. -/
def ssw010 (sv : Bool) (f : LastFault) : Word :=
  let ssw : Word := (if sv then 4 else 0) ||| f.fc |||
    (if 0 < f.di then 0 else if f.di < 0 then 0x3000 else 0x2000) |||
    (if !f.writeaccess ∧ f.di ≠ 0 then 0x1000 else 0) |||
    (if f.op &&& 0x10000 ≠ 0 then 0x0400 else 0) |||
    (if f.size = 0 then 0x0200 else 0) ||| (if f.writeaccess then 0 else 0x0100)
  if f.op &&& 0x20000 ≠ 0 then ssw &&& 0x00FF else ssw

/-- The mode word of a 68000 bus or address error, the opcode in its undocumented bits. -/
def mode000 (sv : Bool) (f : LastFault) : Word :=
  (if sv then 4 else 0) ||| f.fc ||| (if f.writeaccess then 0 else 16) |||
    (if f.notinstruction then 8 else 0) ||| (f.op.setWidth 16 &&& ~~~31)

def setExceptionInException (v : Int) : FaultM (Cpu μ) Unit :=
  update fun c => c.mapLatch fun l => { l with exceptionInException := v }

/-- `Exception_build_68000_address_error_stack_frame`. -/
def exceptionBuild68000AddressErrorStackFrame (h : Host μ) (mode : Word) (f : LastFault) :
    FaultM (Cpu μ) Unit := do
  update fun c => c.setA7 (c.regs.sp.a7 - 14)
  let c ← reads id
  let a7 := c.regs.sp.a7
  h.port.putWord a7 mode
  h.port.putLong (a7 + 2) f.fault
  h.port.putWord (a7 + 6) (f.op.setWidth 16)
  h.port.putWord (a7 + 8) c.regs.sr
  h.port.putLong (a7 + 10) f.addr

/-- The bus error frame of a 68040 or 68060 without MMU. -/
def frame040NoMmu (sv : Bool) (vectorNr : Nat) (c : Cpu μ) : List Push :=
  List.replicate 18 (.word 0) ++
    [.long c.latch.last.fault, .word 0, .word 0, .word 0, .word (0x0140 ||| if sv then 6 else 2),
      .long c.latch.last.addr, .word (0x7000 + BitVec.ofNat 16 (vectorNr * 4)),
      .long c.regs.instructionPc, .word c.regs.sr]

/-- The frame of an interrupt taken on the master stack: a four word frame there, then the
throwaway frame, begun here and finished by the caller, on the interrupt stack. -/
def masterInterruptFrame (h : Host μ) (currpc : Long) (vectorNr : Nat) : FaultM (Cpu μ) Unit := do
  pushWord h (BitVec.ofNat 16 (vectorNr * 4))
  if h.prefs.cpuModel.num < 68060 then
    pushLong h currpc
    let sr ← reads (·.regs.sr)
    pushWord h sr
    update fun c => c.mapRegs fun r =>
      { r with
        sr := r.sr ||| 0x2000, m := false, sp := { r.sp with msp := r.sp.a7, a7 := r.sp.isp } }
    pushWord h (0x1000 + BitVec.ofNat 16 (vectorNr * 4))

/-- What `Exception_normal` stacks. `none` means the `kludge_me_do` label was jumped to, else
the frame still lacks its program counter and status register or is complete. -/
def normalFrame (h : Host μ) (nr vectorNr : Nat) (currpc : Long) (sv : Bool) :
    FaultM (Cpu μ) (Option Bool) := do
  let c ← reads id
  let last := c.latch.last
  let m := h.prefs.cpuModel
  if m = .m68000 then
    if nr = 2 ∨ nr = 3 then
      setExceptionInException (-1)
      exceptionBuild68000AddressErrorStackFrame h (mode000 sv last) last
      return none
    else return some false
  else if nr = 2 ∨ nr = 3 then
    if 68040 ≤ m.num then
      if nr = 2 then
        pushAll h (frame040NoMmu sv vectorNr c)
        return none
      else
        exceptionBuildStackFrame h last.fault currpc 0 vectorNr .sixWord
        return some true
    else if 68020 ≤ m.num then
      -- an odd program counter on the 68020 and 68030 gives a format B frame
      let ssw : Word := (if sv then 4 else 0) ||| last.fc ||| 0x0040 ||| 0x0020
      update fun c => c.mapLatch fun l => { l with
        mmu := { l.mmu with faultAddr := last.fault }
        log := { l.log with state0 := 0, state1 := 0, dataBufferOut := 0 } }
      exceptionBuildStackFrame h last.fault currpc (ssw.setWidth 32) vectorNr .longBus
      return some true
    else
      update fun c => c.mapLatch fun l => { l with mmu := { l.mmu with faultAddr := last.fault } }
      exceptionBuildStackFrame h c.regs.instructionPc currpc ((ssw010 sv last).setWidth 32)
        vectorNr .fault010
      return some true
  else if c.regs.m ∧ isInterrupt nr then
    masterInterruptFrame h currpc vectorNr
    return some false
  else
    exceptionBuildStackFrameCommon h c.regs.instructionPc currpc nr vectorNr
    return some true

/-- The end of an exception whose vector is odd: vectors 2 and 3 halt, the others raise an
address error. -/
def oddVector (h : Host μ) (nested : Nat → FaultM (Cpu μ) Unit) (nr vectorNr : Nat) (g1 : Bool)
    (newpc : Long) : FaultM (Cpu μ) Unit := do
  let ir ← reads fun c => c.regs.ir.setWidth 32
  match h.prefs.cpuModel with
  | .m68000 =>
    update fun c => (c.mapRegs fun r => { r with t1 := false }).makeSR
    update fun c => c.mapRegs fun r => r.setpc (vectorAddr r vectorNr)
    if isInterrupt nr then
      update fun c => c.mapRegs fun r => { r with ir := BitVec.ofNat 16 nr }
      exception3ReadAccess h nested (BitVec.ofNat 32 nr ||| 0x20000 ||| 0x10000) newpc 2
    else
      exception3ReadAccess h nested
        (ir ||| 0x40000 ||| 0x20000 ||| if g1 then 0x10000 else 0) newpc 2
  | .m68010 =>
    update fun c => (c.mapRegs fun r => { r with t1 := false }).makeSR
    update fun c => c.mapLatch fun l => { l with pipe := { l.pipe with
      writeBuffer := BitVec.ofNat 16 (4 * vectorNr), readBuffer := newpc.setWidth 16 } }
    update fun c => c.mapRegs fun r => { r with irc := newpc.setWidth 16 }
    let op ← reads fun c => if h.prefs.cpuCycleExact then c.regs.opcode else c.regs.ir
    exception3ReadAccess h nested (op.setWidth 32) newpc 2
  | _ =>
    update fun c => c.mapRegs (exceptionCheckTrace h.prefs nr)
    exception3Notinstruction h nested ir newpc

/-- What `Exception_normal` stacks after `normalFrame`, up to the `kludge_me_do` label. -/
def finishFrame (h : Host μ) (nr : Nat) (nextpc : Long) : Option Bool → FaultM (Cpu μ) Unit
  | none => pure ()
  | some used => do
    if !used then
      pushLong h nextpc
      let sr ← reads (·.regs.sr)
      pushWord h sr
    if h.prefs.cpuModel = .m68060 ∧ isInterrupt nr then
      update fun c => c.mapRegs fun r => { r with m := false }
    let c ← reads id
    if h.prefs.cpuModel = .m68040 ∧ nr = 3 ∧ c.latch.last.op &&& 0x10000 ≠ 0 then
      h.port.putWord c.regs.sp.a7 c.latch.last.sr

/-- From the `kludge_me_do` label on: mask, vector fetch and jump. -/
def normalVector (h : Host μ) (nested : Nat → FaultM (Cpu μ) Unit) (nr vectorNr : Nat)
    (g1 : Bool) : FaultM (Cpu μ) Unit := do
  let c ← reads id
  if c.regs.vbr.getLsbD 0 ∧ h.prefs.cpuModel.num ≤ 68010 then cpuHalt
  else
    if isInterrupt nr then
      update fun c => c.mapRegs fun r => { r with intmask := BitVec.ofNat 3 (nr - 24) }
    let newpc ← h.port.getLong (vectorAddr c.regs vectorNr)
    setExceptionInException 0
    if newpc.getLsbD 0 then
      if nr = 2 ∨ nr = 3 then cpuHalt
      else
        update fun c => c.xDoCycles h.prefs (6 * 4 * cycleUnit / 2)
        oddVector h nested nr vectorNr g1 newpc
    else
      addApproximateExceptionCycles h nr
      update fun c => c.mapRegs fun r => endCompile h.prefs (r.setpc newpc)
      let ipl ← intlev h
      update fun c => c.mapRegs fun r => iplFetchNow { r with ipl := { r.ipl with pin := ipl } }
      h.port.fillPrefetch
      update fun c => c.mapRegs (exceptionCheckTrace h.prefs nr)

/-- `Exception_normal`. -/
def exceptionNormal (h : Host μ) (nested : Nat → FaultM (Cpu μ) Unit) (nr : Nat) :
    FaultM (Cpu μ) Unit := do
  let c ← reads id
  let currpc := c.regs.pc
  let g1 := h.group1 c.regs.ir c
  let vectorNr ← if isInterrupt nr then iackCycle h nr else pure nr
  update fun c => c.makeSR
  update fun c => c.mapRegs (enterSupervisor h.prefs)
  let c' ← reads id
  if c'.regs.sp.a7.getLsbD 0 ∧ h.prefs.cpuModel.num < 68020 then
    if nr = 2 ∨ nr = 3 then cpuHalt
    else exception3Notinstruction h nested (c'.regs.ir.setWidth 32) c'.regs.sp.a7
  else if (nr = 2 ∨ nr = 3) ∧ c'.latch.exceptionInException < 0 then cpuHalt
  else
    let nextpc := if h.prefs.cpuModel = .m68000 then c'.regs.pc else exceptionPc nr c'.regs
    let frame ← normalFrame h nr vectorNr currpc c.regs.s
    finishFrame h nr nextpc frame
    normalVector h nested nr vectorNr g1

/-! ## The MMU engines -/

/-- `Exception_mmu030`. -/
def exceptionMmu030 (h : Host μ) (nested : Nat → FaultM (Cpu μ) Unit) (nr : Nat) (oldpc : Long) :
    FaultM (Cpu μ) Unit := do
  let currpc ← reads (·.regs.pc)
  let vectorNr ← if isInterrupt nr then iackCycle h nr else pure nr
  update fun c => c.makeSR
  update fun c => c.mapRegs fun r =>
    if r.s then r
    else { r with
      sp := { r.sp with usp := r.sp.a7, a7 := if r.m then r.sp.msp else r.sp.isp }, s := true }
  let c ← reads id
  let ssw : Long := c.latch.mmu.ssw.setWidth 32
  let newpc ← h.port.getLong (vectorAddr c.regs vectorNr)
  if c.regs.m ∧ isInterrupt nr then
    exceptionBuildStackFrame h oldpc currpc ssw vectorNr .fourWord
    update fun c => c.makeSR
    update fun c => c.mapRegs fun r =>
      { r with m := false, sp := { r.sp with msp := r.sp.a7, a7 := r.sp.isp } }
    exceptionBuildStackFrame h oldpc currpc ssw vectorNr .throwaway
  else if nr = 2 then
    exceptionBuildStackFrame h oldpc currpc ssw vectorNr
      (if c.latch.log.state1 &&& 0x0100 ≠ 0 then .shortBus else .longBus)
  else if nr = 3 then
    update fun c => c.mapLatch fun l => { l with
      mmu := { l.mmu with faultAddr := l.last.fault }
      log := { l.log with state0 := 0, state1 := 0, dataBufferOut := 0 } }
    exceptionBuildStackFrame h c.latch.last.fault currpc (0x0040 ||| 0x0020 ||| 6) vectorNr
      .longBus
  else exceptionBuildStackFrameCommon h oldpc currpc nr vectorNr
  if newpc.getLsbD 0 then
    if nr = 2 ∨ nr = 3 then cpuHalt
    else exception3ReadSpecial h nested (c.regs.ir.setWidth 32) newpc 1 1
  else
    if isInterrupt nr then
      update fun c => c.mapRegs fun r => { r with intmask := BitVec.ofNat 3 (nr - 24) }
    update fun c => c.mapRegs fun r => r.setpc newpc
    h.port.fillPrefetch
    update fun c => c.mapRegs (exceptionCheckTrace h.prefs nr)

/-- `Exception_mmu`, for the 68040 and 68060. -/
def exceptionMmu (h : Host μ) (nested : Nat → FaultM (Cpu μ) Unit) (nr : Nat) (oldpc : Long) :
    FaultM (Cpu μ) Unit := do
  let currpc ← reads (·.regs.pc)
  let vectorNr ← if isInterrupt nr then iackCycle h nr else pure nr
  update fun c => c.makeSR
  update fun c => c.mapRegs (enterSupervisor h.prefs)
  let c ← reads id
  let ssw : Long := c.latch.mmu.ssw.setWidth 32
  let newpc ← h.port.getLong (vectorAddr c.regs vectorNr)
  if nr = 2 then
    if h.prefs.cpuModel = .m68040 then
      exceptionBuildStackFrame h oldpc currpc ssw vectorNr .access040
    else exceptionBuildStackFrame h c.latch.mmu.faultAddr currpc c.latch.mmu.fslw vectorNr .fpUnimp
  else if nr = 3 then
    exceptionBuildStackFrame h c.latch.last.fault currpc 0 vectorNr .sixWord
    -- the argument of a `write_log` call
    let _ ← h.port.physGetLong (vectorAddr c.regs vectorNr)
  else if c.regs.m ∧ isInterrupt nr then
    exceptionBuildStackFrame h oldpc currpc ssw vectorNr .fourWord
    update fun c => c.makeSR
    update fun c => c.mapRegs fun r => { r with m := false }
    if h.prefs.cpuModel.num < 68060 then
      update fun c => c.mapRegs fun r => { r with sp := { r.sp with msp := r.sp.a7 } }
      exceptionBuildStackFrame h oldpc currpc ssw vectorNr .throwaway
  else exceptionBuildStackFrameCommon h oldpc currpc nr vectorNr
  if newpc.getLsbD 0 then
    if nr = 2 ∨ nr = 3 then cpuHalt
    else exception3ReadSpecial h nested (c.regs.ir.setWidth 32) newpc 2 1
  else
    update fun c => c.mapRegs fun r => r.setpc newpc
    if isInterrupt nr then
      update fun c => c.mapRegs fun r => { r with intmask := BitVec.ofNat 3 (nr - 24) }
    h.port.fillPrefetch
    update fun c => c.mapRegs (exceptionCheckTrace h.prefs nr)

/-! ## `Exception_ce000` -/

/-- The idle cycles before the first access. -/
def ce000Start (m : Model) (nr : Nat) : Int :=
  if isInterrupt nr then 6
  else if nr = 7 then 0
  else if nr = 3 then if m = .m68000 then 8 else 4
  else if nr = 2 then if m = .m68000 then 12 else 8
  else 4

/-- Writes words at the given offsets from `A7`, in order. -/
def putWordsAt (h : Host μ) (a7 : Long) : List (Nat × Word) → FaultM (Cpu μ) Unit
  | [] => pure ()
  | (off, v) :: ws => do
    h.port.putWord (a7 + BitVec.ofNat 32 off) v
    putWordsAt h a7 ws

/-- The words of a cycle-exact 68000 bus or address error frame, in bus order. -/
def ce000Fault (mode : Word) (sr : Word) (f : LastFault) : List (Nat × Word) :=
  [(12, f.addr.setWidth 16), (8, sr), (10, f.addr.extractLsb' 16 16), (6, f.op.setWidth 16),
    (4, f.fault.setWidth 16), (0, mode), (2, f.fault.extractLsb' 16 16)]

/-- The words of a cycle-exact 68010 bus or address error frame above its common part. -/
def ce010Fault (ssw : Word) (c : Cpu μ) : List (Nat × Word) :=
  (List.range 15).map (fun i => (20 + i * 2, BitVec.ofNat 16 (((i + 1) * 256) ||| (i + 2)))) ++
    [(18, 0), (16, c.regs.irc), (12, c.latch.pipe.readBuffer), (8, c.latch.pipe.writeBuffer),
      (4, c.latch.last.fault.setWidth 16), (2, c.latch.last.fault.extractLsb' 16 16), (0, ssw)]

/-- The three word frame of the 68000 or the four word frame of the 68010, with the interrupt
acknowledge cycle in its place. Returns the vector number, or `none` when the stack was odd. -/
def ce000Frame (h : Host μ) (nested : Nat → FaultM (Cpu μ) Unit) (nr frameId : Nat)
    (currpc : Long) : FaultM (Cpu μ) (Option Nat) := do
  let size : Long := if h.prefs.cpuModel = .m68010 then 8 else 6
  update fun c => c.setA7 (c.regs.sp.a7 - size)
  let c ← reads id
  let a7 := c.regs.sp.a7
  if a7.getLsbD 0 then
    exception3Notinstruction h nested (c.regs.ir.setWidth 32) (a7 + 4)
    return none
  else
    setExceptionInException 1
    h.port.putWord (a7 + 4) (currpc.setWidth 16)
    let vectorNr ← if isInterrupt nr then iackCycle h nr else pure nr
    h.port.putWord a7 c.regs.sr
    h.port.putWord (a7 + 2) (currpc.extractLsb' 16 16)
    if h.prefs.cpuModel = .m68010 then
      h.port.putWord (a7 + 6) (BitVec.ofNat 16 (frameId * 4096) ||| BitVec.ofNat 16 (vectorNr * 4))
    return some vectorNr

/-- `M68000_AddCycles_CE(currcycle * 2 / CYCLE_UNIT); currcycle = 0;`, written for a host that
keeps its time elsewhere. -/
def ce000ResetClock (c : Cpu μ) : Cpu μ :=
  let c := c.doCycles ((c.clock.currcycle * 2).tdiv cycleUnit)
  { c with clock := { c.clock with currcycle := 0 } }

/-- The two prefetches that end a cycle-exact exception. -/
def ce000Prefetch (h : Host μ) (nested : Nat → FaultM (Cpu μ) Unit) (nr : Nat) :
    FaultM (Cpu μ) Unit := do
  let pc ← reads (·.regs.pc)
  let ir ← h.port.getWord pc
  update fun c => c.mapRegs fun r => { r with ir := ir }
  let c ← reads id
  if c.latch.hardwareBusError then
    if nr = 2 ∨ nr = 3 then cpuHalt else exception2Fetch h nested (c.regs.irc.setWidth 32) 0 0
  else
    update fun c => c.mapRegs fun r => { r with ird := r.ir }
    update fun c => c.xDoCycles h.prefs (2 * cpuCycleUnit)
    update fun c => c.xDoCycles h.prefs (2 * cpuCycleUnit)
    update ce000ResetClock
    if h.prefs.accurateIpl then
      update fun c => c.mapRegs (iplFetchNext c.clock.currcycle)
    let irc ← h.port.getWord (pc + 2)
    update fun c => c.mapRegs fun r => { r with irc := irc }
    let c ← reads id
    if c.latch.hardwareBusError then
      if nr = 2 ∨ nr = 3 then cpuHalt else exception2Fetch h nested (c.regs.ir.setWidth 32) 0 2
    else
      update fun c => c.mapRegs fun r => exceptionCheckTrace h.prefs nr (endCompile h.prefs r)
      update ce000ResetClock

/-- From the `kludge_me_do` label of `Exception_ce000` on. -/
def ce000Vector (h : Host μ) (nested : Nat → FaultM (Cpu μ) Unit) (nr vectorNr : Nat) (g1 : Bool) :
    FaultM (Cpu μ) Unit := do
  let c ← reads id
  if c.regs.vbr.getLsbD 0 then cpuHalt
  else
    if isInterrupt nr then
      update fun c => c.mapRegs fun r => { r with intmask := BitVec.ofNat 3 (nr - 24) }
    let hi ← h.port.getWord (vectorAddr c.regs vectorNr)
    let lo ← h.port.getWord (vectorAddr c.regs vectorNr + 2)
    let newpc : Long := hi ++ lo
    setExceptionInException 0
    if newpc.getLsbD 0 then
      if nr = 2 ∨ nr = 3 then cpuHalt else oddVector h nested nr vectorNr g1 newpc
    else
      update fun c => c.mapRegs fun r => r.setpc newpc
      ce000Prefetch h nested nr

/-- `Exception_ce000`, for the cycle-exact 68000 and 68010. -/
def exceptionCe000 (h : Host μ) (nested : Nat → FaultM (Cpu μ) Unit) (nr : Nat) :
    FaultM (Cpu μ) Unit := do
  let c ← reads id
  let currpc := c.regs.pc
  let m := h.prefs.cpuModel
  update fun c => c.xDoCycles h.prefs (ce000Start m nr * cpuCycleUnit)
  update fun c => c.makeSR
  let g1 ← reads fun c => h.group1 c.regs.ir c
  update fun c => c.mapRegs fun r =>
    if r.s then r else { r with sp := { r.sp with usp := r.sp.a7, a7 := r.sp.isp }, s := true }
  let c' ← reads id
  let last := c'.latch.last
  if nr = 2 ∨ nr = 3 then
    if c'.regs.sp.a7.getLsbD 0 ∨ c'.latch.exceptionInException < 0 then cpuHalt
    else if m = .m68000 then
      update fun c => c.setA7 (c.regs.sp.a7 - 14)
      setExceptionInException (-1)
      putWordsAt h (c'.regs.sp.a7 - 14) (ce000Fault (mode000 c.regs.s last) c'.regs.sr last)
      ce000Vector h nested nr nr g1
    else
      update fun c => c.setA7 (c.regs.sp.a7 - 50)
      setExceptionInException (-1)
      putWordsAt h (c'.regs.sp.a7 - 50) (ce010Fault (ssw010 c.regs.s last) c')
      match ← ce000Frame h nested nr 8 currpc with
      | some vectorNr => ce000Vector h nested nr vectorNr g1
      | none => pure ()
  else
    match ← ce000Frame h nested nr 0 currpc with
    | some vectorNr => ce000Vector h nested nr vectorNr g1
    | none => pure ()

/-! ## `ExceptionX` -/

/-- `m68k_resumestopped`: the program counter stayed on the STOP or LPSTOP while stopped. -/
def resumeStopped (r : Regs) : Regs :=
  match r.stopped with
  | .no => r
  | .stop => { r with pc := r.pc + 4, stopped := .no }
  | .lpstop => { r with pc := r.pc + 6, stopped := .no }

/-- `uae_host_note_exception`. -/
def noteException (h : Host μ) (nr : Nat) (faultPc : Long) : FaultM (Cpu μ) Unit :=
  match h.exception with
  | some hook => do
    update fun c => c.makeSR
    let c ← reads id
    hook { vector := nr, faultPc := faultPc, currentPc := c.regs.pc, opcode := c.regs.opcode
           sr := c.regs.sr, interrupt := isInterrupt nr }
  | none => pure ()

/-- The engine for the configuration. -/
def exceptionEngine (h : Host μ) (nested : Nat → FaultM (Cpu μ) Unit) (nr : Nat) :
    FaultM (Cpu μ) Unit := do
  if h.prefs.cpuCycleExact ∧ h.prefs.cpuModel.num ≤ 68010 then exceptionCe000 h nested nr
  else if h.prefs.mmuModel then
    let pc ← reads (·.regs.pc)
    if h.prefs.cpuModel = .m68030 then exceptionMmu030 h nested nr pc
    else exceptionMmu h nested nr pc
  else exceptionNormal h nested nr

/-- `ExceptionX` past the trap hook. `oldpc` is `none` for `0xffffffff`. -/
def exceptionXBody (h : Host μ) (nested : Nat → FaultM (Cpu μ) Unit) (nr : Nat)
    (oldpc : Option Long) : FaultM (Cpu μ) Unit := do
  let c ← reads id
  noteException h nr (if isInterrupt nr then c.regs.pc else oldpc.getD c.regs.instructionPc)
  update fun c' => c'.mapRegs fun r => { r with
    exception := nr, loopMode := 0,
    instructionPcUserException := if r.s then r.instructionPcUserException else c.regs.pc
    instructionPc := oldpc.getD r.instructionPc }
  update fun c => c.mapRegs resumeStopped
  exceptionEngine h nested nr
  update fun c => c.mapRegs fun r => { r with exception := 0 }

/-- `ExceptionX`: a trap the host services itself builds no frame. -/
def exceptionXWith (h : Host μ) (nested : Nat → FaultM (Cpu μ) Unit) (nr : Nat)
    (oldpc : Option Long) : FaultM (Cpu μ) Unit := do
  match h.trap with
  | some hook =>
    if 32 ≤ nr ∧ nr < 48 then
      if ← hook (nr - 32) then h.port.fillPrefetch
      else exceptionXBody h nested nr oldpc
    else exceptionXBody h nested nr oldpc
  | none => exceptionXBody h nested nr oldpc

/-- `ExceptionX`, with the nested bus or address error an engine may raise. -/
def exceptionX (h : Host μ) (nr : Nat) (oldpc : Option Long) : FaultM (Cpu μ) Unit :=
  exceptionXWith h (fun nr => exceptionXWith h (fun _ => pure ()) nr none) nr oldpc

/-- `Exception`. -/
def exception (h : Host μ) (nr : Nat) : FaultM (Cpu μ) Unit := exceptionX h nr none

/-- `Exception_cpu`: an exception raised by an instruction, which may also trace under `T0`. -/
def exceptionCpu (h : Host μ) (nr : Nat) : FaultM (Cpu μ) Unit := do
  let r ← reads (·.regs)
  exceptionX h nr none
  if nr ≠ 14 ∧ ¬ (68040 ≤ h.prefs.cpuModel.num ∧ internalException nr) ∧
      68020 ≤ h.prefs.cpuModel.num ∧ r.t0 ∧ !r.t1 then
    update fun c => c.mapSpc activateTrace

/-- `bus_error`, and `uae_host_bus_error_caught`: a fault while the frame is built goes to
`cpu_halt`. -/
def busError (h : Host μ) : FaultM (Cpu μ) Unit :=
  tryCatch (exception h 2) fun _ => cpuHalt

end UaeCpu
