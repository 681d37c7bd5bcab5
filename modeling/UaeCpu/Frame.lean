import UaeCpu.Clock

/-!
# UaeCpu.Frame

Exception stack frames, as `Exception_build_stack_frame` and its relatives push them. A frame
body is first laid out as a list of pushes, filled from the registers and latches at the time
the frame is begun, and then pushed item by item: any item may fault and leave `A7` half way.
-/

namespace UaeCpu

open Fault FaultM

variable {μ : Type}

/-! ## Pushes -/

def Cpu.setA7 (v : Long) (c : Cpu μ) : Cpu μ :=
  { c with regs := { c.regs with sp := { c.regs.sp with a7 := v } } }

/-- `m68k_areg(regs, 7) -= 2; x_put_word(m68k_areg(regs, 7), v);`. -/
def pushWord (h : Host μ) (v : Word) : FaultM (Cpu μ) Unit := do
  update fun c => c.setA7 (c.regs.sp.a7 - 2)
  let a ← reads (·.regs.sp.a7)
  h.port.putWord a v

/-- `m68k_areg(regs, 7) -= 4; x_put_long(m68k_areg(regs, 7), v);`. -/
def pushLong (h : Host μ) (v : Long) : FaultM (Cpu μ) Unit := do
  update fun c => c.setA7 (c.regs.sp.a7 - 4)
  let a ← reads (·.regs.sp.a7)
  h.port.putLong a v

/-- One item of a frame: a word, a long, a word that is skipped without a write, or the clearing
of a write-back status the item before it has saved. -/
inductive Push where
  | word (v : Word)
  | long (v : Long)
  | skip
  | clearWb2
  | clearWb3
  deriving DecidableEq, Repr

def Push.run (h : Host μ) : Push → FaultM (Cpu μ) Unit
  | .word v => pushWord h v
  | .long v => pushLong h v
  | .skip => update fun c => c.setA7 (c.regs.sp.a7 - 2)
  | .clearWb2 => update fun c => c.mapLatch fun l => { l with mmu := { l.mmu with wb2Status := 0 } }
  | .clearWb3 => update fun c => c.mapLatch fun l => { l with mmu := { l.mmu with wb3Status := 0 } }

def pushAll (h : Host μ) : List Push → FaultM (Cpu μ) Unit
  | [] => pure ()
  | x :: xs => do x.run h; pushAll h xs

/-! ## Frame bodies -/

/-- The stack frame formats the core builds. -/
inductive FrameFormat where
  | fourWord | throwaway | sixWord | fpPost | fpUnimp | access040 | fault010 | coMid
  | shortBus | longBus
  deriving DecidableEq, Repr

/-- The format field of the frame. -/
def FrameFormat.num : FrameFormat → Word
  | .fourWord => 0x0
  | .throwaway => 0x1
  | .sixWord => 0x2
  | .fpPost => 0x3
  | .fpUnimp => 0x4
  | .access040 => 0x7
  | .fault010 => 0x8
  | .coMid => 0x9
  | .shortBus => 0xA
  | .longBus => 0xB

def maxMmu030Access : Nat := 9

/-- The pipeline state word of format A and B frames. -/
def pipeState (q : Pipe) : Long :=
  (if q.prefetch020Valid[0] then 1 else 0) ||| (if q.prefetch020Valid[1] then 2 else 0) |||
    (if q.prefetch020Valid[2] then 4 else 0) ||| (q.r8[0].setWidth 32 <<< 8) |||
    (q.r8[1].setWidth 32 <<< 11) ||| (q.pos.setWidth 32 <<< 16) ||| (q.stop.setWidth 32 <<< 20)

/-- Access log item `i` of a format B frame: logged values up to `mmu030_idx_done`, zeroes
after, with the two FMOVEM words at the end when an FMOVEM was interrupted. -/
def logItem (l : Mmu030Log) (i : Nat) : Long :=
  if i < l.idxDone + 1 then l.ad i
  else if l.state1 &&& 0x2000 ≠ 0 then
    if i = maxMmu030Access - 2 then l.fmovemStore0
    else if i = maxMmu030Access - 1 then l.fmovemStore1
    else 0
  else 0

/-- What format A and B have in common, from the word at offset `0x1c` down. -/
def shortBusBody (top opcodeWord : Long) (ssw : Word) (l : Latch) : List Push :=
  [.long top, .long l.mmu.wb3Data, .long opcodeWord, .long l.mmu.faultAddr,
    .word l.pipe.prefetch020[2], .word l.pipe.prefetch020[1], .word ssw,
    .word (l.mmu.wb2Address.setWidth 16)]

/-- The items of a frame above its common tail. -/
def frameBody (oldpc : Long) (ssw : Long) (irc : Word) (l : Latch) : FrameFormat → List Push
  | .fourWord | .throwaway => []
  | .sixWord => [.long oldpc]
  | .fpPost => [.long l.fpu.ea]
  | .fpUnimp => [.long ssw, .long oldpc]
  | .access040 =>
    [.long l.mmu.move16[3], .long l.mmu.move16[2], .long l.mmu.move16[1], .long l.mmu.move16[0],
      .long 0, .long 0, .long l.mmu.wb2Address, .long l.mmu.wb3Data, .long l.mmu.faultAddr,
      .long l.mmu.faultAddr, .word 0, .word (l.mmu.wb2Status.setWidth 16), .clearWb2,
      .word (l.mmu.wb3Status.setWidth 16), .clearWb3, .word (ssw.setWidth 16),
      .long l.mmu.effectiveAddr]
  | .fault010 =>
    List.replicate 15 (.word 0) ++
      [.word 0, .word irc, .skip, .word l.pipe.readBuffer, .skip, .word l.pipe.writeBuffer, .skip,
        .word (l.mmu.faultAddr.setWidth 16), .word (l.mmu.faultAddr.extractLsb' 16 16),
        .word (ssw.setWidth 16)]
  | .coMid => [.long l.fpu.ea, .long (l.fpu.opword.setWidth 32), .long oldpc]
  | .longBus =>
    (List.range (max (l.log.idxDone + 1) maxMmu030Access)).map (fun i => .long (logItem l.log i)) ++
      [.word ((BitVec.ofNat 16 l.log.idx &&& 0xF) |||
          ((BitVec.ofNat 16 l.log.idxDone &&& 0xF) <<< 4) ||| (l.mmu.wb2Status.setWidth 16 <<< 8)),
        .word (l.log.state2 ||| (l.mmu.wb3Status.setWidth 16 <<< 8)),
        .word (l.mmu.wb2Address.setWidth 16), .word l.log.state0, .long l.mmu.faultAddr,
        .long (pipeState l.pipe ||| if l.log.opcode = -1 then 0x80000000 else 0),
        .long l.log.stagebAddress, .long l.log.dispStore1] ++
      shortBusBody l.log.dispStore0
        ((BitVec.ofInt 32 l.log.opcode &&& 0xFFFF) ||| (l.pipe.prefetch020[0].setWidth 32 <<< 16))
        (ssw.setWidth 16) l
  | .shortBus =>
    shortBusBody (pipeState l.pipe)
      (irc.setWidth 32 ||| (l.pipe.prefetch020[0].setWidth 32 <<< 16)) (ssw.setWidth 16) l

/-- The tail of every frame: format and vector offset, program counter, status register. -/
def frameTail (currpc : Long) (sr : Word) (nr : Nat) (f : FrameFormat) : List Push :=
  [.word ((f.num <<< 12) ||| BitVec.ofNat 16 (nr * 4)), .long currpc, .word sr]

/-- `Exception_build_stack_frame`. -/
def exceptionBuildStackFrame (h : Host μ) (oldpc currpc ssw : Long) (nr : Nat)
    (f : FrameFormat) : FaultM (Cpu μ) Unit := do
  -- a faulted write of a format B frame is put back into the access log first
  if f = .longBus ∧ ssw &&& 0x0040 = 0 then
    update fun c => c.mapLatch fun l => { l with log := { l.log with
      ad := fun i => if i = l.log.idxDone then l.mmu.wb3Data else l.log.ad i } }
  let c ← reads id
  pushAll h (frameBody oldpc ssw c.regs.irc c.latch f ++ frameTail currpc c.regs.sr nr f)

/-- `Exception_build_stack_frame_common`. -/
def exceptionBuildStackFrameCommon (h : Host μ) (oldpc currpc : Long) (nr vectorNr : Nat) :
    FaultM (Cpu μ) Unit := do
  let c ← reads id
  let ssw : Long := c.latch.mmu.ssw.setWidth 32
  let m := h.prefs.cpuModel
  if nr = 5 ∨ nr = 6 ∨ nr = 7 ∨ nr = 9 then
    let oldpc := if nr = 9 then c.regs.tracePc else oldpc
    exceptionBuildStackFrame h oldpc currpc ssw vectorNr
      (if m.num ≤ 68010 then .fourWord else .sixWord)
  else if nr = 60 ∨ nr = 61 then
    exceptionBuildStackFrame h oldpc c.regs.instructionPc ssw vectorNr .fourWord
  else if 48 ≤ nr ∧ nr ≤ 55 then
    -- packed decimal on the 68060 stacks the effective address
    let packed := m = .m68060 ∧ nr = 55 ∧ c.latch.fpu.unimpPend = 2
    if c.latch.fpu.expPre then
      if packed then
        exceptionBuildStackFrame h c.latch.fpu.ea c.regs.instructionPc 0 vectorNr .sixWord
      else exceptionBuildStackFrame h oldpc c.regs.instructionPc 0 vectorNr .fourWord
    else if packed then exceptionBuildStackFrame h c.latch.fpu.ea currpc 0 vectorNr .sixWord
    else exceptionBuildStackFrame h oldpc currpc 0 vectorNr .fpPost
  else if nr = 11 ∧ c.latch.fpu.unimpIns then
    update fun c => c.mapLatch fun l => { l with fpu := { l.fpu with unimpIns := false } }
    if (m = .m68060 ∧ (h.prefs.fpuModel = .none ∨ c.latch.fpu.disabled)) ∨
        (m = .m68040 ∧ h.prefs.fpuModel = .none) then
      exceptionBuildStackFrame h c.latch.fpu.ea currpc c.regs.instructionPc vectorNr .fpUnimp
    else exceptionBuildStackFrame h c.latch.fpu.ea currpc ssw vectorNr .sixWord
  else exceptionBuildStackFrame h oldpc currpc ssw vectorNr .fourWord

end UaeCpu
