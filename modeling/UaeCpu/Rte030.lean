import UaeCpu.Restart030

/-!
# UaeCpu.Rte030

`m68k_do_rte_mmu030` and `m68k_do_rte_mmu030c`: RTE from a format A or B frame takes the access
log back, makes the faulted access again and leaves the instruction to the run loop.
-/

namespace UaeCpu.Restart

open Fault FaultM Mem

variable {M : Type}

/-! ## A host around the MMU -/

/-- The access functions of `set_x_funcs` for a 68030 with MMU. -/
def port030 (q : Port030 M) (p : Prefs) : Port (World030 M) where
  getLong a := uaeMmu030Get q p .long a
  getWord a := do
    let v ← uaeMmu030Get q p .word a
    pure (v.setWidth 16)
  getIword := do
    let r ← reads (·.regs)
    let v ← if p.cpuCompatible then getIwordState q p 0 else uaeMmu030GetIword q p r.pc
    pure (v.setWidth 16)
  physGetLong a := reads fun c => rd32 ofFun c.world.mem a
  putLong a v := uaeMmu030Put q p .long a v
  putWord a v := uaeMmu030Put q p .word a (v.setWidth 32)
  fillPrefetch := if p.cpuCompatible then fillPrefetch030Ntx q else pure ()

/-- A host without hooks. -/
def host030 (q : Port030 M) (p : Prefs) (cpufunctbl : Word → Run030 M Long) :
    Host (World030 M) where
  prefs := p
  port := port030 q p
  getIrq := none
  intAck := none
  trap := none
  instr := none
  exception := none
  group1 _ _ := false
  cpufunctbl := cpufunctbl
  compiled := pure ()

section Rte

variable (q : Port030 M) (p : Prefs)

/-! ## The retried access -/

/-- A part of an unaligned access that goes on where it faulted: the bits of the buffer that stay,
the position of its own bits, and the flag that says it has been made. -/
structure SubAccess where
  size : AccessSize
  flags : Word
  keep : Long
  shift : Nat
  done : Word
  deriving DecidableEq, Repr

def AccessSize.bytes : AccessSize → Long
  | .byte => 1
  | .word => 2
  | .long => 4

/-- Byte, word, byte of an odd long; two words of an even long; two bytes of an odd word. -/
def subAccesses (st : Word) : List SubAccess :=
  if st &&& stateflag1Subaccessl ≠ 0 then
    if st &&& stateflag1Subaccessx ≠ 0 then
      [⟨.byte, mmu030SswSizeL, 0x00FFFFFF, 24, stateflag1Subaccess1⟩,
        ⟨.word, mmu030SswSizeW, 0xFF0000FF, 8, stateflag1Subaccess2⟩,
        ⟨.byte, mmu030SswSizeB, 0xFFFFFF00, 0, stateflag1Subaccess3⟩]
    else
      [⟨.word, mmu030SswSizeL, 0x0000FFFF, 16, stateflag1Subaccess1⟩,
        ⟨.word, mmu030SswSizeW, 0xFFFF0000, 0, stateflag1Subaccess2⟩]
  else
    [⟨.byte, mmu030SswSizeW, 0x000000FF, 8, stateflag1Subaccess1⟩,
      ⟨.byte, mmu030SswSizeB, 0x0000FF00, 0, stateflag1Subaccess2⟩]

/-- The loop over the sub-accesses of `mmu030_unaligned_read_continue`: `st` is what had been made
when it was entered. -/
def readParts (fc : Long) (st : Word) : List SubAccess → Long → Run030 M Unit
  | [], _ => pure ()
  | s :: rest, addr =>
    if st &&& s.done = 0 then do
      setDataBufferOut (· &&& s.keep)
      let v ← mmu030GetGeneric q p addr fc s.size s.flags
      setDataBufferOut (· ||| (v <<< s.shift))
      setState1 (· ||| s.done)
      readParts fc st rest (addr + s.size.bytes)
    else readParts fc st rest addr

/-- `mmu030_unaligned_read_continue`. -/
def mmu030UnalignedReadContinue (addr fc : Long) : Run030 M Unit := do
  let st ← reads (·.latch.log.state1)
  readParts q p fc st (subAccesses st) addr
  unalignClear

/-- The same of `mmu030_unaligned_write_continue`. -/
def writeParts (fc : Long) (st : Word) : List SubAccess → Long → Run030 M Unit
  | [], _ => pure ()
  | s :: rest, addr =>
    if st &&& s.done = 0 then do
      let v ← reads (·.latch.log.dataBufferOut)
      mmu030PutGeneric q p addr (v >>> s.shift) fc s.size s.flags
      setState1 (· ||| s.done)
      writeParts fc st rest (addr + s.size.bytes)
    else writeParts fc st rest addr

/-- `mmu030_unaligned_write_continue`. -/
def mmu030UnalignedWriteContinue (addr fc : Long) : Run030 M Unit := do
  let st ← reads (·.latch.log.state1)
  writeParts q p fc st (subAccesses st) addr
  unalignClear

/-- The size field of the special status word. -/
def sswSize (ssw : Word) : AccessSize :=
  if ssw &&& mmu030SswSizeB ≠ 0 then .byte
  else if ssw &&& mmu030SswSizeW ≠ 0 then .word
  else .long

/-- The faulted access, made again. The compatible core does not split an access here that was
not split before. -/
def retryAccess (ssw : Word) (addr : Long) : Run030 M Unit := do
  let read := ssw &&& mmu030SswRw ≠ 0
  let fc : Long := (ssw &&& 7).setWidth 32
  let size := sswSize ssw
  let st ← reads (·.latch.log.state1)
  if read then
    if st &&& stateflag1Subaccess0 ≠ 0 then mmu030UnalignedReadContinue q p addr fc
    else
      let v ←
        if p.cpuCompatible then mmu030GetGeneric q p addr fc size size.flags
        else mmu030GetFcx q p size addr fc 0
      setDataBufferOut fun _ => v
  else
    let v ← reads (·.latch.log.dataBufferOut)
    if st &&& stateflag1Subaccess0 ≠ 0 then mmu030UnalignedWriteContinue q p addr fc
    else if p.cpuCompatible then mmu030PutGeneric q p addr v fc size size.flags
    else mmu030PutFcx q p size addr v fc 0

/-- The retry, and its entry in the log: none for MOVEM, which is told to skip the access, and
none after a format A frame, whose `idxsize` is -1. -/
def retryFaulted (ssw : Word) (addr : Long) (longFrame : Bool) : Run030 M Unit := do
  retryAccess q p ssw addr
  let l ← reads (·.latch.log)
  if l.state1 &&& stateflag1Movem1 ≠ 0 then setState1 (· ||| stateflag1Movem2)
  else if longFrame then
    if ssw &&& mmu030SswRw ≠ 0 then setAd l.idxDone l.dataBufferOut
    update (mapLog fun l => { l with idxDone := l.idxDone + 1 })

/-! ## The frame -/

/-- What both formats have in common. -/
structure RteHead where
  sr : Word
  pc : Long
  frame : Word
  ssw : Word
  faultAddr : Long
  dataBufferOut : Long
  oc : Long
  stagesbc : Long
  deriving DecidableEq

def getWordMmu030 (a : Long) : Run030 M Word := do
  let v ← uaeMmu030Get q p .word a
  pure (v.setWidth 16)

/-- The reads up to "Fetch last word". Only the compatible core reads both pipeline stages. -/
def readHead (a7 : Long) : Run030 M RteHead := do
  let sr ← getWordMmu030 q p a7
  let pc ← uaeMmu030Get q p .long (a7 + 2)
  let format ← getWordMmu030 q p (a7 + 6)
  let frame := format >>> 12
  let ssw ← getWordMmu030 q p (a7 + 10)
  let faultAddr ← uaeMmu030Get q p .long (a7 + 16)
  let dataBufferOut ← uaeMmu030Get q p .long (a7 + 0x18)
  let oc ← uaeMmu030Get q p .long (a7 + 0x14)
  let stagesbc ← if p.cpuCompatible then uaeMmu030Get q p .long (a7 + 12) else pure 0
  if frame = 0xB then let _ ← getWordMmu030 q p (a7 + 92 - 2)
  else let _ ← getWordMmu030 q p (a7 + 32 - 2)
  return { sr, pc, frame, ssw, faultAddr, dataBufferOut, oc, stagesbc }

/-- `(ssw & (DF << 1)) && !(ssw & DF)`: a data fault whose `DF` the handler has cleared. -/
def softFixed (ssw : Word) : Bool :=
  decide (ssw &&& (mmu030SswDf <<< 1) ≠ 0 ∧ ssw &&& mmu030SswDf = 0)

/-- The pipeline state word of the compatible core, taken back. -/
def restorePipe (ps oc stagesbc : Long) (c : Cpu030 M) : Cpu030 M :=
  c.mapLatch fun l => { l with pipe := { l.pipe with
    prefetch020Valid := ((l.pipe.prefetch020Valid.set 0 (ps.getLsbD 0) stageD_lt).set 1
      (ps.getLsbD 1) stageC_lt).set 2 (ps.getLsbD 2) stageB_lt
    r8 := (l.pipe.r8.set 0 (ps.extractLsb' 8 3) Nat.zero_lt_two).set 1 (ps.extractLsb' 11 3)
      Nat.one_lt_two
    pos := ps.extractLsb' 16 4
    stop := ps.extractLsb' 20 4
    prefetch020 := ((l.pipe.prefetch020.set 2 (stagesbc.setWidth 16) stageB_lt).set 1
      (stagesbc.extractLsb' 16 16) stageC_lt).set 0 (oc.extractLsb' 16 16) stageD_lt } }

/-- Format A: always the last write of an instruction. -/
def rteShortFrame (a7 : Long) (f : RteHead) : Run030 M Unit := do
  let state1 ← getWordMmu030 q p (a7 + 0x8)
  if p.cpuCompatible then
    let ps ← uaeMmu030Get q p .long (a7 + 0x1C)
    if softFixed f.ssw then unalignClear
    update (restorePipe ps f.oc f.stagesbc)
    update (mapWorld fun w => { w with opcodeStageb := (f.oc.setWidth 16).toNat })
  else
    if softFixed f.ssw then unalignClear
    update (mapLog fun l => { l with opcode := f.oc.toInt })
  update (mapLog fun l => { l with
    dataBufferOut := f.dataBufferOut, state0 := 0, state1 := state1, state2 := 0
    idx := 0, idxDone := 0 })
  update fun c => c.setA7 (c.regs.sp.a7 + 32)

/-- The loop that fills `mmu030_ad_v`: `n` entries from entry `i` on. -/
def readAdV (a7 : Long) : Nat → Nat → (Nat → Long) → Run030 M (Nat → Long)
  | 0, _, adv => pure adv
  | n + 1, i, adv => do
    let v ← uaeMmu030Get q p .long (a7 + 0x5C - BitVec.ofNat 32 ((i + 1) * 4))
    useIndex i
    readAdV a7 n (i + 1) (Function.update adv i v)

/-- The loop that copies `mmu030_ad_v` to `mmu030_ad`. -/
def copyAdV (adv : Nat → Long) : Nat → Nat → Run030 M Unit
  | 0, _ => pure ()
  | n + 1, i => do
    setAd i (adv i)
    copyAdV adv n (i + 1)

/-- The local variables of the format B branch that the fixes below change. -/
structure RteLocals where
  adv : Nat → Long
  idxsizeDone : Nat
  state1 : Word
  dataBufferOut : Long

/-- "did we have data fault but DF bit cleared?" -/
def softFixData (ssw : Word) (dataIn : Long) (v : RteLocals) : Run030 M RteLocals := do
  if softFixed ssw then
    let v := { v with dataBufferOut := dataIn }
    let v ←
      if ssw &&& mmu030SswRm ≠ 0 then do
        update (mapWorld fun w => { w with retry := false })
        pure v
      else if v.state1 &&& stateflag1Movem1 ≠ 0 then
        pure { v with state1 := v.state1 ||| stateflag1Movem2 }
      else if ssw &&& mmu030SswRw ≠ 0 then do
        useIndex v.idxsizeDone
        pure { v with
          adv := Function.update v.adv v.idxsizeDone dataIn, idxsizeDone := v.idxsizeDone + 1 }
      else pure { v with idxsizeDone := v.idxsizeDone + 1 }
    unalignClear
    pure v
  else pure v

/-- `(ssw & FB) && !(ssw & RB)`: stage B of the pipeline fixed by the handler. -/
def stageBFixed (ssw : Word) : Bool :=
  decide (ssw &&& mmu030SswFb ≠ 0 ∧ ssw &&& mmu030SswRb = 0)

def stageCFixed (ssw : Word) : Bool :=
  decide (ssw &&& mmu030SswFc ≠ 0 ∧ ssw &&& mmu030SswRc = 0)

/-- "did we have ins fault and RB bit cleared?" -/
def softFixStageB (a7 : Long) (ssw : Word) (opcode : Int) (v : RteLocals) :
    Run030 M RteLocals := do
  if stageBFixed ssw then
    let stageb ← getWordMmu030 q p (a7 + 0x0E)
    if opcode = -1 then
      update (mapWorld fun w => { w with opcodeStageb := stageb.toNat })
      pure v
    else
      useIndex v.idxsizeDone
      pure { v with
        adv := Function.update v.adv v.idxsizeDone (stageb.setWidth 32)
        idxsizeDone := v.idxsizeDone + 1 }
  else pure v

/-- What the compatible core does about the pipeline instead. -/
def softFixPipe (ps : Long) (f : RteHead) (c : Cpu030 M) : Cpu030 M :=
  (restorePipe ps f.oc f.stagesbc c).mapLatch fun l => { l with pipe := { l.pipe with
    prefetch020Valid :=
      (l.pipe.prefetch020Valid.set 2
        (stageBFixed f.ssw || getElem l.pipe.prefetch020Valid 2 stageB_lt) stageB_lt).set 1
        (stageCFixed f.ssw || getElem l.pipe.prefetch020Valid 1 stageC_lt) stageC_lt } }

/-- Format B. -/
def rteLongFrame (a7 : Long) (f : RteHead) : Run030 M Unit := do
  let dispStore0 ← uaeMmu030Get q p .long (a7 + 0x1C)
  let dispStore1 ← uaeMmu030Get q p .long (a7 + 0x1C + 4)
  let ps ← uaeMmu030Get q p .long (a7 + 0x28)
  let dataIn ← uaeMmu030Get q p .long (a7 + 0x2C)
  let state0 ← getWordMmu030 q p (a7 + 0x30)
  let state1 ← getWordMmu030 q p (a7 + 0x32)
  let state2 ← getWordMmu030 q p (a7 + 0x34)
  let opcode : Int := if ps.getLsbD 31 then -1 else (f.oc &&& 0xFFFF).toNat
  let (fmovem0, fmovem1) ←
    if state1 &&& stateflag1Fmovem ≠ 0 then do
      let v0 ← uaeMmu030Get q p .long (a7 + 0x5C - (7 + 1) * 4)
      let v1 ← uaeMmu030Get q p .long (a7 + 0x5C - (8 + 1) * 4)
      pure (v0, v1)
    else pure (0, 0)
  let v ← getWordMmu030 q p (a7 + 0x36)
  let idxsize := (v &&& 0xF).toNat
  let idxsizeDone := ((v >>> 4) &&& 0xF).toNat
  let adv ← readAdV q p a7 (idxsizeDone + 1) 0 fun _ => 0
  let wb2 : Byte := v.extractLsb' 8 8
  let wb3 : Byte := state2.extractLsb' 8 8
  update fun c => c.mapLatch fun l => { l with mmu := { l.mmu with
    wb2Status := wb2, wb3Status := wb3 } }
  update fun c => mmu030fixupmod wb3 true (mmu030fixupmod wb2 true c)
  let v ← softFixData f.ssw dataIn ⟨adv, idxsizeDone, state1, f.dataBufferOut⟩
  let v ←
    if p.cpuCompatible then do
      update (softFixPipe ps f)
      pure v
    else softFixStageB q p a7 f.ssw opcode v
  update (mapLog fun l => { l with
    opcode := opcode, state0 := state0, state1 := v.state1, state2 := state2 &&& 0x00FF
    dispStore0 := dispStore0, dispStore1 := dispStore1, fmovemStore0 := fmovem0
    fmovemStore1 := fmovem1, dataBufferOut := v.dataBufferOut, idx := idxsize
    idxDone := v.idxsizeDone })
  copyAdV v.adv (v.idxsizeDone + 1) 0
  update fun c => c.setA7 (c.regs.sp.a7 + 92)

/-- `regs.sr = sr; MakeFromSR_T0();` and, for an even program counter, the PC and opcode of the
instruction to run again. True when the program counter was odd: `exception3_read_prefetch` has
been called and the function returns. -/
def rteRestorePc (f : RteHead) : Run030 M Bool := do
  update (Cpu.writeSR p .t0 f.sr)
  if f.pc.getLsbD 0 then
    let h := host030 q p fun _ => pure 0
    exception3ReadPrefetch h (fun nr => exceptionX h nr none) 0x4E73 f.pc 0
    pure true
  else
    update fun c => c.mapRegs fun r => r.setpc f.pc
    let l ← reads (·.latch.log)
    if l.opcode ≠ -1 then
      update fun c => c.mapRegs fun r => { r with
        opcode := BitVec.ofInt 16 l.opcode, irc := BitVec.ofInt 16 l.opcode }
    pure false

/-- `m68k_do_rte_mmu030`. The `idxsize_done` a locked access clears is the local variable, which is
not used again. -/
def m68kDoRteMmu030 (a7 : Long) : Run030 M Unit := do
  let f ← readHead q p a7
  update (mapWorld fun w => { w with retry := true })
  if f.frame = 0xA then rteShortFrame q p a7 f
  else if f.frame = 0xB then rteLongFrame q p a7 f
  if ← rteRestorePc q p f then pure ()
  else
    if f.ssw &&& mmu030SswDf ≠ 0 ∧ f.ssw &&& mmu030SswRm = 0 then
      retryFaulted q p f.ssw f.faultAddr (f.frame = 0xB)
    let l ← reads (·.latch.log)
    if l.state1 &&& stateflag1Lastwrite ≠ 0 then
      update (mapWorld fun w => { w with retry := false })

/-- `m68k_do_rte_mmu030c`. -/
def m68kDoRteMmu030c (a7 : Long) : Run030 M Unit := do
  let f ← readHead q p a7
  update (mapWorld fun w => { w with retry := true })
  if f.frame = 0xA then rteShortFrame q p a7 f
  else if f.frame = 0xB then rteLongFrame q p a7 f
  if ← rteRestorePc q p f then pure ()
  else
    if f.ssw &&& (mmu030SswDf <<< 1) = 0 then
      let l ← reads (·.latch.log)
      if stageBFixed f.ssw ∨ stageCFixed f.ssw ∨ l.opcode = -1 then fillPrefetch030Ntx q
    if f.ssw &&& mmu030SswDf ≠ 0 then
      if f.ssw &&& mmu030SswRm ≠ 0 then update (mapLog fun l => { l with idxDone := 0 })
      else retryFaulted q p f.ssw f.faultAddr (f.frame = 0xB)
    let l ← reads (·.latch.log)
    if l.state1 &&& stateflag1Lastwrite ≠ 0 then
      update (mapWorld fun w => { w with retry := false })
      if f.frame ≠ 0xA then
        update (mapLog fun l => { l with opcode := -1 })
        fillPrefetch030Ntx q
    -- the pipeline of a format B frame does not match its PC, so the instruction starts afresh
    if f.frame = 0xB then
      update (mapLog fun l => { l with opcode := -1 })
      fillPrefetch030Ntx q

/-- The one the opcode table of the configuration calls. -/
def doRteMmu030 (a7 : Long) : Run030 M Unit :=
  if p.cpuCompatible then m68kDoRteMmu030c q p a7 else m68kDoRteMmu030 q p a7

/-! ## The run loop -/

/-- The head of the outer loop of `m68k_run_mmu030`, from `insretry` on: a fresh opcode, and a log
with nothing done. -/
def insRetry : Run030 M Unit := do
  update fun c => c.mapRegs fun r => { r with instructionPc := r.pc }
  update (mapLog fun l => { l with state0 := 0, state1 := 0, state2 := 0, opcode := -1 })
  let c ← reads id
  let opcode : Word ←
    if c.world.opcodeStageb < 0 then
      if p.cpuCompatible then pure c.regs.irc
      else do
        let v ← uaeMmu030GetIword q p c.regs.pc
        pure (v.setWidth 16)
    else do
      update (mapWorld fun w => { w with opcodeStageb := -1 })
      pure (BitVec.ofInt 16 c.world.opcodeStageb)
  update fun c => c.mapRegs fun r => { r with opcode := opcode }
  update (mapLog fun l => { l with opcode := opcode.toNat, idxDone := 0 })

/-- One round of the inner loop: the handler runs on a log that is read from its beginning. -/
def runOpcode (table : Word → Core → Instr) : Run030 M Unit := do
  let l ← reads (·.latch.log)
  let opcode := BitVec.ofInt 16 l.opcode
  update fun c => c.mapRegs fun r => { r with opcode := opcode, irc := opcode }
  update (mapLog fun l => { l with idx := 0 })
  update (mapWorld fun w => { w with retry := false })
  let c ← reads id
  (table opcode c.toCore).exec q p

/-- What the loop does once a handler has asked for a retry, up to the end of the next one: nothing,
the restored instruction, or a fresh one when no opcode was restored. -/
def rerun (table : Word → Core → Instr) : Run030 M Unit := do
  let c ← reads id
  if c.world.retry then
    if c.latch.log.opcode = -1 then insRetry q p
    runOpcode q p table

/-- RTE from a bus fault frame at `a7`, and the instruction it restarts. -/
def rteThenRerun (table : Word → Core → Instr) (a7 : Long) : Run030 M Unit := do
  doRteMmu030 q p a7
  rerun q p table

end Rte

end UaeCpu.Restart
