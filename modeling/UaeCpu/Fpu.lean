import UaeCpu.RegisterApi
import UaeCpu.StatusReg
import UaeCpu.Lib.ByteMem

/-!
# UaeCpu.Fpu

The FPU of `fpp.c` outside its arithmetic: the mode of the SoftFloat library behind FPCR, the
state frames FSAVE writes and FRESTORE reads, and what resets it.

* `FloatStatus` — `struct float_status`, which `fp_set_mode` derives from FPCR.
* `FsaveData`   — what an exception leaves for the next frame.
* `fpuopSave`, `fpuopRestore` — the two instructions.
-/

namespace UaeCpu.Fpu

open Mem

/-! ## State -/

inductive RoundingMode where
  | nearestEven | down | up | toZero
  deriving DecidableEq, Repr

/-- `struct float_status`. The rounding precision is 32, 64 or 80, and 0 before the first reset. -/
structure FloatStatus where
  floatRoundingMode : RoundingMode
  floatx80RoundingPrecision : Nat
  floatExceptionFlags : Byte
  deriving DecidableEq, Repr

/-- Three longs: an operand in extended format as frames have it. -/
structure Ext3 where
  w0 : Long
  w1 : Long
  w2 : Long
  deriving DecidableEq, Repr

/-- `fsave_data`. What is put into `v` has three bits, what is put into `cmdreg1b` sixteen. -/
structure FsaveData where
  ccr : Long
  eo : Ext3
  v : BitVec 3
  fpiarcu : Long
  cmdreg3b : Long
  cmdreg1b : Word
  stag : Long
  dtag : Long
  e1 : Long
  e3 : Long
  t : Long
  fpt : Ext3
  et : Ext3
  wbt : Ext3
  grs : Long
  wbte15 : Long
  wbtm66 : Long
  deriving DecidableEq, Repr

/-- `regs.fpu_exp_state`: 0, 1 (68060 IDLE frame, 68040 UNIMP frame) or 2 (68060 EXCP frame,
68040 BUSY frame). -/
inductive ExpState where
  | none | unimp | busy
  deriving DecidableEq, Repr

/-- The FPU outside `struct fpdata` and the control registers, which are in `Regs`. `fpuState` is
false for the null state, `disabled` is `regs.pcr & 2`. -/
structure FpuState where
  fpuState : Bool
  fpuExpState : ExpState
  fpExpPend : Long
  fpUnimpPend : Long
  disabled : Bool
  fsave : FsaveData
  status : FloatStatus
  deriving DecidableEq, Repr

structure FpuCpu where
  regs : Regs
  fpu : FpuState
  mem : Long → Byte

/-- `fpuRevision40` is `fpu_revision == 0x40`, `softfloat` `fpu_mode > 0`. -/
structure FpuPrefs extends Prefs where
  fpuRevision40 : Bool
  fpuNoUnimplemented : Bool
  softfloat : Bool
  compfpu : Bool
  deriving DecidableEq

namespace FpuCpu

def mapRegs (f : Regs → Regs) (c : FpuCpu) : FpuCpu := { c with regs := f c.regs }

def mapCtrl (f : FpuRegs → FpuRegs) (c : FpuCpu) : FpuCpu :=
  c.mapRegs fun r => { r with fpu := f r.fpu }

def mapFpu (f : FpuState → FpuState) (c : FpuCpu) : FpuCpu := { c with fpu := f c.fpu }

def mapFsave (f : FsaveData → FsaveData) (c : FpuCpu) : FpuCpu :=
  c.mapFpu fun s => { s with fsave := f s.fsave }

def mapStatus (f : FloatStatus → FloatStatus) (c : FpuCpu) : FpuCpu :=
  c.mapFpu fun s => { s with status := f s.status }

def xCpGetLong (c : FpuCpu) (a : Long) : Long := rd32 ofFun c.mem a

def xCpPutLong (c : FpuCpu) (a v : Long) : FpuCpu := { c with mem := wr32 ofFun c.mem a v }

end FpuCpu

/-! ## FPCR -/

abbrev fpcrRoundingMode : Long := 0x30
abbrev fpcrRoundingPrecision : Long := 0xC0

/-- The rounding precision FPCR stands for: both values with bit 7 are double. -/
def precisionOf (fpcr : Long) : Nat :=
  if fpcr &&& fpcrRoundingPrecision = 0x40 then 32
  else if fpcr &&& fpcrRoundingPrecision = 0 then 80
  else 64

def roundingOf (fpcr : Long) : RoundingMode :=
  if fpcr &&& fpcrRoundingMode = 0 then .nearestEven
  else if fpcr &&& fpcrRoundingMode = 0x10 then .toZero
  else if fpcr &&& fpcrRoundingMode = 0x20 then .down
  else .up

/-- `fp_set_mode`. -/
def fpSetMode (modeControl : Long) (fs : FloatStatus) : FloatStatus :=
  { fs with
    floatx80RoundingPrecision := precisionOf modeControl
    floatRoundingMode := roundingOf modeControl }

/-- `fpcr_mask`. -/
def fpcrMask (p : FpuPrefs) : Long := if p.fpuModel = .m68040 then 0xFFFF else 0xFFF0

/-- `fpsr_mask`. -/
abbrev fpsrMask : Long := 0x0FFFFFF8

/-- `fpp_set_fpcr`. -/
def fppSetFpcr (p : FpuPrefs) (val : Long) (c : FpuCpu) : FpuCpu :=
  (c.mapStatus (fpSetMode val)).mapCtrl fun r => { r with fpcr := val &&& fpcrMask p }

/-- `fpp_set_fpsr`. The copy `regs.fp_result` that only JIT code reads is left out. -/
def fppSetFpsr (val : Long) (c : FpuCpu) : FpuCpu :=
  c.mapCtrl fun r => { r with fpsr := val &&& fpsrMask }

/-- `fpp_set_fpiar`. -/
def fppSetFpiar (val : Long) (c : FpuCpu) : FpuCpu := c.mapCtrl fun r => { r with fpiar := val }

/-- `uae_cpu_set_fpcr`. -/
def uaeCpuSetFpcr (value : Long) (c : FpuCpu) : FpuCpu :=
  c.mapCtrl fun r => { r with fpcr := value }

/-- `fpnan`. -/
abbrev fpnan : BitVec 80 := 0x7FFFFFFFFFFFFFFFFFFF

/-- `fpu_null`. -/
def fpuNull (c : FpuCpu) : FpuCpu :=
  (c.mapFpu fun s => { s with fpuState := false, fpuExpState := .none }).mapCtrl fun _ =>
    { fp := .replicate 8 fpnan, fpcr := 0, fpsr := 0, fpiar := 0 }

/-- `fpu_reset` with the SoftFloat backend. -/
def fpuReset (p : FpuPrefs) (c : FpuCpu) : FpuCpu :=
  let c := c.mapFpu fun s => { s with fpuExpState := .none, fpUnimpPend := 0 }
  let c := fppSetFpiar 0 (fppSetFpsr 0 (fppSetFpcr p 0 c))
  c.mapStatus fun fs => fpSetMode 0 (fpSetMode (0x80 ||| 0x10) fs)

/-! ## Pending exceptions -/

/-- `jit_fpu`. -/
def jitFpu (p : FpuPrefs) : Bool := p.cachesize ≠ 0 && p.compfpu

/-- `fpsr_get_vector`: the vector of the highest exception bit. -/
def fpsrGetVector (exception : Long) : Long :=
  ([(15, 48), (14, 54), (13, 52), (12, 53), (11, 51), (10, 50), (9, 49), (8, 49)].find?
    fun b : Nat × Long => exception.getLsbD b.1).elim 0 Prod.snd

/-- The exception `fp_exception_pending` takes before the next instruction. Only the SoftFloat
backend supports exceptions. -/
def fpExceptionPending (p : FpuPrefs) (f : FpuState) : Option Long :=
  if p.softfloat && !jitFpu p && decide (f.fpExpPend ≠ 0) then some f.fpExpPend
  else if f.fpUnimpPend ≠ 0 then some 55
  else none

/-! ## Addresses -/

/-- `x_cp_get_disp_ea_020`: the address for a base, and the program counter behind the extension
words. -/
abbrev DispEa : Type := FpuCpu → Long → Long × Long

section Ops

variable (p : FpuPrefs) (disp : DispEa)

def eaMode (opcode : Word) : BitVec 3 := opcode.extractLsb' 3 3

def eaReg (opcode : Word) : Fin 8 := (opcode.extractLsb' 0 3).toFin

/-- `x_cp_next_iword`, sign-extended. -/
def nextIword (c : FpuCpu) : Long × FpuCpu :=
  ((rd16 ofFun c.mem c.regs.pc).signExtend 32, c.mapRegs fun r => { r with pc := r.pc + 2 })

/-- `x_cp_next_ilong`. -/
def nextIlong (c : FpuCpu) : Long × FpuCpu :=
  (c.xCpGetLong c.regs.pc, c.mapRegs fun r => { r with pc := r.pc + 4 })

def dispEa (base : Long) (c : FpuCpu) : Long × FpuCpu :=
  ((disp c base).1, c.mapRegs fun r => { r with pc := (disp c base).2 })

/-- `get_fp_ad`. -/
def getFpAd (opcode : Word) (c : FpuCpu) : Option (Long × FpuCpu) :=
  let areg := c.regs.areg (eaReg opcode)
  if eaMode opcode = 0 ∨ eaMode opcode = 1 then none
  else if eaMode opcode = 2 ∨ eaMode opcode = 3 ∨ eaMode opcode = 4 then some (areg, c)
  else if eaMode opcode = 5 then some (areg + (nextIword c).1, (nextIword c).2)
  else if eaMode opcode = 6 then some (dispEa disp areg c)
  else
    let reg := eaReg opcode
    if reg.val = 0 then some (nextIword c)
    else if reg.val = 1 then some (nextIlong c)
    else if reg.val = 2 then some (c.regs.pc + (nextIword c).1, (nextIword c).2)
    else if reg.val = 3 then some (dispEa disp c.regs.pc c)
    else none

/-! ## FSAVE -/

/-- What is left to the core: `op_illg` of a CPU without FPU, `fpu_op_illg`, `Exception(14)`. -/
inductive FpuTrap where
  | illg | opIllg | format
  deriving DecidableEq, Repr

/-- How an instruction ends: a trap keeps the state it was raised in. -/
abbrev FpuExit : Type := Except (FpuTrap × FpuCpu) FpuCpu

/-- `fault_if_no_6888x`. -/
def faultIfNo6888x : Bool := decide (p.cpuModel.num < 68040) && p.fpuModel == .none

/-- `if_no_fpu`. -/
def ifNoFpu (f : FpuState) : Bool := f.disabled || p.fpuModel == .none

/-- `get_fpu_version`. -/
def getFpuVersion : FpuModel → Long
  | .m68881 | .m68882 => 0x1F
  | .m68040 => if p.fpuRevision40 then 0x40 else 0x41
  | _ => 0

/-- The 12 byte 68060 NULL/IDLE/EXCP frame. -/
def frame060 (f : FpuState) : List (Option Long) :=
  let frameId :=
    if f.fpuExpState = .busy then 0x0000E000 ||| f.fsave.v.setWidth 32
    else if f.fpuState then 0x00006000 else 0
  [some ((f.fsave.eo.w0 &&& 0xFFFF0000) ||| frameId), some f.fsave.eo.w1, some f.fsave.eo.w2]

/-- The size of a 68040 frame that is neither NULL nor IDLE. -/
def frameSize040 (f : FpuState) : Long :=
  if f.fpuExpState = .busy then 0x64 else if 0x41 ≤ getFpuVersion p .m68040 then 0x34 else 0x2C

/-- The 68040 NULL/IDLE, unimplemented instruction and busy frames. -/
def frame040 (f : FpuState) : List (Option Long) :=
  let fpuVersion := getFpuVersion p .m68040
  let d := f.fsave
  if f.fpuExpState = .none then [some (if f.fpuState then fpuVersion <<< 24 else 0)]
  else
    some (((fpuVersion <<< 8) ||| (frameSize040 p f - 4)) <<< 16) ::
    ((if f.fpuExpState = .busy then
      [some 0, some 0, some 0, some 0, some 0, some d.wbt.w0, some d.wbt.w1, some d.wbt.w2, some 0,
        some d.fpiarcu, some 0, some 0]
    else []) ++
    (if 0x41 ≤ fpuVersion ∨ f.fpuExpState = .busy then [some (d.cmdreg3b <<< 16), some 0] else []) ++
    [some ((d.stag <<< 29) ||| (d.wbtm66 <<< 26) ||| (d.grs <<< 23)), some (d.cmdreg1b.setWidth 32 <<< 16),
      some ((d.dtag <<< 29) ||| (d.wbte15 <<< 20)),
      some ((d.e1 <<< 26) ||| (d.e3 <<< 25) ||| (d.t <<< 20)),
      some d.fpt.w0, some d.fpt.w1, some d.fpt.w2, some d.et.w0, some d.et.w1, some d.et.w2])

/-- The size field of a 6888x frame, and its IDLE form's size. -/
def frameSize6888x : Long := if p.fpuModel = .m68882 then 0x3C else 0x1C

/-- The 6888x NULL and IDLE frames. With an MMU the fields of the 68882 that are not used are left
as memory has them. -/
def frame6888x (f : FpuState) : List (Option Long) :=
  let biuFlags : Long :=
    0x540EFFFF ||| (if f.fpuExpState ≠ .none then 0x20000000 else 0x08000000)
  let size := (frameSize6888x p - 4) <<< 16
  if !f.fpuState then [some size]
  else
    [some ((getFpuVersion p p.fpuModel <<< 24) ||| size), some f.fsave.ccr] ++
    (if p.fpuModel = .m68882 then .replicate 8 (if p.mmuModel then none else some 0) else []) ++
    [some f.fsave.eo.w0, some f.fsave.eo.w1, some f.fsave.eo.w2, some 0, some biuFlags]

/-- The frame FSAVE writes: its longs in turn, and none for one that is skipped. -/
def saveFrame (f : FpuState) : List (Option Long) :=
  match p.fpuModel with
  | .m68060 => frame060 f
  | .m68040 => frame040 p f
  | _ => frame6888x p f

/-- `frame_size` as FSAVE subtracts it for a predecrement. -/
def saveFrameSize (f : FpuState) : Long :=
  match p.fpuModel with
  | .m68060 => 12
  | .m68040 => if f.fpuExpState = .none then 4 else frameSize040 p f
  | _ => if f.fpuState then frameSize6888x p else 4

/-- `x_cp_put_long(ad, ..); ad += 4;` for each long. -/
def putFrame (mem : Long → Byte) (ad : Long) : List (Option Long) → Long → Byte
  | [] => mem
  | some v :: xs => putFrame (wr32 ofFun mem ad v) (ad + 4) xs
  | none :: xs => putFrame mem (ad + 4) xs

/-- Where FSAVE puts the frame. -/
def frameAddr (opcode : Word) (ad : Long) (f : FpuState) : Long :=
  if eaMode opcode = 4 then ad - saveFrameSize p f else ad

/-- `check_t0_trace`, for a 68040. -/
def traceT0 (r : Regs) : Regs :=
  if p.fpuModel = .m68040 ∧ r.t0 ∧ p.cpuModel = .m68040 ∧ !r.t1 then
    { r with spc := activateTrace r.spc }
  else r

/-- `fpuop_save`. -/
def fpuopSave (opcode : Word) (c : FpuCpu) : FpuExit :=
  if faultIfNo6888x p then .error (.illg, c)
  else match getFpAd disp opcode c with
  | none => .error (.opIllg, c)
  | some (ad, c) =>
    if ifNoFpu p c.fpu then .error (.opIllg, c)
    else
      let adp := frameAddr p opcode ad c.fpu
      let c := { c with mem := putFrame c.mem adp (saveFrame p c.fpu), regs := traceT0 p c.regs }
      let c := if eaMode opcode = 4 then c.mapRegs (·.setAreg (eaReg opcode) adp) else c
      .ok (c.mapFpu fun f => { f with fpuExpState := .none, fpExpPend := 0 })

/-! ## FRESTORE -/

/-- What the frame at `ad` leads to: a new state and the address behind the frame, `Exception(14)`,
or the frame of the other family, which is tried once more as one of that family. -/
inductive FrameResult where
  | done (c : FpuCpu) (ad : Long)
  | format (c : FpuCpu)
  | retry (model : FpuModel)

/-- The 68060 part of `fpuop_restore`. -/
def restore060 (adOrig d : Long) (c : FpuCpu) : FrameResult :=
  let ad := adOrig + 4
  let ff := (d >>> 8) &&& 0xFF
  let v := d &&& 7
  let c := c.mapFsave fun s =>
    { s with eo := ⟨d &&& 0xFFFF0000, c.xCpGetLong ad, c.xCpGetLong (ad + 4)⟩ }
  let ad := ad + 4 + 4
  let c := c.mapFpu fun f => { f with fpExpPend := 0 }
  if ff = 0x60 then .done (c.mapFpu fun f => { f with fpuState := true, fpuExpState := .none }) ad
  else if ff = 0xE0 then
    let c := c.mapFpu fun f => { f with fpuState := true, fpuExpState := .busy }
    if v = 7 then .done (c.mapFpu fun f => { f with fpUnimpPend := 1 }) ad
    else .done (c.mapFpu fun f => { f with fpExpPend := 48 + v }) ad
  else if ff ≠ 0 then .format c
  else .done (fpuNull c) ad

/-- A 68040 busy frame. `resume` is the operation `fp_arithmetic` makes again when `CU_SAVEPC`
is `0xFE`. -/
def restoreBusy (resume : FpuCpu → FpuCpu) (ad : Long) (c : FpuCpu) : FrameResult :=
  let ad := ad + 0x4
  let cusavepc := c.xCpGetLong ad >>> 24
  let ad := ad + 0x34 + 0x4
  let cmdreg1b : Word := (c.xCpGetLong ad >>> 16).setWidth 16
  let ad := ad + 0x4 + 0x8
  let fpt : Ext3 := ⟨c.xCpGetLong ad, c.xCpGetLong (ad + 4), c.xCpGetLong (ad + 4 + 4)⟩
  let ad := ad + 4 + 4 + 4
  let et : Ext3 := ⟨c.xCpGetLong ad, c.xCpGetLong (ad + 4), c.xCpGetLong (ad + 4 + 4)⟩
  let ad := ad + 4 + 4 + 4
  let c := c.mapFsave fun s => { s with cmdreg1b := cmdreg1b, fpt := fpt, et := et }
  let opclass := (cmdreg1b >>> 13) &&& 7
  .done (if cusavepc = 0xFE ∧ (opclass = 0 ∨ opclass = 2) then resume c else c) ad

/-- The 68040 part of `fpuop_restore`. An unimplemented instruction frame is skipped. -/
def restore040 (resume : FpuCpu → FpuCpu) (adOrig d : Long) (c : FpuCpu) : FrameResult :=
  let ad := adOrig + 4
  let frameVersion := (d >>> 24) &&& 0xFF
  if frameVersion = getFpuVersion p .m68040 then
    let frameSize := (d >>> 16) &&& 0xFF
    if frameSize = 0x60 then restoreBusy resume ad c
    else if frameSize = 0x30 ∨ frameSize = 0x28 then .done c (ad + frameSize)
    else if frameSize = 0 then .done (c.mapFpu fun f => { f with fpuState := true, fpuExpState := .none }) ad
    else .format c
  else if frameVersion = 0 then .done (fpuNull c) ad
  else if !p.fpuNoUnimplemented ∧ frameVersion = 0x1F ∧ p.fpuModel = .m68040 then .retry .m68881
  else .format c

/-- The 6888x part of `fpuop_restore`. -/
def restore6888x (model : FpuModel) (adOrig d : Long) (c : FpuCpu) : FrameResult :=
  let ad := adOrig + 4
  let frameVersion := (d >>> 24) &&& 0xFF
  if frameVersion = getFpuVersion p model then
    let frameSize := (d >>> 16) &&& 0xFF
    let c := c.mapFpu fun f => { f with fpuState := true }
    if frameSize = 0x18 ∨ frameSize = 0x38 then
      let ccr := c.xCpGetLong ad
      let ad := ad + 4 + (frameSize - 24)
      let eo : Ext3 := ⟨c.xCpGetLong ad, c.xCpGetLong (ad + 4), c.xCpGetLong (ad + 4 + 4)⟩
      let ad := ad + 4 + 4 + 4 + 4
      let biuFlags := c.xCpGetLong ad
      let c := c.mapFsave fun s => { s with ccr := ccr, eo := eo }
      if biuFlags &&& 0x08000000 = 0 then
        .done (c.mapFpu fun f => { f with
          fpuExpState := .busy
          fpExpPend := fpsrGetVector (c.regs.fpu.fpsr &&& c.regs.fpu.fpcr &&& 0xFF00) }) (ad + 4)
      else .done (c.mapFpu fun f => { f with fpuExpState := .none, fpExpPend := 0 }) (ad + 4)
    else if frameSize = 0xB4 ∨ frameSize = 0xD4 then .done c (ad + frameSize)
    else .format c
  else if frameVersion = 0 then .done (fpuNull c) ad
  else if !p.fpuNoUnimplemented ∧ (frameVersion = 0x40 ∨ frameVersion = 0x41) ∧ p.fpuModel = model
  then .retry .m68040
  else .format c

/-- One round from the label `retry` on. -/
def restoreFrame (resume : FpuCpu → FpuCpu) (model : FpuModel) (adOrig d : Long) (c : FpuCpu) :
    FrameResult :=
  match model with
  | .m68060 => restore060 adOrig d c
  | .m68040 => restore040 p resume adOrig d c
  | model => restore6888x p model adOrig d c

/-- `fpuop_restore`. A second `retry` cannot come: it asks for `currprefs.fpu_model == fpu_model`. -/
def fpuopRestore (resume : FpuCpu → FpuCpu) (opcode : Word) (c : FpuCpu) : FpuExit :=
  if faultIfNo6888x p then .error (.illg, c)
  else match getFpAd disp opcode c with
  | none => .error (.opIllg, c)
  | some (adOrig, c) =>
    if ifNoFpu p c.fpu then .error (.opIllg, c)
    else
      let d := c.xCpGetLong adOrig
      let result := match restoreFrame p resume p.fpuModel adOrig d c with
        | .retry model => restoreFrame p resume model adOrig d c
        | r => r
      match result with
      | .done c ad =>
        .ok (if eaMode opcode = 3 then c.mapRegs (·.setAreg (eaReg opcode) ad) else c)
      | .format c => .error (.format, c)
      | .retry _ => .error (.format, c)

end Ops

end UaeCpu.Fpu
