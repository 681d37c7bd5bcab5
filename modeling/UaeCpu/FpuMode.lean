import UaeCpu.Fpu
import UaeCpu.Lib.Run

/-!
# UaeCpu.FpuMode

FPCR and the modes of the SoftFloat library. `regs.fpcr` is one place, the library's
`float_status` another: `fpp_set_fpcr` writes both, the arithmetic changes the second for the
time of a call.

* `SoftFloat`    — the routines of the library, as functions of the status and their operands.
* `fpArithmetic` — `fp_arithmetic`, with the precision each opmode asks for.
* `Agree`        — the modes are those FPCR stands for.
* `agree_throughout_iff` — the runs in which they stay so.
-/

namespace UaeCpu.Fpu

open Mem Trans

abbrev Float80 := BitVec 80

/-! ## The library -/

/-- A call of the library: it runs under the status and leaves one. -/
abbrev Soft (α : Type) : Type := StateM FloatStatus α

namespace Soft

variable {α : Type}

/-- A routine that reads the status and raises exception flags. -/
def raise (f : FloatStatus → α × Byte) : Soft α := fun fs =>
  ((f fs).1, { fs with floatExceptionFlags := fs.floatExceptionFlags ||| (f fs).2 })

/-- `PREC_NORMAL`, `PREC_FLOAT` and `PREC_DOUBLE`. -/
inductive Prec where
  | normal | float | double
  deriving DecidableEq, Repr

def prectable : Prec → Nat
  | .normal => 0
  | .float => 32
  | .double => 64

/-- `SETPREC`, the routine, `RESETPREC`. -/
def withPrec (prec : Prec) (m : Soft α) : Soft α := do
  let oldprec := (← get).floatx80RoundingPrecision
  if prec ≠ .normal then
    modify fun fs => { fs with floatx80RoundingPrecision := prectable prec }
  let a ← m
  modify fun fs => { fs with floatx80RoundingPrecision := oldprec }
  return a

/-- `SET_PREC`, the series or the table, `RESET_PREC` in the routines of `softfloat_fpsp.c`. -/
def extended (m : Soft α) : Soft α := do
  let user ← get
  modify fun fs => { fs with floatRoundingMode := .nearestEven, floatx80RoundingPrecision := 80 }
  let a ← m
  modify fun fs => { fs with
    floatRoundingMode := user.floatRoundingMode
    floatx80RoundingPrecision := user.floatx80RoundingPrecision }
  return a

/-- How `tentoint128` turns the rounding mode, for a number and a power with these signs. -/
def powerMode (mSign eSign : Bool) : RoundingMode → RoundingMode
  | .nearestEven => .nearestEven
  | .down => if mSign != eSign then .up else .down
  | .up => if mSign != eSign then .down else .up
  | .toZero => if eSign then .up else .down

/-- `tentoint128`. -/
def tentoint128 (mSign eSign : Bool) (m : Soft α) : Soft α := do
  let saveRoundingMode := (← get).floatRoundingMode
  modify fun fs => { fs with floatRoundingMode := powerMode mSign eSign saveRoundingMode }
  let a ← m
  modify fun fs => { fs with floatRoundingMode := saveRoundingMode }
  return a

end Soft

open Soft

/-- The routines with `SETPREC`. -/
inductive PrecOp where
  | move | abs | neg | add | sub | mul | div | sqrt
  deriving DecidableEq, Repr

/-- The routines called with the status as it is. -/
inductive PlainOp where
  | int | intrz | getexp | getman | mod | rem | sgldiv | sglmul | scale | cmp | tst
  deriving DecidableEq, Repr

/-- The routines of `softfloat_fpsp.c`. -/
inductive FpspOp where
  | sinh | lognp1 | etoxm1 | tanh | atan | asin | atanh | sin | tan | etox | twotox | tentox | logn
  | log10 | log2 | cosh | acos | cos | sincos
  deriving DecidableEq, Repr

/-- An operand as it comes from a register, the instruction or memory. -/
inductive Source where
  | reg (x : Float80)
  | int (v : Long)
  | single (w : Long)
  | double (w₁ w₂ : Long)
  | exten (w₁ w₂ w₃ : Long)
  | packed (w₁ w₂ w₃ : Long)
  deriving DecidableEq, Repr

/-- A format FMOVE stores. -/
inductive Dest where
  | int (size : Nat)
  | single | double | exten
  | packed (kfactor : Long)
  deriving DecidableEq, Repr

/-- The library: what each routine gives, and the flags it raises, for the status it runs under.
Results in memory formats are lists of longs. -/
structure SoftFloat where
  precOp : PrecOp → FloatStatus → Float80 → Float80 → Float80 × Byte
  plainOp : PlainOp → FloatStatus → Float80 → Float80 → Float80 × Byte
  /-- The quotient and its sign, as FMOD and FREM leave them. -/
  quotient : PlainOp → FloatStatus → Float80 → Float80 → BitVec 7 × Bool → BitVec 7 × Bool
  /-- Zero, infinity and NaN, answered before `SET_PREC`. -/
  fpspSpecial : FpspOp → FloatStatus → Float80 → Option (Float80 × Byte)
  fpspBody : FpspOp → FloatStatus → Float80 → (Float80 × Float80) × Byte
  /-- The last operation, after `RESET_PREC`. -/
  fpspFinish : FpspOp → FloatStatus → Float80 × Float80 → Float80 × Byte
  /-- The cosine of FSINCOS. -/
  cosine : FloatStatus → Float80 → Float80
  fromInt : Long → Float80
  toFormat : Source → FloatStatus → Float80 × Byte
  fromFormat : Dest → FloatStatus → Float80 → List Long × Byte
  /-- The power of ten for a decimal number, and what is made of it. -/
  power : FloatStatus → Float80 × Byte
  decimal : Float80 → Source → FloatStatus → Float80 × Byte
  toDecimal : Float80 → Long → FloatStatus → Float80 → List Long × Byte
  denormalize : Float80 → Bool → Float80
  round32 : FloatStatus → Float80 → Float80 × Byte
  round64 : FloatStatus → Float80 → Float80 × Byte

namespace SoftFloat

variable (lib : SoftFloat)

def fpsp (op : FpspOp) (b : Float80) : Soft Float80 := do
  match lib.fpspSpecial op (← get) b with
  | some r => raise fun _ => r
  | none =>
    let ab ← extended (raise fun fs => lib.fpspBody op fs b)
    raise fun fs => lib.fpspFinish op fs ab

/-- `fp_to_pack`: the power is computed under a rounding mode of its own. -/
def toPack (w₁ w₂ w₃ : Long) : Soft Float80 := do
  let power ← tentoint128 (w₁.getLsbD 31) (w₁.getLsbD 30) (raise lib.power)
  raise (lib.decimal power (.packed w₁ w₂ w₃))

/-- `fp_from_pack`. -/
def fromPack (kfactor : Long) (x : Float80) : Soft (List Long) := do
  let power ← tentoint128 (x.getLsbD 79) (x.getLsbD 78) (raise lib.power)
  raise fun fs => lib.toDecimal power kfactor fs x

/-- The conversion `get_fp_value` ends with. -/
def load : Source → Soft Float80
  | .reg x => return x
  | .int v => return lib.fromInt v
  | .packed w₁ w₂ w₃ => lib.toPack w₁ w₂ w₃
  | src => raise (lib.toFormat src)

/-- The conversion `put_fp_value` starts with. -/
def store (dest : Dest) (x : Float80) : Soft (List Long) :=
  match dest with
  | .packed kfactor => lib.fromPack kfactor x
  | dest => raise fun fs => lib.fromFormat dest fs x

end SoftFloat

/-! ## Opmodes -/

/-- What an opmode of `fp_arithmetic` calls. -/
inductive ArithFn where
  | prec (op : PrecOp) (prec : Prec)
  | plain (op : PlainOp)
  | fpsp (op : FpspOp)
  | unknown
  deriving DecidableEq, Repr

/-- The `switch` of `fp_arithmetic`. -/
def arithFn (extra : Word) : ArithFn :=
  match (extra &&& 0x7F).toNat with
  | 0x00 => .prec .move .normal
  | 0x40 => .prec .move .float
  | 0x44 => .prec .move .double
  | 0x01 => .plain .int
  | 0x02 => .fpsp .sinh
  | 0x03 => .plain .intrz
  | 0x04 | 0x05 => .prec .sqrt .normal
  | 0x41 => .prec .sqrt .float
  | 0x45 => .prec .sqrt .double
  | 0x06 | 0x07 => .fpsp .lognp1
  | 0x08 => .fpsp .etoxm1
  | 0x09 => .fpsp .tanh
  | 0x0A | 0x0B => .fpsp .atan
  | 0x0C => .fpsp .asin
  | 0x0D => .fpsp .atanh
  | 0x0E => .fpsp .sin
  | 0x0F => .fpsp .tan
  | 0x10 => .fpsp .etox
  | 0x11 => .fpsp .twotox
  | 0x12 | 0x13 => .fpsp .tentox
  | 0x14 => .fpsp .logn
  | 0x15 => .fpsp .log10
  | 0x16 | 0x17 => .fpsp .log2
  | 0x18 => .prec .abs .normal
  | 0x58 => .prec .abs .float
  | 0x5C => .prec .abs .double
  | 0x19 => .fpsp .cosh
  | 0x1A | 0x1B => .prec .neg .normal
  | 0x5A => .prec .neg .float
  | 0x5E => .prec .neg .double
  | 0x1C => .fpsp .acos
  | 0x1D => .fpsp .cos
  | 0x1E => .plain .getexp
  | 0x1F => .plain .getman
  | 0x20 => .prec .div .normal
  | 0x60 => .prec .div .float
  | 0x64 => .prec .div .double
  | 0x21 => .plain .mod
  | 0x22 => .prec .add .normal
  | 0x62 => .prec .add .float
  | 0x66 => .prec .add .double
  | 0x23 => .prec .mul .normal
  | 0x63 => .prec .mul .float
  | 0x67 => .prec .mul .double
  | 0x24 => .plain .sgldiv
  | 0x25 => .plain .rem
  | 0x26 => .plain .scale
  | 0x27 => .plain .sglmul
  | 0x28 | 0x29 | 0x2A | 0x2B | 0x2C | 0x2D | 0x2E | 0x2F => .prec .sub .normal
  | 0x68 => .prec .sub .float
  | 0x6C => .prec .sub .double
  | 0x30 | 0x31 | 0x32 | 0x33 | 0x34 | 0x35 | 0x36 | 0x37 => .fpsp .sincos
  | 0x38 | 0x39 | 0x3C | 0x3D => .plain .cmp
  | 0x3A | 0x3B | 0x3E | 0x3F => .plain .tst
  | _ => .unknown

def SoftFloat.call (lib : SoftFloat) (src dst : Float80) : ArithFn → Soft Float80
  | .prec op prec => withPrec prec (raise fun fs => lib.precOp op fs dst src)
  | .plain op => raise fun fs => lib.plainOp op fs dst src
  | .fpsp op => lib.fpsp op src
  | .unknown => return dst

/-! ## FPSR -/

abbrev fpsrBsun : Long := 0x8000
abbrev fpsrSnan : Long := 0x4000
abbrev fpsrOperr : Long := 0x2000
abbrev fpsrOvfl : Long := 0x1000
abbrev fpsrUnfl : Long := 0x0800
abbrev fpsrDz : Long := 0x0400
abbrev fpsrInex2 : Long := 0x0200
abbrev fpsrInex1 : Long := 0x0100

namespace FpuCpu

/-- A call of the library under the status of the FPU. -/
def soft {α : Type} (m : Soft α) (c : FpuCpu) : α × FpuCpu :=
  ((m c.fpu.status).1, c.mapStatus fun fs => (m fs).2)

def orFpsr (bits : Long) (c : FpuCpu) : FpuCpu := c.mapCtrl fun r => { r with fpsr := r.fpsr ||| bits }

def setFp (i : Fin 8) (x : Float80) (c : FpuCpu) : FpuCpu :=
  c.mapCtrl fun r => { r with fp := r.fp.set i.val x (reg_lt i) }

end FpuCpu

/-- `fp_get_status`: each flag of the library with its bit of FPSR. -/
def fpGetStatus (flags : Byte) : Long :=
  let bit (i : Nat) (v : Long) : Long := if flags.getLsbD i then v else 0
  bit 6 fpsrSnan ||| bit 0 fpsrOperr ||| bit 2 fpsrDz ||| bit 3 fpsrOvfl ||| bit 4 fpsrUnfl |||
    bit 5 fpsrInex2 ||| bit 7 fpsrInex1

/-- `fpsr_clear_status`. -/
def fpsrClearStatus (c : FpuCpu) : FpuCpu :=
  (c.mapCtrl fun r => { r with fpsr := r.fpsr &&& 0x0FFF00F8 }).mapStatus fun fs =>
    { fs with floatExceptionFlags := 0 }

/-- `fpsr_set_result_always` and `fpsr_set_result`. -/
def fpsrSetResult (x : Float80) (c : FpuCpu) : FpuCpu :=
  let max := (x >>> 64) &&& 0x7FFF = 0x7FFF
  let frac := x.setWidth 63
  let n : Long := if x.getLsbD 79 then 0x08000000 else 0
  let cc : Long :=
    if max ∧ frac ≠ 0 then 0x01000000
    else if ¬ max ∧ x.setWidth 64 = 0 then 0x04000000
    else if max ∧ frac = 0 then 0x02000000
    else 0
  c.mapCtrl fun r => { r with fpsr := (r.fpsr &&& 0x00FFFFF8) ||| n ||| cc }

section Ops

variable (p : FpuPrefs) (lib : SoftFloat)

/-- `cpu_model >= 68040 && fpu_model && fpu_no_unimplemented`. -/
def nonmaskables : Bool :=
  decide (68040 ≤ p.cpuModel.num) && p.fpuModel != .none && p.fpuNoUnimplemented

/-- `support_exceptions && !jit_fpu()`. -/
def takesExceptions : Bool := p.softfloat && !jitFpu p

/-- `updateaccrued`. -/
def updateaccrued (r : Long) : Long :=
  r ||| (if r &&& (fpsrBsun ||| fpsrSnan ||| fpsrOperr) ≠ 0 then 0x80 else 0) |||
    (if r &&& fpsrUnfl ≠ 0 ∧ r &&& fpsrInex2 ≠ 0 then 0x20 else 0) |||
    (if r &&& fpsrDz ≠ 0 then 0x10 else 0)

/-- `fpsr_make_status`: the exceptions that interrupt the calculation. -/
def fpsrMakeStatus (c : FpuCpu) : Long × FpuCpu :=
  let c := c.orFpsr (fpGetStatus c.fpu.status.floatExceptionFlags)
  let r := c.regs.fpu.fpsr
  let c := c.orFpsr ((if r &&& fpsrOvfl ≠ 0 then 0x40 else 0) |||
    (if r &&& (fpsrOvfl ||| fpsrInex2 ||| fpsrInex1) ≠ 0 then 0x08 else 0))
  let r := c.regs.fpu.fpsr
  let c := c.mapCtrl fun s => { s with fpsr := updateaccrued r }
  if !takesExceptions p then (0, c)
  else
    ((r &&& c.regs.fpu.fpcr &&& (fpsrSnan ||| fpsrOperr ||| fpsrDz)) |||
      (if nonmaskables p then c.regs.fpu.fpsr &&& (fpsrOvfl ||| fpsrUnfl) else 0), c)

/-- What an exception leaves for FSAVE, `fsave_data` and `regs.fpu_exp_state`. -/
abbrev SaveData : Type := FpuCpu → FsaveData × ExpState

/-- `fpsr_check_arithmetic_exception` with the mask 0. -/
def fpsrCheckArithmeticException (save : SaveData) (oldpc : Long) (c : FpuCpu) : Bool × FpuCpu :=
  let r := c.regs.fpu
  let exception := (r.fpsr &&& r.fpcr &&& 0xFF00) |||
    (if nonmaskables p then r.fpsr &&& (fpsrOvfl ||| fpsrUnfl) else 0)
  if !takesExceptions p ∨ exception = 0 then (false, c)
  else
    let vector := fpsrGetVector exception
    let c := c.mapFpu fun f => { f with fpExpPend := vector }
    let c := if oldpc ≠ 0xFFFFFFFF then c.mapCtrl fun r => { r with fpiar := oldpc } else c
    (vector != fpsrGetVector (r.fpsr &&& r.fpcr),
      c.mapFpu fun f => { f with fsave := (save c).1, fpuExpState := (save c).2 })

/-- `maybe_set_fpiar`. -/
def maybeSetFpiar (oldpc : Long) (c : FpuCpu) : FpuCpu :=
  if c.regs.fpu.fpcr &&& 0x7F00 ≠ 0 ∨ p.fpuModel = .m68040 ∨ p.fpuModel = .m68060 then
    c.mapCtrl fun r => { r with fpiar := oldpc }
  else c

/-! ## Arithmetic -/

/-- FMOD and FREM also leave the quotient in FPSR. -/
def setQuotient (op : PlainOp) (src dst : Float80) (c : FpuCpu) : FpuCpu :=
  let r := c.regs.fpu.fpsr
  let (q, s) := lib.quotient op c.fpu.status dst src ((r >>> 16).setWidth 7, r.getLsbD 23)
  c.mapCtrl fun r => { r with
    fpsr := (r.fpsr &&& 0x0F00FFF8) ||| (q.setWidth 32 <<< 16) ||| (if s then 0x00800000 else 0) }

/-- What the case of the `switch` does besides its call. -/
def beforeCall (extra : Word) (src dst : Float80) (c : FpuCpu) : ArithFn → FpuCpu
  | .plain .mod => setQuotient lib .mod src dst c
  | .plain .rem => setQuotient lib .rem src dst c
  | .fpsp .sincos => c.setFp (extra.extractLsb' 0 3).toFin (lib.cosine c.fpu.status src)
  | _ => c

/-- `fp_arithmetic`: the new value of the destination, and whether it is to be stored. -/
def fpArithmetic (extra : Word) (src dst : Float80) (c : FpuCpu) : (Float80 × Bool) × FpuCpu :=
  let fn := arithFn extra
  if fn = .unknown then ((dst, false), c)
  else
    let c := beforeCall lib extra src dst c fn
    let (dst, c) := c.soft (lib.call src dst fn)
    if fn = .plain .cmp ∨ fn = .plain .tst then
      ((dst, false), fpsrSetResult dst (fpsrMakeStatus p c).2)
    else
      let (exception, c) := fpsrMakeStatus p (fpsrSetResult dst c)
      ((dst, exception = 0), c)

/-- What `get_fp_value` and the checks around the arithmetic come to: the operand, or none where the
instruction ends with an exception or a bus error, and the operands made ready, or none where their
format or the opmode is left to a handler. `state` and `trapped` are the rest of the state after the
first and after a failed second; neither writes FPCR or the modes. -/
structure Fetch where
  state : FpuCpu → FpuCpu
  operand : FpuCpu → Option Source
  normalized : Float80 → Float80 → Option (Float80 × Float80)
  trapped : FpuCpu → FpuCpu

/-- `f` with FPCR and the modes as they were. -/
def besides (f : FpuCpu → FpuCpu) (c : FpuCpu) : FpuCpu :=
  ((f c).mapCtrl fun r => { r with fpcr := c.regs.fpu.fpcr }).mapStatus fun fs =>
    { fs with
      floatRoundingMode := c.fpu.status.floatRoundingMode
      floatx80RoundingPrecision := c.fpu.status.floatx80RoundingPrecision }

/-- `fpuop_arithmetic` with opclass 0 or 2: an operation on a register. The instruction is at
`pc`. -/
def fpuopArithmetic (fetch : Fetch) (save : SaveData) (extra : Word) (pc : Long) (c : FpuCpu) :
    FpuCpu :=
  let c := c.mapFpu fun f => { f with fpuState := true }
  if (fpExceptionPending p c.fpu).isSome then c
  else
    let c := fpsrClearStatus c
    let c' := besides fetch.state c
    match fetch.operand c with
    | none => c'
    | some operand =>
      let (src, c) := c'.soft (lib.load operand)
      let reg : Fin 8 := (extra.extractLsb' 7 3).toFin
      match fetch.normalized src (c.regs.fpu.fp.get reg) with
      | none => besides fetch.trapped c
      | some (src, dst) =>
        let ((dst, v), c) := fpArithmetic p lib extra src dst (maybeSetFpiar p pc c)
        let (nonmaskable, c) := fpsrCheckArithmeticException p save pc c
        if v ∧ (p.fpuModel ≠ .m68040 ∨ !nonmaskable) then c.setFp reg dst else c

/-- A value of the tables of FMOVECR, as it is for FPCR's rounding mode and precision: what is added to
its second long once it is rounded, and what to FPSR. -/
structure Constant where
  value : Float80
  f1Adjust : Long
  sr : Long

/-- The second long of `x` in units of `0x80`. -/
def adjustF1 (f1Adjust : Long) (x : Float80) : Float80 :=
  x.extractLsb' 64 16 ++ (x.extractLsb' 32 32 + f1Adjust * 0x80 : Long) ++ x.extractLsb' 0 32

/-- `fpu_get_constant` with what FMOVECR does around it; the value is rounded to FPCR's precision by a
routine of its own. -/
def fpuGetConstant (save : SaveData) (constant : FpuCpu → Constant) (extra : Word) (pc : Long)
    (c : FpuCpu) : FpuCpu :=
  let c := c.mapFpu fun f => { f with fpuState := true }
  if (fpExceptionPending p c.fpu).isSome then c
  else
    let c := maybeSetFpiar p pc (fpsrClearStatus c)
    let prec := c.regs.fpu.fpcr &&& fpcrRoundingPrecision
    let entry := constant c
    let (x, c) := c.soft (
      if prec = 0 then return entry.value
      else if prec = 0x40 then raise fun fs => lib.round32 fs entry.value
      else raise fun fs => lib.round64 fs entry.value)
    let x := if entry.f1Adjust = 0 then x else adjustF1 entry.f1Adjust x
    let c := (fpsrSetResult x (c.setFp (extra.extractLsb' 7 3).toFin x)).orFpsr entry.sr
    (fpsrCheckArithmeticException p save pc (fpsrMakeStatus p c).2).2

/-- `fpuop_arithmetic` with opclass 3: FMOVE of a register. `put` is what becomes of the longs in
the destination format, a bus error included. -/
def fpuopStore (put : List Long → FpuCpu → FpuCpu) (ended : FpuCpu → Bool) (save : SaveData)
    (dest : Dest) (extra : Word) (pc : Long) (c : FpuCpu) : FpuCpu :=
  let c := c.mapFpu fun f => { f with fpuState := true }
  if (fpExceptionPending p c.fpu).isSome then c
  else
    let c := fpsrClearStatus c
    let src := c.regs.fpu.fp.get (extra.extractLsb' 7 3).toFin
    let (ws, c) := c.soft (lib.store dest src)
    let c' := besides (put ws) c
    if ended c then c'
    else (fpsrCheckArithmeticException p save pc (maybeSetFpiar p pc (fpsrMakeStatus p c').2)).2

/-- The control registers an FMOVE or FMOVEM selects, in the order it loads them. -/
inductive CtrlReg where
  | fpcr | fpsr | fpiar
  deriving DecidableEq, Repr

def setCtrlReg (val : Long) : CtrlReg → FpuCpu → FpuCpu
  | .fpcr => fppSetFpcr p val
  | .fpsr => fppSetFpsr val
  | .fpiar => fppSetFpiar val

/-- `extra & (0x1000 | 0x0800 | 0x0400)`, and FPIAR where no bit is set. -/
def selected (extra : Word) : List CtrlReg :=
  if extra &&& 0x1C00 = 0 then [.fpiar]
  else
    (if extra &&& 0x1000 ≠ 0 then [.fpcr] else []) ++ (if extra &&& 0x0800 ≠ 0 then [.fpsr] else []) ++
      (if extra &&& 0x0400 ≠ 0 then [.fpiar] else [])

/-- FMOVE and FMOVEM to control registers. Each long is loaded as it is read; a read that faults
leaves the registers before it loaded. -/
def loadCtrl (vals : List (Option Long)) : List CtrlReg → FpuCpu → FpuCpu
  | [], c => c
  | r :: rs, c =>
    match vals with
    | some val :: vals => loadCtrl vals rs (setCtrlReg p val r c)
    | _ => c

/-- The operation FRESTORE of a busy frame makes again, on the operands of the frame. -/
def resumeArithmetic (save : SaveData) (et15 fpte15 : Bool) (c : FpuCpu) : FpuCpu :=
  let operand (x : Ext3) : Float80 := (x.w0 >>> 16).setWidth 16 ++ x.w1 ++ x.w2
  let cmdreg1b := c.fpu.fsave.cmdreg1b
  let dst := lib.denormalize (operand c.fpu.fsave.fpt) fpte15
  let src := lib.denormalize (operand c.fpu.fsave.et) et15
  let ((dst, v), c) := fpArithmetic p lib cmdreg1b src dst (fpsrClearStatus c)
  let c := if v then c.setFp (cmdreg1b.extractLsb' 7 3).toFin dst else c
  (fpsrCheckArithmeticException p save 0xFFFFFFFF c).2

/-! ## Runs -/

/-- What happens to the FPU. -/
inductive FpuEvent where
  | toCtrl (extra : Word) (vals : List (Option Long))
  | arithmetic (fetch : Fetch) (save : SaveData) (extra : Word) (pc : Long)
  | constant (save : SaveData) (constant : FpuCpu → Constant) (extra : Word) (pc : Long)
  | store (put : List Long → FpuCpu → FpuCpu) (ended : FpuCpu → Bool) (save : SaveData)
      (dest : Dest) (extra : Word) (pc : Long)
  | fsave (opcode : Word)
  | frestore (save : SaveData) (opcode : Word)
  /-- FRESTORE with a bus error: `part` is what the reads before it have left. -/
  | frestoreFault (part : FpuCpu → FpuCpu)
  | reset
  | setFpcr (value : Long)
  /-- Whatever the rest of the core does: another instruction, the processing of an exception. -/
  | other (f : FpuCpu → FpuCpu)

variable (disp : DispEa)

/-- The state an instruction leaves, with or without a trap. -/
def exitState : FpuExit → FpuCpu
  | .ok c => c
  | .error (_, c) => c

/-- The bits ET15 and FPTE15 of the busy frame an FRESTORE reads. -/
def frameSigns (opcode : Word) (c : FpuCpu) : Bool × Bool :=
  match getFpAd disp opcode c with
  | some (ad, c) => ((c.xCpGetLong (ad + 0x3C)).getLsbD 28, (c.xCpGetLong (ad + 0x44)).getLsbD 28)
  | none => (false, false)

def fpuStep (e : FpuEvent) (c : FpuCpu) : FpuCpu :=
  match e with
  | .toCtrl extra vals => loadCtrl p vals (selected extra) c
  | .arithmetic fetch save extra pc => fpuopArithmetic p lib fetch save extra pc c
  | .constant save constant extra pc => fpuGetConstant p lib save constant extra pc c
  | .store put ended save dest extra pc => fpuopStore p lib put ended save dest extra pc c
  | .fsave opcode => exitState (fpuopSave p disp opcode c)
  | .frestore save opcode =>
    let (et15, fpte15) := frameSigns disp opcode c
    exitState (fpuopRestore p disp (resumeArithmetic p lib save et15 fpte15) opcode c)
  | .frestoreFault part => besides part c
  | .reset => fpuReset p c
  | .setFpcr value => uaeCpuSetFpcr value c
  | .other f => besides f c

/-- The modes are those FPCR stands for. -/
def Agree (c : FpuCpu) : Prop :=
  c.fpu.status.floatRoundingMode = roundingOf c.regs.fpu.fpcr ∧
    c.fpu.status.floatx80RoundingPrecision = precisionOf c.regs.fpu.fpcr

instance (c : FpuCpu) : Decidable (Agree c) := inferInstanceAs (Decidable (_ ∧ _))

/-- The first long of a frame makes it a NULL frame. -/
def nullWord (d : Long) : Bool :=
  if p.fpuModel = .m68060 then (d >>> 8) &&& 0xFF == 0 else (d >>> 24) &&& 0xFF == 0

/-- FRESTORE takes a NULL frame. -/
def takesNull (opcode : Word) (c : FpuCpu) : Bool :=
  !faultIfNo6888x p && match getFpAd disp opcode c with
    | some (ad, c) => !ifNoFpu p c.fpu && nullWord p (c.xCpGetLong ad)
    | none => false

/-- FPCR stands for the same modes as the value `v`. -/
def SameModes (v fpcr : Long) : Prop := roundingOf v = roundingOf fpcr ∧ precisionOf v = precisionOf fpcr

/-- What an event asks of FPCR. -/
def KeepsAgreement (e : FpuEvent) (c : FpuCpu) : Prop :=
  match e with
  | .frestore _ opcode => takesNull p disp opcode c → SameModes 0 c.regs.fpu.fpcr
  | .setFpcr value => SameModes value c.regs.fpu.fpcr
  | _ => True

end Ops

end UaeCpu.Fpu
