import UaeCpu.FpuAgree

/-!
# UaeCpu.FpsrAccrued

The exception byte of FPSR and the accrued byte below it. Every instruction masks and ORs the one
word they share with condition codes and quotient.

* `Sticky`  — no bit of the accrued byte is cleared.
* `Accrues` — the accrued byte has what the exception byte asks for.
* `fpsr_accrued` — how far both hold, over every sequence of instructions.
-/

namespace UaeCpu.Fpu

open Mem Soft Trans

/-! ## The word -/

abbrev fpsrAeIop : Long := 0x80

abbrev fpsrCcNan : Long := 0x01000000

/-- The accrued exceptions of `r` are still there in `r'`. -/
def Sticky (r r' : Long) : Prop := ∀ i, (0xF8 : Long).getLsbD i → r.getLsbD i → r'.getLsbD i

/-- IOP for BSUN, SNAN and OPERR, OVFL for OVFL, UNFL for UNFL and INEX2, DZ for DZ, INEX for INEX1,
INEX2 and OVFL. -/
structure Accrues (r : Long) : Prop where
  iop : r.getLsbD 15 ∨ r.getLsbD 14 ∨ r.getLsbD 13 → r.getLsbD 7
  ovfl : r.getLsbD 12 → r.getLsbD 6
  unfl : r.getLsbD 11 → r.getLsbD 9 → r.getLsbD 5
  dz : r.getLsbD 10 → r.getLsbD 4
  inex : r.getLsbD 8 ∨ r.getLsbD 9 ∨ r.getLsbD 12 → r.getLsbD 3

instance (r : Long) : Decidable (Accrues r) :=
  decidable_of_iff
    ((r.getLsbD 15 ∨ r.getLsbD 14 ∨ r.getLsbD 13 → r.getLsbD 7) ∧ (r.getLsbD 12 → r.getLsbD 6) ∧
      (r.getLsbD 11 → r.getLsbD 9 → r.getLsbD 5) ∧ (r.getLsbD 10 → r.getLsbD 4) ∧
      (r.getLsbD 8 ∨ r.getLsbD 9 ∨ r.getLsbD 12 → r.getLsbD 3))
    ⟨fun ⟨h₁, h₂, h₃, h₄, h₅⟩ => ⟨h₁, h₂, h₃, h₄, h₅⟩,
      fun h => ⟨h.iop, h.ovfl, h.unfl, h.dz, h.inex⟩⟩

theorem Sticky.refl (r : Long) : Sticky r r := fun _ _ h => h

theorem Sticky.trans {r r' r'' : Long} (h : Sticky r r') (h' : Sticky r' r'') : Sticky r r'' :=
  fun i hi hr => h' i hi (h i hi hr)

theorem sticky_or (r b : Long) : Sticky r (r ||| b) := fun i _ hr => by
  rw [BitVec.getLsbD_or, hr, Bool.true_or]

theorem sticky_and {m : Long} (r : Long) (hm : m &&& 0xF8 = 0xF8) : Sticky r (r &&& m) := by
  intro i hi hr
  have hbit : m.getLsbD i = true := by
    rw [← hm, BitVec.getLsbD_and, Bool.and_eq_true] at hi
    exact hi.1
  rw [BitVec.getLsbD_and, hr, hbit]
  rfl

/-- Where two words agree on both bytes, one accrues if the other does. -/
theorem Accrues.congr {r r' : Long} (h : Accrues r)
    (hr : ∀ i, 3 ≤ i → i < 16 → r'.getLsbD i = r.getLsbD i) : Accrues r' where
  iop := by
    rw [hr 15 (by omega) (by omega), hr 14 (by omega) (by omega), hr 13 (by omega) (by omega),
      hr 7 (by omega) (by omega)]
    exact h.iop
  ovfl := by
    rw [hr 12 (by omega) (by omega), hr 6 (by omega) (by omega)]
    exact h.ovfl
  unfl := by
    rw [hr 11 (by omega) (by omega), hr 9 (by omega) (by omega), hr 5 (by omega) (by omega)]
    exact h.unfl
  dz := by
    rw [hr 10 (by omega) (by omega), hr 4 (by omega) (by omega)]
    exact h.dz
  inex := by
    rw [hr 8 (by omega) (by omega), hr 9 (by omega) (by omega), hr 12 (by omega) (by omega),
      hr 3 (by omega) (by omega)]
    exact h.inex

/-- An empty exception byte asks for nothing. -/
theorem Accrues.of_clear {r : Long} (h : ∀ i, 8 ≤ i → i < 16 → r.getLsbD i = false) : Accrues r where
  iop := by
    rw [h 15 (by omega) (by omega), h 14 (by omega) (by omega), h 13 (by omega) (by omega)]
    simp
  ovfl := by
    rw [h 12 (by omega) (by omega)]
    simp
  unfl := by
    rw [h 11 (by omega) (by omega)]
    simp
  dz := by
    rw [h 10 (by omega) (by omega)]
    simp
  inex := by
    rw [h 8 (by omega) (by omega), h 9 (by omega) (by omega), h 12 (by omega) (by omega)]
    simp

theorem getLsbD_of_and_eq_zero {v m : Long} {i : Nat} (hv : v &&& m = 0) (hm : m.getLsbD i = true) :
    v.getLsbD i = false := by
  have hbit : (v &&& m).getLsbD i = false := by rw [hv]; exact BitVec.getLsbD_zero
  simpa [hm] using hbit

theorem and_ne_zero_of_getLsbD {v m : Long} {i : Nat} (hv : v.getLsbD i = true)
    (hm : m.getLsbD i = true) : v &&& m ≠ 0 := fun h =>
  Bool.false_ne_true ((getLsbD_of_and_eq_zero h hm).symm.trans hv)

theorem getLsbD_or_of_and_eq_zero {v x m : Long} {i : Nat} (hx : x &&& m = 0)
    (hm : m.getLsbD i = true) : (v ||| x).getLsbD i = v.getLsbD i := by
  rw [BitVec.getLsbD_or, getLsbD_of_and_eq_zero hx hm, Bool.or_false]

/-! ## Instructions -/

/-- `f` with FPSR as it was: operand accesses, exceptions and traps do not write it. -/
def besidesFpsr (f : FpuCpu → FpuCpu) (c : FpuCpu) : FpuCpu :=
  (f c).mapCtrl fun r => { r with fpsr := c.regs.fpu.fpsr }

/-- A check that may end the instruction, and what it then does besides. -/
abbrev Stop : Type := FpuCpu → Option (FpuCpu → FpuCpu)

def Stop.guard (k : Stop) (rest : FpuCpu → FpuCpu) (c : FpuCpu) : FpuCpu :=
  match k c with
  | some f => besidesFpsr f c
  | none => rest c

/-- What surrounds an operation on a register: `fault_if_nonexisting_opmode`, `get_fp_value`, the
checks from `fault_if_no_fpu` to `fp_unimp_pend` with the normalised destination, and the exception
at the end. `get_fp_value` gives no value where it ends the instruction, with a bus error too. -/
structure General where
  refused : Stop
  getFpValue : FpuCpu → Option Float80
  fetched : FpuCpu → FpuCpu
  unimplemented : Float80 → Stop
  normalized : Float80 → Float80
  exception : FpuCpu → FpuCpu

/-- What surrounds the conversion in `put_fp_value2`: the checks before it, the operand a 68040 or
68060 does not handle, the stores, and what follows a conversion that a 68040 does not mask. `packed`
ends the instruction for a packed number that should go to a data register. -/
structure Out where
  stop : Stop
  datatype : Stop
  normalized : Float80 → Float80
  put : List Long → FpuCpu → FpuCpu
  faulted : List Long → FpuCpu → Bool
  nonmaskable : FpuCpu → FpuCpu
  packed : FpuCpu → FpuCpu

/-- What surrounds `fpp_cond`: the checks before it, the branch, store or trap after it, the BSUN
exception. -/
structure Conditional where
  stop : Stop
  rest : FpuCpu → FpuCpu
  bsun : FpuCpu → FpuCpu

section Ops

variable (p : FpuPrefs) (lib : SoftFloat)

/-- The first two checks of `fpuop_arithmetic2`. What the core makes of them is another event. -/
def opening (rest : FpuCpu → FpuCpu) (c : FpuCpu) : FpuCpu :=
  let c := c.mapFpu fun f => { f with fpuState := true }
  if faultIfNo6888x p ∨ (fpExceptionPending p c.fpu).isSome then c else rest c

/-- From `get_fp_value` on. -/
def generalOperation (o : General) (save : SaveData) (extra : Word) (pc : Long) (c : FpuCpu) :
    FpuCpu :=
  let src := o.getFpValue c
  let c := besidesFpsr o.fetched c
  match src with
  | none => c
  | some src => (o.unimplemented src).guard (fun c =>
      let reg : Fin 8 := (extra.extractLsb' 7 3).toFin
      let dst := o.normalized (c.regs.fpu.fp.get reg)
      let ((dst, v), c) := fpArithmetic p lib extra src dst (maybeSetFpiar p pc c)
      let (nonmaskable, c) := fpsrCheckArithmeticException p save pc c
      let c := if v ∧ (p.fpuModel ≠ .m68040 ∨ !nonmaskable) then c.setFp reg dst else c
      if nonmaskable then besidesFpsr o.exception c else c) c

/-- `fpuop_arithmetic2`, cases 0 and 2. -/
def opclass02 (o : General) (save : SaveData) (extra : Word) (pc : Long) : FpuCpu → FpuCpu :=
  opening p (o.refused.guard fun c => generalOperation p lib o save extra pc (fpsrClearStatus c))

/-- The same for FMOVECR. -/
def fmovecr (refused : Stop) (save : SaveData) (constant : FpuCpu → Constant) (extra : Word)
    (pc : Long) : FpuCpu → FpuCpu :=
  opening p (refused.guard (fpuGetConstant p lib save constant extra pc))

/-- `fault_if_68040_integer_nonmaskable` looks at the status of its own accord. -/
def integerNonmaskable (size : Word) : Bool :=
  (size == 0 || size == 4 || size == 6) && p.cpuModel == .m68040 && p.fpuModel != .none && p.softfloat

/-- From `fpsr_make_status` on. -/
def reportStatus (save : SaveData) (pc : Long) (c : FpuCpu) : FpuCpu :=
  (fpsrCheckArithmeticException p save pc (maybeSetFpiar p pc (fpsrMakeStatus p c).2)).2

/-- `put_fp_value` for any destination but the next one. -/
def putFpValue (o : Out) (save : SaveData) (dest : Dest) (size : Word) (pc : Long) (src : Float80) :
    FpuCpu → FpuCpu :=
  o.stop.guard fun c =>
    match o.datatype c with
    | some f => reportStatus p save pc (besidesFpsr f c)
    | none =>
      let (ws, c) := c.soft (lib.store dest (o.normalized src))
      let c := besidesFpsr (o.put ws) c
      if o.faulted ws c then c
      else if integerNonmaskable p size then
        let c := (fpsrMakeStatus p c).2
        if c.regs.fpu.fpsr &&& (fpsrSnan ||| fpsrOperr) ≠ 0 then besidesFpsr o.nonmaskable c
        else reportStatus p save pc c
      else reportStatus p save pc c

/-- A packed number to a data register: "K-factor size and other errors are checked even if EA is
illegal". -/
def packedToDn (o : Out) (kfactor : Long) (src : Float80) (c : FpuCpu) : FpuCpu :=
  besidesFpsr o.packed (
    if !p.fpuNoUnimplemented ∨ p.cpuModel.num < 68040 then
      let c := (c.soft (lib.fromPack kfactor (o.normalized src))).2
      c.orFpsr (fpGetStatus c.fpu.status.floatExceptionFlags)
    else c)

/-- The destination is `Dn` and the format packed. -/
def toPackedDn (opcode size : Word) : Bool := eaMode opcode == 0 && (size == 3 || size == 7)

/-- `fpuop_arithmetic2`, case 3: FMOVE of a register. -/
def opclass3 (o : Out) (save : SaveData) (dest : Dest) (kfactor : Long) (opcode extra : Word)
    (pc : Long) : FpuCpu → FpuCpu :=
  opening p fun c =>
    let c := fpsrClearStatus c
    let src := c.regs.fpu.fp.get (extra.extractLsb' 7 3).toFin
    let size := (extra >>> 10) &&& 7
    if toPackedDn opcode size then packedToDn p lib o kfactor src c
    else putFpValue p lib o save dest size pc src c

/-- `fpsr_set_bsun`: whether the exception is taken. -/
def fpsrSetBsun (c : FpuCpu) : Bool × FpuCpu :=
  let c := (c.orFpsr fpsrBsun).orFpsr fpsrAeIop
  if c.regs.fpu.fpcr &&& fpsrBsun ≠ 0 ∧ takesExceptions p then
    (true, c.mapFpu fun f => { f with fpExpPend := fpsrGetVector fpsrBsun })
  else (false, c)

/-- `fpuop_bcc`, `fpuop_dbcc`, `fpuop_scc` and `fpuop_trapcc`. -/
def conditional (o : Conditional) (condition : Word) : FpuCpu → FpuCpu :=
  o.stop.guard fun c =>
    if !jitFpu p ∧ condition &&& 0x10 ≠ 0 ∧ c.regs.fpu.fpsr &&& fpsrCcNan ≠ 0 then
      let (taken, c) := fpsrSetBsun p c
      besidesFpsr (if taken then o.bsun else o.rest) c
    else besidesFpsr o.rest c

/-! ## Runs -/

inductive FpsrEvent where
  | general (o : General) (save : SaveData) (extra : Word) (pc : Long)
  | constant (refused : Stop) (save : SaveData) (constant : FpuCpu → Constant) (extra : Word)
      (pc : Long)
  | out (o : Out) (save : SaveData) (dest : Dest) (kfactor : Long) (opcode extra : Word) (pc : Long)
  | cond (o : Conditional) (condition : Word)
  | toCtrl (extra : Word) (vals : List (Option Long))
  /-- `fpp_get_fpsr`, which makes the condition codes anew where translated code leaves a result. -/
  | getFpsr (fpResult : Float80)
  | fsave (opcode : Word)
  | frestore (save : SaveData) (opcode : Word)
  | reset
  | setFpsr (value : Long)
  /-- FMOVEM of data registers, instructions that end with a bus error, exceptions, the rest of the
  core. -/
  | other (f : FpuCpu → FpuCpu)

variable (disp : DispEa)

def fpsrStep (e : FpsrEvent) (c : FpuCpu) : FpuCpu :=
  match e with
  | .general o save extra pc => opclass02 p lib o save extra pc c
  | .constant refused save constant extra pc => fmovecr p lib refused save constant extra pc c
  | .out o save dest kfactor opcode extra pc => opclass3 p lib o save dest kfactor opcode extra pc c
  | .cond o condition => conditional p o condition c
  | .toCtrl extra vals => loadCtrl p vals (selected extra) c
  | .getFpsr fpResult => if jitFpu p then fpsrSetResult fpResult c else c
  | .fsave opcode => exitState (fpuopSave p disp opcode c)
  | .frestore save opcode =>
    let (et15, fpte15) := frameSigns disp opcode c
    exitState (fpuopRestore p disp (resumeArithmetic p lib save et15 fpte15) opcode c)
  | .reset => fpuReset p c
  | .setFpsr value => c.mapCtrl fun r => { r with fpsr := value }
  | .other f => besidesFpsr f c

end Ops

/-! ## What one function does to the word -/

section Status

variable {p : FpuPrefs} {lib : SoftFloat} (c : FpuCpu)

@[simp] theorem fpsr_besidesFpsr (f : FpuCpu → FpuCpu) :
    (besidesFpsr f c).regs.fpu.fpsr = c.regs.fpu.fpsr := rfl

@[simp] theorem fpsr_orFpsr (bits : Long) :
    (c.orFpsr bits).regs.fpu.fpsr = c.regs.fpu.fpsr ||| bits := rfl

@[simp] theorem fpsr_clearStatus :
    (fpsrClearStatus c).regs.fpu.fpsr = c.regs.fpu.fpsr &&& 0x0FFF00F8 := rfl

@[simp] theorem fpsr_maybeSetFpiar (pc : Long) :
    (maybeSetFpiar p pc c).regs.fpu.fpsr = c.regs.fpu.fpsr := by
  rw [maybeSetFpiar]
  split <;> rfl

@[simp] theorem fpsr_checkException (save : SaveData) (pc : Long) :
    (fpsrCheckArithmeticException p save pc c).2.regs.fpu.fpsr = c.regs.fpu.fpsr := by
  have hfpiar : ∀ c : FpuCpu, (if pc ≠ 0xFFFFFFFF then c.mapCtrl fun r => { r with fpiar := pc }
      else c).regs.fpu.fpsr = c.regs.fpu.fpsr := by
    intro c
    split <;> rfl
  rw [fpsrCheckArithmeticException]
  extract_lets vector c₁
  by_cases h : (!takesExceptions p) = true ∨ (c.regs.fpu.fpsr &&& c.regs.fpu.fpcr &&& 0xFF00) |||
      (if nonmaskables p then c.regs.fpu.fpsr &&& (fpsrOvfl ||| fpsrUnfl) else 0) = 0
  · rw [if_pos h]
  · rw [if_neg h]
    exact hfpiar _

theorem accrues_clearStatus : Accrues (fpsrClearStatus c).regs.fpu.fpsr := by
  refine .of_clear fun i hlo hhi => ?_
  have hmask : (0x0FFF00F8 : Long).getLsbD i = false := by
    obtain rfl | rfl | rfl | rfl | rfl | rfl | rfl | rfl : i = 8 ∨ i = 9 ∨ i = 10 ∨ i = 11 ∨ i = 12 ∨
      i = 13 ∨ i = 14 ∨ i = 15 := by omega
    all_goals decide
  rw [fpsr_clearStatus, BitVec.getLsbD_and, hmask, Bool.and_false]

theorem sticky_clearStatus : Sticky c.regs.fpu.fpsr (fpsrClearStatus c).regs.fpu.fpsr :=
  sticky_and _ (by decide)

/-- Below bit 24 only the last three bits change. -/
theorem fpsr_setResult (x : Float80) {i : Nat} (hi : (0x00FFFFF8 : Long).getLsbD i = true) :
    (fpsrSetResult x c).regs.fpu.fpsr.getLsbD i = c.regs.fpu.fpsr.getLsbD i := by
  have hbits : ∀ n cc : Long, n &&& 0x00FFFFF8 = 0 → cc &&& 0x00FFFFF8 = 0 →
      ((c.regs.fpu.fpsr &&& 0x00FFFFF8) ||| n ||| cc).getLsbD i = c.regs.fpu.fpsr.getLsbD i := by
    intro n cc hn hcc
    rw [BitVec.getLsbD_or, BitVec.getLsbD_or, BitVec.getLsbD_and, hi, getLsbD_of_and_eq_zero hn hi,
      getLsbD_of_and_eq_zero hcc hi]
    simp
  refine hbits _ _ ?_ ?_
  · split <;> decide
  · split_ifs <;> decide

theorem sticky_setResult (x : Float80) :
    Sticky c.regs.fpu.fpsr (fpsrSetResult x c).regs.fpu.fpsr := by
  intro i hi hr
  have hmask : (0x00FFFFF8 : Long).getLsbD i = true :=
    sticky_or 0xF8 0x00FFFF00 i hi hi
  rw [fpsr_setResult c x hmask]
  exact hr

theorem Accrues.setResult {c : FpuCpu} (h : Accrues c.regs.fpu.fpsr) (x : Float80) :
    Accrues (fpsrSetResult x c).regs.fpu.fpsr :=
  h.congr fun i hlo hhi => fpsr_setResult c x (by
    have : ∀ i : Fin 16, 3 ≤ i.val → (0x00FFFFF8 : Long).getLsbD i.val = true := by decide
    exact this ⟨i, hhi⟩ hlo)

/-- Bits of the accrued byte that `fpsr_make_status` sets before `updateaccrued`. -/
def overflowAccrued (r : Long) : Long :=
  (if r &&& fpsrOvfl ≠ 0 then 0x40 else 0) |||
    (if r &&& (fpsrOvfl ||| fpsrInex2 ||| fpsrInex1) ≠ 0 then 0x08 else 0)

@[simp] theorem fpsr_makeStatus :
    (fpsrMakeStatus p c).2.regs.fpu.fpsr =
      let r := c.regs.fpu.fpsr ||| fpGetStatus c.fpu.status.floatExceptionFlags
      updateaccrued (r ||| overflowAccrued r) := by
  rw [fpsrMakeStatus]
  split <;> rfl

theorem overflowAccrued_high (r : Long) : overflowAccrued r &&& 0xFF00 = 0 := by
  unfold overflowAccrued
  split_ifs <;> decide

theorem updateaccrued_eq (r : Long) : ∃ x, updateaccrued r = r ||| x ∧ x &&& 0xFF00 = 0 ∧
    (r &&& (fpsrBsun ||| fpsrSnan ||| fpsrOperr) ≠ 0 → x.getLsbD 7 = true) ∧
    (r &&& fpsrUnfl ≠ 0 → r &&& fpsrInex2 ≠ 0 → x.getLsbD 5 = true) ∧
    (r &&& fpsrDz ≠ 0 → x.getLsbD 4 = true) := by
  refine ⟨_, by rw [updateaccrued, BitVec.or_assoc, BitVec.or_assoc], ?_, ?_, ?_, ?_⟩
  · split_ifs <;> decide
  · intro h
    rw [if_pos h]
    split_ifs <;> decide
  · intro h h'
    rw [if_pos (And.intro h h')]
    split_ifs <;> decide
  · intro h
    rw [if_pos h]
    split_ifs <;> decide

theorem sticky_updateaccrued (r : Long) : Sticky r (updateaccrued r) := by
  obtain ⟨x, hx, -⟩ := updateaccrued_eq r
  rw [hx]
  exact sticky_or r x

theorem accrues_updateaccrued (r : Long) : Accrues (updateaccrued (r ||| overflowAccrued r)) := by
  obtain ⟨x, hx, hhigh, hiop, hunfl, hdz⟩ := updateaccrued_eq (r ||| overflowAccrued r)
  have hr {i : Nat} (hi : (0xFF00 : Long).getLsbD i = true) :
      (r ||| overflowAccrued r).getLsbD i = r.getLsbD i :=
    getLsbD_or_of_and_eq_zero (overflowAccrued_high r) hi
  have hu {i : Nat} (hi : (0xFF00 : Long).getLsbD i = true) :
      (updateaccrued (r ||| overflowAccrued r)).getLsbD i = (r ||| overflowAccrued r).getLsbD i := by
    rw [hx]
    exact getLsbD_or_of_and_eq_zero hhigh hi
  -- a bit of the accrued byte, set by either function
  have hof_x {i : Nat} (hi : x.getLsbD i = true) :
      (updateaccrued (r ||| overflowAccrued r)).getLsbD i = true := by
    rw [hx, BitVec.getLsbD_or, hi, Bool.or_true]
  have hof_overflow {i : Nat} (hi : (overflowAccrued r).getLsbD i = true) :
      (updateaccrued (r ||| overflowAccrued r)).getLsbD i = true := by
    rw [hx, BitVec.getLsbD_or, BitVec.getLsbD_or, hi, Bool.or_true, Bool.true_or]
  have h12 {i : Nat} (hi : (0xFF00 : Long).getLsbD i = true)
      (h : (updateaccrued (r ||| overflowAccrued r)).getLsbD i = true) : r.getLsbD i = true := by
    rw [← hr hi, ← hu hi]
    exact h
  refine ⟨fun h => hof_x (hiop ?_), fun h => hof_overflow ?_, fun h h' => hof_x (hunfl ?_ ?_),
    fun h => hof_x (hdz ?_), fun h => hof_overflow ?_⟩
  · obtain h | h | h := h
    · exact and_ne_zero_of_getLsbD ((hu (by decide)).symm.trans h) (by decide)
    · exact and_ne_zero_of_getLsbD ((hu (by decide)).symm.trans h) (by decide)
    · exact and_ne_zero_of_getLsbD ((hu (by decide)).symm.trans h) (by decide)
  · have hovfl : r &&& fpsrOvfl ≠ 0 := and_ne_zero_of_getLsbD (h12 (by decide) h) (by decide)
    rw [overflowAccrued, if_pos hovfl]
    split_ifs <;> decide
  · exact and_ne_zero_of_getLsbD ((hu (by decide)).symm.trans h) (by decide)
  · exact and_ne_zero_of_getLsbD ((hu (by decide)).symm.trans h') (by decide)
  · exact and_ne_zero_of_getLsbD ((hu (by decide)).symm.trans h) (by decide)
  · have hinex : r &&& (fpsrOvfl ||| fpsrInex2 ||| fpsrInex1) ≠ 0 := by
      obtain h | h | h := h
      · exact and_ne_zero_of_getLsbD (h12 (by decide) h) (by decide)
      · exact and_ne_zero_of_getLsbD (h12 (by decide) h) (by decide)
      · exact and_ne_zero_of_getLsbD (h12 (by decide) h) (by decide)
    rw [overflowAccrued, if_pos hinex]
    split_ifs <;> decide

theorem accrues_makeStatus : Accrues (fpsrMakeStatus p c).2.regs.fpu.fpsr := by
  rw [fpsr_makeStatus]
  exact accrues_updateaccrued _

theorem sticky_makeStatus : Sticky c.regs.fpu.fpsr (fpsrMakeStatus p c).2.regs.fpu.fpsr := by
  rw [fpsr_makeStatus]
  exact ((sticky_or _ _).trans (sticky_or _ _)).trans (sticky_updateaccrued _)

end Status

/-! ## Instructions, step by step -/

/-- What an instruction that does not write FPSR does to it. -/
structure Grows (c c' : FpuCpu) : Prop where
  sticky : Sticky c.regs.fpu.fpsr c'.regs.fpu.fpsr
  accrues : Accrues c.regs.fpu.fpsr → Accrues c'.regs.fpu.fpsr

theorem Grows.of_eq {c c' : FpuCpu} (h : c'.regs.fpu.fpsr = c.regs.fpu.fpsr) : Grows c c' where
  sticky := by rw [h]; exact .refl _
  accrues := by rw [h]; exact id

theorem Grows.trans {c c' c'' : FpuCpu} (h : Grows c c') (h' : Grows c' c'') : Grows c c'' where
  sticky := h.sticky.trans h'.sticky
  accrues ha := h'.accrues (h.accrues ha)

theorem Grows.of_accrues {c c' : FpuCpu} (hs : Sticky c.regs.fpu.fpsr c'.regs.fpu.fpsr)
    (ha : Accrues c'.regs.fpu.fpsr) : Grows c c' := ⟨hs, fun _ => ha⟩

section Steps

variable {p : FpuPrefs} {lib : SoftFloat} (c : FpuCpu)

theorem grows_clearStatus : Grows c (fpsrClearStatus c) :=
  .of_accrues (sticky_clearStatus c) (accrues_clearStatus c)

theorem Stop.guard_grows {k : Stop} {rest : FpuCpu → FpuCpu} (h : Grows c (rest c)) :
    Grows c (k.guard rest c) := by
  unfold Stop.guard
  cases k c with
  | some f => exact .of_eq rfl
  | none => exact h

theorem sticky_setQuotient (op : PlainOp) (src dst : Float80) :
    Sticky c.regs.fpu.fpsr (setQuotient lib op src dst c).regs.fpu.fpsr := by
  have h : ∀ q n r : Long, Sticky r ((r &&& 0x0F00FFF8) ||| q ||| n) := fun q n r =>
    ((sticky_and r (by decide)).trans (sticky_or _ q)).trans (sticky_or _ n)
  exact h _ _ _

variable (lib) in
theorem sticky_beforeCall (extra : Word) (src dst : Float80) (fn : ArithFn) :
    Sticky c.regs.fpu.fpsr (beforeCall lib extra src dst c fn).regs.fpu.fpsr := by
  cases fn with
  | prec | unknown => exact .refl _
  | plain op =>
    cases op with
    | mod | rem => exact sticky_setQuotient c _ src dst
    | _ => exact .refl _
  | fpsp op => cases op <;> exact .refl _

/-- FCMP and FTST look at the status before the result. -/
theorem grows_compared (x : Float80) : Grows c (fpsrSetResult x (fpsrMakeStatus p c).2) :=
  .of_accrues ((sticky_makeStatus c).trans (sticky_setResult _ x)) ((accrues_makeStatus c).setResult x)

theorem grows_computed (x : Float80) : Grows c (fpsrMakeStatus p (fpsrSetResult x c)).2 :=
  .of_accrues ((sticky_setResult c x).trans (sticky_makeStatus _)) (accrues_makeStatus _)

variable (p lib) in
theorem grows_fpArithmetic (extra : Word) (src dst : Float80) :
    Grows c (fpArithmetic p lib extra src dst c).2 := by
  rw [fpArithmetic]
  by_cases hu : arithFn extra = .unknown
  · simp only [if_pos hu]
    exact .of_eq rfl
  · have hbefore := sticky_beforeCall lib c extra src dst (arithFn extra)
    simp only [if_neg hu]
    generalize beforeCall lib extra src dst c (arithFn extra) = c₁ at hbefore ⊢
    have hsoft : ((c₁.soft (lib.call src dst (arithFn extra))).2).regs.fpu.fpsr = c₁.regs.fpu.fpsr := rfl
    rw [← hsoft] at hbefore
    generalize c₁.soft (lib.call src dst (arithFn extra)) = r at hbefore ⊢
    split
    · have h := grows_compared (p := p) r.2 r.1
      exact .of_accrues (hbefore.trans h.sticky) ((accrues_makeStatus r.2).setResult r.1)
    · have h := grows_computed (p := p) r.2 r.1
      exact .of_accrues (hbefore.trans h.sticky) (accrues_makeStatus _)

theorem grows_generalOperation (o : General) (save : SaveData) (extra : Word) (pc : Long) :
    Grows c (generalOperation p lib o save extra pc c) := by
  unfold generalOperation
  cases o.getFpValue c with
  | none => exact .of_eq rfl
  | some src =>
    refine Grows.trans (.of_eq (fpsr_besidesFpsr c o.fetched)) (Stop.guard_grows _ ?_)
    generalize besidesFpsr o.fetched c = c₀
    simp only
    have harith := grows_fpArithmetic p lib (maybeSetFpiar p pc c₀) extra src
      (o.normalized (c₀.regs.fpu.fp.get (extra.extractLsb' 7 3).toFin))
    generalize fpArithmetic p lib extra src _ (maybeSetFpiar p pc c₀) = r at harith ⊢
    have hcheck := fpsr_checkException (p := p) r.2 save pc
    generalize fpsrCheckArithmeticException p save pc r.2 = e at hcheck ⊢
    refine ((Grows.of_eq (fpsr_maybeSetFpiar c₀ pc)).trans harith).trans (.of_eq ?_)
    rw [← hcheck]
    split_ifs <;> rfl

theorem reportStatus_spec (save : SaveData) (pc : Long) :
    Sticky c.regs.fpu.fpsr (reportStatus p save pc c).regs.fpu.fpsr ∧
      Accrues (reportStatus p save pc c).regs.fpu.fpsr := by
  have h : (reportStatus p save pc c).regs.fpu.fpsr = (fpsrMakeStatus p c).2.regs.fpu.fpsr := by
    rw [reportStatus, fpsr_checkException, fpsr_maybeSetFpiar]
  rw [h]
  exact ⟨sticky_makeStatus c, accrues_makeStatus c⟩

theorem grows_reportStatus (save : SaveData) (pc : Long) : Grows c (reportStatus p save pc c) :=
  .of_accrues (reportStatus_spec c save pc).1 (reportStatus_spec c save pc).2

theorem grows_putFpValue (o : Out) (save : SaveData) (dest : Dest) (size : Word) (pc : Long)
    (src : Float80) : Grows c (putFpValue p lib o save dest size pc src c) := by
  refine Stop.guard_grows _ ?_
  cases o.datatype c with
  | some f => exact Grows.trans (.of_eq (fpsr_besidesFpsr c f)) (grows_reportStatus _ save pc)
  | none =>
    simp only
    have hsoft : ((c.soft (lib.store dest (o.normalized src))).2).regs.fpu.fpsr = c.regs.fpu.fpsr := rfl
    generalize c.soft (lib.store dest (o.normalized src)) = r at hsoft ⊢
    have hput : Grows c (besidesFpsr (o.put r.1) r.2) := .of_eq hsoft
    generalize besidesFpsr (o.put r.1) r.2 = c₁ at hput ⊢
    refine hput.trans ?_
    split
    · exact .of_eq rfl
    split
    · have hstatus : Grows c₁ (fpsrMakeStatus p c₁).2 :=
        .of_accrues (sticky_makeStatus c₁) (accrues_makeStatus c₁)
      generalize (fpsrMakeStatus p c₁).2 = c₂ at hstatus ⊢
      refine hstatus.trans ?_
      split
      · exact .of_eq rfl
      · exact grows_reportStatus c₂ save pc
    · exact grows_reportStatus c₁ save pc

theorem sticky_packedToDn (o : Out) (kfactor : Long) (src : Float80) :
    Sticky c.regs.fpu.fpsr (packedToDn p lib o kfactor src c).regs.fpu.fpsr := by
  rw [packedToDn, fpsr_besidesFpsr]
  split
  · exact sticky_or _ _
  · exact .refl _

theorem getConstant_spec (save : SaveData) (constant : FpuCpu → Constant) (extra : Word)
    (pc : Long) (hpend : (fpExceptionPending p c.fpu).isSome = false) :
    Sticky c.regs.fpu.fpsr (fpuGetConstant p lib save constant extra pc c).regs.fpu.fpsr ∧
      Accrues (fpuGetConstant p lib save constant extra pc c).regs.fpu.fpsr := by
  have hnot : ¬ (fpExceptionPending p (c.mapFpu fun f => { f with fpuState := true }).fpu).isSome :=
    fun h => Bool.false_ne_true (hpend.symm.trans h)
  simp only [fpuGetConstant, if_neg hnot, fpsr_checkException]
  refine ⟨?_, accrues_makeStatus _⟩
  have hclear : Grows c (maybeSetFpiar p pc (fpsrClearStatus
      (c.mapFpu fun f => { f with fpuState := true }))) :=
    Grows.trans (.of_eq rfl) ((grows_clearStatus _).trans (.of_eq (fpsr_maybeSetFpiar _ _)))
  generalize maybeSetFpiar p pc (fpsrClearStatus
      (c.mapFpu fun f => { f with fpuState := true })) = c₁ at hclear ⊢
  refine hclear.sticky.trans (Sticky.trans ?_ (sticky_makeStatus _))
  rw [fpsr_orFpsr]
  refine Sticky.trans ?_ (sticky_or _ _)
  exact sticky_setResult (FpuCpu.setFp _ _ _) _

/-- BSUN sets IOP at once. -/
theorem Accrues.bsun {r : Long} (h : Accrues r) : Accrues (r ||| fpsrBsun ||| fpsrAeIop) := by
  have hlow {i : Nat} (hi : (0x7F78 : Long).getLsbD i = true) :
      (r ||| fpsrBsun ||| fpsrAeIop).getLsbD i = r.getLsbD i := by
    rw [getLsbD_or_of_and_eq_zero (m := 0x7F78) (by decide) hi,
      getLsbD_or_of_and_eq_zero (m := 0x7F78) (by decide) hi]
  have hiop : (r ||| fpsrBsun ||| fpsrAeIop).getLsbD 7 = true := by
    rw [BitVec.getLsbD_or]
    simp
  refine ⟨fun _ => hiop, ?_, ?_, ?_, ?_⟩
  · rw [hlow (by decide), hlow (by decide)]
    exact h.ovfl
  · rw [hlow (by decide), hlow (by decide), hlow (by decide)]
    exact h.unfl
  · rw [hlow (by decide), hlow (by decide)]
    exact h.dz
  · rw [hlow (by decide), hlow (by decide), hlow (by decide), hlow (by decide)]
    exact h.inex

theorem fpsr_setBsun :
    (fpsrSetBsun p c).2.regs.fpu.fpsr = c.regs.fpu.fpsr ||| fpsrBsun ||| fpsrAeIop := by
  rw [fpsrSetBsun]
  split <;> rfl

/-- A conditional instruction raises BSUN or leaves FPSR alone. -/
theorem fpsr_conditional (o : Conditional) (condition : Word) :
    (conditional p o condition c).regs.fpu.fpsr = c.regs.fpu.fpsr ∨
      (conditional p o condition c).regs.fpu.fpsr = c.regs.fpu.fpsr ||| fpsrBsun ||| fpsrAeIop := by
  rw [conditional, Stop.guard]
  cases o.stop c with
  | some f => exact .inl rfl
  | none =>
    dsimp only
    split
    · exact .inr (fpsr_setBsun c)
    · exact .inl rfl

theorem grows_conditional (o : Conditional) (condition : Word) :
    Grows c (conditional p o condition c) := by
  obtain h | h := fpsr_conditional (p := p) c o condition
  · exact .of_eq h
  · refine ⟨?_, fun ha => ?_⟩
    · rw [h]
      exact (sticky_or _ _).trans (sticky_or _ _)
    · rw [h]
      exact ha.bsun

theorem iop_of_bsun (o : Conditional) (condition : Word) (h : c.regs.fpu.fpsr.getLsbD 15 = false)
    (h' : (conditional p o condition c).regs.fpu.fpsr.getLsbD 15 = true) :
    (conditional p o condition c).regs.fpu.fpsr.getLsbD 7 = true := by
  obtain he | he := fpsr_conditional (p := p) c o condition
  · rw [he, h] at h'
    cases h'
  · rw [he, BitVec.getLsbD_or]
    simp

/-! ## Frames and control registers -/

variable {disp : DispEa} {opcode : Word}

theorem SameCtrl.grows {c c' : FpuCpu} (h : SameCtrl c c') : Grows c c' := .of_eq (by rw [h.ctrl])

theorem grows_fpuopRestore {resume : FpuCpu → FpuCpu} (hres : ∀ c, Grows c (resume c))
    (hnull : takesNull p disp opcode c = false) :
    Grows c (exitState (fpuopRestore p disp resume opcode c)) := by
  refine fpuopRestore_ends c ⟨fun _ _ h => h.grows, fun _ c' h => h.grows.trans (hres c'),
    fun h => absurd (hnull.symm.trans h) Bool.false_ne_true⟩ fun c' i v h => h.trans (.of_eq ?_)
  simp only [FpuCpu.mapRegs, Regs.setAreg]
  split <;> rfl

theorem grows_resumeArithmetic (save : SaveData) (et15 fpte15 : Bool) :
    Grows c (resumeArithmetic p lib save et15 fpte15 c) := by
  unfold resumeArithmetic
  extract_lets operand cmdreg1b dst src
  have harith : Grows c (fpArithmetic p lib cmdreg1b src dst (fpsrClearStatus c)).2 :=
    (grows_clearStatus c).trans (grows_fpArithmetic p lib (fpsrClearStatus c) cmdreg1b src dst)
  generalize fpArithmetic p lib cmdreg1b src dst (fpsrClearStatus c) = r at harith ⊢
  refine harith.trans (.of_eq ?_)
  rw [fpsr_checkException]
  split <;> rfl

theorem fpsr_loadCtrl {vals : List (Option Long)} {rs : List CtrlReg} (h : CtrlReg.fpsr ∉ rs) :
    (loadCtrl p vals rs c).regs.fpu.fpsr = c.regs.fpu.fpsr := by
  induction rs generalizing vals c with
  | nil => rw [loadCtrl]
  | cons r rs ih =>
    rw [List.mem_cons, not_or] at h
    cases vals with
    | nil => rfl
    | cons val vals =>
      cases val with
      | none => rfl
      | some val =>
        have hr : (setCtrlReg p val r c).regs.fpu.fpsr = c.regs.fpu.fpsr := by
          cases r with
          | fpsr => exact absurd rfl h.1
          | fpcr | fpiar => rfl
        exact (ih _ h.2).trans hr

end Steps

/-! ## Over every sequence -/

section Runs

variable (p : FpuPrefs) (lib : SoftFloat) (disp : DispEa)

/-- FMOVE to FPSR, the API's own write, a NULL frame, a reset. -/
def WritesFpsr (e : FpsrEvent) (c : FpuCpu) : Prop :=
  match e with
  | .toCtrl extra _ => CtrlReg.fpsr ∈ selected extra
  | .frestore _ opcode => takesNull p disp opcode c = true
  | .reset | .setFpsr _ => True
  | _ => False

/-- The instruction gets as far as `fpsr_clear_status`. -/
def ClearsStatus (e : FpsrEvent) (c : FpuCpu) : Prop :=
  ¬ (faultIfNo6888x p = true ∨ (fpExceptionPending p c.fpu).isSome = true) ∧
    match e with
    | .general o _ _ _ => o.refused (c.mapFpu fun f => { f with fpuState := true }) = none
    | .constant refused _ _ _ _ => refused (c.mapFpu fun f => { f with fpuState := true }) = none
    | .out .. => True
    | _ => False

/-- FMOVE of a packed number to a data register. -/
def IsPackedToDn : FpsrEvent → Prop
  | .out _ _ _ _ opcode extra _ => toPackedDn opcode ((extra >>> 10) &&& 7) = true
  | _ => False

def IsConditional : FpsrEvent → Prop
  | .cond .. => True
  | _ => False

/-- A conditional instruction whose condition tells NaNs apart, and that finds one. -/
def RaisesBsun (e : FpsrEvent) (c : FpuCpu) : Prop :=
  match e with
  | .cond o condition => o.stop c = none ∧ jitFpu p = false ∧ condition &&& 0x10 ≠ 0 ∧ c.regs.fpu.fpsr &&& fpsrCcNan ≠ 0
  | _ => False

variable {p lib disp} {e : FpsrEvent} {c : FpuCpu}

theorem opening_grows {rest : FpuCpu → FpuCpu}
    (h : ∀ c, (fpExceptionPending p c.fpu).isSome = false → Grows c (rest c)) :
    Grows c (opening p rest c) := by
  rw [opening]
  by_cases hstop : faultIfNo6888x p = true ∨ (fpExceptionPending p c.fpu).isSome = true
  · rw [if_pos (by exact hstop)]
    exact .of_eq rfl
  · rw [if_neg (by exact hstop)]
    refine Grows.trans ?_ (h _ (Bool.eq_false_iff.mpr fun hp => hstop (.inr hp)))
    exact .of_eq rfl

theorem opening_eq {rest : FpuCpu → FpuCpu}
    (h : ¬ (faultIfNo6888x p = true ∨ (fpExceptionPending p c.fpu).isSome = true)) :
    opening p rest c = rest (c.mapFpu fun f => { f with fpuState := true }) := by
  rw [opening, if_neg (by exact h)]

theorem grows_opclass02 (o : General) (save : SaveData) (extra : Word) (pc : Long) :
    Grows c (opclass02 p lib o save extra pc c) :=
  opening_grows fun c _ => Stop.guard_grows c
    ((grows_clearStatus c).trans (grows_generalOperation _ o save extra pc))

theorem grows_fmovecr (refused : Stop) (save : SaveData) (constant : FpuCpu → Constant)
    (extra : Word) (pc : Long) : Grows c (fmovecr p lib refused save constant extra pc c) :=
  opening_grows fun c hpend => Stop.guard_grows c (.of_accrues
    (getConstant_spec c save constant extra pc hpend).1
    (getConstant_spec c save constant extra pc hpend).2)

theorem sticky_opclass3 (o : Out) (save : SaveData) (dest : Dest) (kfactor : Long)
    (opcode extra : Word) (pc : Long) :
    Sticky c.regs.fpu.fpsr
      (opclass3 p lib o save dest kfactor opcode extra pc c).regs.fpu.fpsr := by
  rw [opclass3, opening]
  split
  · exact .refl _
  · refine (sticky_clearStatus (c.mapFpu fun f => { f with fpuState := true })).trans ?_
    dsimp only
    split
    · exact sticky_packedToDn _ o kfactor _
    · exact (grows_putFpValue _ o save dest _ pc _).sticky

theorem grows_opclass3 (o : Out) (save : SaveData) (dest : Dest) (kfactor : Long)
    {opcode extra : Word} (pc : Long) (h : ¬ toPackedDn opcode ((extra >>> 10) &&& 7) = true) :
    Grows c (opclass3 p lib o save dest kfactor opcode extra pc c) := by
  refine opening_grows fun c _ => ?_
  dsimp only
  rw [if_neg h]
  exact (grows_clearStatus c).trans (grows_putFpValue _ o save dest _ pc _)

/-- Nothing but a write to FPSR, a NULL frame or a reset clears an accrued exception, and nothing but
these and FMOVE of a packed number to a data register leaves out one. -/
theorem grows_step (h : ¬ WritesFpsr p disp e c) (hd : ¬ IsPackedToDn e) :
    Grows c (fpsrStep p lib disp e c) := by
  cases e with
  | general o save extra pc => exact grows_opclass02 o save extra pc
  | constant refused save constant extra pc => exact grows_fmovecr refused save constant extra pc
  | out o save dest kfactor opcode extra pc => exact grows_opclass3 o save dest kfactor pc hd
  | cond o condition => exact grows_conditional c o condition
  | toCtrl extra vals => exact .of_eq (fpsr_loadCtrl c h)
  | getFpsr fpResult =>
    rw [fpsrStep]
    split
    · exact ⟨sticky_setResult c fpResult, fun ha => ha.setResult fpResult⟩
    · exact .of_eq rfl
  | fsave opcode => exact (fpuopSave_sameCtrl c).grows
  | frestore save opcode =>
    exact grows_fpuopRestore c (fun c => grows_resumeArithmetic c save _ _)
      (Bool.eq_false_iff.mpr h)
  | reset => exact absurd trivial h
  | setFpsr value => exact absurd trivial h
  | other f => exact .of_eq rfl

theorem sticky_step (h : ¬ WritesFpsr p disp e c) :
    Sticky c.regs.fpu.fpsr (fpsrStep p lib disp e c).regs.fpu.fpsr := by
  by_cases hd : IsPackedToDn e
  · cases e with
    | out o save dest kfactor opcode extra pc =>
      exact sticky_opclass3 o save dest kfactor opcode extra pc
    | _ => exact hd.elim
  · exact (grows_step h hd).sticky

theorem accrues_step (h : ClearsStatus p e c) (hd : ¬ IsPackedToDn e) :
    Accrues (fpsrStep p lib disp e c).regs.fpu.fpsr := by
  obtain ⟨hopen, h⟩ := h
  cases e with
  | general o save extra pc =>
    rw [fpsrStep, opclass02, opening_eq hopen, Stop.guard, h]
    exact (grows_generalOperation _ o save extra pc).accrues (accrues_clearStatus _)
  | constant refused save constant extra pc =>
    rw [fpsrStep, fmovecr, opening_eq hopen, Stop.guard, h]
    exact (getConstant_spec _ save constant extra pc
      (Bool.eq_false_iff.mpr fun hp => hopen (.inr hp))).2
  | out o save dest kfactor opcode extra pc =>
    rw [fpsrStep, opclass3, opening_eq hopen]
    dsimp only
    rw [if_neg (by exact hd)]
    exact (grows_putFpValue _ o save dest _ pc _).accrues (accrues_clearStatus _)
  | _ => exact h.elim

theorem bsun_step (he : IsConditional e) (h : c.regs.fpu.fpsr.getLsbD 15 = false)
    (h' : (fpsrStep p lib disp e c).regs.fpu.fpsr.getLsbD 15 = true) :
    (fpsrStep p lib disp e c).regs.fpu.fpsr.getLsbD 7 = true := by
  cases e with
  | cond o condition => exact iop_of_bsun c o condition h h'
  | _ => exact he.elim

/-- Also where BSUN is set already. -/
theorem raisesBsun_step (h : RaisesBsun p e c) :
    (fpsrStep p lib disp e c).regs.fpu.fpsr = c.regs.fpu.fpsr ||| fpsrBsun ||| fpsrAeIop := by
  cases e with
  | cond o condition =>
    obtain ⟨hstop, hjit, hcond, hnan⟩ := h
    rw [fpsrStep, conditional, Stop.guard, hstop]
    dsimp only
    rw [if_pos ⟨by rw [hjit]; rfl, hcond, hnan⟩, fpsr_besidesFpsr, fpsr_setBsun]
  | _ => exact h.elim

theorem iop_step (h : RaisesBsun p e c) : (fpsrStep p lib disp e c).regs.fpu.fpsr.getLsbD 7 = true := by
  rw [raisesBsun_step h, BitVec.getLsbD_or]
  simp

variable (p lib disp)

/-- What FPSR is written with accrues, and no packed number goes to a data register. -/
def KeepsAccrual (e : FpsrEvent) (c : FpuCpu) : Prop :=
  (WritesFpsr p disp e c → Accrues (fpsrStep p lib disp e c).regs.fpu.fpsr) ∧ ¬ IsPackedToDn e

/-- Over every sequence of events: without a write to FPSR, a NULL frame or a reset no accrued
exception is lost; an operation or an FMOVE out that clears the exception byte leaves it accrued, a
conditional instruction the BSUN it raises; and where every value written accrues, so does FPSR all
the time. A packed number to a data register is left out of the last two. -/
theorem fpsr_accrued (events : List FpsrEvent) (c : FpuCpu) :
    (Calls.AllMeet (fpsrStep p lib disp) (fun e c => ¬ WritesFpsr p disp e c) events c →
      Sticky c.regs.fpu.fpsr (Calls.run (fpsrStep p lib disp) events c).regs.fpu.fpsr) ∧
    Calls.AllMeet (fpsrStep p lib disp) (fun e c =>
      (ClearsStatus p e c → ¬ IsPackedToDn e → Accrues (fpsrStep p lib disp e c).regs.fpu.fpsr) ∧
      (RaisesBsun p e c → (fpsrStep p lib disp e c).regs.fpu.fpsr.getLsbD 7 = true) ∧
      (IsConditional e → c.regs.fpu.fpsr.getLsbD 15 = false →
        (fpsrStep p lib disp e c).regs.fpu.fpsr.getLsbD 15 = true →
        (fpsrStep p lib disp e c).regs.fpu.fpsr.getLsbD 7 = true)) events c ∧
    (Accrues c.regs.fpu.fpsr →
      Calls.AllMeet (fpsrStep p lib disp) (KeepsAccrual p lib disp) events c →
      Calls.Throughout (fpsrStep p lib disp) (fun c => Accrues c.regs.fpu.fpsr) events c) := by
  refine ⟨fun h => ?_, Calls.allMeet_of_forall
    (fun e c => ⟨accrues_step, iop_step, bsun_step⟩) events c, fun ha h => ?_⟩
  · induction events generalizing c with
    | nil => exact .refl _
    | cons e events ih => exact (sticky_step h.1).trans (ih _ h.2)
  · induction events generalizing c with
    | nil => exact ha
    | cons e events ih =>
      refine ⟨ha, ih _ ?_ h.2⟩
      by_cases hw : WritesFpsr p disp e c
      · exact h.1.1 hw
      · exact (grows_step hw h.1.2).accrues ha

end Runs

/-- An FPU of the 68040 with nothing pending. -/
def quietFpu : FpuCpu := (operandError .none 0).mapFpu fun f => { f with fpExpPend := 0 }

/-- A library that rounds a decimal number. -/
def SoftFloat.inexactDecimal : SoftFloat :=
  { SoftFloat.identity with toDecimal := fun _ _ _ _ => ([], 0x20) }

/-- `FMOVE.L #$1000,FPSR` and `FBT`: OVFL is set, the accrued byte is not. `FMOVE.P FP0,D0`: INEX2 is
set, the accrued byte is not. -/
theorem exceptions_not_accrued :
    ¬ Accrues (Calls.run (fpsrStep (.plain .m68030 .m68882) .identity fun _ a => (a, 0))
      [.toCtrl 0x8800 [some 0x1000], .cond ⟨fun _ => none, id, id⟩ 0x0F] quietFpu).regs.fpu.fpsr ∧
    ¬ Accrues (fpsrStep (.plain .m68030 .m68882) .inexactDecimal (fun _ a => (a, 0))
      (.out ⟨fun _ => none, fun _ => none, id, fun _ => id, fun _ _ => false, id, id⟩
        (fun c => (c.fpu.fsave, c.fpu.fpuExpState)) (.packed 0) 0 0xF200 0x6C00 0)
      quietFpu).regs.fpu.fpsr := by
  decide

end UaeCpu.Fpu
