import UaeCpu.Atc
import Mathlib.Tactic.SplitIfs

/-!
# UaeCpu.Movec

`MOVEC`: which control registers a model has (`movec_illg`), the write (`m68k_move2c`) with the
bits each register keeps, and the read (`m68k_movec2`).

* `m68kMove2c_kept` — a write changes its own register, and A7 where that is the active stack.
* `m68kMovec2_move2c` — what is read back is the value under the register's mask.
-/

namespace UaeCpu

/-! ## Registers -/

/-- The control registers, in the order of their numbers. -/
inductive ControlReg where
  | sfc | dfc | cacr | tcr | itt0 | itt1 | dtt0 | dtt1 | buscr
  | usp | vbr | caar | msp | isp | mmusr | urp | srp | pcr
  deriving DecidableEq

/-- The cases of the two switches; `none` is their `default`. -/
def ControlReg.ofNumber (regno : BitVec 12) : Option ControlReg :=
  if regno = 0x000 then some sfc
  else if regno = 0x001 then some dfc
  else if regno = 0x002 then some cacr
  else if regno = 0x003 then some tcr
  else if regno = 0x004 then some itt0
  else if regno = 0x005 then some itt1
  else if regno = 0x006 then some dtt0
  else if regno = 0x007 then some dtt1
  else if regno = 0x008 then some buscr
  else if regno = 0x800 then some usp
  else if regno = 0x801 then some vbr
  else if regno = 0x802 then some caar
  else if regno = 0x803 then some msp
  else if regno = 0x804 then some isp
  else if regno = 0x805 then some mmusr
  else if regno = 0x806 then some urp
  else if regno = 0x807 then some srp
  else if regno = 0x808 then some pcr
  else none

/-- The configuration the instruction depends on. -/
structure MovecPrefs where
  cpuModel : Model
  mmuModel : Bool
  mmuEc : Bool
  /-- `fpu_model > 0`. -/
  fpuModel : Bool
  deriving DecidableEq

/-- What a write updates beside its register. -/
inductive MovecSide where
  /-- `set_cpu_caches`: prefetch and cache state. -/
  | cpuCaches
  /-- `mmu_tt_modified`. -/
  | ttModified
  /-- `mmu_set_tc`: page size, cache defaults, and a flushed ATC. -/
  | mmuTc (tc : Word)
  /-- `flush_icache`, when the FPU is switched. -/
  | flushIcache
  deriving DecidableEq

/-- The control registers as `regs` has them, with A7 and the bits of SR the instruction looks at. -/
structure MovecState where
  val : ControlReg → Long
  a7 : Long
  s : Bool
  m : Bool
  side : List MovecSide

/-- How `m68k_move2c` and `m68k_movec2` end: with 1, or with 0 behind `Exception (8)` or `op_illg`,
both called in the state the instruction found. -/
inductive MovecEnd (α : Type) where
  | done (a : α)
  | privilege
  | illegal (opcode : Word)

def movecIllg (model : Model) (regno : BitVec 12) : Bool :=
  let regno2 := regno &&& 0x7ff
  match model with
  | .m68060 =>
    if regno ≤ 8 then false
    else !(regno = 0x800 ∨ regno = 0x801 ∨ regno = 0x806 ∨ regno = 0x807 ∨ regno = 0x808)
  | .m68010 => !decide (regno2 < 2)
  | .m68020 =>
    -- "68040/060 only"
    if regno = 3 then true
    -- "4 is >=68040, but 0x804 is in 68020"
    else !(regno2 < 4 ∨ regno = 0x804)
  | .m68030 => if regno2 ≤ 2 then false else !(regno = 0x803 ∨ regno = 0x804)
  | .m68040 =>
    -- "68020/030 only"
    if regno = 0x802 then true else !decide (regno2 < 8)
  | .m68000 => true

namespace MovecState

variable (p : MovecPrefs) (st : MovecState)

def set (r : ControlReg) (v : Long) : MovecState := { st with val := Function.update st.val r v }

def note (e : MovecSide) : MovecState := { st with side := e :: st.side }

/-! ## Writing -/

/-- `cacr_mask` of the write. -/
def cacrWriteMask : Model → Long
  | .m68020 => 0x0000000f
  | .m68030 => 0x00003f1f
  | .m68040 => 0x80008000
  | .m68060 => 0xf8e0e000
  | _ => 0

/-- `if (regs.cacr & bit) regs.cacr &= ~bit`. -/
def clearBit (cacr bit : Long) : Long := if cacr &&& bit ≠ 0 then cacr &&& ~~~bit else cacr

/-- What `flush_cpu_caches (false)` leaves of CACR: the bits that ask for a flush are done with. -/
def flushedCacr (model : Model) (cacr : Long) : Long :=
  match model with
  | .m68020 => clearBit (clearBit cacr 0x08) 0x04
  | .m68030 => clearBit (clearBit (clearBit (clearBit cacr 0x08) 0x04) 0x800) 0x400
  | _ => cacr

/-- What `mmu_set_tc` makes of its argument. -/
def mmuSetTcValue (tc : Word) : Word :=
  if p.mmuEc then if p.cpuModel = .m68040 then 0 else tc &&& ~~~(0x8000 ||| 0x4000) else tc

/-- The case of TCR. -/
def setTcr (v : Long) : MovecState :=
  let tcr := v &&& (if p.cpuModel = .m68060 then 0xfffe else 0xc000)
  if p.mmuModel then
    (st.set .tcr ((mmuSetTcValue p (tcr.setWidth 16)).setWidth 32)).note (.mmuTc (tcr.setWidth 16))
  else st.set .tcr tcr

/-- The case of PCR. -/
def setPcr (v : Long) : MovecState :=
  let opcr := st.val .pcr
  let pcr := opcr &&& ~~~(0x40 ||| 2 ||| 1 : Long)
  let pcr := pcr ||| v &&& (0x40 ||| 2 ||| 1 : Long)
  let pcr := if p.fpuModel then pcr else pcr ||| 2
  let st := st.set .pcr pcr
  if (opcr ^^^ pcr) &&& 2 = 2 then st.note .flushIcache else st

/-- The switch of `m68k_move2c`. -/
def write (r : ControlReg) (v : Long) : MovecState :=
  match r with
  | .sfc => st.set .sfc (v &&& 7)
  | .dfc => st.set .dfc (v &&& 7)
  | .cacr => (st.set .cacr (flushedCacr p.cpuModel (v &&& cacrWriteMask p.cpuModel))).note .cpuCaches
  | .tcr => st.setTcr p v
  | .itt0 => (st.set .itt0 (v &&& 0xffffe364)).note .ttModified
  | .itt1 => (st.set .itt1 (v &&& 0xffffe364)).note .ttModified
  | .dtt0 => (st.set .dtt0 (v &&& 0xffffe364)).note .ttModified
  | .dtt1 => (st.set .dtt1 (v &&& 0xffffe364)).note .ttModified
  | .buscr => st.set .buscr (st.val .buscr &&& 0x50000000 ||| v &&& 0xa0000000)
  | .usp => st.set .usp v
  | .vbr => st.set .vbr v
  | .caar => st.set .caar v
  | .msp =>
    let st := st.set .msp v
    if st.m then { st with a7 := v } else st
  | .isp =>
    let st := st.set .isp v
    if st.m then st else { st with a7 := v }
  | .mmusr => st.set .mmusr v
  | .urp => st.set .urp (v &&& (if p.cpuModel = .m68060 then 0xfffffe00 else 0xffffffff))
  | .srp => st.set .srp (v &&& (if p.cpuModel = .m68060 then 0xfffffe00 else 0xffffffff))
  | .pcr => st.setPcr p v

def m68kMove2c (regno : BitVec 12) (v : Long) : MovecEnd MovecState :=
  if movecIllg p.cpuModel regno then
    if p.cpuModel.num < 68060 ∧ st.s = false then .privilege else .illegal 0x4e7b
  else if st.s = false then .privilege
  else
    match ControlReg.ofNumber regno with
    | some r => .done (st.write p r v)
    | none => .illegal 0x4e7b

/-! ## Reading -/

/-- `cacr_mask` of the read. -/
def cacrReadMask : Model → Long
  | .m68020 => 0x00000003
  | .m68030 => 0x00003313
  | .m68040 => 0x80008000
  | .m68060 => 0xf880e000
  | _ => 0

/-- The switch of `m68k_movec2`. -/
def read (r : ControlReg) : Long :=
  match r with
  | .cacr => st.val .cacr &&& cacrReadMask p.cpuModel
  | .msp => if st.m then st.a7 else st.val .msp
  | .isp => if st.m then st.val .isp else st.a7
  | r => st.val r

def m68kMovec2 (regno : BitVec 12) : MovecEnd Long :=
  if movecIllg p.cpuModel regno then
    if p.cpuModel.num < 68060 ∧ st.s = false then .privilege else .illegal 0x4e7a
  else if st.s = false then .privilege
  else
    match ControlReg.ofNumber regno with
    | some r => .done (st.read p r)
    | none => .illegal 0x4e7a

end MovecState

open MovecState

/-! ## Legality -/

/-- Every register a model has is a case of the switches. -/
theorem ofNumber_isSome (model : Model) (regno : BitVec 12) (h : movecIllg model regno = false) :
    ∃ r, ControlReg.ofNumber regno = some r := by
  rw [← Option.isSome_iff_exists]
  revert regno
  cases model <;> decide +kernel

section Law

variable (p : MovecPrefs) (st : MovecState) (regno : BitVec 12) (v : Long)

theorem num_lt_060 (m : Model) : m.num < 68060 ↔ m ≠ .m68060 := by
  cases m <;> decide

/-- The write goes through where the model has the register and the CPU is in supervisor mode. -/
theorem m68kMove2c_done (s' : MovecState) :
    st.m68kMove2c p regno v = .done s' ↔ movecIllg p.cpuModel regno = false ∧ st.s = true ∧
      ∃ r, ControlReg.ofNumber regno = some r ∧ s' = st.write p r v := by
  unfold m68kMove2c
  cases hl : movecIllg p.cpuModel regno
  · obtain ⟨r, hr⟩ := ofNumber_isSome p.cpuModel regno hl
    cases hs : st.s
    · simp
    · simp [hr, eq_comm]
  · split_ifs <;> simp_all

theorem m68kMovec2_done (w : Long) :
    st.m68kMovec2 p regno = .done w ↔ movecIllg p.cpuModel regno = false ∧ st.s = true ∧
      ∃ r, ControlReg.ofNumber regno = some r ∧ w = st.read p r := by
  unfold m68kMovec2
  cases hl : movecIllg p.cpuModel regno
  · obtain ⟨r, hr⟩ := ofNumber_isSome p.cpuModel regno hl
    cases hs : st.s
    · simp
    · simp [hr, eq_comm]
  · split_ifs <;> simp_all

theorem m68kMove2c_privilege :
    st.m68kMove2c p regno v = .privilege ↔
      st.s = false ∧ (movecIllg p.cpuModel regno = false ∨ p.cpuModel ≠ .m68060) := by
  unfold m68kMove2c
  simp only [num_lt_060]
  cases hl : movecIllg p.cpuModel regno
  · obtain ⟨r, hr⟩ := ofNumber_isSome p.cpuModel regno hl
    cases hs : st.s <;> simp [hr]
  · cases hs : st.s <;> by_cases hm : p.cpuModel = .m68060 <;> simp [hm]

/-! ## What a write changes -/

/-- The register is the stack pointer in use. -/
def ActiveStack (r : ControlReg) : Prop := r = .msp ∧ st.m = true ∨ r = .isp ∧ st.m = false

instance (r : ControlReg) : Decidable (ActiveStack st r) := by unfold ActiveStack; infer_instance

/-- The write `st'` left everything but `r` as `st` has it, and A7 follows the stack in use. -/
structure WritesOnly (r : ControlReg) (st' : MovecState) : Prop where
  val : ∀ q, q ≠ r → st'.val q = st.val q
  s : st'.s = st.s
  m : st'.m = st.m
  a7 : st'.a7 = if ActiveStack st r then v else st.a7

variable {st v} in
/-- One register set, whatever is noted beside it. -/
theorem WritesOnly.of_set {r : ControlReg} {w : Long} {st' : MovecState} (ha : ¬ ActiveStack st r)
    (hval : st'.val = (st.set r w).val) (ha7 : st'.a7 = st.a7) (hs : st'.s = st.s) (hm : st'.m = st.m) :
    WritesOnly st v r st' := by
  refine ⟨fun q hq => ?_, hs, hm, by rw [if_neg ha, ha7]⟩
  rw [hval]
  exact Function.update_of_ne hq w st.val

theorem write_only (r : ControlReg) : WritesOnly st v r (st.write p r v) := by
  cases r with
  | tcr =>
    rw [MovecState.write, setTcr]
    split_ifs <;> exact .of_set (by simp [ActiveStack]) rfl rfl rfl rfl
  | pcr =>
    rw [MovecState.write, setPcr]
    split_ifs <;> exact .of_set (by simp [ActiveStack]) rfl rfl rfl rfl
  | msp =>
    rw [MovecState.write]
    cases hm : st.m
    · exact .of_set (w := v) (by simp [ActiveStack, hm]) (by simp [MovecState.set, hm])
        (by simp [MovecState.set, hm]) (by simp [MovecState.set, hm]) (by simp [MovecState.set, hm])
    · refine ⟨fun q hq => ?_, by simp [MovecState.set, hm], by simp [MovecState.set, hm], ?_⟩
      · simp [MovecState.set, hm, hq]
      · simp [MovecState.set, hm, ActiveStack]
  | isp =>
    rw [MovecState.write]
    cases hm : st.m
    · refine ⟨fun q hq => ?_, by simp [MovecState.set, hm], by simp [MovecState.set, hm], ?_⟩
      · simp [MovecState.set, hm, hq]
      · simp [MovecState.set, hm, ActiveStack]
    · exact .of_set (w := v) (by simp [ActiveStack, hm]) (by simp [MovecState.set, hm])
        (by simp [MovecState.set, hm]) (by simp [MovecState.set, hm]) (by simp [MovecState.set, hm])
  | _ => exact .of_set (by simp [ActiveStack]) rfl rfl rfl rfl

/-! ## What is read back -/

/-- The bits of TCR the write keeps. -/
def tcrMask : Long :=
  let mask : Long := if p.cpuModel = .m68060 then 0xfffe else 0xc000
  if p.mmuModel && p.mmuEc then if p.cpuModel = .m68040 then 0 else mask &&& 0x3fff else mask

/-- The bits of the value written that are read back. -/
def movecMask (r : ControlReg) : Long :=
  match r with
  | .sfc | .dfc => 7
  | .cacr => cacrReadMask p.cpuModel
  | .tcr => tcrMask p
  | .itt0 | .itt1 | .dtt0 | .dtt1 => 0xffffe364
  | .buscr => 0xa0000000
  | .urp | .srp => if p.cpuModel = .m68060 then 0xfffffe00 else 0xffffffff
  | .pcr => if p.fpuModel then 0x43 else 0x41
  | _ => 0xffffffff

/-- The bits that are read back whatever is written. -/
def readOnlyBits (r : ControlReg) : Long :=
  match r with
  | .buscr => st.val .buscr &&& 0x50000000
  | .pcr => st.val .pcr &&& 0xffffffbc ||| if p.fpuModel then 0 else 2
  | _ => 0

theorem clearBit_eq (x b : Long) : clearBit x b = x &&& ~~~b := by
  rw [clearBit]
  split_ifs with h
  · rfl
  · rw [ne_eq, not_not] at h
    apply BitVec.eq_of_getLsbD_eq
    intro i hi
    have hbit := congrArg (fun y : Long => y.getLsbD i) h
    simp only [BitVec.getLsbD_and] at hbit
    rw [BitVec.getLsbD_and, BitVec.getLsbD_not, decide_eq_true hi, Bool.true_and]
    cases hx : x.getLsbD i <;> simp_all

theorem cacr_read (model : Model) :
    flushedCacr model (v &&& cacrWriteMask model) &&& cacrReadMask model = v &&& cacrReadMask model := by
  have hmask : ∀ w r : Long, w &&& r = r → v &&& w &&& r = v &&& r := fun w r h => by
    rw [BitVec.and_assoc, h]
  cases model <;> simp only [flushedCacr, clearBit_eq, BitVec.and_assoc] <;>
    exact congrArg (v &&& ·) (by decide)

/-- A longword cut to 16 bits by its mask. -/
theorem lowWord_and (w m : Long) (h : (m.setWidth 16).setWidth 32 = m) :
    (((w &&& m).setWidth 16 : Word).setWidth 32 : Long) = w &&& m := by
  apply BitVec.eq_of_getLsbD_eq
  intro i hi
  have hbit := congrArg (fun y : Long => y.getLsbD i) h
  simp only [BitVec.getLsbD_setWidth, BitVec.getLsbD_and, hi, decide_true, Bool.true_and] at hbit ⊢
  cases hw : w.getLsbD i <;> by_cases h16 : i < 16 <;> simp_all

theorem tcr_read : (st.setTcr p v).val .tcr = v &&& tcrMask p := by
  have hmask : (((if p.cpuModel = .m68060 then 0xfffe else 0xc000 : Long).setWidth 16 : Word).setWidth 32 : Long) =
      if p.cpuModel = .m68060 then 0xfffe else 0xc000 := by
    split_ifs <;> decide
  have hlow := lowWord_and v _ hmask
  rw [setTcr, tcrMask]
  cases hmm : p.mmuModel
  · simp [MovecState.set]
  · cases hec : p.mmuEc
    · simp only [MovecState.set, MovecState.note, mmuSetTcValue, hec, if_true, if_false, Bool.false_eq_true,
        Bool.and_false, Function.update_self, hlow]
    · by_cases h40 : p.cpuModel = .m68040
      · simp [MovecState.set, MovecState.note, mmuSetTcValue, hec, h40]
      · have hec2 : ∀ x : Word, ((x &&& ~~~(0x8000 ||| 0x4000) : Word).setWidth 32 : Long) =
            x.setWidth 32 &&& 0x3fff := by
          intro x
          rw [BitVec.setWidth_and, show ((~~~(0x8000 ||| 0x4000) : Word).setWidth 32 : Long) = 0x3fff by decide]
        simp only [MovecState.set, MovecState.note, mmuSetTcValue, hec, h40, if_true, if_false, Bool.and_self,
          Function.update_self, hec2, hlow, BitVec.and_assoc]

theorem pcr_read : (st.setPcr p v).val .pcr = v &&& movecMask p .pcr ||| readOnlyBits p st .pcr := by
  have hval : (st.setPcr p v).val .pcr =
      if p.fpuModel then st.val .pcr &&& 0xffffffbc ||| v &&& 0x43
      else st.val .pcr &&& 0xffffffbc ||| v &&& 0x43 ||| 2 := by
    rw [setPcr]
    split_ifs <;> simp [MovecState.set, MovecState.note]
  have htwo : v &&& 0x43 ||| 2 = v &&& 0x41 ||| (2 : Long) := by
    rw [show (0x43 : Long) = 0x41 ||| 2 by decide, BitVec.and_or_distrib_left, BitVec.or_assoc]
    congr 1
    apply BitVec.eq_of_getLsbD_eq
    intro i _
    rw [BitVec.getLsbD_or, BitVec.getLsbD_and]
    cases (2 : Long).getLsbD i <;> simp
  rw [hval, movecMask, readOnlyBits]
  cases p.fpuModel
  · rw [if_neg (by simp), if_neg (by simp), if_neg (by simp), BitVec.or_assoc, htwo, ← BitVec.or_assoc,
      ← BitVec.or_assoc, BitVec.or_comm (st.val .pcr &&& _)]
  · rw [if_pos rfl, if_pos rfl, if_pos rfl, BitVec.or_comm]
    simp

/-- What is read back of a register just written. -/
theorem read_write (r : ControlReg) :
    (st.write p r v).read p r = v &&& movecMask p r ||| readOnlyBits p st r := by
  have hall : v &&& (0xffffffff : Long) ||| 0 = v := by
    rw [show (0xffffffff : Long) = BitVec.allOnes 32 by decide, BitVec.and_allOnes]
    exact BitVec.or_zero
  cases r with
  | cacr =>
    rw [MovecState.read, MovecState.write, movecMask, readOnlyBits]
    · simp only [MovecState.note, MovecState.set, Function.update_self, cacr_read]
      exact BitVec.or_zero.symm
    all_goals simp
  | tcr =>
    rw [MovecState.read, MovecState.write, movecMask, readOnlyBits, tcr_read]
    · exact BitVec.or_zero.symm
    all_goals simp
  | pcr =>
    rw [MovecState.read, MovecState.write, pcr_read]
    all_goals simp
  | msp =>
    cases hm : st.m <;>
      simp only [MovecState.read, MovecState.write, MovecState.set, movecMask, readOnlyBits, hm, hall, if_true,
        if_false, Function.update_self, Bool.false_eq_true]
  | isp =>
    cases hm : st.m <;>
      simp only [MovecState.read, MovecState.write, MovecState.set, movecMask, readOnlyBits, hm, hall, if_true,
        if_false, Function.update_self, Bool.false_eq_true]
  | buscr =>
    simp only [MovecState.read, MovecState.write, MovecState.set, movecMask, readOnlyBits, Function.update_self]
    exact BitVec.or_comm ..
  | usp | vbr | caar | mmusr =>
    simp only [MovecState.read, MovecState.write, MovecState.set, movecMask, readOnlyBits, Function.update_self,
      hall]
  | _ =>
    simp [MovecState.read, MovecState.write, MovecState.set, MovecState.note, movecMask, readOnlyBits]

/-- `MOVEC` to a control register and back. -/
theorem movec_law :
    (st.m68kMove2c p regno v = .privilege ↔
      st.s = false ∧ (movecIllg p.cpuModel regno = false ∨ p.cpuModel ≠ .m68060)) ∧
      ((∃ s', st.m68kMove2c p regno v = .done s') ↔ ∃ w, st.m68kMovec2 p regno = .done w) ∧
      ∀ s', st.m68kMove2c p regno v = .done s' → ∃ r, ControlReg.ofNumber regno = some r ∧
        WritesOnly st v r s' ∧
        s'.m68kMovec2 p regno = .done (v &&& movecMask p r ||| readOnlyBits p st r) := by
  refine ⟨m68kMove2c_privilege p st regno v, ?_, ?_⟩
  · constructor
    · rintro ⟨s', h⟩
      obtain ⟨hl, hs, r, hr, -⟩ := (m68kMove2c_done p st regno v s').mp h
      exact ⟨_, (m68kMovec2_done p st regno _).mpr ⟨hl, hs, r, hr, rfl⟩⟩
    · rintro ⟨w, h⟩
      obtain ⟨hl, hs, r, hr, -⟩ := (m68kMovec2_done p st regno w).mp h
      exact ⟨_, (m68kMove2c_done p st regno v _).mpr ⟨hl, hs, r, hr, rfl⟩⟩
  · intro s' h
    obtain ⟨hl, hs, r, hr, rfl⟩ := (m68kMove2c_done p st regno v s').mp h
    have honly := write_only p st v r
    refine ⟨r, hr, honly, (m68kMovec2_done p _ regno _).mpr ⟨hl, honly.s.trans hs, r, hr, ?_⟩⟩
    exact (read_write p st v r).symm

end Law

/-- The mask of TC does not depend on the model alone: a 68040 keeps the enable bit, and as a
68EC040 reads it zero. -/
theorem movec_no_mask :
    ¬ ∃ mask : Model → ControlReg → Long, ∀ (p : MovecPrefs) (st s' : MovecState) (v : Long),
      st.m68kMove2c p 0x003 v = .done s' → s'.m68kMovec2 p 0x003 = .done (v &&& mask p.cpuModel .tcr) := by
  rintro ⟨mask, h⟩
  let st : MovecState := ⟨fun _ => 0, 0, true, false, []⟩
  have hmmu := h ⟨.m68040, true, false, true⟩ st _ 0x8000 rfl
  have hec := h ⟨.m68040, true, true, true⟩ st _ 0x8000 rfl
  have hread := hmmu.trans hec.symm
  exact absurd (MovecEnd.done.inj hread) (by decide)

end UaeCpu
