import UaeCpu.Clock
import UaeCpu.Run
import UaeCpu.Ram
import UaeCpu.LongArith

/-!
# UaeCpu.DbfSpin

DBF in the opcode tables without prefetch, and the hook that finishes a `DBF Dn,*-2` at once.

* `dbf` — the handler the generator emits, for every CPU level.
* `literal_run` — the loop itself: one instruction after another until it falls through.
* `dbfSpin_literal` — the hook leaves what the loop leaves, and the credit on the clock.
-/

namespace UaeCpu

section Handler

variable {μ : Type}

/-! ## The handler -/

def Cpu.lowWord (i : Fin 8) (c : Cpu μ) : Word := (c.toCore.dreg i).setWidth 16

/-- `genastore` of a word in a data register. -/
def Cpu.storeWord (i : Fin 8) (v : Word) (c : Cpu μ) : Cpu μ :=
  { c with toCore := c.toCore.setDreg i (c.toCore.dreg i &&& 0xFFFF0000 ||| v.setWidth 32) }

def Cpu.setPc (pc : Long) (c : Cpu μ) : Cpu μ := c.mapRegs fun r => { r with pc := pc }

/-- `check_t0_trace`. -/
def Cpu.checkT0Trace (p : Prefs) (c : Cpu μ) : Cpu μ :=
  if c.regs.t0 && !c.regs.t1 && decide (68020 ≤ p.cpuModel.num) then
    c.mapSpc fun f => { f with trace := false, doTrace := true }
  else c

/-- The `dbf_spin` hook, which sees the whole machine. -/
abbrev DbfHook (μ : Type) : Type := Fin 8 → Word → Cpu μ → Long

/-- `INT_MAX / CYCLE_UNIT`. -/
def creditMax : Long := 4194303

/-- The argument of `do_cycles`, a product of two C `int`s. -/
def creditCycles (credit : Long) : Long := (if creditMax < credit then creditMax else credit) * 512

/-- `uae_host_dbf_spin`: the machine behind a loop that has been collapsed. -/
def uaeHostDbfSpin (p : Prefs) (hook : Option (DbfHook μ)) (dreg : Fin 8) (c : Cpu μ) : Option (Cpu μ) :=
  match hook with
  | none => none
  | some hook =>
    if p.cpuCycleExact then none
    else
      let d := c.toCore.dreg dreg
      let credit := hook dreg (d.setWidth 16) c
      if credit = 0 then none
      else
        let c := { c with toCore := c.toCore.setDreg dreg (d &&& ~~~(0xFFFF : Long) ||| 0xFFFF) }
        some (c.doCycles (creditCycles credit).toInt)

/-- What the handler returns on each of its ways out. -/
structure DbfCycles where
  spin : Long
  taken : Long
  expired : Long
  addressError : Long

/-- The handler of DBF: the condition is false, so the counter decides. `exception3` stands for
`exception3_read_prefetch` with the target of the branch. -/
def dbf (p : Prefs) (hook : Option (DbfHook μ)) (exception3 : Long → Cpu μ → Cpu μ) (cyc : DbfCycles)
    (srcreg : Fin 8) (offs : Word) (c : Cpu μ) : Cpu μ × Long :=
  let src := c.lowWord srcreg
  let oldpc := c.regs.pc
  let target := oldpc + (offs.signExtend 32 + 2)
  if 68040 ≤ p.cpuModel.num ∧ offs.getLsbD 0 = true then (exception3 target c, cyc.addressError)
  else
    match if offs = 0xFFFE then uaeHostDbfSpin p hook srcreg c else none with
    | some c => (c.setPc (oldpc + 4), cyc.spin)
    | none =>
      let c := c.setPc target
      let c := if 68020 ≤ p.cpuModel.num ∧ p.cpuModel.num < 68040 then c.storeWord srcreg (src - 1) else c
      if p.cpuModel.num < 68040 ∧ offs.getLsbD 0 = true then (exception3 target c, cyc.addressError)
      else
        let c := if 68040 ≤ p.cpuModel.num then c.storeWord srcreg (src - 1) else c
        if src ≠ 0 then
          let c := if p.cpuModel.num < 68020 then c.storeWord srcreg (src - 1) else c
          let c := if 68020 ≤ p.cpuModel.num then c.checkT0Trace p else c
          (c, cyc.taken)
        else
          let c := c.setPc (oldpc + 4)
          let c := if p.cpuModel.num < 68020 then c.storeWord srcreg (src - 1) else c
          (c, cyc.expired)

/-! ## Registers -/

section Registers

variable (i : Fin 8) (c : Cpu μ)

theorem low_or_high (d : Long) (v : Word) : (d &&& 0xFFFF0000 ||| v.setWidth 32).setWidth 16 = v := by
  refine BitVec.eq_of_getLsbD_eq fun k hk => ?_
  have hmask : (0xFFFF0000 : Long).getLsbD k = false := by
    have hshift : (0xFFFF0000 : Long) = (0xFFFF : Long) <<< 16 := by decide
    rw [hshift, BitVec.getLsbD_shiftLeft, decide_eq_true hk, Bool.not_true, Bool.and_false, Bool.false_and]
  rw [BitVec.getLsbD_setWidth, BitVec.getLsbD_or, BitVec.getLsbD_and, hmask, BitVec.getLsbD_setWidth,
    decide_eq_true hk, decide_eq_true (show k < 32 by omega), Bool.and_false, Bool.false_or, Bool.true_and,
    Bool.true_and]

theorem high_or_high (d : Long) (v w : Word) :
    (d &&& 0xFFFF0000 ||| v.setWidth 32) &&& 0xFFFF0000 ||| w.setWidth 32 = d &&& 0xFFFF0000 ||| w.setWidth 32 := by
  have hlow : (v.setWidth 32 : Long) &&& 0xFFFF0000 = 0#32 := by
    refine BitVec.eq_of_getLsbD_eq fun k hk => ?_
    have hshift : (0xFFFF0000 : Long) = (0xFFFF : Long) <<< 16 := by decide
    rw [BitVec.getLsbD_and, hshift, BitVec.getLsbD_shiftLeft, BitVec.getLsbD_setWidth, BitVec.getLsbD_zero]
    by_cases h : k < 16
    · simp [h]
    · simp [BitVec.getLsbD_of_ge v k (by omega)]
  rw [BitVec.and_or_distrib_right, BitVec.and_assoc, BitVec.and_self, hlow, BitVec.or_zero]

theorem dreg_storeWord (v : Word) :
    (c.storeWord i v).toCore.dreg i = c.toCore.dreg i &&& 0xFFFF0000 ||| v.setWidth 32 :=
  Vector.getElem_set_self (reg_lt i)

@[simp] theorem lowWord_storeWord (v : Word) : (c.storeWord i v).lowWord i = v := by
  rw [Cpu.lowWord, dreg_storeWord, low_or_high]

@[simp] theorem storeWord_storeWord (v w : Word) : (c.storeWord i v).storeWord i w = c.storeWord i w := by
  have hdreg := dreg_storeWord i c v
  unfold Cpu.storeWord at hdreg ⊢
  rw [hdreg, high_or_high]
  unfold Core.setDreg
  dsimp only
  rw [Vector.set_set]

end Registers

/-! ## The literal loop -/

/-- The machine but for the clock and the special flags. -/
def Cpu.arch (c : Cpu μ) : Cpu μ :=
  { c.mapSpc fun _ => .none with clock := ⟨0, 0, 0, false, 0⟩ }

section Literal

variable (p : Prefs) (exception3 : Long → Cpu μ → Cpu μ) (cyc : DbfCycles) (i : Fin 8) (c : Cpu μ)

/-- One `DBF Dn,*-2` without a hook. -/
def literalDbf : Cpu μ := (dbf p none exception3 cyc i 0xFFFE c).1

theorem arch_storeWord (v : Word) : (c.storeWord i v).arch = c.arch.storeWord i v := rfl

theorem arch_setPc (pc : Long) : (c.setPc pc).arch = c.arch.setPc pc := rfl

theorem arch_checkT0Trace : (c.checkT0Trace p).arch = c.arch := by
  unfold Cpu.checkT0Trace
  split <;> rfl

theorem lowWord_checkT0Trace : (c.checkT0Trace p).lowWord i = c.lowWord i := by
  unfold Cpu.checkT0Trace
  split <;> rfl

theorem pc_checkT0Trace : (c.checkT0Trace p).regs.pc = c.regs.pc := by
  unfold Cpu.checkT0Trace
  split <;> rfl

/-- A displacement of -2 leads back to the instruction. -/
theorem target_self (pc : Long) : pc + ((0xFFFE : Word).signExtend 32 + 2) = pc := by
  have hzero : ((0xFFFE : Word).signExtend 32 + 2 : Long) = 0#32 := by decide
  rw [hzero, BitVec.add_zero]

/-- The three places where the generator puts the store. -/
theorem level_cases : p.cpuModel.num < 68020 ∨ (68020 ≤ p.cpuModel.num ∧ p.cpuModel.num < 68040) ∨
    68040 ≤ p.cpuModel.num := by omega

theorem checkT0Trace_of_lt (h : p.cpuModel.num < 68020) : c.checkT0Trace p = c := by
  unfold Cpu.checkT0Trace
  rw [decide_eq_false (Nat.not_le.mpr h), Bool.and_false, if_neg Bool.false_ne_true]

theorem dbf_literal :
    dbf p none exception3 cyc i 0xFFFE c =
      if c.lowWord i ≠ 0 then ((c.storeWord i (c.lowWord i - 1)).checkT0Trace p, cyc.taken)
      else ((c.storeWord i (c.lowWord i - 1)).setPc (c.regs.pc + 4), cyc.expired) := by
  have hodd : (0xFFFE : Word).getLsbD 0 = false := by decide
  unfold dbf
  simp only [hodd, Bool.false_eq_true, and_false, if_false, if_true, target_self, uaeHostDbfSpin]
  obtain hlow | ⟨h020, h040⟩ | hhigh := level_cases p
  · have h020 : ¬ 68020 ≤ p.cpuModel.num := by omega
    have h040 : ¬ 68040 ≤ p.cpuModel.num := by omega
    simp only [hlow, h020, h040, false_and, if_false, if_true, checkT0Trace_of_lt p _ hlow]
    rfl
  · have hlow : ¬ p.cpuModel.num < 68020 := by omega
    have hhigh : ¬ 68040 ≤ p.cpuModel.num := by omega
    simp only [hlow, h020, h040, hhigh, and_self, if_false, if_true]
    rfl
  · have hlow : ¬ p.cpuModel.num < 68020 := by omega
    have h040 : ¬ p.cpuModel.num < 68040 := by omega
    have h020 : 68020 ≤ p.cpuModel.num := by omega
    simp only [hlow, h020, h040, hhigh, and_false, if_false, if_true]
    rfl

theorem literalDbf_taken (h : c.lowWord i ≠ 0) :
    literalDbf p exception3 cyc i c = (c.storeWord i (c.lowWord i - 1)).checkT0Trace p := by
  rw [literalDbf, dbf_literal, if_pos h]

theorem literalDbf_expired (h : c.lowWord i = 0) :
    literalDbf p exception3 cyc i c = (c.storeWord i 0xFFFF).setPc (c.regs.pc + 4) := by
  have hlast : (0 : Word) - 1 = 0xFFFF := by decide
  rw [literalDbf, dbf_literal, if_neg (not_not_intro h), h, hlast]

/-- The loop runs once more than its counter says, at the same instruction until the end. -/
theorem literal_run (n : Nat) (hn : (c.lowWord i).toNat = n) :
    (∀ k ≤ n, ((literalDbf p exception3 cyc i)^[k] c).regs.pc = c.regs.pc) ∧
      ((literalDbf p exception3 cyc i)^[n + 1] c).arch = ((c.storeWord i 0xFFFF).setPc (c.regs.pc + 4)).arch := by
  induction n generalizing c with
  | zero =>
    have hzero : c.lowWord i = 0 := BitVec.eq_of_toNat_eq hn
    refine ⟨fun k hk => ?_, ?_⟩
    · rw [Nat.le_zero.mp hk]
      rfl
    · exact congrArg Cpu.arch (literalDbf_expired p exception3 cyc i c hzero)
  | succ n ih =>
    have hne : c.lowWord i ≠ 0 := by
      intro h
      rw [h] at hn
      exact absurd hn (Nat.succ_ne_zero n).symm
    have hstep := literalDbf_taken p exception3 cyc i c hne
    have hlow : ((literalDbf p exception3 cyc i c).lowWord i).toNat = n := by
      rw [hstep, lowWord_checkT0Trace, lowWord_storeWord, BitVec.toNat_sub, hn]
      have hlt := (c.lowWord i).isLt
      change (2 ^ 16 - 1 + (n + 1)) % 2 ^ 16 = n
      omega
    have hpc : (literalDbf p exception3 cyc i c).regs.pc = c.regs.pc := by
      rw [hstep, pc_checkT0Trace]
      rfl
    obtain ⟨hstay, hend⟩ := ih (literalDbf p exception3 cyc i c) hlow
    refine ⟨fun k hk => ?_, ?_⟩
    · cases k with
      | zero => rfl
      | succ k =>
        rw [Function.iterate_succ_apply, hstay k (by omega), hpc]
    · rw [Function.iterate_succ_apply, hend, hpc, arch_setPc, arch_setPc, arch_storeWord, hstep,
        arch_checkT0Trace, ← arch_storeWord, storeWord_storeWord]

end Literal

/-! ## The hook -/

/-- The cycle counter with what compiled code has taken off its countdown. -/
def Clock.total (k : Clock) : Int := if k.jitRunActive then k.currcycle + k.consumed else k.currcycle

theorem total_doCycles (k : Clock) (n : Int) : (k.doCycles n).1.total = k.total + n := by
  unfold Clock.doCycles Clock.total
  by_cases h : k.jitRunActive = true
  · simp only [h, if_true, Clock.jitDoCycles, Clock.consumed, BitVec.sub_self, BitVec.toInt_zero]
    omega
  · simp only [h, Bool.false_eq_true, if_false]

/-- The clamped product is exact. -/
theorem creditCycles_toInt (credit : Long) :
    (creditCycles credit).toInt = min (credit.toNat : Int) (intMax / cycleUnit) * cycleUnit ∧
      min (credit.toNat : Int) (intMax / cycleUnit) * cycleUnit ≤ intMax := by
  have hmax : intMax / cycleUnit = 4194303 := by decide
  have hnat : (if creditMax < credit then creditMax else credit).toNat = min credit.toNat 4194303 := by
    have hcm : creditMax.toNat = 4194303 := by decide
    split
    · rename_i h
      rw [BitVec.lt_def, hcm] at h
      rw [hcm]
      omega
    · rename_i h
      rw [BitVec.lt_def, hcm] at h
      omega
  have hprod : (creditCycles credit).toNat = min credit.toNat 4194303 * 512 := by
    rw [creditCycles, BitVec.toNat_mul, hnat]
    change min credit.toNat 4194303 * 512 % 2 ^ 32 = _
    omega
  rw [BitVec.toInt_eq_toNat_of_lt (by rw [hprod]; omega), hprod, hmax]
  unfold cycleUnit intMax
  omega

/-- One instruction and its charge. -/
def charged (r : Cpu μ × Long) : Cpu μ := r.1.doCycles (chargedTicks r.1 r.2)

/-- Behind a hook that gives credit, the machine is where the loop would have left it, and the clock
has the credit and the instruction's own cycles; a hook that gives none is as good as no hook. -/
theorem dbfSpin_literal (p : Prefs) (hook : DbfHook μ) (exception3 : Long → Cpu μ → Cpu μ) (cyc : DbfCycles)
    (i : Fin 8) (c : Cpu μ) :
    let n := (c.lowWord i).toNat
    let credit := hook i (c.lowWord i) c
    let run := dbf p (some hook) exception3 cyc i 0xFFFE c
    let literal := literalDbf p exception3 cyc i
    (p.cpuCycleExact = false ∧ credit ≠ 0 →
      ((∀ k ≤ n, (literal^[k] c).regs.pc = c.regs.pc) ∧ (literal^[n + 1] c).regs.pc = c.regs.pc + 4) ∧
      run.1.arch = (literal^[n + 1] c).arch ∧
      (charged run).clock.total = c.clock.total +
        min (credit.toNat : Int) (intMax / cycleUnit) * cycleUnit + chargedTicks run.1 run.2 ∧
      min (credit.toNat : Int) (intMax / cycleUnit) * cycleUnit ≤ intMax) ∧
    (p.cpuCycleExact = true ∨ credit = 0 → run = dbf p none exception3 cyc i 0xFFFE c) := by
  intro n credit run literal
  obtain ⟨hstay, hend⟩ := literal_run p exception3 cyc i c n rfl
  obtain ⟨hexact, hint⟩ := creditCycles_toInt credit
  have hodd : (0xFFFE : Word).getLsbD 0 = false := by decide
  constructor
  · rintro ⟨hce, hcredit⟩
    have hcredit : hook i ((c.toCore.dreg i).setWidth 16) c ≠ 0 := hcredit
    have hspin : uaeHostDbfSpin p (some hook) i c =
        some ((c.storeWord i 0xFFFF).doCycles (creditCycles credit).toInt) := by
      unfold uaeHostDbfSpin
      dsimp only
      rw [hce, if_neg Bool.false_ne_true, if_neg hcredit]
      rfl
    have hrun : run = (((c.storeWord i 0xFFFF).doCycles (creditCycles credit).toInt).setPc (c.regs.pc + 4), cyc.spin) := by
      change dbf p (some hook) exception3 cyc i 0xFFFE c = _
      unfold dbf
      simp only [hodd, Bool.false_eq_true, and_false, if_false, if_true, hspin]
    refine ⟨⟨hstay, congrArg (fun c : Cpu μ => c.regs.pc) hend⟩, ?_, ?_, hint⟩
    · rw [hend, hrun]
      rfl
    · have hclock : run.1.clock.total = c.clock.total + (creditCycles credit).toInt := by
        rw [hrun]
        exact total_doCycles c.clock _
      rw [← hexact, ← hclock]
      exact total_doCycles run.1.clock _
  · intro h
    have hspin : uaeHostDbfSpin p (some hook) i c = none := by
      unfold uaeHostDbfSpin
      dsimp only
      by_cases hce : p.cpuCycleExact = true
      · rw [if_pos hce]
      · have hcredit : hook i ((c.toCore.dreg i).setWidth 16) c = 0 := h.resolve_left hce
        rw [if_neg hce, if_pos hcredit]
    change dbf p (some hook) exception3 cyc i 0xFFFE c = _
    unfold dbf
    simp only [hspin]
    rfl

end Handler

/-- D0 is 100, as in a calibration loop. -/
def calibration : Cpu (Long → Byte) :=
  (Cpu.reset (.plain .m68020) 0x1000 0x400 fun _ => 0).storeWord 0 100

/-- The hook gives 100000 cycles for 101 times DBF. -/
theorem dbfSpin_calibration :
    let run := dbf (.plain .m68020) (some fun _ _ _ => 100000) (fun _ c => c) ⟨3584, 2560, 4096, 0⟩ 0 0xFFFE calibration
    let literal := literalDbf (.plain .m68020) (fun _ c => c) ⟨3584, 2560, 4096, 0⟩ 0
    ((∀ k ≤ 100, (literal^[k] calibration).regs.pc = 0x400) ∧ (literal^[101] calibration).regs.pc = 0x404) ∧
      run.1.arch = (literal^[101] calibration).arch ∧
      (charged run).clock.total = calibration.clock.total + 100000 * cycleUnit + chargedTicks run.1 run.2 := by
  dsimp only
  have hn : (calibration.lowWord 0).toNat = 100 := by decide
  have hmin : min ((100000 : Long).toNat : Int) (intMax / cycleUnit) = 100000 := by decide
  obtain ⟨hpc, harch, hclock, -⟩ := (dbfSpin_literal (.plain .m68020) (fun _ _ _ => 100000) (fun _ c => c)
    ⟨3584, 2560, 4096, 0⟩ 0 calibration).1 ⟨rfl, by decide⟩
  have hnext : 100 + 1 = 101 := rfl
  have hstart : calibration.regs.pc = 0x400 := rfl
  have hend : (0x400 + 4 : Long) = 0x404 := by decide
  rw [hn, hnext] at hpc harch
  rw [hstart, hend] at hpc
  rw [hmin] at hclock
  exact ⟨hpc, harch, hclock⟩

end UaeCpu
