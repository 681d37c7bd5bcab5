import UaeCpu.Machine
import UaeCpu.Lib.Run

/-!
# UaeCpu.Clock

The cycle counter: `do_cycles`, the JIT countdown `pissoff` that compiled blocks subtract from,
and `uae_host_cycles`.

* `jitRun_accounting` — along a JIT run the counter and the countdown together hold the exact
  sum of all cycles, and `SPCFLAG_BRK` is up exactly from the target on, as long as no block
  overflows the 32-bit difference or lands the countdown on zero at the target.
* `jitStep_accounting_iff` — and only then.
-/

namespace UaeCpu

open Fault Trans

/-! ## `do_cycles` -/

def intMax : Int := 2147483647

namespace Clock

/-- `pissoff_value - pissoff`, a subtraction of two C `int`s. -/
def consumed (k : Clock) : Int := (k.pissoffValue - k.pissoff).toInt

/-- `x > INT_MAX ? INT_MAX : (int)x`. -/
def clampInt (x : Int) : BitVec 32 := BitVec.ofInt 32 (if intMax < x then intMax else x)

/-- `uae_host_jit_do_cycles`: folds the countdown in and reloads it. The second component says
whether the budget is gone and `SPCFLAG_BRK` is raised. -/
def jitDoCycles (cycles : Int) (k : Clock) : Clock × Bool :=
  let currcycle := k.currcycle + (cycles + k.consumed)
  let remaining := k.jitRunTarget - currcycle
  let reload := clampInt (if remaining ≤ 0 then 0 else remaining)
  ({ k with currcycle := currcycle, pissoffValue := reload, pissoff := reload },
    decide (remaining ≤ 0))

/-- `do_cycles_slow`. -/
def doCycles (cycles : Int) (k : Clock) : Clock × Bool :=
  if k.jitRunActive then k.jitDoCycles cycles
  else ({ k with currcycle := k.currcycle + cycles }, false)

/-- `uae_host_cycles`. -/
def hostCycles (k : Clock) : Int :=
  let c := if k.jitRunActive then k.currcycle + k.consumed else k.currcycle
  if 0 < c then c / cycleUnit else 0

end Clock

section

variable {μ : Type}

/-- `do_cycles`. -/
def Cpu.doCycles (cycles : Int) (c : Cpu μ) : Cpu μ :=
  let r := c.clock.doCycles cycles
  { c.mapSpc (fun f => { f with brk := f.brk || r.2 }) with clock := r.1 }

/-- `x_do_cycles`: the cycle-exact variants add to `currcycle` and nothing else. -/
def Cpu.xDoCycles (p : Prefs) (cycles : Int) (c : Cpu μ) : Cpu μ :=
  if p.cpuCycleExact then
    { c with clock := { c.clock with currcycle := c.clock.currcycle + cycles } }
  else c.doCycles cycles

end

/-! ## A JIT run -/

/-- The clock and `SPCFLAG_BRK`. -/
structure JitClock where
  clock : Clock
  brk : Bool
  deriving DecidableEq, Repr

/-- What happens to the clock while translated code runs: a compiled block ends, an interpreted
instruction calls `do_cycles`, or the host asks for the cycle count. -/
inductive JitOp where
  | block (ticks : Nat)
  | cycles (n : Nat)
  | query
  deriving DecidableEq, Repr

def JitOp.ticks : JitOp → Int
  | .block k => k
  | .cycles n => n
  | .query => 0

/-- A block subtracts at least one tick, and no more than an `int` immediate holds. -/
def JitOp.Valid : JitOp → Prop
  | .block k => 0 < k ∧ (k : Int) ≤ intMax
  | _ => True

instance (op : JitOp) : Decidable op.Valid := by
  cases op <;> unfold JitOp.Valid <;> infer_instance

namespace JitClock

def doCycles (n : Int) (s : JitClock) : JitClock :=
  let r := s.clock.doCycles n
  { clock := r.1, brk := s.brk || r.2 }

/-- The head of the JIT path of `uae_host_run`. -/
def start (k : Clock) (cycles : Int) : JitClock :=
  let target := k.currcycle + cycles * cycleUnit
  let budget := Clock.clampInt (target - k.currcycle)
  { clock := { k with
      jitRunTarget := target, pissoffValue := budget, pissoff := budget, jitRunActive := true }
    brk := false }

/-- `sub countdown, ticks`, at the end of a compiled block. -/
def subTicks (s : JitClock) (k : Nat) : JitClock :=
  { s with clock := { s.clock with pissoff := s.clock.pissoff - BitVec.ofNat 32 k } }

/-- A block calls `do_cycles(0)` only when its subtraction left the countdown negative. -/
def step (s : JitClock) : JitOp → JitClock
  | .block k =>
    if (s.subTicks k).clock.pissoff.msb then (s.subTicks k).doCycles 0 else s.subTicks k
  | .cycles n => s.doCycles n
  | .query => s

/-- The cycles counted so far, the unfolded ones included. -/
def total (s : JitClock) : Int := s.clock.currcycle + s.clock.consumed

/-- The countdown is an `int` between zero and the value it was loaded with, and never promises
more than what is left to the target. -/
structure Inv (s : JitClock) : Prop where
  active : s.clock.jitRunActive = true
  nonneg : 0 ≤ s.clock.pissoff.toInt
  le : s.clock.pissoff.toInt ≤ s.clock.pissoffValue.toInt
  brk : s.brk = true ↔ s.clock.jitRunTarget ≤ s.total
  room : s.total < s.clock.jitRunTarget →
    s.total + s.clock.pissoff.toInt ≤ s.clock.jitRunTarget

/-- What exact accounting means when `exact` ticks have really passed. -/
structure Accounted (exact : Int) (s : JitClock) : Prop where
  total : s.total = exact
  noWrap : s.clock.consumed = s.clock.pissoffValue.toInt - s.clock.pissoff.toInt
  brk : s.brk = true ↔ s.clock.jitRunTarget ≤ exact

/-- The condition under which an operation keeps the account: a block neither pushes the
difference past `INT_MAX` nor brings the countdown to zero right at the target. -/
def Safe (s : JitClock) : JitOp → Prop
  | .block k =>
    s.clock.pissoffValue.toInt - s.clock.pissoff.toInt + k ≤ intMax ∧
      ¬ (s.clock.pissoff.toInt = k ∧ s.total + k = s.clock.jitRunTarget)
  | _ => True

instance (s : JitClock) (op : JitOp) : Decidable (s.Safe op) := by
  cases op <;> unfold Safe <;> infer_instance

/-! ### 32-bit arithmetic of the countdown -/

theorem toInt_le_intMax (x : BitVec 32) : x.toInt ≤ intMax := by
  have := BitVec.toInt_lt (x := x)
  simp only [intMax]
  omega

theorem toInt_sub_eq {a b : BitVec 32} (hlo : -(intMax + 1) ≤ a.toInt - b.toInt)
    (hhi : a.toInt - b.toInt ≤ intMax) : (a - b).toInt = a.toInt - b.toInt := by
  simp only [intMax] at hlo hhi
  rw [BitVec.toInt_sub, Int.bmod_eq_of_le] <;> omega

theorem toInt_sub_wrap {a b : BitVec 32} (ha : a.toInt ≤ intMax)
    (hhi : intMax < a.toInt - b.toInt) : (a - b).toInt = a.toInt - b.toInt - 2 ^ 32 := by
  have hb := BitVec.le_toInt (x := b)
  simp only [intMax] at ha hhi
  rw [BitVec.toInt_sub, Int.bmod_def]
  omega

theorem toInt_clampInt {x : Int} (hx : 0 ≤ x) :
    (Clock.clampInt x).toInt = min x intMax := by
  by_cases h : intMax < x
  · rw [Clock.clampInt, if_pos h, min_eq_right (by omega)]; decide
  · rw [Clock.clampInt, if_neg h, min_eq_left (by omega)]
    simp only [intMax] at h
    rw [BitVec.toInt_ofInt, Int.bmod_eq_of_le] <;> omega

theorem toInt_sub_ticks {p : BitVec 32} {k : Nat} (hp : 0 ≤ p.toInt) (hk : (k : Int) ≤ intMax) :
    (p - BitVec.ofNat 32 k).toInt = p.toInt - k := by
  have hk' : (BitVec.ofNat 32 k).toInt = k := by
    simp only [intMax] at hk
    rw [BitVec.toInt_ofNat', Int.bmod_eq_of_le] <;> omega
  have := toInt_le_intMax p
  rw [toInt_sub_eq] <;> rw [hk'] <;> simp only [intMax] at * <;> omega

/-! ### One step -/

section Step

variable {s : JitClock}

theorem Inv.consumed_eq (h : s.Inv) :
    s.clock.consumed = s.clock.pissoffValue.toInt - s.clock.pissoff.toInt := by
  have := toInt_le_intMax s.clock.pissoffValue
  have := h.nonneg
  have := h.le
  exact toInt_sub_eq (by simp only [intMax]; omega) (by omega)

section DoCycles

variable (ha : s.clock.jitRunActive = true) (n : Int)
include ha

theorem doCycles_total : (s.doCycles n).total = s.total + n := by
  simp only [doCycles, Clock.doCycles, ha, if_true, Clock.jitDoCycles, total, Clock.consumed,
    BitVec.sub_self, BitVec.toInt_zero]
  omega

theorem doCycles_target : (s.doCycles n).clock.jitRunTarget = s.clock.jitRunTarget := by
  simp only [doCycles, Clock.doCycles, ha, if_true, Clock.jitDoCycles]

theorem doCycles_brk :
    (s.doCycles n).brk = true ↔ s.brk = true ∨ s.clock.jitRunTarget ≤ s.total + n := by
  simp only [doCycles, Clock.doCycles, ha, if_true, Clock.jitDoCycles, total, Bool.or_eq_true,
    decide_eq_true_eq]
  have : s.clock.jitRunTarget - (s.clock.currcycle + (n + s.clock.consumed)) ≤ 0 ↔
      s.clock.jitRunTarget ≤ s.clock.currcycle + s.clock.consumed + n := by omega
  rw [this]

/-- `do_cycles` reloads the countdown with no more than what is left. -/
theorem doCycles_inv (hb : s.brk = true → s.clock.jitRunTarget ≤ s.total + n) :
    (s.doCycles n).Inv := by
  have ht := doCycles_total ha n
  have hg := doCycles_target ha n
  have hp : (s.doCycles n).clock.pissoff =
      Clock.clampInt (if s.clock.jitRunTarget - (s.total + n) ≤ 0 then 0
        else s.clock.jitRunTarget - (s.total + n)) := by
    simp only [doCycles, Clock.doCycles, ha, if_true, Clock.jitDoCycles, total]
    congr 2 <;> rw [add_assoc, add_comm s.clock.consumed]
  have hv : (s.doCycles n).clock.pissoffValue = (s.doCycles n).clock.pissoff := by
    simp only [doCycles, Clock.doCycles, ha, if_true, Clock.jitDoCycles]
  have hpi := toInt_clampInt (x := if s.clock.jitRunTarget - (s.total + n) ≤ 0 then 0
        else s.clock.jitRunTarget - (s.total + n)) (by split <;> omega)
  rw [← hp] at hpi
  refine ⟨?_, ?_, by rw [hv], ?_, ?_⟩
  · simp only [doCycles, Clock.doCycles, ha, if_true, Clock.jitDoCycles]
  · rw [hpi]; simp only [intMax]; split <;> omega
  · rw [doCycles_brk ha, ht, hg]
    exact ⟨fun h => h.elim hb id, .inr⟩
  · intro hlt
    rw [ht, hg] at hlt ⊢
    rw [hpi, if_neg (by omega)]
    omega

end DoCycles

section Block

variable {k : Nat}

/-- The subtraction adds the ticks to the total, less `2^32` when the difference overflows. -/
theorem subTicks_total (h : s.Inv) (hk : (k : Int) ≤ intMax) :
    (s.subTicks k).total = s.total + k -
      if s.clock.pissoffValue.toInt - s.clock.pissoff.toInt + k ≤ intMax then 0 else 2 ^ 32 := by
  have hp := toInt_sub_ticks h.nonneg hk
  have ht := h.consumed_eq
  have hle := h.le
  simp only [total, subTicks, Clock.consumed] at ht ⊢
  split
  · rename_i hw
    rw [toInt_sub_eq, hp, ht]
    · omega
    · rw [hp]; simp only [intMax]; omega
    · rw [hp]; omega
  · rename_i hw
    rw [toInt_sub_wrap (toInt_le_intMax _), hp, ht]
    · omega
    · rw [hp]; omega

theorem step_block_total (h : s.Inv) : (s.step (.block k)).total = (s.subTicks k).total := by
  simp only [step]
  split
  · rw [doCycles_total (s := s.subTicks k) h.active, add_zero]
  · rfl

theorem step_block_target (h : s.Inv) :
    (s.step (.block k)).clock.jitRunTarget = s.clock.jitRunTarget := by
  simp only [step]
  split
  · exact doCycles_target (s := s.subTicks k) h.active 0
  · rfl

theorem subTicks_msb (h : s.Inv) (hk : (k : Int) ≤ intMax) :
    (s.subTicks k).clock.pissoff.msb = true ↔ s.clock.pissoff.toInt < k := by
  rw [BitVec.msb_eq_toInt, decide_eq_true_eq, subTicks, toInt_sub_ticks h.nonneg hk]
  omega

/-- A safe block keeps the invariant. -/
theorem step_block_inv (h : s.Inv) (hv : JitOp.Valid (.block k)) (hs : s.Safe (.block k)) :
    (s.step (.block k)).Inv ∧ (s.step (.block k)).total = s.total + k := by
  obtain ⟨hpos, hk⟩ := hv
  obtain ⟨hw, hland⟩ := hs
  have ht : (s.subTicks k).total = s.total + k := by rw [subTicks_total h hk, if_pos hw]; omega
  refine ⟨?_, by rw [step_block_total h, ht]⟩
  have hmsb := subTicks_msb h hk
  have hp := toInt_sub_ticks h.nonneg hk
  have hroom := h.room
  have hle := h.le
  simp only [step]
  split
  · refine doCycles_inv (s := s.subTicks k) h.active 0 fun hb => ?_
    rw [ht]
    have := h.brk.mp hb
    simp only [subTicks]
    omega
  · rename_i hneg
    have hge : ¬ s.clock.pissoff.toInt < k := fun hlt => hneg (hmsb.mpr hlt)
    refine ⟨h.active, ?_, ?_, ?_, ?_⟩
    · simp only [subTicks]; omega
    · simp only [subTicks]; omega
    · rw [ht]
      simp only [subTicks]
      rw [h.brk]
      constructor
      · intro; omega
      · intro hle'
        by_contra hlt
        exact hland ⟨by have := hroom (by omega); omega, by have := hroom (by omega); omega⟩
    · intro hlt
      rw [ht] at hlt ⊢
      simp only [subTicks] at hlt ⊢
      have := hroom (by omega)
      omega

end Block

/-- Every safe operation keeps the invariant and adds its ticks. -/
theorem step_inv {op : JitOp} (h : s.Inv) (hv : op.Valid) (hs : s.Safe op) :
    (s.step op).Inv ∧ (s.step op).total = s.total + op.ticks := by
  cases op with
  | block k => exact step_block_inv h hv hs
  | cycles n =>
    refine ⟨doCycles_inv h.active n fun hb => ?_, doCycles_total h.active n⟩
    have := h.brk.mp hb
    omega
  | query => exact ⟨h, by simp [step, JitOp.ticks]⟩

theorem step_target {op : JitOp} (h : s.Inv) :
    (s.step op).clock.jitRunTarget = s.clock.jitRunTarget := by
  cases op with
  | block k => exact step_block_target h
  | cycles n => exact doCycles_target h.active n
  | query => rfl

theorem Inv.accounted (h : s.Inv) : s.Accounted s.total :=
  ⟨rfl, h.consumed_eq, h.brk⟩

/-- One operation keeps the account exactly when it is safe. -/
theorem step_accounted_iff {op : JitOp} (h : s.Inv) (hv : op.Valid) :
    (s.step op).Accounted (s.total + op.ticks) ↔ s.Safe op := by
  constructor
  · intro ha
    cases op with
    | block k =>
      obtain ⟨hpos, hk⟩ := hv
      have ht := ha.total
      rw [step_block_total h, subTicks_total h hk] at ht
      refine ⟨?_, ?_⟩
      · by_contra hw
        rw [if_neg hw] at ht
        simp only [JitOp.ticks] at ht
        omega
      · rintro ⟨hp, hland⟩
        -- the countdown is zero, so `do_cycles(0)` is not called and the flag stays down
        have hmsb : ¬ (s.subTicks k).clock.pissoff.msb = true := by
          rw [subTicks_msb h hk]; omega
        have hb := ha.brk
        rw [show s.step (.block k) = s.subTicks k from if_neg hmsb] at hb
        have hlate := h.brk.mp (hb.mpr (le_of_eq hland.symm))
        omega
    | cycles n => trivial
    | query => trivial
  · intro hs
    obtain ⟨hi, ht⟩ := step_inv h hv hs
    rw [← ht]
    exact hi.accounted

end Step

/-! ### Whole runs -/

/-- One operation of a JIT run. -/
def Trans (s : JitClock) (op : JitOp) (s' : JitClock) : Prop := op.Valid ∧ s' = s.step op

theorem start_inv (k : Clock) {cycles : Int} (hc : 0 < cycles) : (start k cycles).Inv := by
  have hp := toInt_clampInt (x := k.currcycle + cycles * cycleUnit - k.currcycle)
    (by simp only [cycleUnit]; omega)
  refine ⟨rfl, ?_, le_refl _, ?_, ?_⟩
  · rw [start, hp]
    simp only [intMax, cycleUnit]
    omega
  · simp only [start, total, Clock.consumed, BitVec.sub_self, BitVec.toInt_zero, cycleUnit]
    simp; omega
  · intro _
    simp only [start, total, Clock.consumed, BitVec.sub_self, BitVec.toInt_zero, hp]
    omega

theorem start_total (k : Clock) (cycles : Int) : (start k cycles).total = k.currcycle := by
  simp only [start, total, Clock.consumed, BitVec.sub_self, BitVec.toInt_zero, add_zero]

section Guarded

variable {s s' : JitClock} {op : JitOp}

theorem guarded_inv (hi : s.Inv) (h : Guarded Trans Safe s op s') : s'.Inv := by
  obtain ⟨hs, hv, rfl⟩ := h
  exact (step_inv hi hv hs).1

theorem guarded_total (hi : s.Inv) (h : Guarded Trans Safe s op s') :
    s'.total = s.total + op.ticks := by
  obtain ⟨hs, hv, rfl⟩ := h
  exact (step_inv hi hv hs).2

theorem guarded_target (hi : s.Inv) (h : Guarded Trans Safe s op s') :
    s'.clock.jitRunTarget = s.clock.jitRunTarget := by
  obtain ⟨-, -, rfl⟩ := h
  exact step_target hi

theorem run_target {s s' : JitClock} {ops : List JitOp}
    (h : Run (Guarded Trans Safe) s ops s') (hi : s.Inv) :
    s'.clock.jitRunTarget = s.clock.jitRunTarget := by
  induction h with
  | nil => rfl
  | cons h _ ih => exact (ih (guarded_inv hi h)).trans (guarded_target hi h)

end Guarded

end JitClock

/-- Exact JIT accounting: in every state a run of safe operations reaches, `currcycle` and the
countdown together hold the start value plus the sum of all ticks, `uae_host_cycles` reports
it, and `SPCFLAG_BRK` is up exactly when the sum has reached the target. From such a state any
further operation keeps this exactly when it is safe. -/
theorem jitRun_accounting {k : Clock} {cycles : Int} (hc : 0 < cycles) {ops : List JitOp}
    {s : JitClock}
    (h : Run (Guarded JitClock.Trans JitClock.Safe) (JitClock.start k cycles) ops s) :
    let exact := k.currcycle + (ops.map JitOp.ticks).sum
    s.clock.jitRunTarget = k.currcycle + cycles * cycleUnit ∧ s.Accounted exact ∧
      s.clock.hostCycles = (if 0 < exact then exact / cycleUnit else 0) ∧
      ∀ op : JitOp, op.Valid →
        ((s.step op).Accounted (exact + op.ticks) ↔ s.Safe op) := by
  have h0 := JitClock.start_inv k hc
  have hi := h.invariant h0 JitClock.guarded_inv
  have hsum : s.total = k.currcycle + (ops.map JitOp.ticks).sum := by
    rw [h.total h0 JitClock.guarded_inv JitClock.guarded_total, JitClock.start_total]
  have ht := JitClock.run_target h h0
  dsimp only
  rw [← hsum]
  refine ⟨ht, hi.accounted, ?_, fun op hv => JitClock.step_accounted_iff hi hv⟩
  simp only [Clock.hostCycles, hi.active, if_true, JitClock.total]
  rfl

/-- Blocks that fit the countdown only subtract from it. -/
theorem JitClock.foldl_blocks (k : Nat) : ∀ (n : Nat) (s : JitClock),
    (n * k : Nat) ≤ s.clock.pissoff.toInt →
    (List.replicate n (JitOp.block k)).foldl JitClock.step s = s.subTicks (n * k)
  | 0, s, _ => by simp [JitClock.subTicks]
  | n + 1, s, h => by
    have hmax := JitClock.toInt_le_intMax s.clock.pissoff
    have hk : (k : Int) ≤ intMax ∧ (k : Int) ≤ s.clock.pissoff.toInt := by
      have : k ≤ (n + 1) * k := Nat.le_mul_of_pos_left k (Nat.succ_pos n)
      omega
    have hp := JitClock.toInt_sub_ticks (p := s.clock.pissoff) (k := k) (by omega) hk.1
    have hmsb : ¬ (s.subTicks k).clock.pissoff.msb = true := by
      rw [BitVec.msb_eq_toInt, decide_eq_true_eq, JitClock.subTicks, hp]
      omega
    have hstep : s.step (.block k) = s.subTicks k := if_neg hmsb
    rw [List.replicate_succ, List.foldl_cons, hstep, JitClock.foldl_blocks k n]
    · simp only [JitClock.subTicks]
      rw [BitVec.sub_sub, ← BitVec.ofNat_add, Nat.succ_mul, Nat.add_comm]
    · simp only [JitClock.subTicks]
      rw [hp]
      have : (n + 1) * k = n * k + k := Nat.succ_mul n k
      omega

/-- A budget of five million cycles is clamped to `INT_MAX` ticks; the block that uses up the
last of them makes `pissoff_value - pissoff` overflow, and the clock runs backwards. -/
theorem jitRun_wraps :
    let k : Clock := ⟨0, 0, 0, false, 0⟩
    let ops := List.replicate 4194304 (JitOp.block 512)
    let s := ops.foldl JitClock.step (JitClock.start k 5000000)
    s.total = -2147483648 ∧ ¬ s.Accounted (k.currcycle + (ops.map JitOp.ticks).sum) := by
  intro k ops s
  have hs : s.total = -2147483648 := by
    have hops : ops = List.replicate 4194303 (.block 512) ++ [.block 512] :=
      List.replicate_succ'
    have hrun := JitClock.foldl_blocks 512 4194303 (JitClock.start k 5000000) (by decide)
    have hlast : (((JitClock.start k 5000000).subTicks (4194303 * 512)).step
        (.block 512)).total = -2147483648 := by decide
    simp only [s, hops, List.foldl_append, hrun, List.foldl_cons, List.foldl_nil]
    exact hlast
  have hsum : (ops.map JitOp.ticks).sum = 2147483648 := by
    simp only [ops, List.map_replicate, List.sum_replicate, JitOp.ticks]
    decide
  refine ⟨hs, fun ha => ?_⟩
  have := ha.total
  rw [hs, hsum] at this
  revert this
  decide

/-- A run of two blocks and an interpreted instruction that ends right past its target. -/
theorem jitRun_accounting_short :
    let k : Clock := ⟨0, 0, 0, false, 0⟩
    let ops := [JitOp.block 600, .cycles 100, .block 500]
    let s := ops.foldl JitClock.step (JitClock.start k 2)
    s.clock.jitRunTarget = 1024 ∧ s.Accounted 1200 ∧ s.clock.hostCycles = 2 ∧ s.brk = true := by
  intro k ops s
  have hrun : Run (Guarded JitClock.Trans JitClock.Safe) (JitClock.start k 2) ops s :=
    .cons ⟨by decide, by decide, rfl⟩ (.cons ⟨trivial, trivial, rfl⟩
      (.cons ⟨by decide, by decide, rfl⟩ .nil))
  obtain ⟨ht, ha, hq, -⟩ := jitRun_accounting (by decide) hrun
  exact ⟨ht, ha, hq, by decide⟩

end UaeCpu
