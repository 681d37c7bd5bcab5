import UaeCpu.FlagTable
import UaeCpu.Lib.Liveness

/-!
# UaeCpu.DeadFlags

The flags `compile_block` lets go. A pass from the end of the trace finds the flags that are live
behind each instruction; an instruction none of whose flags are live is translated without them, and
where none of C, Z, N and V is live they are forgotten altogether.

* `liveBefore` — one step of the pass, with the exception for ADDX.
* `deadFlags_sound` — the block computes what the instructions do, and at an exit in its middle only
  dead flags differ.
-/

namespace UaeCpu

open Liveness

/-! ## Properties of an opcode -/

/-- `op_properties`, without the control flow. -/
structure OpProperties where
  useFlags : Byte
  setFlags : Byte
  isAddx : Bool
  deriving DecidableEq, Repr

/-- `build_comp`: "Unconditional jumps don't evaluate condition codes". -/
def buildProp (t : FlagColumns) (isAddx constJump : Bool) : OpProperties where
  setFlags := t.flagdead
  useFlags := if constJump then 0 else t.flaglive
  isAddx := isAddx

abbrev flagAll : Byte := 0x1F
abbrev flagCznv : Byte := 0x0F
abbrev flagZ : Byte := 0x04

/-- `unsafeFallbacks` is `jit_use_compile_fallbacks()`. -/
structure CompileCfg where
  compnf : Bool
  unsafeFallbacks : Bool
  deriving DecidableEq, Repr

/-! ## The pass -/

section Pass

variable (cfg : CompileCfg)

/-- `liveflags[i]` from `liveflags[i+1]`. -/
def liveBefore (p : OpProperties) (after : Byte) : Byte :=
  if !cfg.compnf then flagAll
  else
    let live := (after &&& ~~~p.setFlags) ||| p.useFlags
    if p.isAddx && decide (after &&& flagZ = 0) then live &&& ~~~flagZ else live

/-- `liveflags` at the start of what is left of a block. -/
def liveflags (ps : List OpProperties) : Byte := ps.foldr (liveBefore cfg) flagAll

def neededFlags (p : OpProperties) (after : Byte) : Byte :=
  if cfg.unsafeFallbacks then p.setFlags else after &&& p.setFlags

/-- Whether the tables without flags are used. -/
def noFlags (p : OpProperties) (after : Byte) : Bool :=
  !cfg.unsafeFallbacks && decide (neededFlags cfg p after = 0) && cfg.compnf

/-- Whether `dont_care_flags` is called behind an instruction that has been translated. -/
def dontCareFlags (after : Byte) : Bool := !cfg.unsafeFallbacks && decide (after &&& flagCznv = 0)

/-- The flags that are left to chance. -/
def droppedFlags (translated : Bool) (p : OpProperties) (after : Byte) : Byte :=
  (if noFlags cfg p after then p.setFlags else 0) |||
    (if translated && dontCareFlags cfg after then flagCznv else 0)

end Pass

/-! ## Blocks -/

/-- Registers and memory, and the five flags. -/
abbrev FlagState (σ : Type) : Type := σ × (Flag → Bool)

/-- An instruction that keeps to its properties: it reads and writes the flags it says, and if it is
like ADDX, its old Z goes into nothing but its new Z. -/
structure FlagInstr (σ : Type) where
  prop : OpProperties
  exec : FlagState σ → FlagState σ
  writes : ∀ s, ∀ g : Flag, ¬ g.In prop.setFlags → (exec s).2 g = s.2 g
  reads : ∀ s t : FlagState σ, s.1 = t.1 →
    (∀ g : Flag, g.In prop.useFlags → ¬ (prop.isAddx = true ∧ g = .z) → s.2 g = t.2 g) →
    (exec s).1 = (exec t).1 ∧
      ∀ g : Flag, g.In prop.setFlags → (g.In prop.useFlags → s.2 g = t.2 g) → (exec s).2 g = (exec t).2 g

/-- ADDX.B of two registers. -/
def addxByte : FlagInstr (Byte × Byte) where
  prop := buildProp ⟨['X', 'N', 'Z', 'V', 'C'], ['X', '-', 'Z', '-', '-']⟩ true false
  exec := fun s =>
    let (src, dst) := s.1
    let carry : Byte := if s.2 .x then 1 else 0
    let sum := dst + src + carry
    let carryOut := decide (256 ≤ dst.toNat + src.toNat + carry.toNat)
    let overflow := (src.msb == dst.msb) && (sum.msb != dst.msb)
    ((src, sum), fun
      | .c => carryOut
      | .v => overflow
      | .z => s.2 .z && decide (sum = 0)
      | .n => sum.msb
      | .x => carryOut)
  writes := fun s g hg => absurd (by cases g <;> decide) hg
  reads := fun s t hrest hflags => by
    have hx : s.2 .x = t.2 .x := hflags .x (by decide) (by decide)
    refine ⟨by simp only [hrest, hx], fun g _ hz => ?_⟩
    cases g
    case z => simp only [hrest, hx, hz (by decide)]
    all_goals simp only [hrest, hx]

/-- An instruction of a block: whether there is native code for it, and what becomes of the flags
that are dropped behind it. -/
structure Traced (σ : Type) where
  instr : FlagInstr σ
  translated : Bool
  rubbish : Flag → Bool

section Block

variable {σ : Type} (cfg : CompileCfg)

def Traced.step (t : Traced σ) (after : Byte) (s : FlagState σ) : FlagState σ :=
  let dropped := droppedFlags cfg t.translated t.instr.prop after
  let r := t.instr.exec s
  (r.1, fun g => if g.In dropped then t.rubbish g else r.2 g)

/-- The pass over a trace. -/
def liveIn (ts : List (Traced σ)) : Byte := liveflags cfg (ts.map fun t => t.instr.prop)

/-- The compiled block, left behind `n` instructions. -/
def runBlock : Nat → List (Traced σ) → FlagState σ → FlagState σ
  | n + 1, t :: ts, s => runBlock n ts (t.step cfg (liveIn cfg ts) s)
  | _, _, s => s

/-- Every instruction in full. -/
def runFull (ts : List (Traced σ)) (s : FlagState σ) : FlagState σ := ts.foldl (fun s t => t.instr.exec s) s

end Block

/-! ## Masks -/

namespace Flag

variable (g : Flag) (a b : Byte)

theorem bit_lt : g.bit < 8 := by cases g <;> decide

@[simp] theorem in_or : g.In (a ||| b) ↔ g.In a ∨ g.In b := by
  unfold In
  rw [BitVec.getLsbD_or, Bool.or_eq_true]

@[simp] theorem in_and : g.In (a &&& b) ↔ g.In a ∧ g.In b := by
  unfold In
  rw [BitVec.getLsbD_and, Bool.and_eq_true]

@[simp] theorem in_not : g.In (~~~a) ↔ ¬ g.In a := by
  unfold In
  rw [BitVec.getLsbD_not, decide_eq_true g.bit_lt, Bool.true_and, Bool.not_eq_true', Bool.not_eq_true]

@[simp] theorem not_in_zero : ¬ g.In 0 := by
  unfold In
  rw [show (0 : Byte) = 0#8 from rfl, BitVec.getLsbD_zero]
  exact Bool.false_ne_true

theorem in_flagAll : g.In flagAll := by cases g <;> decide

theorem in_flagZ : g.In flagZ ↔ g = .z := by cases g <;> decide

variable {g a b}

/-- Nothing is in two masks that have no bit in common. -/
theorem In.not_of_and_eq_zero (h : g.In a) (hand : a &&& b = 0) : ¬ g.In b := by
  intro hb
  have hboth := (g.in_and a b).mpr ⟨h, hb⟩
  rw [hand] at hboth
  exact g.not_in_zero hboth

end Flag

/-! ## The block against the instructions -/

section Sound

variable {σ : Type} (cfg : CompileCfg)

/-- The instruction as a step over cells. -/
def FlagInstr.op (i : FlagInstr σ) : Op σ Flag Bool where
  exec := i.exec
  uses := {g | g.In i.prop.useFlags}
  defs := {g | g.In i.prop.setFlags}
  carried := {g | i.prop.isAddx = true ∧ g = .z}
  frame := i.writes
  reads := fun s t h => i.reads s t h.1 fun g huse hcarried => h.2 g ⟨huse, hcarried⟩

/-- What the pass finds live before an instruction is enough. -/
theorem covers_liveBefore (i : FlagInstr σ) (after : Byte) :
    Covers i.op {g | g.In (liveBefore cfg i.prop after)} {g | g.In after} := by
  by_cases hnf : cfg.compnf = true
  · have hin (g : Flag) : g.In (liveBefore cfg i.prop after) ↔
        (g.In after ∧ ¬ g.In i.prop.setFlags ∨ g.In i.prop.useFlags) ∧
          ¬ (i.prop.isAddx = true ∧ after &&& flagZ = 0 ∧ g = .z) := by
      unfold liveBefore
      rw [hnf, Bool.not_true, if_neg Bool.false_ne_true]
      dsimp only
      split
      · rename_i haddx
        rw [Bool.and_eq_true, decide_eq_true_iff] at haddx
        rw [Flag.in_and, Flag.in_or, Flag.in_and, Flag.in_not, Flag.in_not, Flag.in_flagZ]
        exact and_congr_right fun _ => not_congr ⟨fun hz => ⟨haddx.1, haddx.2, hz⟩, fun h => h.2.2⟩
      · rename_i haddx
        rw [Bool.and_eq_true, decide_eq_true_iff] at haddx
        have hnot : ¬ (i.prop.isAddx = true ∧ after &&& flagZ = 0 ∧ g = .z) := fun h => haddx ⟨h.1, h.2.1⟩
        simp only [Flag.in_or, Flag.in_and, Flag.in_not, hnot, not_false_iff, and_true]
    have hz {g : Flag} (hg : g.In after) : ¬ (i.prop.isAddx = true ∧ after &&& flagZ = 0 ∧ g = .z) :=
      fun h => hg.not_of_and_eq_zero h.2.1 ((Flag.in_flagZ g).mpr h.2.2)
    exact {
      kept := fun g hg hset => (hin g).mpr ⟨.inl ⟨hg, hset⟩, hz hg⟩
      read := fun g huse hcarried => (hin g).mpr ⟨.inr huse, fun h => hcarried ⟨h.1, h.2.2⟩⟩
      carried := fun g huse hg => (hin g).mpr ⟨.inr huse, hz hg⟩ }
  · have hall (g : Flag) : g.In (liveBefore cfg i.prop after) := by
      unfold liveBefore
      rw [Bool.eq_false_iff.mpr hnf, Bool.not_false, if_pos rfl]
      exact g.in_flagAll
    exact ⟨fun g _ _ => hall g, fun g _ _ => hall g, fun g _ _ => hall g⟩

/-- ADDX keeps Z alive only for a Z that is live behind it. -/
example : liveBefore ⟨true, false⟩ addxByte.prop flagAll = 0x14 ∧ liveBefore ⟨true, false⟩ addxByte.prop 0x11 = 0x10 := by
  decide

/-- What is dropped behind an instruction is not live there. -/
theorem not_in_droppedFlags (translated : Bool) (p : OpProperties) {after : Byte} {g : Flag} (hg : g.In after) :
    ¬ g.In (droppedFlags cfg translated p after) := by
  unfold droppedFlags
  rw [Flag.in_or]
  rintro (h | h)
  · split at h
    · rename_i hno
      unfold noFlags neededFlags at hno
      simp only [Bool.and_eq_true, Bool.not_eq_true', decide_eq_true_iff] at hno
      obtain ⟨⟨hsafe, hneeded⟩, -⟩ := hno
      rw [hsafe, if_neg Bool.false_ne_true] at hneeded
      exact hg.not_of_and_eq_zero hneeded h
    · exact g.not_in_zero h
  · split at h
    · rename_i hdont
      unfold dontCareFlags at hdont
      simp only [Bool.and_eq_true, decide_eq_true_iff] at hdont
      exact hg.not_of_and_eq_zero hdont.2.2 h
    · exact g.not_in_zero h

/-- The annotations that `compile_block` gives a trace. -/
def annotate : List (Traced σ) → List (Line σ Flag Bool)
  | [] => []
  | t :: ts =>
    { op := t.instr.op
      dead := fun g => decide (g.In (droppedFlags cfg t.translated t.instr.prop (liveIn cfg ts)))
      rubbish := t.rubbish
      after := {g | g.In (liveIn cfg ts)} } :: annotate ts

theorem annotated (ts : List (Traced σ)) : Annotated {g | g.In (liveIn cfg ts)} (annotate cfg ts) := by
  induction ts with
  | nil => trivial
  | cons t ts ih =>
    refine ⟨covers_liveBefore cfg t.instr (liveIn cfg ts), fun g hg => ?_, ih⟩
    exact decide_eq_false (not_in_droppedFlags cfg t.translated t.instr.prop hg)

theorem run_annotate (ts : List (Traced σ)) (s : FlagState σ) (n : Nat) :
    run ((annotate cfg ts).take n) s = runFull (ts.take n) s := by
  induction ts generalizing s n with
  | nil => simp [annotate, run, runFull]
  | cons t ts ih =>
    cases n with
    | zero => rfl
    | succ n => exact ih (t.instr.exec s) n

theorem runDropped_annotate (ts : List (Traced σ)) (s : FlagState σ) (n : Nat) :
    runDropped ((annotate cfg ts).take n) s = runBlock cfg n ts s := by
  induction ts generalizing s n with
  | nil => cases n <;> rfl
  | cons t ts ih =>
    cases n with
    | zero => rfl
    | succ n =>
      change runDropped ((annotate cfg ts).take n) _ = runBlock cfg n ts _
      rw [ih]
      congr 1
      refine Prod.ext rfl (funext fun g => ?_)
      exact if_congr decide_eq_true_iff rfl rfl

theorem liveAtEnd_annotate (ts : List (Traced σ)) (n : Nat) :
    liveAtEnd {g | g.In (liveIn cfg ts)} ((annotate cfg ts).take n) = {g | g.In (liveIn cfg (ts.drop n))} := by
  induction ts generalizing n with
  | nil => rw [annotate, List.take_nil, List.drop_nil]; rfl
  | cons t ts ih =>
    cases n with
    | zero => rfl
    | succ n => exact ih n

/-- The whole block does what its instructions do; behind any number of instructions, registers and
memory are theirs and so are the live flags. -/
theorem deadFlags_sound (ts : List (Traced σ)) (s : FlagState σ) :
    runBlock cfg ts.length ts s = runFull ts s ∧
      ∀ n, Agree {g : Flag | g.In (liveIn cfg (ts.drop n))} (runBlock cfg n ts s) (runFull (ts.take n) s) := by
  have hexit (n : Nat) :
      Agree {g : Flag | g.In (liveIn cfg (ts.drop n))} (runBlock cfg n ts s) (runFull (ts.take n) s) := by
    have h := agree_run ((annotated cfg ts).take n) (Agree.refl _ s)
    rwa [runDropped_annotate, run_annotate, liveAtEnd_annotate] at h
  refine ⟨?_, hexit⟩
  have hend := hexit ts.length
  rw [List.take_length, List.drop_length] at hend
  exact hend.eq fun g => g.in_flagAll

end Sound

end UaeCpu
