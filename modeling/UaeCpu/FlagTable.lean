import UaeCpu.LongArith

/-!
# UaeCpu.FlagTable

What the opcode table says about the condition codes of divisions and bounds checks, and what the
helpers do to them. The JIT drops the flags of an instruction when the table lists them as set by a
later one.

* `build_insn` turns the flag columns of a line of `table68k` into `flagdead` and `flaglive`.
* `flagTable_sound_iff` — the operands for which the flags listed as set are set.
-/

namespace UaeCpu

/-! ## Flags -/

inductive Flag where
  | c | v | z | n | x
  deriving DecidableEq, Repr

namespace Flag

/-- `CC mask: XNZVC`. -/
def bit : Flag → Nat
  | c => 0
  | v => 1
  | z => 2
  | n => 3
  | x => 4

/-- The flag is in a mask. -/
def In (g : Flag) (mask : Byte) : Prop := mask.getLsbD g.bit = true

instance (g : Flag) (mask : Byte) : Decidable (g.In mask) := by unfold In; infer_instance

end Flag

namespace Flags

def get (f : Flags) : Flag → Bool
  | .c => f.c
  | .v => f.v
  | .z => f.z
  | .n => f.n
  | .x => f.x

/-- `SET_NFLG`. -/
def setN (f : Flags) (b : Bool) : Flags := { f with n := b }

/-- `SET_ZFLG`. -/
def setZ (f : Flags) (b : Bool) : Flags := { f with z := b }

/-- `SET_VFLG`. -/
def setV (f : Flags) (b : Bool) : Flags := { f with v := b }

/-- `SET_CFLG`. -/
def setC (f : Flags) (b : Bool) : Flags := { f with c := b }

def clearCznv (f : Flags) : Flags := { f with n := false, z := false, v := false, c := false }

end Flags

/-! ## The table -/

inductive FlagSet where
  | set | unset | zero | one | dontcare | unknown | isjmp | isbranch
  deriving DecidableEq, Repr

inductive FlagUse where
  | used | unused | maybecc | unknown | isjmp
  deriving DecidableEq, Repr

def flagSetOf : Char → FlagSet
  | '-' => .unset
  | '/' => .isjmp
  | '+' => .isbranch
  | '0' => .zero
  | '1' => .one
  | 'x' => .dontcare
  | '?' => .unknown
  | _ => .set

def flagUseOf : Char → FlagUse
  | '-' => .unused
  | '/' => .isjmp
  | '+' => .maybecc
  | '?' => .unknown
  | _ => .used

/-- The flag columns of a line, X first. -/
structure FlagColumns where
  flagset : List Char
  flaguse : List Char
  deriving DecidableEq, Repr

/-- The loop of `build_insn` over five columns: `n` counts down from 4. -/
def maskOf (counts : Char → Bool) (columns : List Char) : Byte :=
  (columns.zip [4, 3, 2, 1, 0]).foldl (fun mask (ch, n) => if counts ch then mask ||| 1 <<< n else mask) 0

/-- `flags_set`, which becomes `flagdead`. -/
def FlagColumns.flagdead (t : FlagColumns) : Byte :=
  maskOf (fun ch => flagSetOf ch != .unset && flagSetOf ch != .isjmp) t.flagset

/-- `flags_used`, which becomes `flaglive`. -/
def FlagColumns.flaglive (t : FlagColumns) : Byte :=
  maskOf (fun ch => flagUseOf ch != .unused && flagUseOf ch != .isjmp) t.flaguse

/-- The lines of DIVL.L, DIVU.W and DIVS.W. -/
def divColumns : FlagColumns := ⟨['-', 'N', 'Z', 'V', '0'], ['-', '-', '-', '-', '-']⟩

/-- The lines of CHK.W and CHK.L. -/
def chkColumns : FlagColumns := ⟨['-', 'N', '?', '?', '?'], ['-', '-', '-', '-', '-']⟩

/-- The line of CHK2. -/
def chk2Columns : FlagColumns := ⟨['-', '?', 'Z', '?', 'C'], ['-', '-', '-', '-', '-']⟩

/-! ## Helpers -/

section Helpers

variable (p : Prefs)

/-- `divbyzero_special`. -/
def divbyzeroSpecial (issigned : Bool) (dst : Long) (f : Flags) : Flags :=
  if p.cpuModel = .m68020 ∨ p.cpuModel = .m68030 then
    let f := f.clearCznv
    if issigned then f.setZ true
    else
      let d : Word := (dst >>> 16).setWidth 16
      let f := if d.slt 0 then f.setN true else if d = 0 then f.setZ true else f
      f.setV true
  else if p.cpuModel = .m68040 then f.setC false
  else if p.cpuModel = .m68060 then f.setC false
  else
    let f := f.clearCznv
    if issigned then f.setZ true
    else
      let d : Word := (dst >>> 16).setWidth 16
      if d.slt 0 then f.setN true else if d = 0 then f.setZ true else f

/-- `setdivuflags`. -/
def setdivuflags (dividend : Long) (divisor : Word) (f : Flags) : Flags :=
  if p.cpuModel = .m68060 then (f.setV true).setC false
  else if p.cpuModel = .m68040 then (f.setV true).setC false
  else if 68020 ≤ p.cpuModel.num then
    let f := f.setV true
    if dividend.slt 0 then f.setN true else f
  else if p.cpuModel = .m68010 then
    let f := f.setV true
    let f := if dividend.slt 0 && divisor.slt 0 then f.setN false else f.setN true
    (f.setZ false).setC false
  else (((f.setV true).setN true).setZ false).setC false

/-- `setdivsflags`; `abs` of the most negative number is itself. -/
def setdivsflags (dividend : Long) (divisor : Word) (f : Flags) : Flags :=
  if p.cpuModel = .m68060 then (f.setV true).setC false
  else if p.cpuModel = .m68040 then (f.setV true).setC false
  else if 68020 ≤ p.cpuModel.num then
    let f := f.clearCznv.setV true
    let dividendAbs := dividend.abs
    let divisorAbs : Word := ((divisor.signExtend 32 : Long).abs).setWidth 16
    if divisorAbs.setWidth 32 ≤ dividendAbs >>> 16 then f
    else
      let aquot : Byte := (dividendAbs / divisorAbs.setWidth 32).setWidth 8
      let f := if aquot = 0 then f.setZ true else f
      if aquot.slt 0 then f.setN true else f
  else (f.clearCznv.setV true).setN true

/-- V of a CHK that traps on a 68020: `src - dst` overflows. -/
def chkOverflow {w : Nat} (src dst : BitVec w) : Bool :=
  (dst.slt 0 ^^ src.slt 0) && ((src - dst).slt 0 ^^ src.slt 0)

/-- `setchkundefinedflags`; `word` stands for `size == sz_word`. -/
def setchkundefinedflags (src dst : Long) (word : Bool) (f : Flags) : Flags :=
  if p.cpuModel.num < 68020 then
    let f := f.clearCznv
    let f := if dst = 0 then f.setZ true else f
    if dst.slt 0 then f.setN true else if src.slt dst then f.setN false else f
  else if p.cpuModel = .m68020 ∨ p.cpuModel = .m68030 then
    let f := f.clearCznv
    let f := if dst = 0 then f.setZ true else f
    let f := f.setN (dst.slt 0)
    if dst.slt 0 || src.slt dst then
      let f := f.setV (if word then chkOverflow (src.setWidth 16) (dst.setWidth 16) else chkOverflow src dst)
      if dst.slt 0 then f.setC (src.slt dst || !src.slt 0) else f.setC (!src.slt 0)
    else f
  else if p.cpuModel = .m68040 then
    let f := f.setC false
    let f :=
      if dst.slt 0 || src.slt dst then
        if dst.slt 0 && !src.slt 0 then f.setC true
        else if !src.slt 0 && src.sle dst then f.setC true
        else if dst.slt 0 && src.slt dst then f.setC true
        else f
      else f
    f.setN (dst.slt 0)
  else if p.cpuModel = .m68060 then
    let f := f.setN false
    if dst.slt 0 || src.slt dst then f.setN (dst.slt 0) else f
  else f

/-- `setchk2undefinedflags`; its differences wrap. -/
def setchk2undefinedflags (lower upper val : Long) (f : Flags) : Flags :=
  if p.cpuModel = .m68060 then (f.setV false).setN (val.slt 0)
  else if p.cpuModel = .m68040 then f
  else
    let f := (f.setN false).setV false
    if val = lower ∨ val = upper then f
    else if lower.slt 0 && !upper.slt 0 then
      let f := if val.slt lower then f.setN true else f
      let f := if !val.slt 0 && val.slt upper then f.setN true else f
      if !val.slt 0 && !(lower - val).slt 0 then
        let f := (f.setV true).setN false
        if upper.slt val then f.setN true else f
      else f
    else if !lower.slt 0 && upper.slt 0 then
      let f := if !val.slt 0 then f.setN true else f
      let f := if upper.slt val then f.setN true else f
      if lower.slt val && !(upper - val).slt 0 then (f.setV true).setN false else f
    else if !lower.slt 0 && !upper.slt 0 && upper.slt lower then
      let f := if upper.slt val && val.slt lower then f.setN true else f
      let f := if val.slt 0 && (lower - val).slt 0 then f.setV true else f
      if val.slt 0 && !(lower - val).slt 0 then f.setN true else f
    else if !lower.slt 0 && !upper.slt 0 && lower.sle upper then
      let f := if !val.slt 0 && val.slt lower then f.setN true else f
      let f := if upper.slt val then f.setN true else f
      if val.slt 0 && (upper - val).slt 0 then (f.setV true).setN true else f
    else if lower.slt 0 && upper.slt 0 && upper.slt lower then
      let f := if !val.slt 0 then f.setN true else f
      let f := if upper.slt val && val.slt lower then f.setN true else f
      if !val.slt 0 && (val - lower).slt 0 then (f.setN false).setV true else f
    else if lower.slt 0 && upper.slt 0 && lower.sle upper then
      let f := if val.slt lower then f.setN true else f
      let f := if val.slt 0 && upper.slt val then f.setN true else f
      if !val.slt 0 && (val - lower).slt 0 then (f.setN true).setV true else f
    else f

/-- The flags of a CHK2: what the opcode handler sets, around the helper. -/
def chk2Flags (lower upper reg : Long) (f : Flags) : Flags :=
  let f := setchk2undefinedflags p lower upper reg ((f.setC false).setZ false)
  if upper = reg ∨ lower = reg then f.setZ true
  else
    let f := if lower.sle upper && (reg.slt lower || upper.slt reg) then f.setC true else f
    if upper.slt lower && upper.slt reg && reg.slt lower then f.setC true else f

end Helpers

/-! ## Soundness of the table -/

/-- The condition codes a long division returns with. One left to software has not touched them. -/
def LongOutcome.flags (o : LongOutcome) (f : Flags) : Flags :=
  match o with
  | .done c => c.flags
  | .zeroDivide c => c.flags
  | .unimplemented => f

/-- An instruction with its operands. For DIVL they are in the registers of `core`. -/
inductive FlagOp where
  | divl (intNoUnimplemented : Bool) (core : Core) (src : Long) (extra : Word)
  | divByZero (issigned : Bool) (dst : Long)
  | divuOverflow (dividend : Long) (divisor : Word)
  | divsOverflow (dividend : Long) (divisor : Word)
  | chk (src dst : Long) (word : Bool)
  | chk2 (lower upper reg : Long)

namespace FlagOp

def columns : FlagOp → FlagColumns
  | chk _ _ _ => chkColumns
  | chk2 _ _ _ => chk2Columns
  | _ => divColumns

/-- The condition codes behind the instruction. -/
def after (p : Prefs) (f : Flags) : FlagOp → Flags
  | divl i core src extra => (m68kDivl p i { core with flags := f } src extra).1.flags f
  | divByZero issigned dst => divbyzeroSpecial p issigned dst f
  | divuOverflow dividend divisor => setdivuflags p dividend divisor f
  | divsOverflow dividend divisor => setdivsflags p dividend divisor f
  | chk src dst word => setchkundefinedflags p src dst word f
  | chk2 lower upper reg => chk2Flags p lower upper reg f

/-- What the JIT relies on: the flags listed as set come out the same for all old condition codes
that agree in the flags listed as used. -/
def Sound (p : Prefs) (op : FlagOp) : Prop :=
  ∀ f f' : Flags, (∀ g : Flag, g.In op.columns.flaglive → f.get g = f'.get g) →
    ∀ g : Flag, g.In op.columns.flagdead → (op.after p f).get g = (op.after p f').get g

/-- The operands for which every flag is set. -/
def Settled (p : Prefs) : FlagOp → Prop
  | divl i core src extra =>
    leftToSoftware p i extra = false ∧
      if p.cpuModel.num < 68040 then src ≠ 0 ∨ extraSigned extra = false
      else src ≠ 0 ∧ Fits32 (extraSigned extra)
        ((dividend core extra).tdiv (longValue (extraSigned extra) src))
  | divByZero _ _ => p.cpuModel.num < 68040
  | divuOverflow _ _ => False
  | divsOverflow _ _ => p.cpuModel.num < 68040
  | chk _ _ _ => p.cpuModel.num < 68040
  | chk2 _ _ _ => p.cpuModel ≠ .m68040

theorem flaglive_eq (op : FlagOp) : op.columns.flaglive = 0 := by cases op <;> rfl

theorem flagdead_eq (op : FlagOp) : op.columns.flagdead = 0x0F := by cases op <;> rfl

end FlagOp

/-- The same condition codes but for X. -/
def SameCznv (f f' : Flags) : Prop := ∀ g : Flag, g ≠ .x → f.get g = f'.get g

/-- The table lists all four condition codes as set and none as used. -/
theorem FlagOp.sound_iff (p : Prefs) (op : FlagOp) :
    op.Sound p ↔ ∀ f f' : Flags, SameCznv (op.after p f) (op.after p f') := by
  unfold FlagOp.Sound
  rw [op.flaglive_eq, op.flagdead_eq]
  constructor
  · intro h f f' g hg
    refine h f f' (fun g hlive => ?_) g ?_
    · cases g <;> exact absurd hlive (by decide)
    · cases g
      case x => exact absurd rfl hg
      all_goals decide
  · intro h f f' _ g hdead
    refine h f f' g fun hx => ?_
    subst hx
    exact absurd hdead (by decide)

/-- A flag that comes through is not set. -/
theorem FlagOp.not_sound_of_kept {p : Prefs} {op : FlagOp} {g : Flag} (hg : g ≠ .x)
    (h : ∀ f, (op.after p f).get g = f.get g) : ¬ op.Sound p := by
  rw [op.sound_iff]
  intro hsame
  have heq := hsame ⟨false, false, false, false, false⟩ ⟨true, true, true, true, true⟩ g hg
  rw [h, h] at heq
  cases g <;> cases heq

/-! ## Flags step by step -/

namespace SameCznv

variable {f f' g g' : Flags}

theorem of_fields (hn : f.n = f'.n) (hz : f.z = f'.z) (hv : f.v = f'.v) (hc : f.c = f'.c) : SameCznv f f' := by
  intro k hk
  cases k
  case x => exact absurd rfl hk
  all_goals assumption

theorem setN (h : SameCznv f f') (b : Bool) : SameCznv (f.setN b) (f'.setN b) :=
  of_fields rfl (h .z (by decide)) (h .v (by decide)) (h .c (by decide))

theorem setZ (h : SameCznv f f') (b : Bool) : SameCznv (f.setZ b) (f'.setZ b) :=
  of_fields (h .n (by decide)) rfl (h .v (by decide)) (h .c (by decide))

theorem setV (h : SameCznv f f') (b : Bool) : SameCznv (f.setV b) (f'.setV b) :=
  of_fields (h .n (by decide)) (h .z (by decide)) rfl (h .c (by decide))

theorem setC (h : SameCznv f f') (b : Bool) : SameCznv (f.setC b) (f'.setC b) :=
  of_fields (h .n (by decide)) (h .z (by decide)) (h .v (by decide)) rfl

theorem clear (f f' : Flags) : SameCznv f.clearCznv f'.clearCznv := of_fields rfl rfl rfl rfl

theorem ite {c : Prop} [Decidable c] (h : SameCznv f f') (h' : SameCznv g g') :
    SameCznv (if c then f else g) (if c then f' else g') := by
  split
  · exact h
  · exact h'

end SameCznv

theorem num_lt_040_iff {p : Prefs} (h : 68020 ≤ p.cpuModel.num) :
    p.cpuModel.num < 68040 ↔ p.cpuModel = .m68020 ∨ p.cpuModel = .m68030 := by
  generalize p.cpuModel = m at h
  revert h
  cases m <;> decide

theorem eq_040_or_060 {p : Prefs} (h : ¬ p.cpuModel.num < 68040) :
    p.cpuModel = .m68040 ∨ p.cpuModel = .m68060 := by
  generalize p.cpuModel = m at h
  revert h
  cases m <;> decide

section Ops

variable {p : Prefs}

theorem divByZero_same (h : p.cpuModel = .m68020 ∨ p.cpuModel = .m68030) (issigned : Bool) (dst : Long)
    (f f' : Flags) : SameCznv (divbyzeroSpecial p issigned dst f) (divbyzeroSpecial p issigned dst f') := by
  have hclear := SameCznv.clear f f'
  unfold divbyzeroSpecial
  rw [if_pos h, if_pos h]
  exact .ite (hclear.setZ true) (.setV (.ite (hclear.setN true) (.ite (hclear.setZ true) hclear)) true)

theorem divByZero_kept (h : p.cpuModel = .m68040 ∨ p.cpuModel = .m68060) (issigned : Bool) (dst : Long)
    (f : Flags) : (divbyzeroSpecial p issigned dst f).get .z = f.get .z := by
  unfold divbyzeroSpecial
  obtain h | h := h <;> simp [h, Flags.setC, Flags.get]

theorem divuOverflow_kept (h : 68020 ≤ p.cpuModel.num) (dividend : Long) (divisor : Word) (f : Flags) :
    (setdivuflags p dividend divisor f).get .z = f.get .z := by
  unfold setdivuflags
  rw [if_pos h]
  dsimp only
  split_ifs <;> rfl

theorem divsOverflow_same (h : p.cpuModel = .m68020 ∨ p.cpuModel = .m68030) (dividend : Long)
    (divisor : Word) (f f' : Flags) :
    SameCznv (setdivsflags p dividend divisor f) (setdivsflags p dividend divisor f') := by
  have hclear := (SameCznv.clear f f').setV true
  have h060 : ¬ p.cpuModel = .m68060 := by
    rintro heq
    rw [heq] at h
    exact absurd h (by decide)
  have h040 : ¬ p.cpuModel = .m68040 := by
    rintro heq
    rw [heq] at h
    exact absurd h (by decide)
  have h020 : 68020 ≤ p.cpuModel.num := by
    obtain h | h := h <;> rw [h] <;> decide
  unfold setdivsflags
  rw [if_neg h060, if_neg h060, if_neg h040, if_neg h040, if_pos h020, if_pos h020]
  have hz := SameCznv.ite (c := (((dividend.abs / (((divisor.signExtend 32 : Long).abs).setWidth 16 : Word).setWidth 32 :
    Long).setWidth 8 : Byte) = 0)) (hclear.setZ true) hclear
  exact .ite hclear (.ite (hz.setN true) hz)

theorem divsOverflow_kept (h : p.cpuModel = .m68040 ∨ p.cpuModel = .m68060) (dividend : Long)
    (divisor : Word) (f : Flags) : (setdivsflags p dividend divisor f).get .z = f.get .z := by
  unfold setdivsflags
  obtain h | h := h <;> simp [h, Flags.setC, Flags.setV, Flags.get]

theorem chk_same (h : p.cpuModel = .m68020 ∨ p.cpuModel = .m68030) (src dst : Long) (word : Bool)
    (f f' : Flags) : SameCznv (setchkundefinedflags p src dst word f) (setchkundefinedflags p src dst word f') := by
  have hclear := SameCznv.clear f f'
  have h020 : ¬ p.cpuModel.num < 68020 := by
    obtain h | h := h <;> rw [h] <;> decide
  have hn := (SameCznv.ite (c := dst = 0) (hclear.setZ true) hclear).setN (dst.slt 0)
  unfold setchkundefinedflags
  rw [if_neg h020, if_neg h020, if_pos h, if_pos h]
  exact .ite (.ite ((hn.setV _).setC _) ((hn.setV _).setC _)) hn

theorem chk_kept (h : p.cpuModel = .m68040 ∨ p.cpuModel = .m68060) (src dst : Long) (word : Bool)
    (f : Flags) : (setchkundefinedflags p src dst word f).get .z = f.get .z := by
  have h020 : ¬ p.cpuModel.num < 68020 := by
    obtain h | h := h <;> rw [h] <;> decide
  have h030 : ¬ (p.cpuModel = .m68020 ∨ p.cpuModel = .m68030) := by
    obtain h | h := h <;> rw [h] <;> decide
  unfold setchkundefinedflags
  rw [if_neg h020, if_neg h030]
  dsimp only
  split_ifs <;> rfl

/-- The helper sets N and V on every model but the 68040. -/
theorem chk2Undefined_same (h : p.cpuModel ≠ .m68040) (lower upper val : Long) (f f' : Flags)
    (hz : f.z = f'.z) (hc : f.c = f'.c) :
    SameCznv (setchk2undefinedflags p lower upper val f) (setchk2undefinedflags p lower upper val f') := by
  have hstart : SameCznv ((f.setN false).setV false) ((f'.setN false).setV false) := .of_fields rfl hz rfl hc
  unfold setchk2undefinedflags
  refine .ite (.of_fields rfl hz rfl hc) ?_
  rw [if_neg h, if_neg h]
  dsimp only
  generalize (f.setN false).setV false = f₀ at hstart ⊢
  generalize (f'.setN false).setV false = f₀' at hstart ⊢
  repeat' first
    | exact hstart
    | refine SameCznv.ite ?_ ?_
    | refine SameCznv.setN ?_ _
    | refine SameCznv.setV ?_ _

theorem chk2_same (h : p.cpuModel ≠ .m68040) (lower upper reg : Long) (f f' : Flags) :
    SameCznv (chk2Flags p lower upper reg f) (chk2Flags p lower upper reg f') := by
  have hundef := chk2Undefined_same h lower upper reg ((f.setC false).setZ false) ((f'.setC false).setZ false)
    rfl rfl
  unfold chk2Flags
  dsimp only
  refine .ite (hundef.setZ true) ?_
  repeat' first
    | exact hundef
    | refine SameCznv.ite ?_ ?_
    | refine SameCznv.setC ?_ _

theorem chk2_kept (h : p.cpuModel = .m68040) (lower upper reg : Long) (f : Flags) :
    (chk2Flags p lower upper reg f).get .n = f.get .n := by
  have hundef : setchk2undefinedflags p lower upper reg ((f.setC false).setZ false) =
      (f.setC false).setZ false := by
    unfold setchk2undefinedflags
    rw [if_neg (by rw [h]; decide), if_pos h]
  unfold chk2Flags
  rw [hundef]
  dsimp only
  split_ifs <;> rfl

end Ops

/-! ## The long division -/

/-- How a division ends, for all condition codes alike. -/
inductive DivShape (zero : Core → Core) (ovf : BitVec 64 → Core → Core) (extra : Word) (src : Long) (c : Core)
    (run : Core → LongOutcome) : Prop where
  | zero (hsrc : src = 0)
      (h : ∀ f, run { c with flags := f } = .zeroDivide (zero { c with flags := f }))
  | overflow (hsrc : src ≠ 0) (a : BitVec 64)
      (h : ∀ f, run { c with flags := f } = .done (ovf a { c with flags := f }))
  | quot (hsrc : src ≠ 0) (q r : BitVec 64)
      (h : ∀ f, run { c with flags := f } = .done (storeQuotient { c with flags := f } extra q r))

section Divl

variable (p : Prefs) (c : Core) (src : Long) (extra : Word)

theorem divsl_shape :
    DivShape (divslDivbyzero p) (fun a c => divslOverflow p c extra a src) extra src c
      (fun c => (divsl p c src extra).1) := by
  have hreg (f : Flags) (i : Fin 8) : ({ c with flags := f } : Core).dreg i = c.dreg i := rfl
  obtain ⟨a, ops, hpair⟩ : ∃ (a : BitVec 64) (ops : List SignedOp),
      (if extraLong extra then
        (((c.dreg (extraDq extra)).signExtend 64 &&& (0xffffffff : BitVec 64)) |||
          (c.dreg (extraDr extra)).setWidth 64 <<< 32, [SignedOp.shl (c.dreg (extraDr extra)).toNat 32])
      else ((c.dreg (extraDq extra)).signExtend 64, [])) = (a, ops) := ⟨_, _, rfl⟩
  by_cases hsrc : src = 0
  · exact .zero hsrc fun f => by simp only [divsl, if_pos hsrc]
  by_cases hmin : a = 0x8000000000000000 ∧ src = 0xffffffff
  · exact .overflow hsrc a fun f => by simp only [divsl, hreg, hpair, if_neg hsrc, if_pos hmin]
  by_cases hover : a.sdiv (src.signExtend 64) &&& signMask ≠ 0 ∧ a.sdiv (src.signExtend 64) &&& signMask ≠ signMask
  · exact .overflow hsrc a fun f => by simp only [divsl, hreg, hpair, if_neg hsrc, if_neg hmin, if_pos hover]
  by_cases hsign : ((a.srem (src.signExtend 64)).setWidth 32 : Long).msb ≠ a.msb
  · exact .quot hsrc _ _ fun f => by
      simp only [divsl, hreg, hpair, if_neg hsrc, if_neg hmin, if_neg hover, if_pos hsign]
      rfl
  · exact .quot hsrc _ _ fun f => by
      simp only [divsl, hreg, hpair, if_neg hsrc, if_neg hmin, if_neg hover, if_neg hsign]
      rfl

/-- The dividend of the unsigned variant. -/
def divulDividend : BitVec 64 :=
  if extraLong extra then
    ((c.dreg (extraDq extra)).setWidth 64 &&& (0xffffffff : BitVec 64)) ||| (c.dreg (extraDr extra)).setWidth 64 <<< 32
  else (c.dreg (extraDq extra)).setWidth 64

theorem divul_shape :
    DivShape (fun c' => divulDivbyzero p c' (divulDividend c extra)) (fun a c => divulOverflow p c a) extra src c
      (fun c => divul p c src extra) := by
  have hdividend (f : Flags) : divulDividend { c with flags := f } extra = divulDividend c extra := rfl
  have hdivul (c : Core) : divul p c src extra =
      if src = 0 then .zeroDivide (divulDivbyzero p c (divulDividend c extra))
      else if 0xffffffff < divulDividend c extra / src.setWidth 64 then
        .done (divulOverflow p c (divulDividend c extra))
      else .done (storeQuotient c extra (divulDividend c extra / src.setWidth 64)
        (divulDividend c extra % src.setWidth 64)) := rfl
  by_cases hsrc : src = 0
  · exact .zero hsrc fun f => by rw [hdivul, hdividend, if_pos hsrc]
  by_cases hover : 0xffffffff < divulDividend c extra / src.setWidth 64
  · exact .overflow hsrc _ fun f => by rw [hdivul, hdividend, if_neg hsrc, if_pos hover]
  · exact .quot hsrc _ _ fun f => by rw [hdivul, hdividend, if_neg hsrc, if_neg hover]

variable {p c src extra}

/-- The shape and the law of division together. -/
theorem DivShape.fits_cases {zero : Core → Core} {ovf : BitVec 64 → Core → Core} {run : Core → LongOutcome}
    {signed : Bool} {a b : Int} (h : DivShape zero ovf extra src c run)
    (hv : ∀ (a : BitVec 64) (c : Core), (ovf a c).flags.v = true)
    (hends : src ≠ 0 → DivEnds c extra signed a b (run { c with flags := c.flags })) (hsrc : src ≠ 0) :
    (Fits32 signed (a.tdiv b) → ∃ q r : BitVec 64, ∀ f,
        run { c with flags := f } = .done (storeQuotient { c with flags := f } extra q r)) ∧
      (¬ Fits32 signed (a.tdiv b) → ∃ a : BitVec 64, ∀ f,
        run { c with flags := f } = .done (ovf a { c with flags := f })) := by
  obtain ⟨hfit, hnot⟩ := hends hsrc
  cases h with
  | zero h0 => exact absurd h0 hsrc
  | overflow _ a' h =>
    refine ⟨fun hf => ?_, fun _ => ⟨a', h⟩⟩
    have heq := (h c.flags).symm.trans (hfit hf)
    injection heq with heq
    have hvf := hv a' { c with flags := c.flags }
    rw [heq] at hvf
    exact absurd hvf Bool.false_ne_true
  | quot _ q r h =>
    refine ⟨fun _ => ⟨q, r, h⟩, fun hf => ?_⟩
    obtain ⟨f, hvf, heq⟩ := hnot hf
    have heq := (h c.flags).symm.trans heq
    injection heq with heq
    have hstore : (storeQuotient { c with flags := c.flags } extra q r).flags.v = false := rfl
    rw [heq] at hstore
    rw [hstore] at hvf
    cases hvf

theorem storeQuotient_same (q r : BitVec 64) (f f' : Flags) :
    SameCznv (storeQuotient { c with flags := f } extra q r).flags (storeQuotient { c with flags := f' } extra q r).flags :=
  .of_fields rfl rfl rfl rfl

theorem divslOverflow_same (h : p.cpuModel.num < 68040) (a : BitVec 64) (f f' : Flags) :
    SameCznv (divslOverflow p { c with flags := f } extra a src).flags
      (divslOverflow p { c with flags := f' } extra a src).flags := by
  have h040 : ¬ 68040 ≤ p.cpuModel.num := Nat.not_le.mpr h
  unfold divslOverflow Core.setFlags
  rw [if_neg h040, if_neg h040]
  dsimp only
  split_ifs <;> exact .of_fields rfl rfl rfl rfl

theorem divulOverflow_same (h : p.cpuModel.num < 68040) (a : BitVec 64) (f f' : Flags) :
    SameCznv (divulOverflow p { c with flags := f } a).flags (divulOverflow p { c with flags := f' } a).flags := by
  have h040 : ¬ 68040 ≤ p.cpuModel.num := Nat.not_le.mpr h
  unfold divulOverflow Core.setFlags
  rw [if_neg h040, if_neg h040]
  exact .of_fields rfl rfl rfl rfl

theorem divulDivbyzero_same (h : p.cpuModel.num < 68040) (a : BitVec 64) (f f' : Flags) :
    SameCznv (divulDivbyzero p { c with flags := f } a).flags (divulDivbyzero p { c with flags := f' } a).flags := by
  have h040 : ¬ 68040 ≤ p.cpuModel.num := Nat.not_le.mpr h
  unfold divulDivbyzero Core.setFlags
  rw [if_neg h040, if_neg h040]
  exact .of_fields rfl rfl rfl rfl

/-- From the 68040 on, nothing but V and C is touched where there is no quotient. -/
theorem divl_kept (c : Core) (src : Long) (extra : Word) (h : ¬ p.cpuModel.num < 68040) (a : BitVec 64) (f : Flags) :
    (divslOverflow p { c with flags := f } extra a src).flags.get .z = f.get .z ∧
      (divulOverflow p { c with flags := f } a).flags.get .z = f.get .z ∧
      (divslDivbyzero p { c with flags := f }).flags.get .z = f.get .z ∧
      (divulDivbyzero p { c with flags := f } a).flags.get .z = f.get .z := by
  have h040 : 68040 ≤ p.cpuModel.num := Nat.not_lt.mp h
  unfold divslOverflow divulOverflow divslDivbyzero divulDivbyzero
  rw [if_pos h040, if_pos h040, if_pos h040, if_pos h040]
  exact ⟨rfl, rfl, rfl, rfl⟩

/-- Before the 68040, a signed division by zero leaves V. -/
theorem divslDivbyzero_kept (h : p.cpuModel.num < 68040) (f : Flags) :
    (divslDivbyzero p { c with flags := f }).flags.get .v = f.get .v := by
  unfold divslDivbyzero
  rw [if_neg (Nat.not_le.mpr h)]
  rfl

end Divl

section Sound

variable {p : Prefs} {i : Bool} {c : Core} {src : Long} {extra : Word}

/-- What a division of this shape does to the flags. -/
theorem DivShape.sound_iff {zero : Core → Core} {ovf : BitVec 64 → Core → Core} {run : Core → LongOutcome}
    {signed : Bool} {a b : Int} (h : DivShape zero ovf extra src c run)
    (hafter : ∀ f, (FlagOp.divl i c src extra).after p f = (run { c with flags := f }).flags f)
    (hv : ∀ (a : BitVec 64) (c : Core), (ovf a c).flags.v = true)
    (hends : src ≠ 0 → DivEnds c extra signed a b (run { c with flags := c.flags }))
    (hover : p.cpuModel.num < 68040 → ∀ (a : BitVec 64) f f',
      SameCznv (ovf a { c with flags := f }).flags (ovf a { c with flags := f' }).flags)
    (hkept : ¬ p.cpuModel.num < 68040 → ∀ (a : BitVec 64) f,
      (ovf a { c with flags := f }).flags.get .z = f.get .z)
    (hzero : (signed = false ∧ p.cpuModel.num < 68040 ∧
        ∀ f f', SameCznv (zero { c with flags := f }).flags (zero { c with flags := f' }).flags) ∨
      (¬ (signed = false ∧ p.cpuModel.num < 68040) ∧ ∃ g : Flag, g ≠ .x ∧
        ∀ f, (zero { c with flags := f }).flags.get g = f.get g)) :
    (FlagOp.divl i c src extra).Sound p ↔
      if p.cpuModel.num < 68040 then src ≠ 0 ∨ signed = false
      else src ≠ 0 ∧ Fits32 signed (a.tdiv b) := by
  by_cases hsrc : src = 0
  · have hrun : ∀ f, run { c with flags := f } = .zeroDivide (zero { c with flags := f }) := by
      cases h with
      | zero _ h => exact h
      | overflow hne => exact absurd hsrc hne
      | quot hne => exact absurd hsrc hne
    obtain ⟨hsigned, hmodel, hsame⟩ | ⟨hnot, g, hg, hsame⟩ := hzero
    · rw [if_pos hmodel]
      refine iff_of_true ?_ (.inr hsigned)
      rw [FlagOp.sound_iff]
      intro f f'
      rw [hafter, hafter, hrun, hrun]
      exact hsame f f'
    · refine iff_of_false (FlagOp.not_sound_of_kept hg fun f => ?_) ?_
      · rw [hafter, hrun]
        exact hsame f
      · split
        · rename_i hmodel
          rintro (hne | hsigned)
          · exact hne hsrc
          · exact hnot ⟨hsigned, hmodel⟩
        · exact fun hne => hne.1 hsrc
  · obtain ⟨hfit, hnot⟩ := h.fits_cases hv hends hsrc
    have hquot (hf : Fits32 signed (a.tdiv b)) : (FlagOp.divl i c src extra).Sound p := by
      obtain ⟨q, r, hrun⟩ := hfit hf
      rw [FlagOp.sound_iff]
      intro f f'
      rw [hafter, hafter, hrun, hrun]
      exact storeQuotient_same q r f f'
    by_cases hmodel : p.cpuModel.num < 68040
    · rw [if_pos hmodel]
      refine iff_of_true ?_ (.inl hsrc)
      by_cases hf : Fits32 signed (a.tdiv b)
      · exact hquot hf
      · obtain ⟨a', hrun⟩ := hnot hf
        rw [FlagOp.sound_iff]
        intro f f'
        rw [hafter, hafter, hrun, hrun]
        exact hover hmodel a' f f'
    · rw [if_neg hmodel, and_iff_right hsrc]
      refine ⟨fun hsound => ?_, hquot⟩
      by_contra hf
      obtain ⟨a', hrun⟩ := hnot hf
      refine FlagOp.not_sound_of_kept (g := .z) (by decide) (fun f => ?_) hsound
      rw [hafter, hrun]
      exact hkept hmodel a' f

theorem after_divl (f : Flags) :
    (FlagOp.divl i c src extra).after p f = (m68kDivl p i { c with flags := f } src extra).1.flags f := rfl

theorem divl_sound_iff : (FlagOp.divl i c src extra).Sound p ↔ (FlagOp.divl i c src extra).Settled p := by
  change _ ↔ _ ∧ _
  cases hleft : leftToSoftware p i extra with
  | true =>
    refine iff_of_false (FlagOp.not_sound_of_kept (g := .z) (by decide) fun f => ?_)
      fun h => absurd h.1 (by decide)
    rw [after_divl, m68kDivl, if_pos hleft]
    rfl
  | false =>
    rw [and_iff_right rfl]
    cases hs : extraSigned extra with
    | true =>
      have hafter (f : Flags) : (FlagOp.divl i c src extra).after p f =
          (divsl p { c with flags := f } src extra).1.flags f := by
        rw [after_divl, m68kDivl, hleft, if_neg Bool.false_ne_true, if_pos hs]
      refine (divsl_shape p c src extra).sound_iff hafter (fun a c => ?_)
        (fun hsrc => (divsl_ends p c extra hsrc hs).1) (fun hm a f f' => divslOverflow_same hm a f f')
        (fun hm a f => (divl_kept c src extra hm a f).1) (.inr ⟨fun h => absurd h.1 (by decide), ?_⟩)
      · obtain ⟨f, hv, heq⟩ := divslOverflow_flags p c extra a src
        rw [heq]
        exact hv
      · by_cases hm : p.cpuModel.num < 68040
        · exact ⟨.v, by decide, fun f => divslDivbyzero_kept hm f⟩
        · exact ⟨.z, by decide, fun f => (divl_kept c src extra hm 0 f).2.2.1⟩
    | false =>
      have hafter (f : Flags) : (FlagOp.divl i c src extra).after p f =
          (divul p { c with flags := f } src extra).flags f := by
        rw [after_divl, m68kDivl, hleft, if_neg Bool.false_ne_true, hs, if_neg Bool.false_ne_true]
      refine (divul_shape p c src extra).sound_iff hafter (fun a c => ?_)
        (fun hsrc => divul_ends p c extra hsrc hs) (fun hm a f f' => divulOverflow_same hm a f f')
        (fun hm a f => (divl_kept c src extra hm a f).2.1) ?_
      · obtain ⟨f, hv, heq⟩ := divulOverflow_flags p c a
        rw [heq]
        exact hv
      · by_cases hm : p.cpuModel.num < 68040
        · exact .inl ⟨rfl, hm, fun f f' => divulDivbyzero_same hm _ f f'⟩
        · exact .inr ⟨fun h => hm h.2, .z, by decide,
            fun f => (divl_kept c src extra hm _ f).2.2.2⟩

/-- A processor from the 68020 on: the table is right for the operands that set every flag. -/
theorem flagTable_sound_iff {op : FlagOp} (h : 68020 ≤ p.cpuModel.num) : op.Sound p ↔ op.Settled p := by
  have hmodels := num_lt_040_iff h
  have hz : Flag.z ≠ .x := by decide
  cases op with
  | divl i core src extra => exact divl_sound_iff
  | divByZero issigned dst =>
    by_cases hm : p.cpuModel.num < 68040
    · exact iff_of_true ((FlagOp.sound_iff _ _).mpr (divByZero_same (hmodels.mp hm) issigned dst)) hm
    · exact iff_of_false (FlagOp.not_sound_of_kept hz (divByZero_kept (eq_040_or_060 hm) issigned dst)) hm
  | divuOverflow dividend divisor =>
    exact iff_of_false (FlagOp.not_sound_of_kept hz (divuOverflow_kept h dividend divisor)) id
  | divsOverflow dividend divisor =>
    by_cases hm : p.cpuModel.num < 68040
    · exact iff_of_true ((FlagOp.sound_iff _ _).mpr (divsOverflow_same (hmodels.mp hm) dividend divisor)) hm
    · exact iff_of_false (FlagOp.not_sound_of_kept hz (divsOverflow_kept (eq_040_or_060 hm) dividend divisor)) hm
  | chk src dst word =>
    by_cases hm : p.cpuModel.num < 68040
    · exact iff_of_true ((FlagOp.sound_iff _ _).mpr (chk_same (hmodels.mp hm) src dst word)) hm
    · exact iff_of_false (FlagOp.not_sound_of_kept hz (chk_kept (eq_040_or_060 hm) src dst word)) hm
  | chk2 lower upper reg =>
    by_cases hm : p.cpuModel = .m68040
    · exact iff_of_false (FlagOp.not_sound_of_kept (g := .n) (by decide) (chk2_kept hm lower upper reg))
        fun h => h hm
    · exact iff_of_true ((FlagOp.sound_iff _ _).mpr (chk2_same hm lower upper reg)) hm

/-- The 68030 sets all four for a signed division of words that overflows. -/
theorem flagTable_sound_divs :
    (FlagOp.divsOverflow 0x10000 1).Sound (.plain .m68030) ↔ (FlagOp.divsOverflow 0x10000 1).Settled (.plain .m68030) :=
  flagTable_sound_iff (by decide)

/-- DIVU.W overflows on a 68030: C of an earlier instruction stays. -/
theorem divu_overflow_leaks : ¬ (FlagOp.divuOverflow 0x10000 1).Sound (.plain .m68030) := by
  intro h
  have hc := h ⟨false, false, false, false, false⟩ ⟨false, false, false, false, true⟩
    (fun g hg => by rw [FlagOp.flaglive_eq] at hg; cases g <;> exact absurd hg (by decide)) .c (by decide)
  exact absurd hc (by decide)

end Sound

end UaeCpu
