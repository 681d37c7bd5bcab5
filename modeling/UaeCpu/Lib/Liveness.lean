import Mathlib.Data.Set.Basic

/-!
# UaeCpu.Lib.Liveness

Dropping what nobody reads. A state has a part that every step sees and cells; a step reads some of
the cells and writes some. A run that writes rubbish into dead cells agrees with the run that does
not, in everything but the cells that are dead.

* `Op` — a step, with the cells it reads and writes.
* `Covers` — what has to be live before a step for what is live behind it.
* `agree_run` — the run that drops against the full one.
-/

namespace Liveness

variable {σ κ β : Type}

/-- The two states differ in dead cells only. -/
def Agree (live : Set κ) (s t : σ × (κ → β)) : Prop := s.1 = t.1 ∧ ∀ k ∈ live, s.2 k = t.2 k

theorem Agree.refl (live : Set κ) (s : σ × (κ → β)) : Agree live s s := ⟨rfl, fun _ _ => rfl⟩

/-- With everything live, agreement is equality. -/
theorem Agree.eq {live : Set κ} {s t : σ × (κ → β)} (h : Agree live s t) (hall : ∀ k, k ∈ live) : s = t :=
  Prod.ext h.1 (funext fun k => h.2 k (hall k))

/-- A step. The old value of a cell in `carried` goes into the new value of that cell and into
nothing else. -/
structure Op (σ κ β : Type) where
  exec : σ × (κ → β) → σ × (κ → β)
  uses : Set κ
  defs : Set κ
  carried : Set κ
  frame : ∀ s, ∀ k ∉ defs, (exec s).2 k = s.2 k
  reads : ∀ s t, Agree (uses \ carried) s t →
    (exec s).1 = (exec t).1 ∧ ∀ k ∈ defs, (k ∈ uses → s.2 k = t.2 k) → (exec s).2 k = (exec t).2 k

/-- The cells live before a step suffice for those behind it. -/
structure Covers (op : Op σ κ β) (before after : Set κ) : Prop where
  kept : ∀ k ∈ after, k ∉ op.defs → k ∈ before
  read : ∀ k ∈ op.uses, k ∉ op.carried → k ∈ before
  carried : ∀ k ∈ op.uses, k ∈ after → k ∈ before

theorem Op.exec_agree {op : Op σ κ β} {before after : Set κ} {s t : σ × (κ → β)} (hc : Covers op before after)
    (h : Agree before s t) : Agree after (op.exec s) (op.exec t) := by
  obtain ⟨hrest, hdefs⟩ := op.reads s t ⟨h.1, fun k hk => h.2 k (hc.read k hk.1 hk.2)⟩
  refine ⟨hrest, fun k hk => ?_⟩
  by_cases hdef : k ∈ op.defs
  · exact hdefs k hdef fun huse => h.2 k (hc.carried k huse hk)
  · rw [op.frame s k hdef, op.frame t k hdef]
    exact h.2 k (hc.kept k hk hdef)

/-- The dead cells take other values. -/
def drop (dead : κ → Bool) (rubbish : κ → β) (s : σ × (κ → β)) : σ × (κ → β) :=
  (s.1, fun k => if dead k then rubbish k else s.2 k)

theorem Agree.drop {live : Set κ} {s t : σ × (κ → β)} {dead : κ → Bool} (h : Agree live s t)
    (hdead : ∀ k ∈ live, dead k = false) (rubbish : κ → β) : Agree live (drop dead rubbish s) t := by
  refine ⟨h.1, fun k hk => ?_⟩
  change (if dead k then rubbish k else s.2 k) = t.2 k
  rw [hdead k hk, if_neg Bool.false_ne_true]
  exact h.2 k hk

/-- A step of a program, with what is dropped behind it and what is live there. -/
structure Line (σ κ β : Type) where
  op : Op σ κ β
  dead : κ → Bool
  rubbish : κ → β
  after : Set κ

/-- The annotations of a program that starts with the cells of `before` live. -/
def Annotated (before : Set κ) : List (Line σ κ β) → Prop
  | [] => True
  | l :: ls => Covers l.op before l.after ∧ (∀ k ∈ l.after, l.dead k = false) ∧ Annotated l.after ls

/-- The cells live at the end. -/
def liveAtEnd (before : Set κ) : List (Line σ κ β) → Set κ
  | [] => before
  | l :: ls => liveAtEnd l.after ls

def run : List (Line σ κ β) → σ × (κ → β) → σ × (κ → β)
  | [], s => s
  | l :: ls, s => run ls (l.op.exec s)

def runDropped : List (Line σ κ β) → σ × (κ → β) → σ × (κ → β)
  | [], s => s
  | l :: ls, s => runDropped ls (drop l.dead l.rubbish (l.op.exec s))

theorem agree_run {before : Set κ} {ls : List (Line σ κ β)} {s t : σ × (κ → β)} (hann : Annotated before ls)
    (h : Agree before s t) : Agree (liveAtEnd before ls) (runDropped ls s) (run ls t) := by
  induction ls generalizing before s t with
  | nil => exact h
  | cons l ls ih =>
    obtain ⟨hcov, hdead, hrest⟩ := hann
    exact ih hrest ((l.op.exec_agree hcov h).drop hdead l.rubbish)

/-- The annotation of a program is one of each of its beginnings. -/
theorem Annotated.take {before : Set κ} {ls : List (Line σ κ β)} (h : Annotated before ls) (n : Nat) :
    Annotated before (ls.take n) := by
  induction ls generalizing before n with
  | nil => rw [List.take_nil]; trivial
  | cons l ls ih =>
    cases n with
    | zero => trivial
    | succ n => exact ⟨h.1, h.2.1, ih h.2.2 n⟩

end Liveness
