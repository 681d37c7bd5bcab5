import Mathlib.Algebra.BigOperators.Group.List.Basic

/-!
# UaeCpu.Lib.Run

Finite runs of a labelled transition relation.

* `Run step s is s'`      — the labels `is` lead from `s` to `s'`.
* `Run.invariant`         — what every step keeps, every run keeps.
* `Run.total`             — a quantity each step moves by its label moves by their sum.
* `Guarded step C`        — the same relation, restricted to steps that meet `C`.
* `Calls.throughout_iff`  — for calls that compute the next state: what holds in every state
                            they pass through, and the condition on each call for it.

Nothing here knows which system is modelled.
-/

namespace Trans

inductive Run {σ ι : Type} (step : σ → ι → σ → Prop) : σ → List ι → σ → Prop where
  | nil {s : σ} : Run step s [] s
  | cons {s s' s'' : σ} {i : ι} {is : List ι} :
      step s i s' → Run step s' is s'' → Run step s (i :: is) s''

/-- The steps of `step` that meet the condition `C` in the state they start from. -/
def Guarded {σ ι : Type} (step : σ → ι → σ → Prop) (C : σ → ι → Prop) (s : σ) (i : ι)
    (s' : σ) : Prop :=
  C s i ∧ step s i s'

namespace Run

variable {σ ι : Type} {step : σ → ι → σ → Prop}

theorem single {s s' : σ} {i : ι} (h : step s i s') : Run step s [i] s' := .cons h .nil

theorem append {s s' s'' : σ} {is js : List ι} (h₁ : Run step s is s')
    (h₂ : Run step s' js s'') : Run step s (is ++ js) s'' := by
  induction h₁ with
  | nil => exact h₂
  | cons h _ ih => exact .cons h (ih h₂)

theorem unguard {C : σ → ι → Prop} {s s' : σ} {is : List ι}
    (h : Run (Guarded step C) s is s') : Run step s is s' := by
  induction h with
  | nil => exact .nil
  | cons h _ ih => exact .cons h.2 ih

theorem invariant {s s' : σ} {is : List ι} (h : Run step s is s') {I : σ → Prop} (hs : I s)
    (hstep : ∀ {s i s'}, I s → step s i s' → I s') : I s' := by
  induction h with
  | nil => exact hs
  | cons h _ ih => exact ih (hstep hs h)

/-- A quantity that each step, where the invariant holds, moves by the weight of its label. -/
theorem total {s s' : σ} {is : List ι} (h : Run step s is s') {M : Type} [AddCommMonoid M]
    {I : σ → Prop} {f : σ → M} {w : ι → M} (hs : I s)
    (hI : ∀ {s i s'}, I s → step s i s' → I s')
    (hf : ∀ {s i s'}, I s → step s i s' → f s' = f s + w i) :
    f s' = f s + (is.map w).sum := by
  induction h with
  | nil => simp
  | cons h _ ih =>
    rw [ih (hI hs h), hf hs h, List.map_cons, List.sum_cons, add_assoc]

end Run

/-! ## Sequences of calls -/

namespace Calls

variable {σ ι : Type} (step : ι → σ → σ)

/-- The calls of a list, first to last. -/
def run (ops : List ι) (s : σ) : σ := ops.foldl (fun s op => step op s) s

/-- `P` holds in every state the calls pass through, the first and the last included. -/
def Throughout (P : σ → Prop) : List ι → σ → Prop
  | [], s => P s
  | op :: ops, s => P s ∧ Throughout P ops (step op s)

/-- Every call meets `C` in the state it is made in. -/
def AllMeet (C : ι → σ → Prop) : List ι → σ → Prop
  | [], _ => True
  | op :: ops, s => C op s ∧ AllMeet C ops (step op s)

variable {step}

theorem run_inv {I : σ → Prop} (hI : ∀ op s, I s → I (step op s)) {s : σ} (h : I s)
    (ops : List ι) : I (run step ops s) := by
  induction ops generalizing s with
  | nil => exact h
  | cons op ops ih => exact ih (hI op s h)

theorem Throughout.first {P : σ → Prop} {ops : List ι} {s : σ} (h : Throughout step P ops s) :
    P s := by
  cases ops with
  | nil => exact h
  | cons op ops => exact h.1

theorem Throughout.last {P : σ → Prop} {ops : List ι} {s : σ} (h : Throughout step P ops s) :
    P (run step ops s) := by
  induction ops generalizing s with
  | nil => exact h
  | cons op ops ih => exact ih h.2

theorem allMeet_of_forall {C : ι → σ → Prop} (h : ∀ op s, C op s) (ops : List ι) (s : σ) :
    AllMeet step C ops s := by
  induction ops generalizing s with
  | nil => trivial
  | cons op ops ih => exact ⟨h op s, ih _⟩

/-- Where the calls that are allowed keep `I`, and keep `P` exactly when they meet `C`, the
allowed calls that keep `P` throughout are those that all meet `C`. -/
theorem throughout_iff {A C : ι → σ → Prop} {I P : σ → Prop}
    (hI : ∀ op s, A op s → I s → I (step op s))
    (hP : ∀ op s, A op s → I s → P s → (P (step op s) ↔ C op s)) {ops : List ι} {s : σ}
    (hA : AllMeet step A ops s) (hs : I s) (h : P s) :
    Throughout step P ops s ↔ AllMeet step C ops s := by
  induction ops generalizing s with
  | nil => exact ⟨fun _ => trivial, fun _ => h⟩
  | cons op ops ih =>
    have hop := hP op s hA.1 hs h
    constructor
    · rintro ⟨-, htail⟩
      exact ⟨hop.mp htail.first, (ih hA.2 (hI op s hA.1 hs) htail.first).mp htail⟩
    · rintro ⟨hc, htail⟩
      exact ⟨h, (ih hA.2 (hI op s hA.1 hs) (hop.mpr hc)).mpr htail⟩

end Calls

end Trans
