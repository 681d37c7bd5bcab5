import UaeCpu.Lib.Joint
import UaeCpu.Lib.Resume

/-!
# UaeCpu.Lib.Replay

Computations that ask and are decided by the answers, started over with a log of the answers they
have been given.

* `Tree ι α β`     — a computation that asks for `ι`, is answered `α`, and ends in `β`.
* `Tree.exec`      — every question put to a step of a machine.
* `Tree.run`       — the same, with an answer and an effect for each question.
* `Tree.settles`   — a machine whose steps answer so.
* `Tree.AtMost`    — a bound on the questions, and two machines that agree on so many.
* `Replay.settles` — a machine that takes what it has asked before from a log.
-/

namespace Fault

open FaultM

variable {σ ι α β γ π ρ φ : Type}

inductive Tree (ι α β : Type) where
  | ret (b : β)
  | ask (i : ι) (k : α → Tree ι α β)

namespace Tree

def bind : Tree ι α β → (β → Tree ι α γ) → Tree ι α γ
  | ret b, f => f b
  | ask i k, f => ask i fun a => (k a).bind f

instance : Monad (Tree ι α) where
  pure := ret
  bind := bind

/-- One question. -/
def query (i : ι) : Tree ι α α := ask i ret

def exec (step : ι → FaultM σ α) : Tree ι α β → FaultM σ β
  | ret b => pure b
  | ask i k => step i >>= fun a => (k a).exec step

/-- `eff i p` is the answer to `i` after `p`, and what has been done then. -/
def run (eff : ι → π → α × π) : Tree ι α β → π → β × π
  | ret b, p => (b, p)
  | ask i k, p => (k (eff i p).1).run eff (eff i p).2

section Laws

variable (step : ι → FaultM σ α) (eff : ι → π → α × π)

@[simp] theorem exec_pure (b : β) : (pure b : Tree ι α β).exec step = pure b := rfl

@[simp] theorem exec_query (i : ι) : (query i : Tree ι α α).exec step = step i := bind_pure (step i)

@[simp] theorem exec_bind (t : Tree ι α β) (f : β → Tree ι α γ) :
    (t >>= f).exec step = t.exec step >>= fun b => (f b).exec step := by
  induction t with
  | ret b => exact (pure_bind b fun b => (f b).exec step).symm
  | ask i k ih =>
    change (step i >>= fun a => ((k a).bind f).exec step) = _
    rw [exec, bind_assoc]
    congr 1
    funext a
    exact ih a

theorem exec_ite {p : Prop} [Decidable p] (t t' : Tree ι α β) :
    (if p then t else t').exec step = if p then t.exec step else t'.exec step := apply_ite (exec step) p t t'

@[simp] theorem run_pure (b : β) (p : π) : (pure b : Tree ι α β).run eff p = (b, p) := rfl

@[simp] theorem run_query (i : ι) (p : π) : (query i : Tree ι α α).run eff p = eff i p := rfl

@[simp] theorem run_bind (t : Tree ι α β) (f : β → Tree ι α γ) (p : π) :
    (t >>= f).run eff p = (f (t.run eff p).1).run eff (t.run eff p).2 := by
  induction t generalizing p with
  | ret b => rfl
  | ask i k ih => exact ih (eff i p).1 (eff i p).2

end Laws

/-- Steps that answer as `eff` says, or break off. -/
theorem settles {step : ι → FaultM σ α} {eff : ι → π → α × π} {At : π → σ → Prop} {E : σ → Prop}
    (hstep : ∀ i p s, At p s → Settles (step i) s (fun a s' => a = (eff i p).1 ∧ At (eff i p).2 s') E)
    (t : Tree ι α β) {p : π} {s : σ} (h : At p s) :
    Settles (t.exec step) s (fun b s' => b = (t.run eff p).1 ∧ At (t.run eff p).2 s') E := by
  induction t generalizing p s with
  | ret b => exact ⟨rfl, h⟩
  | ask i k ih =>
    refine Settles.bind (hstep i p s h) fun a s' hs' => ?_
    obtain ⟨rfl, hat⟩ := hs'
    exact ih _ hat

/-- Every question is one of `ok`. -/
def Asks (ok : ι → Prop) : Tree ι α β → Prop
  | ret _ => True
  | ask i k => ok i ∧ ∀ a, (k a).Asks ok

theorem asks_query {ok : ι → Prop} {i : ι} (h : ok i) : (query i : Tree ι α α).Asks ok := ⟨h, fun _ => trivial⟩

theorem Asks.bind {ok : ι → Prop} {t : Tree ι α β} {f : β → Tree ι α γ} (h : t.Asks ok) (hf : ∀ b, (f b).Asks ok) :
    (t >>= f).Asks ok := by
  induction t with
  | ret b => exact hf b
  | ask i k ih => exact ⟨h.1, fun a => ih a (h.2 a)⟩

theorem Asks.ite {ok : ι → Prop} {p : Prop} [Decidable p] {t t' : Tree ι α β} (h : p → t.Asks ok)
    (h' : ¬ p → t'.Asks ok) : (if p then t else t').Asks ok := by
  by_cases hp : p
  · rw [if_pos hp]; exact h hp
  · rw [if_neg hp]; exact h' hp

/-- No more than `n` questions, whatever the answers. -/
def AtMost : Tree ι α β → Nat → Prop
  | ret _, _ => True
  | ask _ k, n => 0 < n ∧ ∀ a, (k a).AtMost (n - 1)

theorem atMost_query (i : ι) : (query i : Tree ι α α).AtMost 1 := ⟨Nat.zero_lt_one, fun _ => trivial⟩

theorem atMost_pure (b : β) (n : Nat) : (pure b : Tree ι α β).AtMost n := trivial

theorem AtMost.mono {t : Tree ι α β} {n m : Nat} (h : t.AtMost n) (hnm : n ≤ m) : t.AtMost m := by
  induction t generalizing n m with
  | ret b => trivial
  | ask i k ih => exact ⟨Nat.lt_of_lt_of_le h.1 hnm, fun a => ih a (h.2 a) (Nat.sub_le_sub_right hnm 1)⟩

theorem AtMost.bind {t : Tree ι α β} {f : β → Tree ι α γ} {n m : Nat} (h : t.AtMost n)
    (hf : ∀ b, (f b).AtMost m) : (t >>= f).AtMost (n + m) := by
  induction t generalizing n with
  | ret b => exact (hf b).mono (Nat.le_add_left m n)
  | ask i k ih =>
    refine ⟨Nat.add_pos_left h.1 m, fun a => (ih a (h.2 a)).mono ?_⟩
    have hpos := h.1
    omega

theorem AtMost.ite {p : Prop} [Decidable p] {t t' : Tree ι α β} {n : Nat} (h : p → t.AtMost n)
    (h' : ¬ p → t'.AtMost n) : (if p then t else t').AtMost n := by
  by_cases hp : p
  · rw [if_pos hp]; exact h hp
  · rw [if_neg hp]; exact h' hp

/-- Steps that do the same up to the `l`-th question. -/
theorem exec_agrees {step step' : ι → FaultM σ α} {I : Nat → σ → Prop} {E : σ → Prop} {l : Nat}
    (hstep : ∀ i n s, n < l → I n s → Agrees (step i) (step' i) s (fun _ => I (n + 1)) E) (t : Tree ι α β)
    {n k : Nat} {s : σ} (hk : t.AtMost k) (hl : n + k ≤ l) (h : I n s) :
    Agrees (t.exec step) (t.exec step') s (fun _ s' => ∃ m ≤ n + k, I m s') E := by
  induction t generalizing n k s with
  | ret b => exact .same ⟨n, Nat.le_add_right n k, h⟩
  | ask i next ih =>
    have hpos := hk.1
    refine (hstep i n s (by omega) h).bind fun a s' h' => (ih a (hk.2 a) (by omega) h').mono fun _ _ h => ?_
    obtain ⟨m, hm, hat⟩ := h
    exact ⟨m, by omega, hat⟩

/-- From `t` after `p` the answered questions lead to `t'` after `p'`. -/
inductive Answers (eff : ι → π → α × π) : Tree ι α β → π → List (ι × α) → Tree ι α β → π → Prop
  | nil (t : Tree ι α β) (p : π) : Answers eff t p [] t p
  | cons {i : ι} {k : α → Tree ι α β} {p p' : π} {as : List (ι × α)} {t' : Tree ι α β}
      (h : Answers eff (k (eff i p).1) (eff i p).2 as t' p') : Answers eff (.ask i k) p ((i, (eff i p).1) :: as) t' p'

theorem Answers.run_eq {eff : ι → π → α × π} {t t' : Tree ι α β} {p p' : π} {as : List (ι × α)}
    (h : Answers eff t p as t' p') : t.run eff p = t'.run eff p' := by
  induction h with
  | nil => rfl
  | cons _ ih => exact ih

theorem Answers.snoc {eff : ι → π → α × π} {t : Tree ι α β} {i : ι} {k : α → Tree ι α β} {p p' : π}
    {as : List (ι × α)} (h : Answers eff t p as (.ask i k) p') :
    Answers eff t p (as ++ [(i, (eff i p').1)]) (k (eff i p').1) (eff i p').2 := by
  generalize ht : Tree.ask i k = t' at h
  induction h with
  | nil t p =>
    subst ht
    exact .cons (.nil _ _)
  | cons _ ih => exact .cons (ih ht)

end Tree

/-! ## With a log -/

/-- Steps with a log. `At as n p r s`: the log holds the questions `as` with their answers, the first
`n` of them have been asked again, and what has been done is `p` and a part `r` of the question after
these. `Stopped as i p s`: the question `i` after `as` was broken off. -/
structure Replay (ok : ι → Prop) (step : ι → FaultM σ α) (eff : ι → π → α × π)
    (At : List (ι × α) → Nat → π → Option (ι × ρ) → σ → Prop) (Stopped : List (ι × α) → ι → π → σ → Prop) : Prop where
  hit : ∀ {as n i a p r s}, as[n]? = some (i, a) → At as n p r s →
    Returns (step i) s fun a' s' => a' = a ∧ At as (n + 1) p r s'
  miss : ∀ {as i p r s}, ok i → (r = none ∨ ∃ x, r = some (i, x)) → At as as.length p r s →
    Settles (step i) s (fun a s' => a = (eff i p).1 ∧ At (as ++ [(i, a)]) (as.length + 1) (eff i p).2 none s')
      (Stopped as i p)

namespace Replay

variable {ok : ι → Prop} {step : ι → FaultM σ α} {eff : ι → π → α × π} {At : List (ι × α) → Nat → π → Option (ι × ρ) → σ → Prop}
  {Stopped : List (ι × α) → ι → π → σ → Prop}

/-- What is done in part is the next question. -/
def Next (r : Option (ι × ρ)) (t : Tree ι α β) : Prop := r = none ∨ ∃ i x k, r = some (i, x) ∧ t = .ask i k

/-- The computation is to be started, or started over. -/
def Waiting (eff : ι → π → α × π) (At : List (ι × α) → Nat → π → Option (ι × ρ) → σ → Prop) (t : Tree ι α β) (p : π)
    (s : σ) : Prop :=
  ∃ as t' p' r, Tree.Answers eff t p as t' p' ∧ Next r t' ∧ At as 0 p' r s

/-- The computation has been broken off. -/
def Broken (eff : ι → π → α × π) (Stopped : List (ι × α) → ι → π → σ → Prop) (t : Tree ι α β) (p : π) (s : σ) : Prop :=
  ∃ as i k p', Tree.Answers eff t p as (.ask i k) p' ∧ Stopped as i p' s

/-- The computation is through. -/
def Through (eff : ι → π → α × π) (At : List (ι × α) → Nat → π → Option (ι × ρ) → σ → Prop) (t : Tree ι α β) (p : π)
    (b : β) (s : σ) : Prop :=
  b = (t.run eff p).1 ∧ ∃ as, Tree.Answers eff t p as (.ret b) (t.run eff p).2 ∧ At as as.length (t.run eff p).2 none s

variable (hr : Replay ok step eff At Stopped)
include hr

/-- Behind the log. -/
theorem asks {t₀ : Tree ι α β} {p₀ : π} (t : Tree ι α β) {as : List (ι × α)} {p : π} {r : Option (ι × ρ)} {s : σ}
    (hok : t.Asks ok) (hall : Tree.Answers eff t₀ p₀ as t p) (hnext : Next r t) (h : At as as.length p r s) :
    Settles (t.exec step) s (Through eff At t₀ p₀) (Broken eff Stopped t₀ p₀) := by
  induction t generalizing as p r s with
  | ret b =>
    have hnone : r = none := by
      rcases hnext with hn | ⟨_, _, _, _, ht⟩
      · exact hn
      · cases ht
    subst hnone
    have hrun : t₀.run eff p₀ = (b, p) := hall.run_eq
    exact ⟨by rw [hrun], as, by rw [hrun]; exact hall, by rw [hrun]; exact h⟩
  | ask i k ih =>
    have hfits : r = none ∨ ∃ x, r = some (i, x) := by
      rcases hnext with hn | ⟨i', x, k', hx, ht⟩
      · exact .inl hn
      · cases ht
        exact .inr ⟨x, hx⟩
    refine Settles.bind ((hr.miss hok.1 hfits h).mono (fun _ _ hq => hq) fun s' he => ⟨as, i, k, p, hall, he⟩) fun a s' hs' => ?_
    obtain ⟨rfl, hat⟩ := hs'
    refine ih _ (hok.2 _) hall.snoc (.inl rfl) ?_
    rw [List.length_append, List.length_singleton]
    exact hat

/-- Along the log. -/
theorem follows {t₀ : Tree ι α β} {p₀ : π} {t t' : Tree ι α β} {p p' : π} {as : List (ι × α)}
    (hok : t.Asks ok) (hfrom : Tree.Answers eff t p as t' p') {done : List (ι × α)} {r : Option (ι × ρ)} {s : σ}
    (hall : Tree.Answers eff t₀ p₀ (done ++ as) t' p') (hnext : Next r t') (h : At (done ++ as) done.length p' r s) :
    Settles (t.exec step) s (Through eff At t₀ p₀) (Broken eff Stopped t₀ p₀) := by
  induction hfrom generalizing done s with
  | nil t p =>
    rw [List.append_nil] at hall h
    exact hr.asks t hok hall hnext h
  | @cons i k p p' as t' _ ih =>
    have hentry : (done ++ (i, (eff i p).1) :: as)[done.length]? = some (i, (eff i p).1) := by simp
    refine Settles.bind (hr.hit hentry h).settles fun a s' hs' => ?_
    obtain ⟨rfl, hat⟩ := hs'
    have hcons : done ++ (i, (eff i p).1) :: as = done ++ [(i, (eff i p).1)] ++ as := by simp
    rw [hcons] at hall hat
    refine ih (hok.2 _) hall hnext ?_
    rw [List.length_append, List.length_singleton]
    exact hat

/-- One try. -/
theorem settles {t : Tree ι α β} {p : π} {s : σ} (hok : t.Asks ok) (h : Waiting eff At t p s) :
    Settles (t.exec step) s (Through eff At t p) (Broken eff Stopped t p) := by
  obtain ⟨as, t', p', r, hall, hnext, hat⟩ := h
  exact hr.follows hok hall (show Tree.Answers eff t p ([] ++ as) t' p' from hall) hnext hat

end Replay

end Fault
