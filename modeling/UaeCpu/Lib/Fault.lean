import Mathlib.Logic.Relation

/-!
# UaeCpu.Lib.Fault

State-passing computations that may leave through a thrown code, as C code does with
`setjmp` and `longjmp`, and that may fail to come back at all.

* `Outcome σ α` — what a computation does: returns, throws, or does not come back.
* `FaultM σ α`  — a computation over the state `σ`; the state reached survives a throw.
* `loop`        — a bounded `while`, which does not come back when its bound runs out.
* `Returns m s Q` — total correctness: `m` started in `s` returns, and then `Q` holds.
* `Ends m s Q E`  — partial correctness: if `m` returns then `Q`, if it throws then `E`.
* `Settles m s Q E` — the same, and `m` comes back.
* `Comes m`       — `m` comes back, whatever state it starts in.
* `Within R m`    — every state `m` leaves behind is `R`-related to the one it started in.
* `Stays R m`     — the same, and `m` comes back.
* `Below m m'`    — `m'` does what `m` does wherever `m` comes back: a larger bound.

Nothing here knows which machine is modelled.
-/

namespace Fault

/-- How a computation ends. A throw keeps the state it was made in: `longjmp` undoes nothing. -/
inductive Outcome (σ α : Type) where
  | ret (a : α) (s : σ)
  | thrown (code : Int) (s : σ)
  | diverge
  deriving DecidableEq

/-- What the caller sees of an outcome: the value or the code thrown, and nothing if it does not
come back. -/
def Outcome.result {σ α : Type} : Outcome σ α → Option (Except Int α)
  | .ret a _ => some (.ok a)
  | .thrown c _ => some (.error c)
  | .diverge => none

def Outcome.mapState {σ τ α : Type} (f : σ → τ) : Outcome σ α → Outcome τ α
  | .ret a s => .ret a (f s)
  | .thrown c s => .thrown c (f s)
  | .diverge => .diverge

theorem Outcome.mapState_mapState {σ τ υ α : Type} (f : σ → τ) (g : τ → υ) (o : Outcome σ α) :
    (o.mapState f).mapState g = o.mapState fun s => g (f s) := by
  cases o <;> rfl

def FaultM (σ α : Type) : Type := σ → Outcome σ α

namespace FaultM

variable {σ α β : Type}

protected def pure (a : α) : FaultM σ α := fun s => .ret a s

protected def bind (m : FaultM σ α) (f : α → FaultM σ β) : FaultM σ β := fun s =>
  match m s with
  | .ret a s' => f a s'
  | .thrown c s' => .thrown c s'
  | .diverge => .diverge

instance : Monad (FaultM σ) where
  pure := FaultM.pure
  bind := FaultM.bind

/-- Reads part of the state. -/
def reads (f : σ → α) : FaultM σ α := fun s => .ret (f s) s

/-- Replaces the state by its image. -/
def update (f : σ → σ) : FaultM σ Unit := fun s => .ret () (f s)

def throwCode (c : Int) : FaultM σ α := fun s => .thrown c s

/-- `TRY { m } CATCH { h }`: the handler starts in the state the throw was made in. -/
def tryCatch (m : FaultM σ α) (h : Int → FaultM σ α) : FaultM σ α := fun s =>
  match m s with
  | .thrown c s' => h c s'
  | o => o

/-- `while (body) {}`: runs `body` until it asks to stop, for at most `fuel` rounds. -/
def loop (body : FaultM σ Bool) : Nat → FaultM σ Unit
  | 0 => fun _ => .diverge
  | fuel + 1 => fun s =>
    match body s with
    | .ret true s' => loop body fuel s'
    | .ret false s' => .ret () s'
    | .thrown c s' => .thrown c s'
    | .diverge => .diverge

@[simp] theorem pure_apply (a : α) (s : σ) : (pure a : FaultM σ α) s = .ret a s := rfl

@[simp] theorem reads_apply (f : σ → α) (s : σ) : reads f s = .ret (f s) s := rfl

@[simp] theorem update_apply (f : σ → σ) (s : σ) : update f s = .ret () (f s) := rfl

theorem bind_apply (m : FaultM σ α) (f : α → FaultM σ β) (s : σ) :
    (m >>= f) s = match m s with
      | .ret a s' => f a s'
      | .thrown c s' => .thrown c s'
      | .diverge => .diverge := rfl

instance : LawfulMonad (FaultM σ) := LawfulMonad.mk' _
  (fun m => by
    funext s
    change (m >>= pure) s = m s
    rw [bind_apply]
    cases m s <;> rfl)
  (fun _ _ => rfl)
  fun m f g => by
    funext s
    simp only [bind_apply]
    cases m s <;> rfl

theorem bind_ret {m : FaultM σ α} {f : α → FaultM σ β} {s s' : σ} {a : α}
    (h : m s = .ret a s') : (m >>= f) s = f a s' := by
  simp [bind_apply, h]

theorem bind_thrown {m : FaultM σ α} {f : α → FaultM σ β} {s s' : σ} {c : Int}
    (h : m s = .thrown c s') : (m >>= f) s = .thrown c s' := by
  simp [bind_apply, h]

theorem bind_diverge {m : FaultM σ α} {f : α → FaultM σ β} {s : σ} (h : m s = .diverge) :
    (m >>= f) s = .diverge := by
  rw [bind_apply, h]

/-- What follows a computation sees only its outcome. -/
theorem bind_congr_apply {m m' : FaultM σ α} {f : α → FaultM σ β} {s s' : σ}
    (h : m s = m' s') : (m >>= f) s = (m' >>= f) s' := by
  simp only [bind_apply, h]

theorem bind_congr_ret {m : FaultM σ α} {f g : α → FaultM σ β} {s : σ}
    (h : ∀ a s', m s = .ret a s' → f a s' = g a s') : (m >>= f) s = (m >>= g) s := by
  rw [bind_apply, bind_apply]
  cases hm : m s with
  | ret a s' => exact h a s' hm
  | thrown c s' => rfl
  | diverge => rfl

theorem ret_of_bind {m : FaultM σ α} {f : α → FaultM σ β} {s s'' : σ} {b : β}
    (h : (m >>= f) s = .ret b s'') : ∃ a s', m s = .ret a s' ∧ f a s' = .ret b s'' := by
  cases hm : m s with
  | ret a s' => exact ⟨a, s', rfl, by rw [← h, bind_ret hm]⟩
  | thrown c s' => rw [bind_thrown hm] at h; cases h
  | diverge => simp only [bind_apply, hm] at h; cases h

theorem thrown_of_bind {m : FaultM σ α} {f : α → FaultM σ β} {s s'' : σ} {c : Int}
    (h : (m >>= f) s = .thrown c s'') :
    m s = .thrown c s'' ∨ ∃ a s', m s = .ret a s' ∧ f a s' = .thrown c s'' := by
  cases hm : m s with
  | ret a s' => exact .inr ⟨a, s', rfl, by rw [← h, bind_ret hm]⟩
  | thrown d s' => rw [bind_thrown hm] at h; cases h; exact .inl rfl
  | diverge => simp only [bind_apply, hm] at h; cases h

@[simp] theorem update_bind_apply (g : σ → σ) (f : Unit → FaultM σ β) (s : σ) :
    (update g >>= f) s = f () (g s) := rfl

@[simp] theorem reads_bind_apply (g : σ → α) (f : α → FaultM σ β) (s : σ) :
    (reads g >>= f) s = f (g s) s := rfl

theorem tryCatch_ret {m : FaultM σ α} {h : Int → FaultM σ α} {s s' : σ} {a : α}
    (hm : m s = .ret a s') : tryCatch m h s = .ret a s' := by
  simp [tryCatch, hm]

theorem tryCatch_thrown {m : FaultM σ α} {h : Int → FaultM σ α} {s s' : σ} {c : Int}
    (hm : m s = .thrown c s') : tryCatch m h s = h c s' := by
  simp [tryCatch, hm]

/-- What is made of the value inside the `TRY` and in the handler is made of it behind them. -/
theorem tryCatch_bind_pure (m : FaultM σ α) (h : Int → FaultM σ α) (f : α → β) :
    (tryCatch m h >>= fun a => pure (f a)) =
      tryCatch (m >>= fun a => pure (f a)) fun c => h c >>= fun a => pure (f a) := by
  funext s
  simp only [tryCatch, bind_apply]
  cases m s <;> rfl

theorem tryCatch_congr_apply {m m' : FaultM σ α} {h : Int → FaultM σ α} {s : σ} (hm : m s = m' s) :
    tryCatch m h s = tryCatch m' h s := by
  simp only [tryCatch, hm]

theorem ret_of_tryCatch {m : FaultM σ α} {h : Int → FaultM σ α} {s s' : σ} {a : α}
    (ht : tryCatch m h s = .ret a s') :
    m s = .ret a s' ∨ ∃ c s₁, m s = .thrown c s₁ ∧ h c s₁ = .ret a s' := by
  cases hm : m s with
  | ret b s₁ => rw [tryCatch_ret hm] at ht; exact .inl ht
  | thrown c s₁ => rw [tryCatch_thrown hm] at ht; exact .inr ⟨c, s₁, rfl, ht⟩
  | diverge => simp only [tryCatch, hm] at ht; cases ht

/-- The first round of a loop. -/
theorem loop_succ (body : FaultM σ Bool) (fuel : Nat) :
    loop body (fuel + 1) = body >>= fun b => if b then loop body fuel else pure () := by
  funext s
  simp only [loop, bind_apply]
  cases body s with
  | ret b s' => cases b <;> rfl
  | thrown c s' => rfl
  | diverge => rfl

/-- The first round of a loop that is left. -/
theorem ret_of_loop {body : FaultM σ Bool} {fuel : Nat} {s s' : σ} {u : Unit}
    (hl : loop body (fuel + 1) s = .ret u s') :
    body s = .ret false s' ∨ ∃ s₁, body s = .ret true s₁ ∧ loop body fuel s₁ = .ret () s' := by
  cases hb : body s with
  | ret b s₁ =>
    simp only [loop, hb] at hl
    cases b with
    | true => exact .inr ⟨s₁, rfl, hl⟩
    | false => cases hl; exact .inl rfl
  | thrown c s₁ => simp only [loop, hb] at hl; cases hl
  | diverge => simp only [loop, hb] at hl; cases hl

/-! ## Total correctness -/

/-- `m` started in `s` returns, with a value and a state that satisfy `Q`. -/
def Returns (m : FaultM σ α) (s : σ) (Q : α → σ → Prop) : Prop :=
  ∃ a s', m s = .ret a s' ∧ Q a s'

theorem Returns.of_eq {m : FaultM σ α} {s s' : σ} {a : α} {Q : α → σ → Prop}
    (h : m s = .ret a s') (hq : Q a s') : Returns m s Q := ⟨a, s', h, hq⟩

theorem Returns.of_apply_eq {m m' : FaultM σ α} {s s' : σ} {Q : α → σ → Prop} (h : m s = m' s')
    (hr : Returns m' s' Q) : Returns m s Q := by
  simpa only [Returns, h] using hr

theorem Returns.mono {m : FaultM σ α} {s : σ} {Q Q' : α → σ → Prop} (h : Returns m s Q)
    (hq : ∀ a s', Q a s' → Q' a s') : Returns m s Q' := by
  obtain ⟨a, s', he, h⟩ := h
  exact ⟨a, s', he, hq a s' h⟩

theorem Returns.bind {m : FaultM σ α} {f : α → FaultM σ β} {s : σ} {Q : β → σ → Prop}
    {P : α → σ → Prop} (h : Returns m s P) (hf : ∀ a s', P a s' → Returns (f a) s' Q) :
    Returns (m >>= f) s Q := by
  obtain ⟨a, s', he, hp⟩ := h
  obtain ⟨b, s'', he', hq⟩ := hf a s' hp
  exact ⟨b, s'', (bind_ret he).trans he', hq⟩

theorem Returns.bind_eq {m : FaultM σ α} {f : α → FaultM σ β} {s s' : σ} {a : α}
    {Q : β → σ → Prop} (h : m s = .ret a s') (hf : Returns (f a) s' Q) :
    Returns (m >>= f) s Q := by
  obtain ⟨b, s'', he, hq⟩ := hf
  exact ⟨b, s'', (bind_ret h).trans he, hq⟩

/-- A computation that only reads, followed by another. -/
theorem Returns.bind_read {m : FaultM σ α} {f : α → FaultM σ β} {s : σ} {Q : β → σ → Prop}
    (h : ∃ a, m s = .ret a s) (hf : ∀ a, Returns (f a) s Q) : Returns (m >>= f) s Q := by
  obtain ⟨a, he⟩ := h
  exact .bind_eq he (hf a)

@[simp] theorem returns_pure {a : α} {s : σ} {Q : α → σ → Prop} :
    Returns (pure a) s Q ↔ Q a s :=
  ⟨fun ⟨_, _, h, hq⟩ => by cases h; exact hq, fun h => ⟨a, s, rfl, h⟩⟩

@[simp] theorem returns_update {f : σ → σ} {s : σ} {Q : Unit → σ → Prop} :
    Returns (update f) s Q ↔ Q () (f s) :=
  ⟨fun ⟨_, _, h, hq⟩ => by cases h; exact hq, fun h => ⟨(), f s, rfl, h⟩⟩

@[simp] theorem returns_update_bind {g : σ → σ} {f : Unit → FaultM σ β} {s : σ}
    {Q : β → σ → Prop} : Returns (update g >>= f) s Q ↔ Returns (f ()) (g s) Q := Iff.rfl

@[simp] theorem returns_pure_bind {a : α} {f : α → FaultM σ β} {s : σ} {Q : β → σ → Prop} :
    Returns ((pure a : FaultM σ α) >>= f) s Q ↔ Returns (f a) s Q := Iff.rfl

@[simp] theorem returns_reads_bind {g : σ → α} {f : α → FaultM σ β} {s : σ}
    {Q : β → σ → Prop} : Returns (reads g >>= f) s Q ↔ Returns (f (g s)) s Q := Iff.rfl

/-- An update under a condition, followed by the same computation in either case. -/
theorem Returns.updateIf {p : Prop} [Decidable p] {g : σ → σ} {f : Unit → FaultM σ β} {s : σ}
    {Q : β → σ → Prop} (ht : p → Returns (f ()) (g s) Q) (hf : ¬ p → Returns (f ()) s Q) :
    Returns (if p then update g >>= f else f ()) s Q := by
  by_cases hp : p
  · rw [if_pos hp]; exact ht hp
  · rw [if_neg hp]; exact hf hp

/-! ## Partial correctness -/

/-- `m` started in `s` ends in `Q` if it returns and in `E` if it throws. -/
def Ends (m : FaultM σ α) (s : σ) (Q : α → σ → Prop) (E : σ → Prop) : Prop :=
  match m s with
  | .ret a s' => Q a s'
  | .thrown _ s' => E s'
  | .diverge => True

theorem Ends.mono {m : FaultM σ α} {s : σ} {Q Q' : α → σ → Prop} {E E' : σ → Prop}
    (h : Ends m s Q E) (hq : ∀ a s', Q a s' → Q' a s') (he : ∀ s', E s' → E' s') :
    Ends m s Q' E' := by
  simp only [Ends] at *
  split <;> simp_all

theorem Ends.of_forall {m : FaultM σ α} {s : σ} {Q : α → σ → Prop} {E : σ → Prop}
    (hq : ∀ a s', Q a s') (he : ∀ s', E s') : Ends m s Q E := by
  simp only [Ends]
  split <;> simp_all

@[simp] theorem ends_pure {a : α} {s : σ} {Q : α → σ → Prop} {E : σ → Prop} :
    Ends (pure a) s Q E ↔ Q a s := Iff.rfl

@[simp] theorem ends_reads {f : σ → α} {s : σ} {Q : α → σ → Prop} {E : σ → Prop} :
    Ends (reads f) s Q E ↔ Q (f s) s := Iff.rfl

@[simp] theorem ends_update {f : σ → σ} {s : σ} {Q : Unit → σ → Prop} {E : σ → Prop} :
    Ends (update f) s Q E ↔ Q () (f s) := Iff.rfl

theorem ends_bind {m : FaultM σ α} {f : α → FaultM σ β} {s : σ} {Q : β → σ → Prop}
    {E : σ → Prop} :
    Ends (m >>= f) s Q E ↔ Ends m s (fun a s' => Ends (f a) s' Q E) E := by
  simp only [Ends, bind_apply]
  cases m s <;> rfl

theorem Ends.ite {p : Prop} [Decidable p] {m m' : FaultM σ α} {s : σ} {Q : α → σ → Prop}
    {E : σ → Prop} (h : p → Ends m s Q E) (h' : ¬ p → Ends m' s Q E) :
    Ends (if p then m else m') s Q E := by
  by_cases hp : p
  · rw [if_pos hp]; exact h hp
  · rw [if_neg hp]; exact h' hp

theorem Ends.bind {m : FaultM σ α} {f : α → FaultM σ β} {s : σ} {P : α → σ → Prop}
    {Q : β → σ → Prop} {E : σ → Prop} (h : Ends m s P E)
    (hf : ∀ a s', P a s' → Ends (f a) s' Q E) : Ends (m >>= f) s Q E :=
  ends_bind.mpr (h.mono hf fun _ he => he)

theorem ends_update_bind {g : σ → σ} {f : Unit → FaultM σ β} {s : σ} {Q : β → σ → Prop}
    {E : σ → Prop} : Ends (update g >>= f) s Q E ↔ Ends (f ()) (g s) Q E := Iff.rfl

theorem ends_reads_bind {g : σ → α} {f : α → FaultM σ β} {s : σ} {Q : β → σ → Prop}
    {E : σ → Prop} : Ends (reads g >>= f) s Q E ↔ Ends (f (g s)) s Q E := Iff.rfl

/-- Nothing is asked. -/
theorem Ends.any (m : FaultM σ α) (s : σ) : Ends m s (fun _ _ => True) fun _ => True := by
  unfold Ends
  cases m s <;> trivial

theorem Ends.tryCatch {m : FaultM σ α} {h : Int → FaultM σ α} {s : σ} {P : σ → Prop}
    {Q : α → σ → Prop} {E : σ → Prop} (hm : Ends m s Q P)
    (hh : ∀ c s', P s' → Ends (h c) s' Q E) : Ends (FaultM.tryCatch m h) s Q E := by
  simp only [Ends, FaultM.tryCatch] at *
  cases hms : m s with
  | ret a s' => rw [hms] at hm; exact hm
  | thrown c s' => rw [hms] at hm; exact hh c s' hm
  | diverge => trivial

/-- A loop keeps an invariant until its body asks to stop. -/
theorem Ends.loop {body : FaultM σ Bool} {I Q E : σ → Prop}
    (hb : ∀ s, I s → Ends body s (fun b s' => if b then I s' else Q s') E) :
    ∀ (fuel : Nat) (s : σ), I s → Ends (FaultM.loop body fuel) s (fun _ => Q) E := by
  intro fuel
  induction fuel with
  | zero => intro s _; trivial
  | succ fuel ih =>
    intro s hs
    have h := hb s hs
    simp only [Ends, FaultM.loop] at h ⊢
    cases hbs : body s with
    | ret b s' =>
      rw [hbs] at h
      cases b
      · exact h
      · exact ih s' h
    | thrown c s' => rw [hbs] at h; exact h
    | diverge => trivial

/-- A computation whose outcome is known. -/
theorem Ends.ret {m : FaultM σ α} {s s' : σ} {a : α} {Q : α → σ → Prop} {E : σ → Prop}
    (hm : m s = .ret a s') (hq : Q a s') : Ends m s Q E := by
  simp only [Ends, hm]; exact hq

theorem Ends.thrown {m : FaultM σ α} {s s' : σ} {c : Int} {Q : α → σ → Prop} {E : σ → Prop}
    (hm : m s = .thrown c s') (he : E s') : Ends m s Q E := by
  simp only [Ends, hm]; exact he

theorem Ends.of_ret {m : FaultM σ α} {s s' : σ} {a : α} {Q : α → σ → Prop} {E : σ → Prop}
    (h : Ends m s Q E) (hm : m s = .ret a s') : Q a s' := by
  simp only [Ends, hm] at h; exact h

theorem Ends.of_thrown {m : FaultM σ α} {s s' : σ} {c : Int} {Q : α → σ → Prop} {E : σ → Prop}
    (h : Ends m s Q E) (hm : m s = .thrown c s') : E s' := by
  simp only [Ends, hm] at h; exact h

/-! ## Coming back -/

/-- `m` started in `s` comes back: it ends in `Q` if it returns and in `E` if it throws. -/
def Settles (m : FaultM σ α) (s : σ) (Q : α → σ → Prop) (E : σ → Prop) : Prop :=
  match m s with
  | .ret a s' => Q a s'
  | .thrown _ s' => E s'
  | .diverge => False

theorem Settles.mono {m : FaultM σ α} {s : σ} {Q Q' : α → σ → Prop} {E E' : σ → Prop}
    (h : Settles m s Q E) (hq : ∀ a s', Q a s' → Q' a s') (he : ∀ s', E s' → E' s') :
    Settles m s Q' E' := by
  unfold Settles at *
  cases hm : m s with
  | ret a s' => rw [hm] at h; exact hq a s' h
  | thrown c s' => rw [hm] at h; exact he s' h
  | diverge => rw [hm] at h; exact h.elim

theorem settles_congr {m m' : FaultM σ α} {s s' : σ} {Q : α → σ → Prop} {E : σ → Prop} (h : m s = m' s') :
    Settles m s Q E ↔ Settles m' s' Q E := by rw [Settles, Settles, h]

theorem settles_pure {a : α} {s : σ} {Q : α → σ → Prop} {E : σ → Prop} :
    Settles (pure a) s Q E ↔ Q a s := Iff.rfl

theorem settles_reads_bind {g : σ → α} {f : α → FaultM σ β} {s : σ} {Q : β → σ → Prop}
    {E : σ → Prop} : Settles (reads g >>= f) s Q E ↔ Settles (f (g s)) s Q E := Iff.rfl

theorem settles_update {f : σ → σ} {s : σ} {Q : Unit → σ → Prop} {E : σ → Prop} :
    Settles (update f) s Q E ↔ Q () (f s) := Iff.rfl

theorem settles_update_bind {g : σ → σ} {f : Unit → FaultM σ β} {s : σ} {Q : β → σ → Prop}
    {E : σ → Prop} : Settles (update g >>= f) s Q E ↔ Settles (f ()) (g s) Q E := Iff.rfl

theorem settles_bind {m : FaultM σ α} {f : α → FaultM σ β} {s : σ} {Q : β → σ → Prop}
    {E : σ → Prop} :
    Settles (m >>= f) s Q E ↔ Settles m s (fun a s' => Settles (f a) s' Q E) E := by
  unfold Settles
  rw [bind_apply]
  cases m s <;> rfl

theorem Settles.bind {m : FaultM σ α} {f : α → FaultM σ β} {s : σ} {P : α → σ → Prop}
    {Q : β → σ → Prop} {E : σ → Prop} (h : Settles m s P E)
    (hf : ∀ a s', P a s' → Settles (f a) s' Q E) : Settles (m >>= f) s Q E :=
  settles_bind.mpr (h.mono hf fun _ he => he)

theorem Settles.ite {p : Prop} [Decidable p] {m m' : FaultM σ α} {s : σ} {Q : α → σ → Prop}
    {E : σ → Prop} (h : p → Settles m s Q E) (h' : ¬ p → Settles m' s Q E) :
    Settles (if p then m else m') s Q E := by
  by_cases hp : p
  · rw [if_pos hp]; exact h hp
  · rw [if_neg hp]; exact h' hp

theorem Settles.tryCatch {m : FaultM σ α} {h : Int → FaultM σ α} {s : σ} {P : σ → Prop}
    {Q : α → σ → Prop} {E : σ → Prop} (hm : Settles m s Q P)
    (hh : ∀ c s', P s' → Settles (h c) s' Q E) : Settles (FaultM.tryCatch m h) s Q E := by
  unfold Settles FaultM.tryCatch at *
  cases hms : m s with
  | ret a s' => rw [hms] at hm; exact hm
  | thrown c s' => rw [hms] at hm; exact hh c s' hm
  | diverge => rw [hms] at hm; exact hm.elim

/-- A computation whose outcome is known. -/
theorem Settles.ret {m : FaultM σ α} {s s' : σ} {a : α} {Q : α → σ → Prop} {E : σ → Prop}
    (hm : m s = .ret a s') (hq : Q a s') : Settles m s Q E := by
  simp only [Settles, hm]; exact hq

theorem Settles.thrown {m : FaultM σ α} {s s' : σ} {c : Int} {Q : α → σ → Prop} {E : σ → Prop}
    (hm : m s = .thrown c s') (he : E s') : Settles m s Q E := by
  simp only [Settles, hm]; exact he

/-- What is known of a computation that is known to return. -/
theorem Settles.returns {m : FaultM σ α} {s : σ} {Q : α → σ → Prop} {E : σ → Prop}
    (h : Settles m s Q E) (hr : Returns m s fun _ _ => True) : Returns m s Q := by
  obtain ⟨a, s', hm, -⟩ := hr
  simp only [Settles, hm] at h
  exact ⟨a, s', hm, h⟩

/-- What cannot throw returns. -/
theorem Settles.returns_of {m : FaultM σ α} {s : σ} {Q : α → σ → Prop} {E : σ → Prop}
    (h : Settles m s Q E) (he : ∀ s', ¬ E s') : Returns m s Q := by
  unfold Settles at h
  cases hm : m s with
  | ret a s' =>
    rw [hm] at h
    exact ⟨a, s', hm, h⟩
  | thrown c s' =>
    rw [hm] at h
    exact absurd h (he s')
  | diverge =>
    rw [hm] at h
    exact h.elim

theorem Returns.settles {m : FaultM σ α} {s : σ} {Q : α → σ → Prop} {E : σ → Prop}
    (h : Returns m s Q) : Settles m s Q E := by
  obtain ⟨a, s', hm, hq⟩ := h
  exact .ret hm hq

theorem Settles.ends {m : FaultM σ α} {s : σ} {Q : α → σ → Prop} {E : σ → Prop}
    (h : Settles m s Q E) : Ends m s Q E := by
  unfold Settles Ends at *
  cases hm : m s with
  | diverge => trivial
  | _ => rw [hm] at h; exact h

theorem Settles.and_ends {m : FaultM σ α} {s : σ} {Q Q' : α → σ → Prop} {E E' : σ → Prop}
    (h : Settles m s Q E) (h' : Ends m s Q' E') :
    Settles m s (fun a s' => Q a s' ∧ Q' a s') fun s' => E s' ∧ E' s' := by
  unfold Settles Ends at *
  cases hm : m s with
  | ret a s' => rw [hm] at h h'; exact ⟨h, h'⟩
  | thrown c s' => rw [hm] at h h'; exact ⟨h, h'⟩
  | diverge => rw [hm] at h; exact h

/-- What comes back to `E` does not end outside it. -/
theorem Settles.not_ends {m : FaultM σ α} {s : σ} {P P' : σ → Prop} (hp : ∀ s', P s' → ¬ P' s')
    (h : Settles m s (fun _ => P) P) : ¬ Ends m s (fun _ => P') P' := by
  unfold Settles Ends at *
  cases hm : m s with
  | diverge => rw [hm] at h; exact h.elim
  | _ => rw [hm] at h; exact hp _ h

/-- `m` comes back from every state. -/
def Comes (m : FaultM σ α) : Prop := ∀ s, m s ≠ .diverge

theorem bind_comes {m : FaultM σ α} {f : α → FaultM σ β} {s : σ} (h : m s ≠ .diverge)
    (hf : ∀ a, Comes (f a)) : (m >>= f) s ≠ .diverge := by
  rw [bind_apply]
  cases hm : m s with
  | ret a s' => exact hf a s'
  | thrown c s' => exact fun h' => nomatch h'
  | diverge => exact absurd hm h

theorem ite_comes {p : Prop} [Decidable p] {m m' : FaultM σ α} {s : σ} (h : p → m s ≠ .diverge)
    (h' : ¬ p → m' s ≠ .diverge) : (if p then m else m') s ≠ .diverge := by
  by_cases hp : p
  · rw [if_pos hp]; exact h hp
  · rw [if_neg hp]; exact h' hp

namespace Comes

theorem pure (a : α) : Comes (Pure.pure a : FaultM σ α) := fun _ h => nomatch h

theorem update (f : σ → σ) : Comes (FaultM.update f) := fun _ h => nomatch h

theorem reads (f : σ → α) : Comes (FaultM.reads f) := fun _ h => nomatch h

theorem throwCode (c : Int) : Comes (FaultM.throwCode c : FaultM σ α) := fun _ h => nomatch h

theorem bind {m : FaultM σ α} {f : α → FaultM σ β} (h : Comes m) (hf : ∀ a, Comes (f a)) :
    Comes (m >>= f) := fun s => bind_comes (h s) hf

theorem reads_bind {g : σ → α} {f : α → FaultM σ β} (hf : ∀ a, Comes (f a)) :
    Comes (FaultM.reads g >>= f) := fun s => hf (g s) s

theorem ite {p : Prop} [Decidable p] {m m' : FaultM σ α} (h : p → Comes m) (h' : ¬ p → Comes m') :
    Comes (if p then m else m') := fun s => ite_comes (fun hp => h hp s) fun hp => h' hp s

end Comes

/-- Every state has a bound with which `m` comes back from it. -/
def Bounded (m : Nat → FaultM σ α) : Prop := ∀ s, ∃ n, m n s ≠ .diverge

namespace Bounded

theorem of_comes {m : FaultM σ α} (h : Comes m) : Bounded fun _ => m := fun s => ⟨0, h s⟩

theorem bind_left {m : Nat → FaultM σ α} {f : α → FaultM σ β} (h : Bounded m)
    (hf : ∀ a, Comes (f a)) : Bounded fun n => m n >>= f := fun s => by
  obtain ⟨n, hn⟩ := h s
  exact ⟨n, bind_comes hn hf⟩

/-- The bound of what follows is enough for the whole. -/
theorem bind_right {m : FaultM σ α} {f : Nat → α → FaultM σ β} (h : Comes m)
    (hf : ∀ a, Bounded fun n => f n a) : Bounded fun n => m >>= f n := fun s => by
  cases hm : m s with
  | ret a s' =>
    obtain ⟨n, hn⟩ := hf a s'
    exact ⟨n, fun hd => hn ((bind_ret hm).symm.trans hd)⟩
  | thrown c s' => exact ⟨0, fun hd => nomatch (bind_thrown hm).symm.trans hd⟩
  | diverge => exact absurd hm (h s)

theorem ite {p : Prop} [Decidable p] {m m' : Nat → FaultM σ α} (h : p → Bounded m)
    (h' : ¬ p → Bounded m') : Bounded fun n => if p then m n else m' n := fun s => by
  by_cases hp : p
  · obtain ⟨n, hn⟩ := h hp s
    exact ⟨n, ite_comes (fun _ => hn) fun hnp => absurd hp hnp⟩
  · obtain ⟨n, hn⟩ := h' hp s
    exact ⟨n, ite_comes (fun hp' => absurd hp' hp) fun _ => hn⟩

/-- A computation that is only made under a condition, and what follows it. -/
theorem bindIf {p : Prop} [Decidable p] {m : FaultM σ Unit} {f : Nat → Unit → FaultM σ β}
    (h : p → Comes m) (hf : ∀ u, Bounded fun n => f n u) :
    Bounded fun n => if p then m >>= f n else f n () :=
  ite (fun hp => bind_right (h hp) hf) fun _ => hf ()

end Bounded

/-! ## Relations a computation stays within -/

/-- However `m` ends, the state it leaves is `R`-related to the one it started in. -/
def Within (R : σ → σ → Prop) (m : FaultM σ α) : Prop :=
  ∀ s, Ends m s (fun _ => R s) (R s)

namespace Within

variable {R : σ → σ → Prop}

theorem mono {S : σ → σ → Prop} {m : FaultM σ α} (h : Within R m) (hs : ∀ s s', R s s' → S s s') :
    Within S m :=
  fun s => (h s).mono (fun _ s' => hs s s') (fun s' => hs s s')

/-- A computation within `R` in the middle of another one. -/
theorem ends {m : FaultM σ α} (h : Within R m) {s : σ} {Q : α → σ → Prop} {E : σ → Prop}
    (hq : ∀ a s', R s s' → Q a s') (he : ∀ s', R s s' → E s') : Ends m s Q E :=
  (h s).mono hq he

theorem update {f : σ → σ} (h : ∀ s, R s (f s)) : Within R (FaultM.update f) := h

theorem ite {p : Prop} [Decidable p] {m m' : FaultM σ α} (h : p → Within R m)
    (h' : ¬ p → Within R m') : Within R (if p then m else m') := by
  by_cases hp : p
  · rw [if_pos hp]; exact h hp
  · rw [if_neg hp]; exact h' hp

/-- What has no outcome where a guard fails. -/
theorem guarded {p : σ → Prop} [DecidablePred p] {a : ∀ s, p s → α} {f : ∀ s, p s → σ}
    (h : ∀ s hp, R s (f s hp)) :
    Within R fun s => if hp : p s then .ret (a s hp) (f s hp) else .diverge := by
  intro s
  unfold Ends
  by_cases hp : p s
  · simp only [dif_pos hp]
    exact h s hp
  · simp only [dif_neg hp]

/-- Two computations one after the other, each within a relation of its own. -/
theorem comp {S T : σ → σ → Prop} {m : FaultM σ α} {f : α → FaultM σ β} (hm : Within R m)
    (hf : ∀ a, Within S (f a)) (hr : ∀ s s', R s s' → T s s')
    (ht : ∀ s s' s'', R s s' → S s' s'' → T s s'') : Within T (m >>= f) := by
  intro s
  refine Ends.bind (P := fun _ => R s) ((hm s).mono (fun _ _ h => h) (hr s)) fun a s' h => ?_
  exact (hf a s').mono (fun _ s'' h' => ht s s' s'' h h') fun s'' h' => ht s s' s'' h h'

section Refl

variable [Std.Refl R]

theorem pure (a : α) : Within R (Pure.pure a : FaultM σ α) := fun s => Std.Refl.refl s

theorem reads (f : σ → α) : Within R (FaultM.reads f) := fun s => Std.Refl.refl s

end Refl

section Trans

variable [IsTrans σ R]

theorem bind {m : FaultM σ α} {f : α → FaultM σ β} (hm : Within R m)
    (hf : ∀ a, Within R (f a)) : Within R (m >>= f) := by
  intro s
  refine (hm s).bind fun a s' h => ?_
  exact (hf a s').mono (fun _ _ h' => Trans.trans h h') (fun _ h' => Trans.trans h h')

theorem update_bind {g : σ → σ} {f : Unit → FaultM σ β} (hg : ∀ s, R s (g s))
    (hf : Within R (f ())) : Within R (FaultM.update g >>= f) := bind (update hg) fun _ => hf

/-- A computation that is only made under a condition, and what follows it. -/
theorem bindIf {p : Prop} [Decidable p] {m : FaultM σ Unit} {f : Unit → FaultM σ β}
    (hm : p → Within R m) (hf : ∀ u, Within R (f u)) : Within R (if p then m >>= f else f ()) :=
  ite (fun hp => bind (hm hp) hf) fun _ => hf ()

end Trans

variable [Std.Refl R] [IsTrans σ R]

theorem reads_bind {g : σ → α} {f : α → FaultM σ β} (hf : ∀ a, Within R (f a)) :
    Within R (FaultM.reads g >>= f) := bind (reads g) hf

end Within

/-! ## Relations a computation stays within, and comes back -/

/-- `m` comes back from every state, and the state it leaves is `R`-related to that one. -/
def Stays (R : σ → σ → Prop) (m : FaultM σ α) : Prop :=
  ∀ s, Settles m s (fun _ => R s) (R s)

namespace Stays

variable {R : σ → σ → Prop}

theorem within {m : FaultM σ α} (h : Stays R m) : Within R m := fun s => (h s).ends

theorem comes {m : FaultM σ α} (h : Stays R m) : Comes m := fun s hd => by
  have hs := h s
  rw [Settles, hd] at hs
  exact hs

theorem mono {S : σ → σ → Prop} {m : FaultM σ α} (h : Stays R m) (hs : ∀ s s', R s s' → S s s') :
    Stays S m :=
  fun s => (h s).mono (fun _ s' => hs s s') (fun s' => hs s s')

theorem update {f : σ → σ} (h : ∀ s, R s (f s)) : Stays R (FaultM.update f) := h

theorem ite {p : Prop} [Decidable p] {m m' : FaultM σ α} (h : p → Stays R m)
    (h' : ¬ p → Stays R m') : Stays R (if p then m else m') :=
  fun s => .ite (fun hp => h hp s) fun hp => h' hp s

section Refl

variable [Std.Refl R]

theorem pure (a : α) : Stays R (Pure.pure a : FaultM σ α) := fun s => Std.Refl.refl s

theorem reads (f : σ → α) : Stays R (FaultM.reads f) := fun s => Std.Refl.refl s

end Refl

variable [IsTrans σ R]

theorem bind {m : FaultM σ α} {f : α → FaultM σ β} (hm : Stays R m)
    (hf : ∀ a, Stays R (f a)) : Stays R (m >>= f) := by
  intro s
  refine (hm s).bind fun a s' h => ?_
  exact (hf a s').mono (fun _ _ h' => Trans.trans h h') (fun _ h' => Trans.trans h h')

/-- A computation that stays within `R`, followed by one of whose value more is known. -/
theorem bind_settles {m : FaultM σ α} {f : α → FaultM σ β} {s : σ} {Q : β → Prop}
    (hm : Stays R m) (hf : ∀ a s', Settles (f a) s' (fun b s'' => R s' s'' ∧ Q b) (R s')) :
    Settles (m >>= f) s (fun b s' => R s s' ∧ Q b) (R s) := by
  refine (hm s).bind fun a s' h => ?_
  exact (hf a s').mono (fun _ _ h' => ⟨Trans.trans h h'.1, h'.2⟩) fun _ h' => Trans.trans h h'

theorem update_bind {g : σ → σ} {f : Unit → FaultM σ β} (hg : ∀ s, R s (g s))
    (hf : Stays R (f ())) : Stays R (FaultM.update g >>= f) := bind (update hg) fun _ => hf

theorem reads_bind [Std.Refl R] {g : σ → α} {f : α → FaultM σ β} (hf : ∀ a, Stays R (f a)) :
    Stays R (FaultM.reads g >>= f) := bind (reads g) hf

end Stays

/-! ## Bounds -/

/-- Where `m` comes back, `m'` does the same. -/
def Below (m m' : FaultM σ α) : Prop := ∀ s, m s ≠ .diverge → m' s = m s

namespace Below

theorem refl (m : FaultM σ α) : Below m m := fun _ _ => rfl

theorem ret {m m' : FaultM σ α} (h : Below m m') {s s' : σ} {a : α} (hs : m s = .ret a s') :
    m' s = .ret a s' := (h s (by rw [hs]; simp)).trans hs

theorem bind {m m' : FaultM σ α} {f f' : α → FaultM σ β} (hm : Below m m')
    (hf : ∀ a, Below (f a) (f' a)) : Below (m >>= f) (m' >>= f') := by
  intro s hs
  have hms : m s ≠ .diverge := fun hd => hs (by simp only [bind_apply, hd])
  simp only [bind_apply, hm s hms] at hs ⊢
  cases hr : m s with
  | ret a s' => rw [hr] at hs; exact hf a s' hs
  | thrown c s' => rfl
  | diverge => exact absurd hr hms

theorem bind_right {m : FaultM σ α} {f f' : α → FaultM σ β} (hf : ∀ a, Below (f a) (f' a)) :
    Below (m >>= f) (m >>= f') := bind (refl m) hf

theorem bind_left {m m' : FaultM σ α} {f : α → FaultM σ β} (hm : Below m m') :
    Below (m >>= f) (m' >>= f) := bind hm fun a => refl (f a)

theorem ite {p : Prop} [Decidable p] {m₁ m₁' m₂ m₂' : FaultM σ α} (h₁ : Below m₁ m₁')
    (h₂ : Below m₂ m₂') : Below (if p then m₁ else m₂) (if p then m₁' else m₂') := by
  by_cases hp : p
  · simp only [if_pos hp]; exact h₁
  · simp only [if_neg hp]; exact h₂

/-- A computation that is made under a condition, before one that is made in either case. -/
theorem bindIf {p : Prop} [Decidable p] {m : FaultM σ Unit} {f f' : Unit → FaultM σ β}
    (hf : ∀ u, Below (f u) (f' u)) :
    Below (if p then m >>= f else f ()) (if p then m >>= f' else f' ()) :=
  ite (bind_right hf) (hf ())

theorem tryCatch {m m' : FaultM σ α} {h : Int → FaultM σ α} (hm : Below m m') :
    Below (FaultM.tryCatch m h) (FaultM.tryCatch m' h) := by
  intro s hs
  have hms : m s ≠ .diverge := fun hd => hs (by simp only [FaultM.tryCatch, hd])
  simp only [FaultM.tryCatch, hm s hms]

/-- A loop with a larger body and more rounds. -/
theorem loop {body body' : FaultM σ Bool} (hb : Below body body') :
    ∀ {fuel fuel' : Nat}, fuel ≤ fuel' →
      Below (FaultM.loop body fuel) (FaultM.loop body' fuel') := by
  intro fuel
  induction fuel with
  | zero => intro fuel' _ s hs; exact absurd rfl hs
  | succ fuel ih =>
    intro fuel' hle s hs
    obtain ⟨n, rfl⟩ : ∃ n, fuel' = n + 1 := ⟨fuel' - 1, by omega⟩
    have hbs : body s ≠ .diverge := fun hd => hs (by simp only [FaultM.loop, hd])
    simp only [FaultM.loop, hb s hbs] at hs ⊢
    cases hr : body s with
    | ret b s' =>
      cases b with
      | false => rfl
      | true => rw [hr] at hs; exact ih (by omega) s' hs
    | thrown c s' => rfl
    | diverge => rfl

end Below

end FaultM

end Fault
