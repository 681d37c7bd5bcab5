import UaeCpu.Lib.Fault

/-!
# UaeCpu.Lib.Joint

Two computations side by side, each from a state of its own.

* `Joint Q E m s m' t` — both return, and `Q` holds of what they return and leave, or both throw the
  same, and `E` holds of what they leave.
* `Joint.bind` and `joint_*_bind` — one step of both, or of one of them.
* `JointUnless X Q E m s m' t` — the same, unless the second ends in a throw that `X` excuses.
* `Agrees m m' s Q E` — from one state: both do the very same.
-/

namespace Fault

open FaultM

variable {σ τ α β γ δ : Type}

def Joint (Q : α → σ → β → τ → Prop) (E : σ → τ → Prop) (m : FaultM σ α) (s : σ) (m' : FaultM τ β)
    (t : τ) : Prop :=
  match m s, m' t with
  | .ret a s', .ret b t' => Q a s' b t'
  | .thrown c s', .thrown c' t' => c = c' ∧ E s' t'
  | _, _ => False

section Rules

variable {Q : γ → σ → δ → τ → Prop} {E : σ → τ → Prop} {m : FaultM σ α} {m' : FaultM τ β}
  {f : α → FaultM σ γ} {g : β → FaultM τ δ} {s : σ} {t : τ}

theorem Joint.mono {P P' : α → σ → β → τ → Prop} {E' : σ → τ → Prop} (h : Joint P E m s m' t)
    (hp : ∀ a s' b t', P a s' b t' → P' a s' b t') (he : ∀ s' t', E s' t' → E' s' t') :
    Joint P' E' m s m' t := by
  unfold Joint at *
  cases hm : m s <;> cases hm' : m' t <;> rw [hm, hm'] at h
  case ret.ret => exact hp _ _ _ _ h
  case thrown.thrown => exact ⟨h.1, he _ _ h.2⟩
  all_goals exact h

theorem Joint.bind {P : α → σ → β → τ → Prop} (h : Joint P E m s m' t)
    (hk : ∀ a s' b t', P a s' b t' → Joint Q E (f a) s' (g b) t') :
    Joint Q E (m >>= f) s (m' >>= g) t := by
  unfold Joint at *
  rw [bind_apply, bind_apply]
  cases hm : m s <;> cases hm' : m' t <;> rw [hm, hm'] at h
  case ret.ret => exact hk _ _ _ _ h
  case thrown.thrown => exact h
  all_goals exact h.elim

theorem Joint.returns {P : α → σ → β → τ → Prop} (h : Joint P (fun _ _ => False) m s m' t) :
    ∃ a s' b t', m s = .ret a s' ∧ m' t = .ret b t' ∧ P a s' b t' := by
  unfold Joint at h
  cases hm : m s <;> cases hm' : m' t <;> rw [hm, hm'] at h
  case ret.ret => exact ⟨_, _, _, _, rfl, rfl, h⟩
  case thrown.thrown => exact h.2.elim
  all_goals exact h.elim

/-- One of them goes on alone. -/
theorem Joint.bind_left {P : α → σ → Prop} {m₂ : FaultM τ δ} (h : Returns m s P)
    (hk : ∀ a s', P a s' → Joint Q E (f a) s' m₂ t) : Joint Q E (m >>= f) s m₂ t := by
  obtain ⟨a, s', hm, hp⟩ := h
  have h := hk a s' hp
  unfold Joint at *
  rw [bind_ret hm]
  exact h

theorem Joint.bind_right {P : β → τ → Prop} {m₁ : FaultM σ γ} (h : Returns m' t P)
    (hk : ∀ b t', P b t' → Joint Q E m₁ s (g b) t') : Joint Q E m₁ s (m' >>= g) t := by
  obtain ⟨b, t', hm, hp⟩ := h
  have h := hk b t' hp
  unfold Joint at *
  rw [bind_ret hm]
  exact h

theorem joint_reads_bind_left {h : σ → α} {m₂ : FaultM τ δ} :
    Joint Q E (reads h >>= f) s m₂ t ↔ Joint Q E (f (h s)) s m₂ t := Iff.rfl

theorem joint_reads_bind_right {h : τ → β} {m₁ : FaultM σ γ} :
    Joint Q E m₁ s (reads h >>= g) t ↔ Joint Q E m₁ s (g (h t)) t := Iff.rfl

theorem joint_update_bind_left {h : σ → σ} {f : Unit → FaultM σ γ} {m₂ : FaultM τ δ} :
    Joint Q E (update h >>= f) s m₂ t ↔ Joint Q E (f ()) (h s) m₂ t := Iff.rfl

theorem joint_update_bind_right {h : τ → τ} {g : Unit → FaultM τ δ} {m₁ : FaultM σ γ} :
    Joint Q E m₁ s (update h >>= g) t ↔ Joint Q E m₁ s (g ()) (h t) := Iff.rfl

theorem joint_update {h : σ → σ} {h' : τ → τ} {Q : Unit → σ → Unit → τ → Prop} :
    Joint Q E (update h) s (update h') t ↔ Q () (h s) () (h' t) := Iff.rfl

theorem Joint.ite {p : Prop} [Decidable p] {m₁ m₂ : FaultM σ γ} {n₁ n₂ : FaultM τ δ}
    (h : p → Joint Q E m₁ s n₁ t) (h' : ¬p → Joint Q E m₂ s n₂ t) :
    Joint Q E (if p then m₁ else m₂) s (if p then n₁ else n₂) t := by
  by_cases hp : p
  · rw [if_pos hp, if_pos hp]
    exact h hp
  · rw [if_neg hp, if_neg hp]
    exact h' hp

end Rules

/-! ## One side excused -/

def JointUnless (X : Int → τ → Prop) (Q : α → σ → β → τ → Prop) (E : σ → τ → Prop) (m : FaultM σ α) (s : σ)
    (m' : FaultM τ β) (t : τ) : Prop :=
  Joint Q E m s m' t ∨ ∃ c t', m' t = .thrown c t' ∧ X c t'

section Unless

variable {X : Int → τ → Prop} {P : α → σ → β → τ → Prop} {Q : γ → σ → δ → τ → Prop} {E : σ → τ → Prop}
  {m : FaultM σ α} {m' : FaultM τ β} {f : α → FaultM σ γ} {g : β → FaultM τ δ} {s : σ} {t : τ}

theorem Joint.jointUnless (h : Joint P E m s m' t) : JointUnless X P E m s m' t := .inl h

theorem JointUnless.bind (h : JointUnless X P E m s m' t)
    (hk : ∀ a s' b t', P a s' b t' → JointUnless X Q E (f a) s' (g b) t') :
    JointUnless X Q E (m >>= f) s (m' >>= g) t := by
  obtain h | ⟨c, t', hm', hx⟩ := h
  · unfold Joint at h
    unfold JointUnless Joint
    rw [bind_apply, bind_apply]
    cases hm : m s <;> cases hm' : m' t <;> rw [hm, hm'] at h
    case ret.ret => exact hk _ _ _ _ h
    case thrown.thrown => exact .inl h
    all_goals exact h.elim
  · refine .inr ⟨c, t', ?_, hx⟩
    rw [bind_apply, hm']

theorem jointUnless_reads_bind_left {h : σ → α} {n : FaultM τ δ} :
    JointUnless X Q E (reads h >>= f) s n t ↔ JointUnless X Q E (f (h s)) s n t := Iff.rfl

theorem jointUnless_reads_bind_right {h : τ → β} {n : FaultM σ γ} :
    JointUnless X Q E n s (reads h >>= g) t ↔ JointUnless X Q E n s (g (h t)) t := Iff.rfl

end Unless

/-! ## From one state -/

/-- Both come back from `s` with the same outcome; `Q` holds where they return, `E` where they throw. -/
def Agrees (m m' : FaultM σ α) (s : σ) (Q : α → σ → Prop) (E : σ → Prop) : Prop := m s = m' s ∧ Settles m' s Q E

namespace Agrees

variable {m m' : FaultM σ α} {s : σ} {P Q : α → σ → Prop} {R : β → σ → Prop} {E : σ → Prop}

theorem same (h : Settles m s Q E) : Agrees m m s Q E := ⟨rfl, h⟩

theorem mono (h : Agrees m m' s P E) (hq : ∀ a s', P a s' → Q a s') : Agrees m m' s Q E :=
  ⟨h.1, h.2.mono hq fun _ h => h⟩

theorem bind {f f' : α → FaultM σ β} (h : Agrees m m' s P E)
    (hf : ∀ a s', P a s' → Agrees (f a) (f' a) s' R E) : Agrees (m >>= f) (m' >>= f') s R E := by
  refine ⟨?_, Settles.bind h.2 fun a s' hp => (hf a s' hp).2⟩
  have hsettles := h.2
  rw [bind_apply, bind_apply, h.1]
  unfold Settles at hsettles
  cases hm : m' s with
  | ret a s' =>
    rw [hm] at hsettles
    exact (hf a s' hsettles).1
  | thrown c s' => rfl
  | diverge => rfl

theorem with_eq (h : Agrees m m' s Q E) : Agrees m m' s (fun a s' => m s = .ret a s' ∧ Q a s') E := by
  refine ⟨h.1, ?_⟩
  have hsettles := h.2
  rw [h.1]
  unfold Settles at *
  cases hm : m' s with
  | ret a s' =>
    rw [hm] at hsettles
    exact ⟨rfl, hsettles⟩
  | thrown c s' =>
    rw [hm] at hsettles
    exact hsettles
  | diverge =>
    rw [hm] at hsettles
    exact hsettles

theorem reads_bind {g : σ → α} {f f' : α → FaultM σ β} (h : Agrees (f (g s)) (f' (g s)) s R E) :
    Agrees (reads g >>= f) (reads g >>= f') s R E := h

end Agrees

end Fault
