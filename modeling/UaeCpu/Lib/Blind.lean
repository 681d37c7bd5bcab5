import UaeCpu.Lib.Fault

/-!
# UaeCpu.Lib.Blind

Computations that do not see part of their state: what they do from two states that agree on the
rest is the same.

* `Outcome.Agree Q E` — two outcomes, the same up to states: `Q` relates those of a return, `E`
  those of a throw.
* `Blind R Q E m`     — from `R`-related states `m` has outcomes that agree.
-/

namespace Fault

open FaultM

variable {σ α β : Type}

inductive Outcome.Agree (Q E : σ → σ → Prop) : Outcome σ α → Outcome σ α → Prop where
  | ret {a : α} {s t : σ} (h : Q s t) : Agree Q E (.ret a s) (.ret a t)
  | thrown {c : Int} {s t : σ} (h : E s t) : Agree Q E (.thrown c s) (.thrown c t)
  | diverge : Agree Q E .diverge .diverge

theorem Outcome.Agree.mono {Q Q' E E' : σ → σ → Prop} {o o' : Outcome σ α} (h : o.Agree Q E o')
    (hq : ∀ s t, Q s t → Q' s t) (he : ∀ s t, E s t → E' s t) : o.Agree Q' E' o' := by
  cases h with
  | ret h => exact .ret (hq _ _ h)
  | thrown h => exact .thrown (he _ _ h)
  | diverge => exact .diverge

/-- What follows may differ too, and start from where each of the two really got to. -/
theorem Outcome.Agree.bind {P Q E : σ → σ → Prop} {m m' : FaultM σ α} {f f' : α → FaultM σ β} {s t : σ}
    (h : (m s).Agree P E (m' t))
    (hf : ∀ a s' t', m s = .ret a s' → m' t = .ret a t' → P s' t' → (f a s').Agree Q E (f' a t')) :
    ((m >>= f) s).Agree Q E ((m' >>= f') t) := by
  rw [bind_apply, bind_apply]
  generalize hs : m s = o at h
  generalize ht : m' t = o' at h
  cases h with
  | ret h => exact hf _ _ _ hs ht h
  | thrown h => exact .thrown h
  | diverge => exact .diverge

def Blind (R Q E : σ → σ → Prop) (m : FaultM σ α) : Prop :=
  ∀ s t, R s t → (m s).Agree Q E (m t)

namespace Blind

variable {R P Q E : σ → σ → Prop} {m : FaultM σ α} {f : α → FaultM σ β}

theorem mono {R' Q' E' : σ → σ → Prop} (h : Blind R Q E m) (hr : ∀ s t, R' s t → R s t)
    (hq : ∀ s t, Q s t → Q' s t) (he : ∀ s t, E s t → E' s t) : Blind R' Q' E' m :=
  fun s t hst => (h s t (hr s t hst)).mono hq he

theorem pure {a : α} : Blind R R E (pure a) := fun _ _ h => .ret h

theorem diverge : Blind R Q E (fun _ => .diverge : FaultM σ α) := fun _ _ _ => .diverge

theorem bind (hm : Blind R P E m) (hf : ∀ a, Blind P Q E (f a)) : Blind R Q E (m >>= f) :=
  fun s t hst => (hm s t hst).bind fun a s' t' _ _ hp => hf a s' t' hp

theorem update {g : σ → σ} (h : ∀ s t, R s t → Q (g s) (g t)) : Blind R Q E (update g) :=
  fun s t hst => .ret (h s t hst)

theorem update_bind {g : σ → σ} {f : Unit → FaultM σ β} (h : ∀ s t, R s t → P (g s) (g t))
    (hf : Blind P Q E (f ())) : Blind R Q E (FaultM.update g >>= f) :=
  (update h).bind fun _ => hf

/-- What is read may differ, but not what is done with it. -/
theorem reads_bind {g : σ → α} (hk : ∀ s t, R s t → f (g t) = f (g s))
    (hf : ∀ s t, R s t → Blind R Q E (f (g s))) : Blind R Q E (reads g >>= f) := by
  intro s t hst
  change (f (g s) s).Agree Q E (f (g t) t)
  rw [hk s t hst]
  exact hf s t hst s t hst

theorem reads {g : σ → α} (hg : ∀ s t, R s t → g s = g t) : Blind R R E (reads g) := by
  intro s t hst
  rw [reads_apply, reads_apply, hg s t hst]
  exact .ret hst

theorem ite {p : Prop} [Decidable p] {m' : FaultM σ α} (h : p → Blind R Q E m)
    (h' : ¬p → Blind R Q E m') : Blind R Q E (if p then m else m') := by
  by_cases hp : p
  · rw [if_pos hp]
    exact h hp
  · rw [if_neg hp]
    exact h' hp

/-- A handler starts where the throw was made. -/
theorem tryCatch {hd : Int → FaultM σ α} {E' : σ → σ → Prop} (hm : Blind R Q E m)
    (hh : ∀ c, Blind E Q E' (hd c)) : Blind R Q E' (tryCatch m hd) := by
  intro s t hst
  have h := hm s t hst
  unfold FaultM.tryCatch
  generalize m s = o at h
  generalize m t = o' at h
  cases h with
  | ret h => exact .ret h
  | thrown h => exact hh _ _ _ h
  | diverge => exact .diverge

theorem loop {body : FaultM σ Bool} (h : Blind R R E body) : ∀ fuel, Blind R R E (loop body fuel)
  | 0 => diverge
  | fuel + 1 => by
    intro s t hst
    have hb := h s t hst
    unfold FaultM.loop
    generalize body s = o at hb
    generalize body t = o' at hb
    cases hb with
    | @ret a s' t' hr =>
      cases a
      · exact .ret hr
      · exact loop h fuel s' t' hr
    | thrown he => exact .thrown he
    | diverge => exact .diverge

end Blind

end Fault
