import UaeCpu.Lib.Fault

/-!
# UaeCpu.Lib.Resume

Sequences of numbered steps that may be broken off by a throw and are started over from the first:
a counter in the state says which step is next, and the others do nothing.

* `numbered step k xs` — the steps of a list, numbered from `k` on.
* `Resumable`          — what the state says of the counter, and of the step that was broken off.
* `retries`            — a computation that is started over after each throw, and `retries_returns`.
* `Resumable.settles`  — each try goes on where the one before was broken off.
-/

namespace Fault

open FaultM

variable {σ ι π φ α : Type}

def numbered (step : Nat → ι → FaultM σ Unit) : Nat → List ι → FaultM σ Unit
  | _, [] => pure ()
  | k, x :: xs => do
    step k x
    numbered step (k + 1) xs

theorem numbered_singleton (step : Nat → ι → FaultM σ Unit) (k : Nat) (x : ι) : numbered step k [x] = step k x :=
  bind_pure_unit

theorem numbered_append (step : Nat → ι → FaultM σ Unit) (xs ys : List ι) (k : Nat) :
    numbered step k (xs ++ ys) = numbered step k xs >>= fun _ => numbered step (k + xs.length) ys := by
  induction xs generalizing k with
  | nil => rfl
  | cons x xs ih =>
    rw [List.cons_append, numbered, numbered, ih, bind_assoc, List.length_cons]
    have hk : k + 1 + xs.length = k + (xs.length + 1) := by omega
    rw [hk]

/-- Runs `m`, and starts it over after each throw: `setup` before a try that may throw, `last`
before the one that is not broken off, `restart` after a throw. -/
def retries (setup restart : φ → σ → σ) (last : σ → σ) (m : FaultM σ α) : List φ → FaultM σ α
  | [] => fun s => m (last s)
  | f :: fs => FaultM.tryCatch (fun s => m (setup f s)) fun _ s => retries setup restart last m fs (restart f s)

/-- A computation that from `I` ends in `Q` or is broken off in `E`, from which it can be started
over, ends in `Q`. -/
theorem retries_returns {setup restart : φ → σ → σ} {last : σ → σ} {m : FaultM σ α} {I E : σ → Prop}
    {Q : α → σ → Prop} (hm : ∀ s, I s → Settles m s Q E) (hlast : ∀ s, I s → Returns m (last s) Q)
    (hsetup : ∀ f s, I s → I (setup f s)) (fs : List φ) (hrestart : ∀ f ∈ fs, ∀ s, E s → I (restart f s)) {s : σ}
    (hs : I s) : Returns (retries setup restart last m fs) s Q := by
  induction fs generalizing s with
  | nil => exact hlast s hs
  | cons f fs ih =>
    have hrest (f' : φ) (hf' : f' ∈ fs) := hrestart f' (List.mem_cons_of_mem f hf')
    have htry := hm (setup f s) (hsetup f s hs)
    unfold Settles at htry
    cases hr : m (setup f s) with
    | ret a s' =>
      rw [hr] at htry
      exact ⟨a, s', by simp only [retries, FaultM.tryCatch, hr], htry⟩
    | thrown c s' =>
      rw [hr] at htry
      obtain ⟨a, s'', hret, hq⟩ := ih hrest (hrestart f List.mem_cons_self s' htry)
      exact ⟨a, s'', by simp only [retries, FaultM.tryCatch, hr, hret], hq⟩
    | diverge =>
      rw [hr] at htry
      exact htry.elim

/-- .. and may be broken off in the last try too. -/
theorem retries_settles {restart : φ → σ → σ} {m : FaultM σ α} {I E : σ → Prop} {Q : α → σ → Prop}
    (hm : ∀ s, I s → Settles m s Q E) (fs : List φ) (hrestart : ∀ f ∈ fs, ∀ s, E s → I (restart f s)) {s : σ}
    (hs : I s) : Settles (retries (fun _ s => s) restart id m fs) s Q E := by
  induction fs generalizing s with
  | nil => exact hm s hs
  | cons f fs ih =>
    refine Settles.tryCatch (hm s hs) fun _ s' he => ?_
    exact ih (fun f' hf' => hrestart f' (List.mem_cons_of_mem f hf')) (hrestart f List.mem_cons_self s' he)

/-- A sequence of at most `bound` steps that can be started over. `Ok x` is what the steps of the
sequence are known to be. `At k p s`: step `k` is next, what the steps before it did is `p`.
`Pending k x p s`: step `k`, which is `x`, was broken off and its access has been made good.
`Faulted k x p s`: it has just been broken off. `Calm s`: nothing will be. -/
structure Resumable (bound : Nat) (Ok : ι → Prop) (step : Nat → ι → FaultM σ Unit) (eff : ι → π → π)
    (At : Nat → π → σ → Prop) (Pending Faulted : Nat → ι → π → σ → Prop) (Calm : σ → Prop) : Prop where
  skip : ∀ {k p s j y}, k ≤ bound → At k p s → j < k → step j y s = .ret () s
  skip_pending : ∀ {k x p s j y}, k ≤ bound → Pending k x p s → j < k → step j y s = .ret () s
  run : ∀ {k p s} x, Ok x → k < bound → At k p s → Settles (step k x) s
    (fun _ s' => At (k + 1) (eff x p) s' ∧ (Calm s → Calm s')) fun s' => ¬ Calm s ∧ Faulted k x p s'
  finish : ∀ {k x p s}, Ok x → k < bound → Pending k x p s →
    Returns (step k x) s fun _ s' => At (k + 1) (eff x p) s' ∧ (Calm s → Calm s')

namespace Resumable

variable {bound : Nat} {Ok : ι → Prop} {step : Nat → ι → FaultM σ Unit} {eff : ι → π → π}
  {At : Nat → π → σ → Prop} {Pending Faulted : Nat → ι → π → σ → Prop} {Calm : σ → Prop}

/-- What the steps of a list have done. -/
def after (eff : ι → π → π) (p : π) (xs : List ι) : π := xs.foldl (fun p x => eff x p) p

theorem after_append (eff : ι → π → π) (p : π) (xs ys : List ι) :
    after eff p (xs ++ ys) = after eff (after eff p xs) ys := List.foldl_append

/-- Step `k` is the first of those to come: it was not broken off, or it was and is made good. -/
def NextIs (At : Nat → π → σ → Prop) (Pending : Nat → ι → π → σ → Prop) (k : Nat) (p : π) (todo : List ι)
    (s : σ) : Prop :=
  At k p s ∨ ∃ x rest, todo = x :: rest ∧ Pending k x p s

/-- The sequence is to be started: nothing of it was broken off, or one step and that is made good. -/
def Waiting (eff : ι → π → π) (At : Nat → π → σ → Prop) (Pending : Nat → ι → π → σ → Prop) (p : π)
    (all : List ι) (s : σ) : Prop :=
  ∃ done todo, all = done ++ todo ∧ NextIs At Pending done.length (after eff p done) todo s

/-- The sequence has been broken off. -/
def Broken (eff : ι → π → π) (Faulted : Nat → ι → π → σ → Prop) (p : π) (all : List ι) (s : σ) : Prop :=
  ∃ done x todo, all = done ++ x :: todo ∧ Faulted done.length x (after eff p done) s

/-- What the state says of the sequence holds of another one too. -/
theorem Waiting.mono {p : π} {all : List ι} {s s' : σ} (h : Waiting eff At Pending p all s)
    (hat : ∀ {k p}, At k p s → At k p s') (hpend : ∀ {k x p}, Pending k x p s → Pending k x p s') :
    Waiting eff At Pending p all s' := by
  obtain ⟨done, todo, hall, h | ⟨x, rest, hx, h⟩⟩ := h
  · exact ⟨done, todo, hall, .inl (hat h)⟩
  · exact ⟨done, todo, hall, .inr ⟨x, rest, hx, hpend h⟩⟩

theorem Waiting.start {p : π} {all : List ι} {s : σ} (h : At 0 p s) : Waiting eff At Pending p all s :=
  ⟨[], all, rfl, .inl h⟩

theorem skips (step : Nat → ι → FaultM σ Unit) {s : σ} {k : Nat}
    (h : ∀ {j y}, j < k → step j y s = .ret () s) (xs : List ι) (i : Nat) (hi : i + xs.length ≤ k) :
    numbered step i xs s = .ret () s := by
  induction xs generalizing i with
  | nil => rfl
  | cons x xs ih =>
    rw [List.length_cons] at hi
    rw [numbered, bind_ret (h (by omega))]
    exact ih (i + 1) (by omega)

variable (hr : Resumable bound Ok step eff At Pending Faulted Calm)
include hr

/-- From the step that is next, whatever was done before it. -/
theorem runs {p : π} (todo : List ι) {k : Nat} {s : σ} (hok : ∀ x ∈ todo, Ok x) (hb : k + todo.length ≤ bound)
    (h : At k p s) : Settles (numbered step k todo) s
      (fun _ s' => At (k + todo.length) (after eff p todo) s' ∧ (Calm s → Calm s'))
      fun s' => ¬ Calm s ∧ ∃ mid x rest, todo = mid ++ x :: rest ∧ Faulted (k + mid.length) x (after eff p mid) s' := by
  induction todo generalizing k p s with
  | nil => exact ⟨h, id⟩
  | cons x todo ih =>
    rw [List.length_cons] at hb
    rw [numbered]
    refine Settles.bind ((hr.run x (hok x List.mem_cons_self) (by omega) h).mono (fun _ _ hq => hq) fun s' he =>
      ⟨he.1, [], x, todo, rfl, he.2⟩) fun _ s' hs' => ?_
    have htail := ih (fun y hy => hok y (List.mem_cons_of_mem x hy)) (k := k + 1) (by omega) hs'.1
    have hlen : k + 1 + todo.length = k + (x :: todo).length := by
      rw [List.length_cons]
      omega
    rw [hlen] at htail
    refine htail.mono (fun _ s'' hq => ⟨hq.1, fun hc => hq.2 (hs'.2 hc)⟩) fun s'' he => ⟨fun hc => he.1 (hs'.2 hc), ?_⟩
    obtain ⟨mid, y, rest, hmid, hf⟩ := he.2
    have hmidlen : k + 1 + mid.length = k + (x :: mid).length := by
      rw [List.length_cons]
      omega
    rw [hmidlen] at hf
    exact ⟨x :: mid, y, rest, congrArg (x :: ·) hmid, hf⟩

/-- One try of the whole sequence, its first steps made. -/
theorem settles_next {p : π} {all : List ι} (done todo : List ι) {s : σ} (hall : all = done ++ todo)
    (hok : ∀ x ∈ todo, Ok x) (hb : all.length ≤ bound) (h : NextIs At Pending done.length p todo s) :
    Settles (numbered step 0 all) s (fun _ s' => At all.length (after eff p todo) s' ∧ (Calm s → Calm s'))
      fun s' => ¬ Calm s ∧
        ∃ mid x rest, todo = mid ++ x :: rest ∧ Faulted (done.length + mid.length) x (after eff p mid) s' := by
  subst hall
  rw [List.length_append] at hb ⊢
  obtain hat | ⟨x, rest, rfl, hpend⟩ := h
  · have hsplit : numbered step 0 (done ++ todo) s = numbered step done.length todo s := by
      rw [numbered_append, Nat.zero_add, bind_ret (skips step (hr.skip (by omega) hat) done 0 (by omega))]
    unfold Settles
    rw [hsplit]
    exact hr.runs todo hok hb hat
  · rw [List.length_cons] at hb ⊢
    obtain ⟨u, s', hfin, hat, hcalm⟩ := hr.finish (hok x List.mem_cons_self) (by omega) hpend
    have hsplit : numbered step 0 (done ++ x :: rest) s = numbered step (done.length + 1) rest s' := by
      have hskip := skips step (hr.skip_pending (by omega) hpend) done 0 (by omega)
      rw [numbered_append, Nat.zero_add, bind_ret hskip, numbered, bind_ret hfin]
    have htail := hr.runs rest (fun y hy => hok y (List.mem_cons_of_mem x hy)) (by omega) hat
    have hlen : done.length + 1 + rest.length = done.length + (rest.length + 1) := by omega
    rw [hlen] at htail
    unfold Settles at htail ⊢
    rw [hsplit]
    refine Settles.mono htail (fun _ s'' hq => ⟨hq.1, fun hc => hq.2 (hcalm hc)⟩)
      fun s'' he => ⟨fun hc => he.1 (hcalm hc), ?_⟩
    obtain ⟨mid, y, rest', hmid, hf⟩ := he.2
    have hmidlen : done.length + 1 + mid.length = done.length + (x :: mid).length := by
      rw [List.length_cons]
      omega
    rw [hmidlen] at hf
    exact ⟨x :: mid, y, rest', congrArg (x :: ·) hmid, hf⟩

/-- One try. -/
theorem settles {p : π} {all : List ι} {s : σ} (hok : ∀ x ∈ all, Ok x) (hb : all.length ≤ bound)
    (h : Waiting eff At Pending p all s) :
    Settles (numbered step 0 all) s (fun _ s' => At all.length (after eff p all) s' ∧ (Calm s → Calm s'))
      fun s' => ¬ Calm s ∧ Broken eff Faulted p all s' := by
  obtain ⟨done, todo, hall, hnext⟩ := h
  have htry := hr.settles_next done todo hall (fun x hx => hok x (by rw [hall]; exact List.mem_append_right done hx))
    hb hnext
  rw [← after_append, ← hall] at htry
  refine htry.mono (fun _ _ hq => hq) fun s' he => ⟨he.1, ?_⟩
  obtain ⟨mid, x, rest, htodo, hf⟩ := he.2
  refine ⟨done ++ mid, x, rest, by rw [hall, htodo, List.append_assoc], ?_⟩
  rw [List.length_append, after_append]
  exact hf

end Resumable

end Fault
