import UaeCpu.Regions

/-!
# UaeCpu.Leaks

Regions are freed by `memory_unmap`, which looks only at the region of its first bank, and by
`memory_uninit`, which looks only at regions that still have an entry. A region that loses its
last entry in another way is never freed.

* `NoLeak`             — every live region has an entry.
* `run_noLeak_iff`     — the calls that keep it so.
* `memory_no_leak_iff` — the runs that free everything.
-/

namespace UaeCpu

open Trans.Calls

variable {δ : Type}

def MemState.Referenced (st : MemState δ) (id : Nat) : Prop := ∃ j, st.banks j = .region id

/-- Every region that is allocated and not freed has an entry. -/
def NoLeak (st : MemState δ) : Prop := ∀ id, st.Live id → st.Referenced id

/-- The region has an entry outside of `S`. -/
def MemState.ReferencedOutside (st : MemState δ) (S : BankIdx → Prop) (id : Nat) : Prop :=
  ∃ j, ¬ S j ∧ st.banks j = .region id

/-- The call leaves an entry to every region that is not freed. A map covers a bank at least,
and every live region has an entry outside the banks covered; an unmap may cover all entries of
the region at its first bank, which it frees. -/
def MemOp.Spares : MemOp δ → MemState δ → Prop
  | .init, st => ∀ id, ¬ st.Live id
  | .mapPtr ok startAddr size _ _, st | .mapCustom ok startAddr size _, st =>
    ok = true → 0 < numBanks size ∧
      ∀ id, st.Live id → st.ReferencedOutside (Covered startAddr size) id
  | .unmap startAddr size, st =>
    ∀ id, st.Live id → ¬ (0 < numBanks size ∧ st.banks (startBank startAddr) = .region id) →
      st.ReferencedOutside (Covered startAddr size) id
  | .uninit, _ => True

/-! ## One call -/

theorem covered_startBank {startAddr size : Long} (h : 0 < numBanks size) :
    Covered startAddr size (startBank startAddr) := by
  unfold Covered Loop.Arc
  rw [BitVec.sub_self]
  exact h

theorem numBanks_pos_of_covered {startAddr size : Long} {j : BankIdx}
    (h : Covered startAddr size j) : 0 < numBanks size :=
  Nat.lt_of_le_of_lt (Nat.zero_le _) h

/-- The entries a redirection leaves to a region are those outside of it. -/
theorem Painted.referenced_iff {S : BankIdx → Prop} {ref : BankRef} {st t : MemState δ} {id : Nat}
    (h : Painted S ref st t) (hne : ref ≠ .region id) :
    t.Referenced id ↔ st.ReferencedOutside S id := by
  constructor
  · rintro ⟨j, hj⟩
    obtain ⟨hS, he⟩ := h.eq_of_ne (j := j) (by rw [hj]; exact hne.symm)
    exact ⟨j, hS, by rw [← he, hj]⟩
  · rintro ⟨j, hS, hj⟩
    exact ⟨j, by rw [h.outside j hS, hj]⟩

theorem SameMap.referenced_iff {st t : MemState δ} (h : SameMap st t) (id : Nat) :
    t.Referenced id ↔ st.Referenced id := by
  unfold MemState.Referenced
  rw [h.banks]

/-- Both map calls: a new region over the covered banks. -/
theorem map_noLeak_iff {startAddr size : Long} {b : Addrbank δ} {st t : MemState δ} (h : Sound st)
    (hp : Painted (Covered startAddr size) (.region st.next) (st.alloc b) t) :
    NoLeak t ↔ 0 < numBanks size ∧
      ∀ id, st.Live id → st.ReferencedOutside (Covered startAddr size) id := by
  have hold : ∀ id, st.Live id →
      (t.Referenced id ↔ st.ReferencedOutside (Covered startAddr size) id) := by
    intro id hl
    refine hp.referenced_iff fun he => ?_
    have hlt := h.bound id hl
    rw [BankRef.region.inj he] at hlt
    exact Nat.lt_irrefl _ hlt
  have hnew : t.Referenced st.next ↔ 0 < numBanks size := by
    constructor
    · rintro ⟨j, hj⟩
      by_cases hS : Covered startAddr size j
      · exact numBanks_pos_of_covered hS
      · rw [hp.outside j hS] at hj
        exact absurd hj (h.fresh j)
    · intro hn
      exact ⟨_, hp.inside _ (covered_startBank hn)⟩
  constructor
  · intro hno
    refine ⟨hnew.mp (hno _ ?_), fun id hl => (hold id hl).mp (hno id ?_)⟩
    · exact (hp.live _).mpr ((live_alloc _ _ _).mpr (.inl rfl))
    · exact (hp.live _).mpr ((live_alloc _ _ _).mpr (.inr hl))
  · rintro ⟨hn, hout⟩ id hl
    rcases (live_alloc _ _ _).mp ((hp.live id).mp hl) with rfl | hl
    · exact hnew.mpr hn
    · exact (hold id hl).mpr (hout id hl)

theorem unmap_noLeak_iff {st : MemState δ} (startAddr size : Long) :
    NoLeak (memoryUnmap startAddr size st) ↔ (MemOp.unmap startAddr size).Spares st := by
  obtain ⟨t, hp, ⟨id, hn, hb, hno, hs⟩ | ⟨hkeep, hs⟩⟩ := memoryUnmap_cases startAddr size st
  · -- the region of the first bank has lost its last entry and is freed
    have hlive : ∀ id', (memoryUnmap startAddr size st).Live id' ↔ id' ≠ id ∧ st.Live id' := by
      intro id'
      rw [hs.live, live_free, hp.live]
    have href : ∀ id', (memoryUnmap startAddr size st).Referenced id' ↔
        st.ReferencedOutside (Covered startAddr size) id' := by
      intro id'
      rw [hs.referenced_iff]
      exact hp.referenced_iff fun he => nomatch he
    constructor
    · intro hnl id' hl hfirst
      have hne : id' ≠ id := by
        rintro rfl
        exact hfirst ⟨hn, hb⟩
      exact (href id').mp (hnl id' ((hlive id').mpr ⟨hne, hl⟩))
    · intro hsp id' hl
      obtain ⟨hne, hl⟩ := (hlive id').mp hl
      refine (href id').mpr (hsp id' hl fun hfirst => hne ?_)
      rw [hb] at hfirst
      exact (BankRef.region.inj hfirst.2).symm
  · have href : ∀ id', (memoryUnmap startAddr size st).Referenced id' ↔
        st.ReferencedOutside (Covered startAddr size) id' := by
      intro id'
      rw [hs.referenced_iff]
      exact hp.referenced_iff fun he => nomatch he
    constructor
    · intro hnl id' hl _
      exact (href id').mp (hnl id' ((hs.live id').mpr ((hp.live id').mpr hl)))
    · intro hsp id' hl
      have hl : st.Live id' := (hp.live id').mp ((hs.live id').mp hl)
      by_cases hfirst : 0 < numBanks size ∧ st.banks (startBank startAddr) = .region id'
      · obtain ⟨j, hj⟩ := hkeep id' hfirst.1 hfirst.2
        exact ⟨j, by rw [hs.banks, hj]⟩
      · exact (href id').mpr (hsp id' hl hfirst)

/-- A call made while every live region has an entry keeps it so exactly when it spares one. -/
theorem run_noLeak_iff {st : MemState δ} (h : Sound st) (hn : NoLeak st) (op : MemOp δ) :
    NoLeak (op.run st) ↔ op.Spares st := by
  cases op with
  | init =>
    obtain ⟨hb, hl, -, -⟩ := memoryInit_painted st
    constructor
    · intro hno id hid
      obtain ⟨j, hj⟩ := hno id ((hl id).mpr hid)
      rw [MemOp.run, hb] at hj
      cases hj
    · intro hno id hid
      exact absurd ((hl id).mp hid) (hno id)
  | mapPtr ok startAddr size hostPtr flags =>
    cases ok with
    | false => exact ⟨fun _ h => absurd h Bool.false_ne_true, fun _ => hn⟩
    | true =>
      rw [MemOp.run, map_noLeak_iff h (memoryMapPtr_painted startAddr size hostPtr flags st)]
      exact ⟨fun h _ => h, fun h => h rfl⟩
  | mapCustom ok startAddr size device =>
    cases ok with
    | false => exact ⟨fun _ h => absurd h Bool.false_ne_true, fun _ => hn⟩
    | true =>
      rw [MemOp.run, map_noLeak_iff h (memoryMapCustom_painted startAddr size device st)]
      exact ⟨fun h _ => h, fun h => h rfl⟩
  | unmap startAddr size => exact unmap_noLeak_iff startAddr size
  | uninit =>
    refine ⟨fun _ => trivial, fun _ id hl => ?_⟩
    obtain ⟨hl, hno⟩ := (memoryUninit_live h id).mp hl
    obtain ⟨j, hj⟩ := hn id hl
    exact absurd hj (hno j)

/-! ## Runs -/

theorem noLeak_initial : NoLeak (MemState.initial : MemState δ) := fun _ h => by cases h

/-- `memory_uninit` frees everything exactly when nothing has leaked. -/
theorem uninit_frees_all_iff {st : MemState δ} (h : Sound st) :
    (∀ id < st.next, id ∈ (memoryUninit st).freed) ↔ NoLeak st := by
  have hsw := memoryUninit_swept h
  constructor
  · intro hall id hl
    by_contra hno
    have hlive := (memoryUninit_live h id).mpr ⟨hl, fun j hj => hno ⟨j, hj⟩⟩
    exact (hsw.sound.freedDead id (hall id (h.bound id hl))).2 hlive
  · intro hn id hid
    rcases hsw.sound.accounted id (by rw [hsw.next]; exact hid) with hl | hf
    · obtain ⟨hl, hno⟩ := (memoryUninit_live h id).mp hl
      obtain ⟨j, hj⟩ := hn id hl
      exact absurd hj (hno j)
    · exact hf

/-- A run leaks nothing, and a `memory_uninit` after it frees every region it allocated, exactly
when each of its calls leaves an entry to every region that it does not itself free. -/
theorem memory_no_leak_iff (ops : List (MemOp δ)) :
    let st := runOps ops (MemState.initial : MemState δ)
    (Throughout MemOp.run NoLeak ops (MemState.initial : MemState δ) ∧
      ∀ id < st.next, id ∈ (MemOp.uninit.run st).freed) ↔
    AllMeet MemOp.run MemOp.Spares ops (MemState.initial : MemState δ) := by
  intro st
  have hrun : Throughout MemOp.run NoLeak ops (MemState.initial : MemState δ) ↔
      AllMeet MemOp.run MemOp.Spares ops (MemState.initial : MemState δ) :=
    throughout_iff (fun op _ _ h => Sound.run h op)
      (fun op _ _ h hn => run_noLeak_iff h hn op)
      (allMeet_of_forall (C := fun _ _ => True) (fun _ _ => trivial) ops _) Sound.initial
      noLeak_initial
  constructor
  · rintro ⟨h, -⟩
    exact hrun.mp h
  · intro h
    have hno := hrun.mpr h
    exact ⟨hno, (uninit_frees_all_iff (Sound.initial.runOps ops)).mpr hno.last⟩

/-- Two buffers mapped at address 0, one after the other. -/
def mapTwice : List (MemOp Unit) :=
  [.init, .mapPtr true 0 0x10000 0x100000 0, .mapPtr true 0 0x10000 0x200000 0]

/-- A region mapped over by another of the same banks has lost its entries. -/
theorem overmapped_unreferenced {startAddr size : Long} {b b' : Addrbank δ}
    {st st₁ st₂ : MemState δ} (h : Sound st)
    (hp : Painted (Covered startAddr size) (.region st.next) (st.alloc b) st₁)
    (hp' : Painted (Covered startAddr size) (.region st₁.next) (st₁.alloc b') st₂) :
    st.next < st₂.next ∧ st₂.Live st.next ∧ ¬ st₂.Referenced st.next := by
  have hn : st₁.next = st.next + 1 := hp.next
  have hn' : st₂.next = st₁.next + 1 := hp'.next
  have hlive : st₁.Live st.next := (hp.live _).mpr ((live_alloc _ _ _).mpr (.inl rfl))
  refine ⟨by omega, (hp'.live _).mpr ((live_alloc _ _ _).mpr (.inr hlive)), ?_⟩
  rintro ⟨j, hj⟩
  by_cases hS : Covered startAddr size j
  · rw [hp'.inside j hS] at hj
    have := BankRef.region.inj hj
    omega
  · rw [hp'.outside j hS] at hj
    replace hj : st₁.banks j = .region st.next := hj
    rw [hp.outside j hS] at hj
    exact h.fresh j hj

theorem mapTwice_unreferenced :
    let st := runOps mapTwice MemState.initial
    0 < st.next ∧ st.Live 0 ∧ ¬ st.Referenced 0 := by
  have h := overmapped_unreferenced Sound.initial.init
    (memoryMapPtr_painted (δ := Unit) 0 0x10000 0x100000 0 _)
    (memoryMapPtr_painted 0 0x10000 0x200000 0 _)
  rw [(memoryInit_painted (MemState.initial : MemState Unit)).2.2.1] at h
  exact h

/-- The first buffer's region loses its only entry to the second and is never freed. -/
theorem mapTwice_leaks :
    let st := runOps mapTwice MemState.initial
    ¬ NoLeak st ∧ 0 < st.next ∧ 0 ∉ (MemOp.uninit.run st).freed := by
  intro st
  obtain ⟨hn, hl, hno⟩ := mapTwice_unreferenced
  have hs : Sound st := Sound.initial.runOps mapTwice
  refine ⟨fun h => hno (h 0 hl), hn, fun hf => ?_⟩
  have hlive := (memoryUninit_live hs 0).mpr ⟨hl, fun j hj => hno ⟨j, hj⟩⟩
  exact ((memoryUninit_swept hs).sound.freedDead 0 hf).2 hlive

end UaeCpu
