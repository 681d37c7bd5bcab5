import UaeCpu.MemoryMap

/-!
# UaeCpu.Mapping

What each call on the memory map does to the entries and the regions, and which banks it
reaches.

* `SameMap`, `Painted`     — two maps that differ in nothing, or in some redirected entries.
* `memoryMapPtr_painted`   — and the like for each call: its specification.
-/

namespace UaeCpu

variable {δ : Type}

/-! ## What synchronising the view of translated code leaves alone -/

/-- A bank without the two flags `jit_sync_baseaddr` recomputes. -/
def Addrbank.shape (b : Addrbank δ) : Addrbank δ :=
  { b with jitReadFlag := 0, jitWriteFlag := 0 }

/-- The bank behind a pointer, as everything but translated code sees it. -/
def MemState.view (st : MemState δ) (ref : BankRef) : Option (Addrbank δ) :=
  (st.deref ref).map Addrbank.shape

/-- The region has been allocated and not freed. -/
def MemState.Live (st : MemState δ) (id : Nat) : Prop := (st.heap id).isSome

/-- The same entries, pointing to the same banks. -/
structure SameMap (st st' : MemState δ) : Prop where
  banks : st'.banks = st.banks
  view : ∀ ref, st'.view ref = st.view ref
  next : st'.next = st.next
  freed : st'.freed = st.freed

namespace SameMap

theorem refl (st : MemState δ) : SameMap st st := ⟨rfl, fun _ => rfl, rfl, rfl⟩

theorem trans {st st' st'' : MemState δ} (h : SameMap st st') (h' : SameMap st' st'') :
    SameMap st st'' :=
  ⟨h'.banks.trans h.banks, fun ref => (h'.view ref).trans (h.view ref), h'.next.trans h.next,
    h'.freed.trans h.freed⟩

theorem withUnsafe {st st' : MemState δ} (h : SameMap st st') (u : Bool) :
    SameMap st { st' with nAddrBankUnsafe := u } := ⟨h.banks, h.view, h.next, h.freed⟩

end SameMap

theorem live_iff_view {st : MemState δ} {id : Nat} :
    st.Live id ↔ (st.view (.region id)).isSome := by
  simp [MemState.Live, MemState.view, MemState.deref]

theorem SameMap.live {st st' : MemState δ} (h : SameMap st st') (id : Nat) :
    st'.Live id ↔ st.Live id := by
  rw [live_iff_view, live_iff_view, h.view]

theorem deref_store {st : MemState δ} {ref ref' : BankRef} {b : Addrbank δ}
    (hb : (st.deref ref).isSome) :
    (st.store ref b).deref ref' = if ref' = ref then some b else st.deref ref' := by
  cases ref with
  | null => cases hb
  | region id =>
    cases ref' with
    | region id' =>
      simp only [MemState.store, MemState.deref, Function.update_apply, BankRef.region.injEq]
    | _ => rfl
  | _ => cases ref' <;> rfl

/-- Storing a bank of the same shape keeps every view. -/
theorem view_store (st : MemState δ) {ref : BankRef} {b b' : Addrbank δ}
    (hb : st.deref ref = some b) (hs : b'.shape = b.shape) (ref' : BankRef) :
    (st.store ref b').view ref' = st.view ref' := by
  unfold MemState.view
  rw [deref_store (by rw [hb]; rfl)]
  by_cases h : ref' = ref
  · subst h
    rw [if_pos rfl, hb, Option.map_some, Option.map_some, hs]
  · rw [if_neg h]

theorem store_keeps (st : MemState δ) (ref : BankRef) (b : Addrbank δ) :
    (st.store ref b).banks = st.banks ∧ (st.store ref b).next = st.next ∧
      (st.store ref b).freed = st.freed ∧ (st.store ref b).baseaddr = st.baseaddr ∧
      (st.store ref b).canbang = st.canbang ∧
      (st.store ref b).natmemOffset = st.natmemOffset ∧
      (st.store ref b).nAddrBankUnsafe = st.nAddrBankUnsafe := by
  cases ref <;> exact ⟨rfl, rfl, rfl, rfl, rfl, rfl, rfl⟩

theorem jitSyncBaseaddr_none {idx : BankIdx} {st : MemState δ}
    (h : st.deref (st.banks idx) = none) : jitSyncBaseaddr idx st =
      { st with baseaddr := Function.update st.baseaddr idx (.poison (st.banks idx)) } := by
  simp only [jitSyncBaseaddr, h]

theorem jitSyncBaseaddr_some {idx : BankIdx} {st : MemState δ} {b : Addrbank δ}
    (h : st.deref (st.banks idx) = some b) : jitSyncBaseaddr idx st =
      { st with
        baseaddr := Function.update st.baseaddr idx (b.jitBase (st.banks idx)) }.store
        (st.banks idx) (b.synced st.canbang st.natmemOffset) := by
  simp only [jitSyncBaseaddr, h]

theorem jitSyncBaseaddr_same (idx : BankIdx) (st : MemState δ) :
    SameMap st (jitSyncBaseaddr idx st) := by
  cases hb : st.deref (st.banks idx) with
  | none =>
    rw [jitSyncBaseaddr_none hb]
    exact ⟨rfl, fun _ => rfl, rfl, rfl⟩
  | some b =>
    rw [jitSyncBaseaddr_some hb]
    let t := { st with
      baseaddr := Function.update st.baseaddr idx (b.jitBase (st.banks idx)) }
    obtain ⟨h1, h2, h3, -⟩ :=
      store_keeps t (st.banks idx) (b.synced st.canbang st.natmemOffset)
    have hs : (b.synced st.canbang st.natmemOffset).shape = b.shape := rfl
    exact ⟨h1, fun ref => view_store t hb hs ref, h2, h3⟩

theorem memoryJitSyncAll_same (st : MemState δ) : SameMap st (memoryJitSyncAll st) := by
  have h : SameMap st (Loop.upto jitSyncPass memoryBanks (st, false)).1 :=
    Loop.inv (fun t : MemState δ × Bool => SameMap st t.1) (.refl st)
      fun i t _ ht => ht.trans (jitSyncBaseaddr_same _ _)
  exact h.withUnsafe _

/-! ## Redirected entries -/

/-- `st'` is `st` with the entries of `S` redirected to `ref`. -/
structure Painted (S : BankIdx → Prop) (ref : BankRef) (st st' : MemState δ) : Prop where
  inside : ∀ j, S j → st'.banks j = ref
  outside : ∀ j, ¬ S j → st'.banks j = st.banks j
  view : ∀ ref, st'.view ref = st.view ref
  next : st'.next = st.next
  freed : st'.freed = st.freed

theorem Painted.same {S : BankIdx → Prop} {ref : BankRef} {st st' st'' : MemState δ}
    (h : Painted S ref st st') (h' : SameMap st' st'') : Painted S ref st st'' :=
  ⟨fun j hj => by rw [h'.banks, h.inside j hj], fun j hj => by rw [h'.banks, h.outside j hj],
    fun r => (h'.view r).trans (h.view r), h'.next.trans h.next, h'.freed.trans h.freed⟩

theorem Painted.live {S : BankIdx → Prop} {ref : BankRef} {st st' : MemState δ}
    (h : Painted S ref st st') (id : Nat) : st'.Live id ↔ st.Live id := by
  rw [live_iff_view, live_iff_view, h.view]

/-- An entry that points elsewhere than to `ref` was not redirected. -/
theorem Painted.eq_of_ne {S : BankIdx → Prop} {ref : BankRef} {st st' : MemState δ}
    (h : Painted S ref st st') {j : BankIdx} (hj : st'.banks j ≠ ref) :
    ¬ S j ∧ st'.banks j = st.banks j := by
  have hS : ¬ S j := fun hs => hj (h.inside j hs)
  exact ⟨hS, h.outside j hS⟩

theorem setEntry_banks (idx : BankIdx) (ref : BankRef) (st : MemState δ) (j : BankIdx) :
    (setEntry idx ref st).banks j = if j = idx then ref else st.banks j := by
  unfold setEntry
  rw [(jitSyncBaseaddr_same idx _).banks]
  exact Function.update_apply st.banks idx ref j

/-- The bank behind a pointer is not moved by redirecting an entry. -/
theorem setEntry_others (idx : BankIdx) (ref : BankRef) (st : MemState δ) :
    (∀ r, (setEntry idx ref st).view r = st.view r) ∧ (setEntry idx ref st).next = st.next ∧
      (setEntry idx ref st).freed = st.freed := by
  have h := jitSyncBaseaddr_same idx { st with banks := Function.update st.banks idx ref }
  exact ⟨h.view, h.next, h.freed⟩

theorem setCe_same (idx : BankIdx) (c : Bool) (t : CeMembank) (st : MemState δ) :
    SameMap st (setCe idx c t st) := ⟨rfl, fun _ => rfl, rfl, rfl⟩

theorem resetEntry_same (idx : BankIdx) (st : MemState δ) :
    SameMap (setEntry idx .dummy st) (resetEntry idx st) := setCe_same _ _ _ _

/-- A loop that redirects one entry after another, whatever else a pass does beside the map. -/
theorem painted_of_loop {start : BankIdx} {ref : BankRef} {body : Nat → MemState δ → MemState δ}
    {n : Nat} (hn : n ≤ 2 ^ 16)
    (hbody : ∀ i t, SameMap (setEntry (start + BitVec.ofNat 16 i) ref t) (body i t))
    (st : MemState δ) : Painted (Loop.Arc start n) ref st (Loop.upto body n st) := by
  have hbanks : ∀ j, (Loop.upto body n st).banks j =
      if Loop.Arc start n j then ref else st.banks j := by
    refine Loop.writes start MemState.banks ref hn fun i t j => ?_
    rw [(hbody i t).banks, setEntry_banks]
  refine ⟨fun j hj => ?_, fun j hj => ?_, fun r => ?_, ?_, ?_⟩
  · rw [hbanks, if_pos hj]
  · rw [hbanks, if_neg hj]
  · refine Loop.keeps (fun t : MemState δ => t.view r) fun i t => ?_
    exact ((hbody i t).view r).trans ((setEntry_others _ _ t).1 r)
  · refine Loop.keeps MemState.next fun i t => ?_
    exact (hbody i t).next.trans (setEntry_others _ _ t).2.1
  · refine Loop.keeps MemState.freed fun i t => ?_
    exact (hbody i t).freed.trans (setEntry_others _ _ t).2.2

theorem numBanks_eq (size : Long) :
    numBanks size = (size.toNat + 0xFFFF) % 2 ^ 32 / 2 ^ 16 := by
  unfold numBanks
  rw [BitVec.toNat_ushiftRight, BitVec.toNat_add, Nat.shiftRight_eq_div_pow]
  rfl

theorem numBanks_lt (size : Long) : numBanks size < 2 ^ 16 := by
  rw [numBanks_eq]; omega

/-- The banks the loops of a call on `size` bytes at `startAddr` walk over. -/
def Covered (startAddr size : Long) : BankIdx → Prop :=
  Loop.Arc (startBank startAddr) (numBanks size)

/-! ## Specifications -/

/-- The map after the first assignments of `memory_init`, to the three static banks. -/
def initBanks (st : MemState δ) : MemState δ :=
  { st with
    dummyBank := { Addrbank.zeroed .dummy abflagNone with
      jitReadFlag := sRead, jitWriteFlag := sWrite }
    musashiBridgeBank := .zeroed .musashi abflagNone
    testDeviceBank := .zeroed .testdev abflagIo }

theorem memoryInit_resets (st : MemState δ) :
    Painted (Loop.Arc 0#16 memoryBanks) .dummy (initBanks st) (memoryInit st) := by
  refine painted_of_loop memoryBanks_eq.le (fun i u => ?_) (initBanks st)
  rw [BitVec.zero_add]
  exact resetEntry_same _ u

theorem memoryInit_painted (st : MemState δ) :
    (∀ j, (memoryInit st).banks j = .dummy) ∧ (∀ id, (memoryInit st).Live id ↔ st.Live id) ∧
      (memoryInit st).next = st.next ∧ (memoryInit st).freed = st.freed := by
  have h := memoryInit_resets st
  refine ⟨fun j => ?_, h.live, h.next, h.freed⟩
  apply h.inside
  unfold Loop.Arc
  rw [memoryBanks_eq]
  exact (j - 0).isLt

section Map

variable (startAddr size : Long) (hostPtr : HostPtr) (flags : Long) (device : δ)
  (st : MemState δ)

theorem memoryMapPtr_ret (callocOk : Bool) :
    (memoryMapPtr callocOk startAddr size hostPtr flags st).1 = if callocOk then 0 else -1 := by
  unfold memoryMapPtr; cases callocOk <;> rfl

theorem memoryMapPtr_painted :
    Painted (Covered startAddr size) (.region st.next)
      (st.alloc (ramBank startAddr size hostPtr flags))
      (memoryMapPtr true startAddr size hostPtr flags st).2 :=
  (painted_of_loop (numBanks_lt size).le (fun _ _ => setCe_same _ _ _ _) _).same
    (memoryJitSyncAll_same _)

theorem memoryMapCustom_painted :
    Painted (Covered startAddr size) (.region st.next)
      (st.alloc (customBank startAddr device))
      (memoryMapCustom true startAddr size device st).2 :=
  (painted_of_loop (numBanks_lt size).le (fun _ _ => .refl _) _).same (memoryJitSyncAll_same _)

end Map

theorem refers_iff (st : MemState δ) (ref : BankRef) :
    st.refers ref = true ↔ ∃ j, st.banks j = ref := by
  have h : st.refers ref = true ↔
      ∃ i < memoryBanks, st.banks (BitVec.ofNat 16 i) = ref := by
    refine Loop.rule
      (fun n found => found = true ↔ ∃ i < n, st.banks (BitVec.ofNat 16 i) = ref) (by simp) ?_
    intro i found _ ih
    rw [Bool.or_eq_true, ih, beq_iff_eq]
    constructor
    · rintro (⟨k, hk, he⟩ | he)
      · exact ⟨k, by omega, he⟩
      · exact ⟨i, by omega, he⟩
    · rintro ⟨k, hk, he⟩
      by_cases hki : k = i
      · subst hki; exact .inr he
      · exact .inl ⟨k, by omega, he⟩
  rw [h]
  constructor
  · rintro ⟨i, -, he⟩
    exact ⟨_, he⟩
  · rintro ⟨j, he⟩
    refine ⟨j.toNat, by rw [memoryBanks_eq]; exact j.isLt, ?_⟩
    rwa [BitVec.ofNat_toNat, BitVec.setWidth_eq]

/-- What `memory_unmap` does: it resets its arc to the dummy bank, and frees the region it found
at the first bank of it if no entry points there any more. -/
theorem memoryUnmap_cases (startAddr size : Long) (st : MemState δ) :
    ∃ t, Painted (Covered startAddr size) .dummy st t ∧
      ((∃ id, 0 < numBanks size ∧ st.banks (startBank startAddr) = .region id ∧
          (∀ j, t.banks j ≠ .region id) ∧ SameMap (t.free id) (memoryUnmap startAddr size st)) ∨
        ((∀ id, 0 < numBanks size → st.banks (startBank startAddr) = .region id →
            ∃ j, t.banks j = .region id) ∧ SameMap t (memoryUnmap startAddr size st))) := by
  have hp : Painted (Covered startAddr size) .dummy st _ :=
    painted_of_loop (numBanks_lt size).le (fun i t => resetEntry_same _ t) st
  refine ⟨_, hp, ?_⟩
  unfold memoryUnmap
  by_cases hn : 0 < numBanks size
  · simp only [hn, if_true]
    cases hb : st.banks (startBank startAddr) with
    | region id =>
      dsimp only
      split
      · next hr =>
        refine .inr ⟨fun id' _ he => ?_, memoryJitSyncAll_same _⟩
        cases he
        exact (refers_iff _ _).mp hr
      · next hr =>
        refine .inl ⟨id, trivial, rfl, fun j hj => ?_, memoryJitSyncAll_same _⟩
        exact hr ((refers_iff _ _).mpr ⟨j, hj⟩)
    | _ => exact .inr ⟨fun _ _ he => (nomatch he), memoryJitSyncAll_same _⟩
  · simp only [hn, if_false]
    exact .inr ⟨fun _ h => absurd h (by simp), memoryJitSyncAll_same _⟩

end UaeCpu
