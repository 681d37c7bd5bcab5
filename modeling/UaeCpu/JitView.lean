import UaeCpu.Regions

/-!
# UaeCpu.JitView

The tables translated code reads: `baseaddr[]`, the two access flags of each bank and
`jit_n_addr_bank_unsafe`. Every call that redirects an entry brings the first three up to date;
the last is only recomputed by `memory_jit_sync_all`, which `memory_init`, `memory_uninit` and
`map_banks` do not call.

* `SyncedAt`        — the tables of one entry are up to date.
* `JitInv`          — what every call keeps: all entries are.
* `jit_in_sync_iff` — the runs in which the last table is up to date too.
-/

namespace UaeCpu

open Trans.Calls

variable {δ : Type}

/-! ## Calls -/

def uaeHostSetJitMemoryBase (base : HostPtr) (st : MemState δ) : MemState δ :=
  if st.natmemOffset ≠ base then memoryJitSyncAll { st with natmemOffset := base } else st

/-- The part of `uae_host_configure_jit` that concerns the map: `canbang = direct_memory`. -/
def uaeHostConfigureJit (directMemory : Bool) (st : MemState δ) : MemState δ :=
  memoryJitSyncAll { st with canbang := directMemory }

/-- A call that reaches the tables. `newBank` is a bank the caller of `map_banks` fills in
itself. -/
inductive ViewOp (δ : Type) where
  | mem (op : MemOp δ)
  | newBank (b : Addrbank δ)
  | mapBanks (bank : BankRef) (start size : Int)
  | setJitMemoryBase (base : HostPtr)
  | configureJit (directMemory : Bool)

def ViewOp.run : ViewOp δ → MemState δ → MemState δ
  | .mem op, st => op.run st
  | .newBank b, st => st.alloc b
  | .mapBanks bank start size, st => UaeCpu.mapBanks bank start size st
  | .setJitMemoryBase base, st => uaeHostSetJitMemoryBase base st
  | .configureJit directMemory, st => uaeHostConfigureJit directMemory st

/-- `map_banks` is given a pointer to a bank that exists. -/
def ViewOp.Allowed : ViewOp δ → MemState δ → Prop
  | .mapBanks bank _ _, st => st.Valid bank
  | _, _ => True

/-! ## One entry -/

/-- `baseaddr[i]` and the flags of the bank of entry `i` are what `jit_sync_baseaddr` gives. -/
def SyncedAt (st : MemState δ) (i : BankIdx) : Prop :=
  ∀ b, st.deref (st.banks i) = some b →
    st.baseaddr i = b.jitBase (st.banks i) ∧ b.synced st.canbang st.natmemOffset = b

/-- What `jit_sync_baseaddr` leaves, in terms of what it found. -/
theorem jitSyncBaseaddr_spec (idx : BankIdx) (st : MemState δ) :
    (∀ r, (jitSyncBaseaddr idx st).deref r = if r = st.banks idx then
      (st.deref r).map (fun b => b.synced st.canbang st.natmemOffset) else st.deref r) ∧
    (∀ i, i ≠ idx → (jitSyncBaseaddr idx st).baseaddr i = st.baseaddr i) ∧
    (∀ b, st.deref (st.banks idx) = some b →
      (jitSyncBaseaddr idx st).baseaddr idx = b.jitBase (st.banks idx)) ∧
    (jitSyncBaseaddr idx st).canbang = st.canbang ∧
    (jitSyncBaseaddr idx st).natmemOffset = st.natmemOffset ∧
    (jitSyncBaseaddr idx st).nAddrBankUnsafe = st.nAddrBankUnsafe := by
  cases hb : st.deref (st.banks idx) with
  | none =>
    rw [jitSyncBaseaddr_none hb]
    refine ⟨fun r => ?_, fun i hi => Function.update_of_ne hi _ _, fun b h => (nomatch h),
      rfl, rfl, rfl⟩
    show st.deref r = _
    split
    · next hr => rw [hr, hb]; rfl
    · rfl
  | some b =>
    rw [jitSyncBaseaddr_some hb]
    let t := { st with baseaddr := Function.update st.baseaddr idx (b.jitBase (st.banks idx)) }
    obtain ⟨-, -, -, hba, hc, hn, hu⟩ :=
      store_keeps t (st.banks idx) (b.synced st.canbang st.natmemOffset)
    refine ⟨fun r => ?_, fun i hi => ?_, fun b' h => ?_, hc, hn, hu⟩
    · rw [deref_store (by show (st.deref _).isSome; rw [hb]; rfl)]
      split
      · next hr => rw [hr, hb]; rfl
      · rfl
    · rw [hba]
      exact Function.update_of_ne hi _ _
    · cases h
      rw [hba]
      exact Function.update_self _ _ _

theorem jitSyncBaseaddr_at (idx : BankIdx) (st : MemState δ) :
    SyncedAt (jitSyncBaseaddr idx st) idx := by
  obtain ⟨hd, -, hbase, hc, hn, -⟩ := jitSyncBaseaddr_spec idx st
  intro b hb
  rw [(jitSyncBaseaddr_same idx st).banks, hd, if_pos rfl] at hb
  obtain ⟨b', hb', rfl⟩ := Option.map_eq_some_iff.mp hb
  rw [(jitSyncBaseaddr_same idx st).banks, hbase b' hb', hc, hn]
  exact ⟨rfl, rfl⟩

theorem jitSyncBaseaddr_keeps {idx i : BankIdx} {st : MemState δ} (hi : i ≠ idx)
    (h : SyncedAt st i) : SyncedAt (jitSyncBaseaddr idx st) i := by
  obtain ⟨hd, hba, -, hc, hn, -⟩ := jitSyncBaseaddr_spec idx st
  intro b hb
  rw [(jitSyncBaseaddr_same idx st).banks, hd] at hb
  rw [(jitSyncBaseaddr_same idx st).banks, hba i hi, hc, hn]
  split at hb
  · obtain ⟨b', hb', rfl⟩ := Option.map_eq_some_iff.mp hb
    exact ⟨(h b' hb').1, rfl⟩
  · exact h b hb

theorem setEntry_at (idx : BankIdx) (ref : BankRef) (st : MemState δ) :
    SyncedAt (setEntry idx ref st) idx := jitSyncBaseaddr_at idx _

theorem setEntry_keeps {idx i : BankIdx} {st : MemState δ} (ref : BankRef) (hi : i ≠ idx)
    (h : SyncedAt st i) : SyncedAt (setEntry idx ref st) i := by
  refine jitSyncBaseaddr_keeps hi fun b hb => ?_
  have hbank : Function.update st.banks idx ref i = st.banks i := Function.update_of_ne hi _ _
  simp only [hbank] at hb ⊢
  exact h b hb

/-- Redirecting an entry keeps all of them synchronised. -/
theorem setEntry_synced {st : MemState δ} (idx : BankIdx) (ref : BankRef)
    (h : ∀ i, SyncedAt st i) (i : BankIdx) : SyncedAt (setEntry idx ref st) i := by
  by_cases hi : i = idx
  · subst hi
    exact setEntry_at i ref st
  · exact setEntry_keeps ref hi (h i)

/-! ## All entries -/

/-- Every entry below `n` is synchronised. -/
def SyncedBelow (n : Nat) (st : MemState δ) : Prop := ∀ i : BankIdx, i.toNat < n → SyncedAt st i

theorem SyncedBelow.all {st : MemState δ} (h : SyncedBelow memoryBanks st) (i : BankIdx) :
    SyncedAt st i := h i (by rw [memoryBanks_eq]; exact i.isLt)

/-- A pass at entry `n` that synchronises it and keeps those before. -/
theorem SyncedBelow.succ {n : Nat} {st st' : MemState δ} (h : SyncedBelow n st)
    (hself : SyncedAt st' (BitVec.ofNat 16 n))
    (hkeep : ∀ i, i ≠ BitVec.ofNat 16 n → SyncedAt st i → SyncedAt st' i) :
    SyncedBelow (n + 1) st' := by
  intro i hi
  by_cases he : i = BitVec.ofNat 16 n
  · subst he; exact hself
  · refine hkeep i he (h i ?_)
    have : i.toNat ≠ n := fun h => he (by rw [← h, ofNat_toNat_bank])
    omega

/-- A bank of a map with `ABFLAG_JIT_UNSAFE_BURST`. -/
def MemState.isBurst (st : MemState δ) (ref : BankRef) : Bool :=
  (st.view ref).any Addrbank.isBurst

theorem burstAt_eq (st : MemState δ) (i : BankIdx) : st.burstAt i = st.isBurst (st.banks i) := by
  unfold MemState.burstAt MemState.isBurst MemState.view
  cases st.deref (st.banks i) <;> rfl

theorem SameMap.isBurst {st st' : MemState δ} (h : SameMap st st') (ref : BankRef) :
    st'.isBurst ref = st.isBurst ref := by
  unfold MemState.isBurst
  rw [h.view]

theorem SameMap.burstAt {st st' : MemState δ} (h : SameMap st st') (i : BankIdx) :
    st'.burstAt i = st.burstAt i := by
  rw [burstAt_eq, burstAt_eq, h.isBurst, h.banks]

/-- The state and the burst flag of `memory_jit_sync_all` before pass `n`. -/
structure SyncedTo (st : MemState δ) (n : Nat) (t : MemState δ × Bool) : Prop where
  synced : SyncedBelow n t.1
  canbang : t.1.canbang = st.canbang
  burst : t.2 = true ↔ ∃ i < n, st.burstAt (BitVec.ofNat 16 i) = true
  same : SameMap st t.1

theorem SyncedTo.pass {st : MemState δ} {n : Nat} {t : MemState δ × Bool} (h : SyncedTo st n t) :
    SyncedTo st (n + 1) (jitSyncPass n t) := by
  have hsame := h.same.trans (jitSyncBaseaddr_same (BitVec.ofNat 16 n) t.1)
  refine ⟨h.synced.succ (jitSyncBaseaddr_at _ _) fun i hi h => jitSyncBaseaddr_keeps hi h,
    (jitSyncBaseaddr_spec _ _).2.2.2.1.trans h.canbang, ?_, hsame⟩
  show (t.2 || _) = true ↔ _
  rw [Bool.or_eq_true, h.burst, hsame.burstAt]
  constructor
  · rintro (⟨k, hk, h⟩ | h)
    · exact ⟨k, by omega, h⟩
    · exact ⟨n, by omega, h⟩
  · rintro ⟨k, hk, hb⟩
    by_cases hkn : k = n
    · subst hkn; exact .inr hb
    · exact .inl ⟨k, by omega, hb⟩

theorem syncedTo_all (st : MemState δ) :
    SyncedTo st memoryBanks (Loop.upto jitSyncPass memoryBanks (st, false)) :=
  Loop.rule (SyncedTo st)
    ⟨fun _ hi => absurd hi (Nat.not_lt_zero _), rfl, by simp, .refl st⟩
    fun _ _ _ h => h.pass

theorem SyncedTo.noteBurst {st : MemState δ} {t : MemState δ × Bool}
    (h : SyncedTo st memoryBanks t) :
    (∀ i, SyncedAt (noteBurst t) i) ∧ (noteBurst t).canbang = st.canbang ∧
    ((noteBurst t).nAddrBankUnsafe = true ↔ st.canbang = true ∧ ∃ i, st.burstAt i = true) := by
  refine ⟨h.synced.all, h.canbang, ?_⟩
  show (t.1.canbang && t.2) = true ↔ _
  rw [Bool.and_eq_true, h.canbang, h.burst]
  constructor
  · rintro ⟨hc, i, -, hi⟩
    exact ⟨hc, _, hi⟩
  · rintro ⟨hc, i, hi⟩
    refine ⟨hc, i.toNat, by rw [memoryBanks_eq]; exact i.isLt, ?_⟩
    rwa [ofNat_toNat_bank]

/-- What `memory_jit_sync_all` leaves, from any state: every table is up to date. -/
theorem memoryJitSyncAll_spec (st : MemState δ) :
    (∀ i, SyncedAt (memoryJitSyncAll st) i) ∧
    (memoryJitSyncAll st).canbang = st.canbang ∧
    ((memoryJitSyncAll st).nAddrBankUnsafe = true ↔
      st.canbang = true ∧ ∃ i, st.burstAt i = true) := (syncedTo_all st).noteBurst

theorem setCe_at {idx i : BankIdx} {c : Bool} {t : CeMembank} {st : MemState δ}
    (h : SyncedAt st i) : SyncedAt (setCe idx c t st) i := h

theorem memoryInit_synced (st : MemState δ) (i : BankIdx) : SyncedAt (memoryInit st) i := by
  have h : SyncedBelow memoryBanks (memoryInit st) := by
    refine Loop.rule SyncedBelow (fun i hi => absurd hi (Nat.not_lt_zero _)) ?_
    intro n t _ ht
    exact ht.succ (setCe_at (setEntry_at _ _ _)) fun i hi h => setCe_at (setEntry_keeps _ hi h)
  exact h.all i

theorem setEntry_keepsFlag (idx : BankIdx) (ref : BankRef) (st : MemState δ) :
    (setEntry idx ref st).canbang = st.canbang ∧
      (setEntry idx ref st).nAddrBankUnsafe = st.nAddrBankUnsafe :=
  ⟨(jitSyncBaseaddr_spec idx _).2.2.2.1, (jitSyncBaseaddr_spec idx _).2.2.2.2.2⟩

/-- Neither `canbang` nor `jit_n_addr_bank_unsafe` is touched. -/
def SameUnsafe (st st' : MemState δ) : Prop :=
  st'.canbang = st.canbang ∧ st'.nAddrBankUnsafe = st.nAddrBankUnsafe

theorem SameUnsafe.trans {st st' st'' : MemState δ} (h : SameUnsafe st st')
    (h' : SameUnsafe st' st'') : SameUnsafe st st'' := ⟨h'.1.trans h.1, h'.2.trans h.2⟩

theorem SameUnsafe.loop {body : Nat → MemState δ → MemState δ}
    (h : ∀ i t, SameUnsafe t (body i t)) (n : Nat) (st : MemState δ) :
    SameUnsafe st (Loop.upto body n st) :=
  Loop.inv (SameUnsafe st) ⟨rfl, rfl⟩ fun i t _ ht => ht.trans (h i t)

theorem memoryInit_keepsFlag (st : MemState δ) : SameUnsafe st (memoryInit st) := by
  have hstep : ∀ (i : Nat) (t : MemState δ), SameUnsafe t (resetEntry (BitVec.ofNat 16 i) t) :=
    fun i t => setEntry_keepsFlag (BitVec.ofNat 16 i) .dummy t
  exact SameUnsafe.loop hstep memoryBanks { st with
    dummyBank := { Addrbank.zeroed .dummy abflagNone with
      jitReadFlag := sRead, jitWriteFlag := sWrite }
    musashiBridgeBank := .zeroed .musashi abflagNone
    testDeviceBank := .zeroed .testdev abflagIo }

theorem dropFrom_keepsFlag (i : Nat) (ref : BankRef) (st : MemState δ) :
    SameUnsafe st (dropFrom i ref st) := by
  refine SameUnsafe.loop (fun k t => ?_) _ st
  dsimp only
  split
  · exact setEntry_keepsFlag _ _ _
  · exact ⟨rfl, rfl⟩

theorem uninitPass_keepsFlag (i : Nat) (st : MemState δ) : SameUnsafe st (uninitPass i st) := by
  unfold uninitPass
  cases st.banks (BitVec.ofNat 16 i) with
  | region id =>
    have hfree : SameUnsafe st ((dropFrom (i + 1) (.region id) st).free id) :=
      (dropFrom_keepsFlag (i + 1) (.region id) st).trans ⟨rfl, rfl⟩
    exact hfree.trans (setEntry_keepsFlag _ _ _)
  | _ => exact setEntry_keepsFlag _ _ _

theorem memoryUninit_keepsFlag (st : MemState δ) : SameUnsafe st (memoryUninit st) :=
  SameUnsafe.loop uninitPass_keepsFlag memoryBanks st

theorem mapBanks_keepsFlag (bank : BankRef) (start size : Int) (st : MemState δ) :
    SameUnsafe st (mapBanks bank start size st) :=
  SameUnsafe.loop (fun _ _ => setEntry_keepsFlag _ _ _) _ st

/-- A free does not concern an entry that points to a static bank. -/
theorem free_at {st : MemState δ} {i : BankIdx} (id : Nat) (hd : st.banks i = .dummy)
    (h : SyncedAt st i) : SyncedAt (st.free id) i := by
  intro b hb
  have hi : (st.free id).banks i = .dummy := hd
  rw [hi] at hb ⊢
  have := h b (by rw [hd]; exact hb)
  rw [hd] at this
  exact this

/-- The entries the walk of `memory_uninit` has passed. -/
def SweptBelow (n : Nat) (st : MemState δ) : Prop :=
  ∀ i : BankIdx, i.toNat < n → st.banks i = .dummy ∧ SyncedAt st i

theorem sweptBelow_setEntry {n : Nat} {st : MemState δ} (idx : BankIdx) (h : SweptBelow n st) :
    SweptBelow n (setEntry idx .dummy st) := by
  intro i hi
  obtain ⟨hd, hs⟩ := h i hi
  rw [setEntry_banks]
  by_cases he : i = idx
  · subst he
    exact ⟨if_pos rfl, setEntry_at _ _ _⟩
  · exact ⟨by rw [if_neg he, hd], setEntry_keeps _ he hs⟩

theorem sweptBelow_pass {n : Nat} {st : MemState δ} (h : SweptBelow n st) :
    SweptBelow (n + 1) (uninitPass n st) := by
  -- whatever was done for the region of the entry, the entries before it are still done
  have hlast : ∀ t : MemState δ, SweptBelow n t →
      SweptBelow (n + 1) (setEntry (BitVec.ofNat 16 n) .dummy t) := by
    intro t ht i hi
    by_cases he : i = BitVec.ofNat 16 n
    · subst he
      exact ⟨by rw [setEntry_banks, if_pos rfl], setEntry_at _ _ _⟩
    · refine sweptBelow_setEntry _ ht i ?_
      have : i.toNat ≠ n := fun h => he (by rw [← h, ofNat_toNat_bank])
      omega
  unfold uninitPass
  cases st.banks (BitVec.ofNat 16 n) with
  | region id =>
    refine hlast _ fun i hi => ?_
    have hdrop : SweptBelow n (dropFrom (n + 1) (.region id) st) := by
      refine Loop.inv (SweptBelow n) h fun k t _ ht => ?_
      dsimp only
      split
      · exact sweptBelow_setEntry _ ht
      · exact ht
    obtain ⟨hd, hs⟩ := hdrop i hi
    exact ⟨hd, free_at id hd hs⟩
  | _ => exact hlast st h

theorem memoryUninit_synced (st : MemState δ) (i : BankIdx) : SyncedAt (memoryUninit st) i := by
  have h : SweptBelow memoryBanks (memoryUninit st) :=
    Loop.rule SweptBelow (fun i hi => absurd hi (Nat.not_lt_zero _))
      fun _ _ _ ht => sweptBelow_pass ht
  exact (h i (by rw [memoryBanks_eq]; exact i.isLt)).2

/-! ## What every call keeps -/

/-- All entries are synchronised, and the dummy bank is no burst region. -/
structure JitInv (st : MemState δ) : Prop where
  sound : Sound st
  synced : ∀ i, SyncedAt st i
  dummy : st.isBurst .dummy = false

/-- The entries `map_banks` redirects. -/
def InBanks (start size : Int) (j : BankIdx) : Prop :=
  ∃ i < size.toNat, j = BitVec.ofInt 16 (start + i)

theorem mapBanks_painted (bank : BankRef) (start size : Int) (st : MemState δ) :
    Painted (InBanks start size) bank st (mapBanks bank start size st) := by
  refine Loop.rule (fun n t => Painted (fun j => ∃ i < n, j = BitVec.ofInt 16 (start + (i : Nat)))
    bank st t) ⟨fun _ ⟨_, h, _⟩ => absurd h (Nat.not_lt_zero _), fun _ _ => rfl, fun _ => rfl,
      rfl, rfl⟩ ?_
  intro n t _ ht
  have hp := painted_setEntry (BitVec.ofInt 16 (start + (n : Nat))) bank t
  refine ⟨fun j hj => ?_, fun j hj => ?_, fun r => (hp.view r).trans (ht.view r),
    hp.next.trans ht.next, hp.freed.trans ht.freed⟩
  · by_cases he : j = BitVec.ofInt 16 (start + (n : Nat))
    · exact hp.inside j he
    · rw [hp.outside j he]
      obtain ⟨i, hi, hji⟩ := hj
      refine ht.inside j ⟨i, ?_, hji⟩
      have : i ≠ n := by
        rintro rfl
        exact he hji
      omega
  · have he : j ≠ BitVec.ofInt 16 (start + (n : Nat)) := fun he => hj ⟨n, by omega, he⟩
    rw [hp.outside j he]
    exact ht.outside j fun ⟨i, hi, hji⟩ => hj ⟨i, by omega, hji⟩

theorem JitInv.initial : JitInv (MemState.initial : MemState δ) where
  sound := Sound.initial
  synced := fun _ _ h => by cases h
  dummy := by
    have hview : (MemState.initial : MemState δ).view .dummy = some (.zeroed .dummy 0) := rfl
    unfold MemState.isBurst
    rw [hview, Option.any_some]
    exact (by decide : hasFlag 0 abflagJitUnsafeBurst = false)

/-- A new bank is at none of the entries. -/
theorem alloc_at {st : MemState δ} (h : Sound st) (b : Addrbank δ) {i : BankIdx}
    (hs : SyncedAt st i) : SyncedAt (st.alloc b) i := by
  have hd : (st.alloc b).deref (st.banks i) = st.deref (st.banks i) := by
    have hfresh := h.fresh i
    revert hfresh
    cases st.banks i with
    | region id =>
      intro hne
      exact Function.update_of_ne (fun he => hne (by rw [he])) _ _
    | _ => exact fun _ => rfl
  intro b' hb'
  exact hs b' (hd.symm.trans hb')

theorem isBurst_free_dummy (st : MemState δ) (id : Nat) :
    (st.free id).isBurst .dummy = st.isBurst .dummy := rfl

theorem Painted.isBurst {S : BankIdx → Prop} {ref : BankRef} {st st' : MemState δ}
    (h : Painted S ref st st') (r : BankRef) : st'.isBurst r = st.isBurst r := by
  unfold MemState.isBurst
  rw [h.view]

theorem memoryInit_dummy (st : MemState δ) : (memoryInit st).isBurst .dummy = false := by
  have hview : (memoryInit st).view .dummy = some (Addrbank.zeroed .dummy abflagNone) := by
    refine Loop.inv (fun t : MemState δ => t.view .dummy = some (Addrbank.zeroed .dummy abflagNone))
      rfl fun i t _ ht => ?_
    rw [(resetEntry_same _ t).view, (setEntry_others _ _ t).1]
    exact ht
  unfold MemState.isBurst
  rw [hview, Option.any_some]
  exact (by decide : hasFlag abflagNone abflagJitUnsafeBurst = false)

theorem uninitPass_view_dummy (i : Nat) (st : MemState δ) :
    (uninitPass i st).view .dummy = st.view .dummy := by
  unfold uninitPass
  cases st.banks (BitVec.ofNat 16 i) with
  | region id =>
    rw [(setEntry_others _ _ _).1, view_free]
    exact (dropFrom_painted (i + 1) (.region id) st).view .dummy
  | _ => exact (setEntry_others _ _ _).1 .dummy

theorem memoryUninit_dummy (st : MemState δ) :
    (memoryUninit st).isBurst .dummy = st.isBurst .dummy := by
  have hview : (memoryUninit st).view .dummy = st.view .dummy :=
    Loop.keeps (fun t : MemState δ => t.view .dummy) uninitPass_view_dummy
  unfold MemState.isBurst
  rw [hview]

theorem memoryUnmap_dummy (startAddr size : Long) (st : MemState δ) :
    (memoryUnmap startAddr size st).isBurst .dummy = st.isBurst .dummy := by
  obtain ⟨t, hp, ⟨id, -, -, -, hs⟩ | ⟨-, hs⟩⟩ := memoryUnmap_cases startAddr size st
  · rw [hs.isBurst, isBurst_free_dummy, hp.isBurst]
  · rw [hs.isBurst, hp.isBurst]

theorem memOp_dummy {st : MemState δ} (h : st.isBurst .dummy = false) (op : MemOp δ) :
    (op.run st).isBurst .dummy = false := by
  cases op with
  | init => exact memoryInit_dummy st
  | mapPtr ok startAddr size hostPtr flags =>
    cases ok with
    | false => exact h
    | true => exact ((memoryMapPtr_painted startAddr size hostPtr flags st).isBurst _).trans h
  | mapCustom ok startAddr size device =>
    cases ok with
    | false => exact h
    | true => exact ((memoryMapCustom_painted startAddr size device st).isBurst _).trans h
  | unmap startAddr size => exact (memoryUnmap_dummy startAddr size st).trans h
  | uninit => exact (memoryUninit_dummy st).trans h

theorem memOp_synced {st : MemState δ} (h : ∀ i, SyncedAt st i) (op : MemOp δ) (i : BankIdx) :
    SyncedAt (op.run st) i := by
  cases op with
  | init => exact memoryInit_synced st i
  | mapPtr ok startAddr size hostPtr flags =>
    cases ok with
    | false => exact h i
    | true => exact (memoryJitSyncAll_spec _).1 i
  | mapCustom ok startAddr size device =>
    cases ok with
    | false => exact h i
    | true => exact (memoryJitSyncAll_spec _).1 i
  | unmap startAddr size => exact (memoryJitSyncAll_spec _).1 i
  | uninit => exact memoryUninit_synced st i

/-- A change of a setting, followed by `memory_jit_sync_all`. -/
theorem JitInv.syncAll {st t : MemState δ} (h : JitInv st) (hs : SameMap st t) :
    JitInv (memoryJitSyncAll t) where
  sound := h.sound.same (hs.trans (memoryJitSyncAll_same t))
  synced := (memoryJitSyncAll_spec t).1
  dummy := by rw [(hs.trans (memoryJitSyncAll_same t)).isBurst]; exact h.dummy

theorem JitInv.run {st : MemState δ} (h : JitInv st) (op : ViewOp δ) (hop : op.Allowed st) :
    JitInv (op.run st) := by
  cases op with
  | mem op => exact ⟨h.sound.run op, memOp_synced h.synced op, memOp_dummy h.dummy op⟩
  | newBank b => exact ⟨h.sound.alloc b, fun i => alloc_at h.sound b (h.synced i), h.dummy⟩
  | mapBanks bank start size =>
    have hp := mapBanks_painted bank start size st
    refine ⟨h.sound.painted hp hop, ?_, (hp.isBurst _).trans h.dummy⟩
    exact Loop.inv (fun t : MemState δ => ∀ i, SyncedAt t i) h.synced
      fun _ _ _ ht => setEntry_synced _ _ ht
  | setJitMemoryBase base =>
    show JitInv (uaeHostSetJitMemoryBase base st)
    unfold uaeHostSetJitMemoryBase
    split
    · exact h.syncAll ⟨rfl, fun _ => rfl, rfl, rfl⟩
    · exact h
  | configureJit directMemory => exact h.syncAll ⟨rfl, fun _ => rfl, rfl, rfl⟩

/-! ## The tables say what the map is -/

/-- `UAE_MEM_JIT_DIRECT` memory at `natmem_offset + start`, with direct access on. -/
def DirectBank (st : MemState δ) (b : Addrbank δ) : Prop :=
  st.canbang = true ∧ st.natmemOffset ≠ 0 ∧ hasFlag b.hostFlags uaeMemJitDirect = true ∧
    b.baseaddr = st.natmemOffset + b.start.toNat

/-- Every table says what the map is. -/
structure InSync (st : MemState δ) : Prop where
  base : ∀ i b, st.deref (st.banks i) = some b → st.baseaddr i =
    if b.baseaddr ≠ 0 then .host ((b.baseaddr : Int) - b.start.toNat) else .poison (st.banks i)
  read : ∀ i b, st.deref (st.banks i) = some b → (b.jitReadFlag = 0 ↔ DirectBank st b)
  write : ∀ i b, st.deref (st.banks i) = some b →
    (b.jitWriteFlag = 0 ↔ DirectBank st b ∧ b.isRom = false)
  burst : st.nAddrBankUnsafe = true ↔ st.canbang = true ∧ ∃ i, st.burstAt i = true

theorem direct_iff (st : MemState δ) (b : Addrbank δ) :
    b.direct st.canbang st.natmemOffset = true ↔ DirectBank st b := by
  unfold Addrbank.direct DirectBank
  simp only [Bool.and_eq_true, bne_iff_ne, beq_iff_eq]
  constructor
  · rintro ⟨⟨⟨⟨hc, hn⟩, -⟩, hf⟩, hb⟩
    exact ⟨hc, hn, hf, hb⟩
  · rintro ⟨hc, hn, hf, hb⟩
    refine ⟨⟨⟨⟨hc, hn⟩, fun h0 => hn ?_⟩, hf⟩, hb⟩
    rw [h0] at hb
    exact (Nat.add_eq_zero_iff.mp hb.symm).1

theorem jitReadFlag_eq_zero_iff {st : MemState δ} {b : Addrbank δ}
    (h : b.synced st.canbang st.natmemOffset = b) : b.jitReadFlag = 0 ↔ DirectBank st b := by
  rw [← direct_iff, ← h]
  show (if b.direct st.canbang st.natmemOffset then 0 else sRead) = 0 ↔
    b.direct st.canbang st.natmemOffset = true
  cases b.direct st.canbang st.natmemOffset <;> decide

theorem jitWriteFlag_eq_zero_iff {st : MemState δ} {b : Addrbank δ}
    (h : b.synced st.canbang st.natmemOffset = b) :
    b.jitWriteFlag = 0 ↔ DirectBank st b ∧ b.isRom = false := by
  rw [← direct_iff, ← h]
  show (if b.direct st.canbang st.natmemOffset && !b.isRom then 0 else sWrite) = 0 ↔
    b.direct st.canbang st.natmemOffset = true ∧ b.isRom = false
  cases b.direct st.canbang st.natmemOffset <;> cases b.isRom <;> decide

/-- All that can be wrong is `jit_n_addr_bank_unsafe`. -/
theorem JitInv.inSync_iff {st : MemState δ} (h : JitInv st) : InSync st ↔
    (st.nAddrBankUnsafe = true ↔ st.canbang = true ∧ ∃ i, st.burstAt i = true) := by
  constructor
  · exact fun h => h.burst
  · intro hb
    exact ⟨fun i b hd => (h.synced i b hd).1,
      fun i b hd => jitReadFlag_eq_zero_iff (h.synced i b hd).2,
      fun i b hd => jitWriteFlag_eq_zero_iff (h.synced i b hd).2, hb⟩

/-- The calls that leave out `memory_jit_sync_all` must not change whether a burst region is
mapped while direct access is on. -/
def ViewOp.KeepsBurst : ViewOp δ → MemState δ → Prop
  | .mem .init, st | .mem .uninit, st => st.canbang = true → ∀ i, st.burstAt i = false
  | .mapBanks bank start size, st => st.canbang = true →
    ((∃ i, st.burstAt i = true) ↔ (0 < size ∧ st.isBurst bank = true) ∨
      ∃ i, ¬ InBanks start size i ∧ st.burstAt i = true)
  | _, _ => True

/-! ## One call -/

/-- The calls that end in `memory_jit_sync_all` bring everything up to date. -/
theorem inSync_syncAll {t : MemState δ} (h : JitInv (memoryJitSyncAll t)) :
    InSync (memoryJitSyncAll t) := by
  rw [h.inSync_iff]
  obtain ⟨-, hc, hu⟩ := memoryJitSyncAll_spec t
  rw [hu, hc]
  simp only [(memoryJitSyncAll_same t).burstAt]

/-- A call that leaves `jit_n_addr_bank_unsafe` alone keeps it right exactly when what it stands
for does not change. -/
theorem inSync_sameUnsafe_iff {st st' : MemState δ} (h' : JitInv st') (hs : InSync st)
    (hu : SameUnsafe st st') : InSync st' ↔ (st.canbang = true →
      ((∃ i, st.burstAt i = true) ↔ ∃ i, st'.burstAt i = true)) := by
  rw [h'.inSync_iff, hu.1, hu.2, hs.burst]
  cases st.canbang with
  | false => simp
  | true => simp

/-- When all entries are the dummy bank no burst region is mapped. -/
theorem burstAt_dummy {st : MemState δ} (h : JitInv st) (hb : ∀ i, st.banks i = .dummy)
    (i : BankIdx) : st.burstAt i = false := by
  rw [burstAt_eq, hb, h.dummy]

theorem inSync_cleared_iff {st st' : MemState δ} (h' : JitInv st') (hs : InSync st)
    (hu : SameUnsafe st st') (hb : ∀ i, st'.banks i = .dummy) :
    InSync st' ↔ (st.canbang = true → ∀ i, st.burstAt i = false) := by
  rw [inSync_sameUnsafe_iff h' hs hu]
  have hnone : ¬ ∃ i, st'.burstAt i = true := by
    rintro ⟨i, hi⟩
    rw [burstAt_dummy h' hb] at hi
    cases hi
  simp only [hnone, iff_false, not_exists, Bool.not_eq_true]

theorem mapBanks_burst_iff (bank : BankRef) (start size : Int) (st : MemState δ) :
    (∃ i, (mapBanks bank start size st).burstAt i = true) ↔
      (0 < size ∧ st.isBurst bank = true) ∨ ∃ i, ¬ InBanks start size i ∧ st.burstAt i = true := by
  have hp := mapBanks_painted bank start size st
  have hin : ∀ i, InBanks start size i →
      (mapBanks bank start size st).burstAt i = st.isBurst bank := by
    intro i hi
    rw [burstAt_eq, hp.inside i hi, hp.isBurst]
  have hout : ∀ i, ¬ InBanks start size i →
      (mapBanks bank start size st).burstAt i = st.burstAt i := by
    intro i hi
    rw [burstAt_eq, hp.outside i hi, hp.isBurst, burstAt_eq]
  constructor
  · rintro ⟨i, hi⟩
    by_cases hmem : InBanks start size i
    · rw [hin i hmem] at hi
      obtain ⟨k, hk, -⟩ := hmem
      exact .inl ⟨by omega, hi⟩
    · rw [hout i hmem] at hi
      exact .inr ⟨i, hmem, hi⟩
  · rintro (⟨hsize, hb⟩ | ⟨i, hmem, hi⟩)
    · have hmem : InBanks start size (BitVec.ofInt 16 (start + (0 : Nat))) :=
        ⟨0, by omega, rfl⟩
      exact ⟨_, (hin _ hmem).trans hb⟩
    · exact ⟨i, (hout i hmem).trans hi⟩

/-- A call made while the tables are right keeps them right exactly when it keeps the burst
regions, as `KeepsBurst` says. -/
theorem run_inSync_iff {st : MemState δ} (h : JitInv st) (hs : InSync st) (op : ViewOp δ)
    (hop : op.Allowed st) : InSync (op.run st) ↔ op.KeepsBurst st := by
  have h' := h.run op hop
  cases op with
  | mem op =>
    cases op with
    | init => exact inSync_cleared_iff h' hs (memoryInit_keepsFlag st) (memoryInit_painted st).1
    | mapPtr ok startAddr size hostPtr flags =>
      cases ok with
      | false => exact ⟨fun _ => trivial, fun _ => hs⟩
      | true => exact ⟨fun _ => trivial, fun _ => inSync_syncAll h'⟩
    | mapCustom ok startAddr size device =>
      cases ok with
      | false => exact ⟨fun _ => trivial, fun _ => hs⟩
      | true => exact ⟨fun _ => trivial, fun _ => inSync_syncAll h'⟩
    | unmap startAddr size => exact ⟨fun _ => trivial, fun _ => inSync_syncAll h'⟩
    | uninit =>
      exact inSync_cleared_iff h' hs (memoryUninit_keepsFlag st) (memoryUninit_banks h.sound)
  | newBank b =>
    refine ⟨fun _ => trivial, fun _ => (inSync_sameUnsafe_iff h' hs ⟨rfl, rfl⟩).mpr fun _ => ?_⟩
    have hb : ∀ i, (st.alloc b).burstAt i = st.burstAt i := by
      intro i
      have hfresh := h.sound.fresh i
      rw [burstAt_eq, burstAt_eq]
      show (st.alloc b).isBurst (st.banks i) = _
      revert hfresh
      unfold MemState.isBurst MemState.view
      cases st.banks i with
      | region id =>
        intro hne
        have : (st.alloc b).deref (.region id) = st.deref (.region id) :=
          Function.update_of_ne (fun he => hne (by rw [he])) _ _
        rw [this]
      | _ => exact fun _ => rfl
    show _ ↔ ∃ i, (st.alloc b).burstAt i = true
    simp only [hb]
  | mapBanks bank start size =>
    refine (inSync_sameUnsafe_iff h' hs (mapBanks_keepsFlag bank start size st)).trans ?_
    show (_ → (_ ↔ ∃ i, (mapBanks bank start size st).burstAt i = true)) ↔ _
    rw [mapBanks_burst_iff]
    rfl
  | setJitMemoryBase base =>
    refine ⟨fun _ => trivial, fun _ => ?_⟩
    revert h'
    show JitInv (uaeHostSetJitMemoryBase base st) → InSync (uaeHostSetJitMemoryBase base st)
    unfold uaeHostSetJitMemoryBase
    split
    · exact inSync_syncAll
    · exact fun _ => hs
  | configureJit directMemory => exact ⟨fun _ => trivial, fun _ => inSync_syncAll h'⟩

/-! ## Runs -/

theorem inSync_initial : InSync (MemState.initial : MemState δ) := by
  rw [JitInv.initial.inSync_iff]
  constructor
  · exact fun h => nomatch h
  · exact fun h => nomatch h.1

/-- The tables of translated code are right throughout a run exactly when none of its calls of
`memory_init`, `memory_uninit` and `map_banks` changes whether a burst region is mapped while
direct access is on. -/
theorem jit_in_sync_iff (ops : List (ViewOp δ))
    (hops : AllMeet ViewOp.run ViewOp.Allowed ops (MemState.initial : MemState δ)) :
    Throughout ViewOp.run InSync ops (MemState.initial : MemState δ) ↔
      AllMeet ViewOp.run ViewOp.KeepsBurst ops (MemState.initial : MemState δ) :=
  throughout_iff (fun op _ hop h => JitInv.run h op hop)
    (fun op _ hop h hs => run_inSync_iff h hs op hop) hops JitInv.initial inSync_initial

theorem jit_in_sync_direct :
    let ops : List (ViewOp Unit) := [.mapBanks .musashi 0 4, .mem .init, .configureJit true,
      .setJitMemoryBase 0x100000, .mem (.mapPtr true 0 0x10000 0x100000 0x31),
      .mem (.unmap 0 0x10000)]
    AllMeet ViewOp.run ViewOp.Allowed ops MemState.initial ∧
      Throughout ViewOp.run InSync ops MemState.initial := by
  intro ops
  have hops : AllMeet ViewOp.run ViewOp.Allowed ops MemState.initial :=
    ⟨trivial, trivial, trivial, trivial, trivial, trivial, trivial⟩
  refine ⟨hops, (jit_in_sync_iff ops hops).mpr ⟨?_, ?_, trivial, trivial, trivial, trivial,
    trivial⟩⟩
  · exact fun h => nomatch h
  · -- direct access is still off
    intro h
    rw [show (ViewOp.mapBanks .musashi 0 4 : ViewOp Unit).run MemState.initial =
      mapBanks .musashi 0 4 MemState.initial from rfl, (mapBanks_keepsFlag _ _ _ _).1] at h
    cases h

/-- The region of a map with `UAE_MEM_JIT_UNSAFE_BURST` is a burst region. -/
theorem ramBank_isBurst (startAddr size : Long) (hostPtr : HostPtr) (flags : Long) :
    (ramBank startAddr size hostPtr flags : Addrbank δ).isBurst =
      hasFlag flags uaeMemJitUnsafeBurst := by
  show hasFlag (abflagRam ||| (if hasFlag flags uaeMemRom then abflagRom else 0) |||
    (if hasFlag flags uaeMemJitUnsafeBurst then abflagJitUnsafeBurst else 0))
    abflagJitUnsafeBurst = _
  cases hasFlag flags uaeMemRom <;> cases hasFlag flags uaeMemJitUnsafeBurst <;> decide

theorem memoryMapPtr_canbang (startAddr size : Long) (hostPtr : HostPtr) (flags : Long)
    (st : MemState δ) :
    (memoryMapPtr true startAddr size hostPtr flags st).2.canbang = st.canbang := by
  have hloop : ∀ (n : Nat) (t : MemState δ), (Loop.upto (fun i st =>
      setCe (startBank startAddr + BitVec.ofNat 16 i) (hasFlag flags uaeMemCacheable) .fast32
        (setEntry (startBank startAddr + BitVec.ofNat 16 i) (.region t.next) st)) n
      (t.alloc (ramBank startAddr size hostPtr flags))).canbang = t.canbang :=
    fun n t => Loop.keeps MemState.canbang fun i u => (setEntry_keepsFlag _ _ u).1
  exact (memoryJitSyncAll_spec _).2.1.trans (hloop _ _)

/-- A burst region mapped over at least one bank shows at its first bank. -/
theorem memoryMapPtr_burst (startAddr size : Long) (hostPtr : HostPtr) (flags : Long)
    (hn : 0 < numBanks size) (hf : hasFlag flags uaeMemJitUnsafeBurst = true)
    (st : MemState δ) :
    (memoryMapPtr true startAddr size hostPtr flags st).2.burstAt (startBank startAddr) =
      true := by
  have hp := memoryMapPtr_painted startAddr size hostPtr flags st
  have hfirst : Covered startAddr size (startBank startAddr) := by
    unfold Covered Loop.Arc
    rw [BitVec.sub_self]
    exact hn
  have hview : (st.alloc (ramBank startAddr size hostPtr flags)).view (.region st.next) =
      some (ramBank startAddr size hostPtr flags : Addrbank δ).shape := by
    unfold MemState.view MemState.deref MemState.alloc
    simp only [Function.update_self, Option.map_some]
  rw [burstAt_eq, hp.inside _ hfirst, hp.isBurst]
  unfold MemState.isBurst
  rw [hview, Option.any_some]
  show (ramBank startAddr size hostPtr flags : Addrbank δ).isBurst = true
  rw [ramBank_isBurst, hf]

theorem uninit_not_inSync {startAddr size : Long} {hostPtr : HostPtr} {flags : Long}
    {st : MemState δ} (h : JitInv st) (hc : st.canbang = true) (hn : 0 < numBanks size)
    (hf : hasFlag flags uaeMemJitUnsafeBurst = true) :
    ¬ InSync (memoryUninit (memoryMapPtr true startAddr size hostPtr flags st).2) := by
  have hinv := h.run (.mem (.mapPtr true startAddr size hostPtr flags)) trivial
  have hrun := run_inSync_iff hinv (inSync_syncAll hinv) (.mem .uninit) trivial
  intro hbad
  have hnone := hrun.mp hbad ((memoryMapPtr_canbang startAddr size hostPtr flags st).trans hc)
    (startBank startAddr)
  have hburst := memoryMapPtr_burst startAddr size hostPtr flags hn hf st
  exact Bool.false_ne_true (hnone.symm.trans hburst)

theorem uaeHostConfigureJit_canbang (directMemory : Bool) (st : MemState δ) :
    (uaeHostConfigureJit directMemory st).canbang = directMemory :=
  (memoryJitSyncAll_spec { st with canbang := directMemory }).2.1

/-- A burst region is mapped with direct access on and then taken away by `memory_uninit`:
`jit_n_addr_bank_unsafe` stays set. -/
theorem uninit_leaves_burst :
    let ops : List (ViewOp Unit) := [.mem .init, .configureJit true,
      .mem (.mapPtr true 0 0x10000 0x100000 0x20), .mem .uninit]
    AllMeet ViewOp.run ViewOp.Allowed ops MemState.initial ∧
      ¬ InSync (Trans.Calls.run ViewOp.run ops MemState.initial) := by
  refine ⟨⟨trivial, trivial, trivial, trivial, trivial⟩, ?_⟩
  have hinv := (JitInv.initial (δ := Unit)).run (.mem .init) trivial
  generalize hst : (ViewOp.mem .init).run (MemState.initial : MemState Unit) = st at hinv
  have hrun : ∀ a b c d : ViewOp Unit, Trans.Calls.run ViewOp.run [a, b, c, d] MemState.initial =
      d.run (c.run (b.run (a.run MemState.initial))) := fun _ _ _ _ => rfl
  rw [hrun, hst]
  exact uninit_not_inSync (hinv.run (.configureJit true) trivial)
    (uaeHostConfigureJit_canbang true st) (by decide) (by decide)

end UaeCpu
