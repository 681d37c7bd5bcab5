import UaeCpu.Mapping
import UaeCpu.Lib.Run

/-!
# UaeCpu.Regions

The life of the regions behind the memory map, over whole runs of calls.

* `Sound`              — every entry points to a static bank or to a live region, and each
                         region is live, freed once, or not allocated yet.
* `memory_no_dangling` — every run of calls keeps this.
-/

namespace UaeCpu

variable {δ : Type}

/-! ## Runs -/

/-- A call on the memory map. -/
inductive MemOp (δ : Type) where
  | init
  | mapPtr (callocOk : Bool) (startAddr size : Long) (hostPtr : HostPtr) (flags : Long)
  | mapCustom (callocOk : Bool) (startAddr size : Long) (device : δ)
  | unmap (startAddr size : Long)
  | uninit

def MemOp.run : MemOp δ → MemState δ → MemState δ
  | .init, st => memoryInit st
  | .mapPtr ok startAddr size hostPtr flags, st =>
    (memoryMapPtr ok startAddr size hostPtr flags st).2
  | .mapCustom ok startAddr size device, st => (memoryMapCustom ok startAddr size device st).2
  | .unmap startAddr size, st => memoryUnmap startAddr size st
  | .uninit, st => memoryUninit st

/-- The calls of a list, first to last. -/
def runOps (ops : List (MemOp δ)) (st : MemState δ) : MemState δ :=
  Trans.Calls.run MemOp.run ops st

/-! ## The invariant -/

/-- An entry that is not `NULL` points to a static bank or to a live region. -/
def MemState.Valid (st : MemState δ) : BankRef → Prop
  | .region id => st.Live id
  | _ => True

structure Sound (st : MemState δ) : Prop where
  entries : ∀ j, st.Valid (st.banks j)
  bound : ∀ id, st.Live id → id < st.next
  freedOnce : st.freed.Nodup
  freedDead : ∀ id ∈ st.freed, id < st.next ∧ ¬ st.Live id
  accounted : ∀ id < st.next, st.Live id ∨ id ∈ st.freed

theorem Sound.initial : Sound (MemState.initial : MemState δ) where
  entries := fun _ => trivial
  bound := fun _ h => by cases h
  freedOnce := List.nodup_nil
  freedDead := fun _ h => by cases h
  accounted := fun _ h => absurd h (Nat.not_lt_zero _)

/-- Nothing points to the region the next `calloc` will give. -/
theorem Sound.fresh {st : MemState δ} (h : Sound st) (j : BankIdx) :
    st.banks j ≠ .region st.next := by
  intro he
  have hv := h.entries j
  rw [he] at hv
  exact absurd (h.bound _ hv) (Nat.lt_irrefl _)

theorem live_alloc (st : MemState δ) (b : Addrbank δ) (id : Nat) :
    (st.alloc b).Live id ↔ id = st.next ∨ st.Live id := by
  simp only [MemState.Live, MemState.alloc, Function.update_apply]
  by_cases h : id = st.next
  · simp [h]
  · simp [h]

theorem live_free (st : MemState δ) (id' id : Nat) :
    (st.free id').Live id ↔ id ≠ id' ∧ st.Live id := by
  simp only [MemState.Live, MemState.free, Function.update_apply]
  by_cases h : id = id'
  · simp [h]
  · simp [h]

theorem Sound.same {st st' : MemState δ} (h : Sound st) (hs : SameMap st st') : Sound st' where
  entries := by
    intro j
    rw [hs.banks]
    have hv := h.entries j
    revert hv
    cases st.banks j with
    | region id => exact (hs.live id).mpr
    | _ => exact id
  bound := fun id hl => by rw [hs.next]; exact h.bound id ((hs.live id).mp hl)
  freedOnce := by rw [hs.freed]; exact h.freedOnce
  freedDead := by
    intro id hid
    rw [hs.freed] at hid
    rw [hs.next, hs.live]
    exact h.freedDead id hid
  accounted := by
    intro id hid
    rw [hs.next] at hid
    rw [hs.live, hs.freed]
    exact h.accounted id hid

theorem Sound.alloc {st : MemState δ} (h : Sound st) (b : Addrbank δ) : Sound (st.alloc b) where
  entries := by
    intro j
    have hv := h.entries j
    revert hv
    show st.Valid (st.banks j) → (st.alloc b).Valid (st.banks j)
    cases st.banks j with
    | region id => exact fun hl => (live_alloc st b id).mpr (.inr hl)
    | _ => exact id
  bound := by
    intro id hl
    rcases (live_alloc st b id).mp hl with rfl | hl
    · exact Nat.lt_succ_self _
    · exact Nat.lt_succ_of_lt (h.bound id hl)
  freedOnce := h.freedOnce
  freedDead := by
    intro id hid
    obtain ⟨hlt, hdead⟩ := h.freedDead id hid
    refine ⟨Nat.lt_succ_of_lt hlt, fun hl => ?_⟩
    rcases (live_alloc st b id).mp hl with rfl | hl
    · exact Nat.lt_irrefl _ hlt
    · exact hdead hl
  accounted := by
    intro id hid
    rw [live_alloc]
    by_cases he : id = st.next
    · exact .inl (.inl he)
    · exact (h.accounted id (Nat.lt_of_le_of_ne (Nat.lt_succ_iff.mp hid) he)).imp_left .inr

/-- Redirecting entries to a live region or a static bank. -/
theorem Sound.painted {S : BankIdx → Prop} {ref : BankRef} {st st' : MemState δ}
    (h : Sound st) (hp : Painted S ref st st') (href : st.Valid ref) : Sound st' where
  entries := by
    intro j
    have hv : st.Valid (st'.banks j) := by
      by_cases hj : S j
      · rw [hp.inside j hj]; exact href
      · rw [hp.outside j hj]; exact h.entries j
    revert hv
    cases st'.banks j with
    | region id => exact (hp.live id).mpr
    | _ => exact id
  bound := fun id hl => by rw [hp.next]; exact h.bound id ((hp.live id).mp hl)
  freedOnce := by rw [hp.freed]; exact h.freedOnce
  freedDead := by
    intro id hid
    rw [hp.freed] at hid
    rw [hp.next, hp.live]
    exact h.freedDead id hid
  accounted := by
    intro id hid
    rw [hp.next] at hid
    rw [hp.live, hp.freed]
    exact h.accounted id hid

/-- Freeing a live region that no entry points to. -/
theorem Sound.free {st : MemState δ} (h : Sound st) {id : Nat} (hl : st.Live id)
    (hno : ∀ j, st.banks j ≠ .region id) : Sound (st.free id) where
  entries := by
    intro j
    have hv := h.entries j
    have hj := hno j
    revert hv hj
    show st.Valid (st.banks j) → st.banks j ≠ .region id → (st.free id).Valid (st.banks j)
    cases st.banks j with
    | region id' =>
      intro hv hj
      refine (live_free st id id').mpr ⟨fun he => hj (by rw [he]), hv⟩
    | _ => exact fun hv _ => hv
  bound := fun id' hl' => h.bound id' ((live_free st id id').mp hl').2
  freedOnce := by
    refine List.nodup_append.mpr ⟨h.freedOnce, List.nodup_singleton id, ?_⟩
    rintro a ha b hb rfl
    cases List.mem_singleton.mp hb
    exact (h.freedDead _ ha).2 hl
  freedDead := by
    intro id' hid
    rcases List.mem_append.mp hid with hid | hid
    · obtain ⟨hlt, hdead⟩ := h.freedDead id' hid
      exact ⟨hlt, fun hl' => hdead ((live_free st id id').mp hl').2⟩
    · rw [List.mem_singleton.mp hid]
      exact ⟨h.bound id hl, fun hl' => ((live_free st id id).mp hl').1 rfl⟩
  accounted := by
    intro id' hid
    rw [live_free]
    by_cases he : id' = id
    · exact .inr (List.mem_append.mpr (.inr (by rw [he]; exact List.mem_singleton_self id)))
    · exact (h.accounted id' hid).imp (fun hl' => ⟨he, hl'⟩)
        fun hf => List.mem_append.mpr (.inl hf)

/-! ## `memory_uninit` -/

theorem painted_setEntry (idx : BankIdx) (ref : BankRef) (st : MemState δ) :
    Painted (fun j => j = idx) ref st (setEntry idx ref st) := by
  obtain ⟨hv, hn, hf⟩ := setEntry_others idx ref st
  refine ⟨fun j hj => ?_, fun j hj => ?_, hv, hn, hf⟩
  · rw [setEntry_banks, if_pos hj]
  · rw [setEntry_banks, if_neg hj]

theorem ofNat_toNat_bank (j : BankIdx) : BitVec.ofNat 16 j.toNat = j := by
  rw [BitVec.ofNat_toNat, BitVec.setWidth_eq]

theorem toNat_bank_ofNat {i : Nat} (hi : i < memoryBanks) : (BitVec.ofNat 16 i).toNat = i := by
  rw [memoryBanks_eq] at hi
  rw [BitVec.toNat_ofNat, Nat.mod_eq_of_lt hi]

/-- The inner loop resets the later entries of the region and no others. -/
theorem dropFrom_painted (i : Nat) (ref : BankRef) (st : MemState δ) :
    Painted (fun j => i ≤ j.toNat ∧ st.banks j = ref) .dummy st (dropFrom i ref st) := by
  -- after `k` passes the entries from `i` to `i + k - 1` are done
  have hloop : Painted (fun j => i ≤ j.toNat ∧ j.toNat < i + (memoryBanks - i) ∧
      st.banks j = ref) .dummy st (dropFrom i ref st) := by
    refine Loop.rule (fun k t => Painted (fun j => i ≤ j.toNat ∧ j.toNat < i + k ∧
      st.banks j = ref) .dummy st t) ?_ ?_
    · exact ⟨fun j h => by omega, fun _ _ => rfl, fun _ => rfl, rfl, rfl⟩
    · intro k t hk ht
      have hJ : (BitVec.ofNat 16 (i + k)).toNat = i + k := toNat_bank_ofNat (by omega)
      have hcur : t.banks (BitVec.ofNat 16 (i + k)) = st.banks (BitVec.ofNat 16 (i + k)) :=
        ht.outside _ (by omega)
      have hsplit : ∀ j : BankIdx, j.toNat = i + k → j = BitVec.ofNat 16 (i + k) := by
        intro j hj
        rw [← hj, ofNat_toNat_bank]
      dsimp only
      split
      · next hr =>
        rw [hcur] at hr
        have hp := painted_setEntry (BitVec.ofNat 16 (i + k)) .dummy t
        refine ⟨fun j hj => ?_, fun j hj => ?_, fun r => (hp.view r).trans (ht.view r),
          hp.next.trans ht.next, hp.freed.trans ht.freed⟩
        · by_cases he : j = BitVec.ofNat 16 (i + k)
          · exact hp.inside j he
          · rw [hp.outside j he]
            refine ht.inside j ⟨hj.1, ?_, hj.2.2⟩
            have := mt (hsplit j) he
            omega
        · have he : j ≠ BitVec.ofNat 16 (i + k) := by
            rintro rfl
            exact hj ⟨by omega, by omega, hr⟩
          rw [hp.outside j he]
          exact ht.outside j fun h => hj ⟨h.1, by omega, h.2.2⟩
      · next hr =>
        rw [hcur] at hr
        refine ⟨fun j hj => ht.inside j ⟨hj.1, ?_, hj.2.2⟩,
          fun j hj => ht.outside j fun h => hj ⟨h.1, by omega, h.2.2⟩, ht.view, ht.next, ht.freed⟩
        have hne : j.toNat ≠ i + k := by
          intro he
          rw [hsplit j he] at hj
          exact hr hj.2.2
        omega
  refine ⟨fun j hj => hloop.inside j ⟨hj.1, ?_, hj.2⟩,
    fun j hj => hloop.outside j fun h => hj ⟨h.1, h.2.2⟩, hloop.view, hloop.next, hloop.freed⟩
  have := j.isLt
  rw [memoryBanks_eq]
  omega

theorem view_free (st : MemState δ) (id : Nat) (r : BankRef) :
    (st.free id).view r = if r = .region id then none else st.view r := by
  cases r with
  | region id' =>
    simp only [MemState.view, MemState.free, MemState.deref, Function.update_apply,
      BankRef.region.injEq]
    split <;> rfl
  | _ => rfl

/-- The order of `free` and the reset of the entry it was found at does not matter. -/
theorem setEntry_free (idx : BankIdx) (ref : BankRef) (st : MemState δ) (id : Nat) :
    SameMap ((setEntry idx ref st).free id) (setEntry idx ref (st.free id)) := by
  obtain ⟨hv, hn, hf⟩ := setEntry_others idx ref st
  obtain ⟨hv', hn', hf'⟩ := setEntry_others idx ref (st.free id)
  refine ⟨?_, fun r => ?_, ?_, ?_⟩
  · funext j
    rw [setEntry_banks]
    exact (setEntry_banks idx ref st j).symm
  · rw [hv', view_free, view_free, hv]
  · rw [hn']; exact hn.symm
  · rw [hf']
    show st.freed ++ [id] = (setEntry idx ref st).freed ++ [id]
    rw [hf]

/-- One pass at an entry of a region: all entries from here on are reset and the region is
freed. -/
theorem uninitPass_region {i : Nat} {st : MemState δ} {id : Nat} (hi : i < memoryBanks)
    (hb : st.banks (BitVec.ofNat 16 i) = .region id) :
    ∃ t, Painted (fun j => i ≤ j.toNat ∧ st.banks j = .region id) .dummy st t ∧
      SameMap (t.free id) (uninitPass i st) := by
  have hI : (BitVec.ofNat 16 i).toNat = i := toNat_bank_ofNat hi
  have hd := dropFrom_painted (i + 1) (.region id) st
  have he := painted_setEntry (BitVec.ofNat 16 i) .dummy (dropFrom (i + 1) (.region id) st)
  refine ⟨setEntry (BitVec.ofNat 16 i) .dummy (dropFrom (i + 1) (.region id) st),
    ⟨fun j hj => ?_, fun j hj => ?_, fun r => (he.view r).trans (hd.view r),
      he.next.trans hd.next, he.freed.trans hd.freed⟩, ?_⟩
  · by_cases hji : j = BitVec.ofNat 16 i
    · exact he.inside j hji
    · rw [he.outside j hji]
      refine hd.inside j ⟨?_, hj.2⟩
      have : j.toNat ≠ i := fun h => hji (by rw [← h, ofNat_toNat_bank])
      omega
  · have hji : j ≠ BitVec.ofNat 16 i := by
      rintro rfl
      exact hj ⟨hI.ge, hb⟩
    rw [he.outside j hji]
    exact hd.outside j fun h => hj ⟨by omega, h.2⟩
  · have : uninitPass i st =
        setEntry (BitVec.ofNat 16 i) .dummy ((dropFrom (i + 1) (.region id) st).free id) := by
      simp only [uninitPass, hb]
    rw [this]
    exact setEntry_free _ _ _ _

theorem uninitPass_static {i : Nat} {st : MemState δ}
    (hb : ∀ id, st.banks (BitVec.ofNat 16 i) ≠ .region id) :
    uninitPass i st = setEntry (BitVec.ofNat 16 i) .dummy st := by
  unfold uninitPass
  cases h : st.banks (BitVec.ofNat 16 i) with
  | region id => exact absurd h (hb id)
  | _ => rfl

/-- The region is as it was, with all its entries. -/
def Kept (st t : MemState δ) (id : Nat) : Prop :=
  (t.Live id ↔ st.Live id) ∧ ∀ j, t.banks j = .region id ↔ st.banks j = .region id

/-- The region had entries, and now it is freed and has none. -/
def Released (st t : MemState δ) (id : Nat) : Prop :=
  (∃ j, st.banks j = .region id) ∧ ¬ t.Live id ∧ ∀ j, t.banks j ≠ .region id

/-- The walk of `memory_uninit` before entry `i`. -/
structure Swept (st : MemState δ) (i : Nat) (t : MemState δ) : Prop where
  sound : Sound t
  done : ∀ j : BankIdx, j.toNat < i → t.banks j = .dummy
  next : t.next = st.next
  fate : ∀ id, Kept st t id ∨ Released st t id

/-- A pass over a region keeps the others and releases this one. -/
theorem Swept.region {st t : MemState δ} {i id : Nat} (hi : i < memoryBanks) (h : Swept st i t)
    (hb : t.banks (BitVec.ofNat 16 i) = .region id) : Swept st (i + 1) (uninitPass i t) := by
  obtain ⟨u, hu, hs⟩ := uninitPass_region hi hb
  have hlive : t.Live id := by
    have := h.sound.entries (BitVec.ofNat 16 i)
    rwa [hb] at this
  have hgone : ∀ j, u.banks j ≠ .region id := by
    intro j hj
    obtain ⟨hnS, he⟩ := hu.eq_of_ne (j := j) (by rw [hj]; exact fun h => nomatch h)
    rw [hj] at he
    by_cases hji : i ≤ j.toNat
    · exact hnS ⟨hji, he.symm⟩
    · rw [h.done j (by omega)] at he
      cases he
  have hsound : Sound (u.free id) :=
    (h.sound.painted hu trivial).free ((hu.live id).mpr hlive) hgone
  refine ⟨hsound.same hs, fun j hj => ?_, hs.next.trans (hu.next.trans h.next), fun id' => ?_⟩
  · rw [hs.banks]
    show u.banks j = .dummy
    by_cases hji : j.toNat = i
    · have hjI : j = BitVec.ofNat 16 i := by rw [← hji, ofNat_toNat_bank]
      exact hu.inside j ⟨hji.ge, by rw [hjI, hb]⟩
    · rw [hu.outside j fun hS => by omega]
      exact h.done j (by omega)
  · have hb' : (uninitPass i t).banks = u.banks := hs.banks
    have hl' : (uninitPass i t).Live id' ↔ id' ≠ id ∧ t.Live id' := by
      rw [hs.live, live_free, hu.live]
    by_cases hid : id' = id
    · subst hid
      refine .inr ⟨?_, fun hl => (hl'.mp hl).1 rfl, fun j => by rw [hb']; exact hgone j⟩
      rcases h.fate id' with hk | hr
      · exact ⟨_, (hk.2 _).mp hb⟩
      · exact hr.1
    · have hsame : ∀ j, (uninitPass i t).banks j = .region id' ↔ t.banks j = .region id' := by
        intro j
        rw [hb']
        constructor
        · intro hj
          rw [← (hu.eq_of_ne (j := j) (by rw [hj]; exact fun h => nomatch h)).2, hj]
        · intro hj
          rw [hu.outside j fun hS => hid (by rw [hS.2] at hj; exact (BankRef.region.inj hj).symm),
            hj]
      rcases h.fate id' with hk | hr
      · refine .inl ⟨hl'.trans ⟨fun h => hk.1.mp h.2, fun h => ⟨hid, hk.1.mpr h⟩⟩, fun j => ?_⟩
        exact (hsame j).trans (hk.2 j)
      · exact .inr ⟨hr.1, fun hl => hr.2.1 (hl'.mp hl).2, fun j hj => hr.2.2 j ((hsame j).mp hj)⟩

theorem Swept.static {st t : MemState δ} {i : Nat} (h : Swept st i t)
    (hb : ∀ id, t.banks (BitVec.ofNat 16 i) ≠ .region id) :
    Swept st (i + 1) (uninitPass i t) := by
  rw [uninitPass_static hb]
  have hp := painted_setEntry (BitVec.ofNat 16 i) .dummy t
  refine ⟨h.sound.painted hp trivial, fun j hj => ?_, hp.next.trans h.next, fun id => ?_⟩
  · by_cases hji : j = BitVec.ofNat 16 i
    · exact hp.inside j hji
    · rw [hp.outside j hji]
      have : j.toNat ≠ i := fun h => hji (by rw [← h, ofNat_toNat_bank])
      exact h.done j (by omega)
  · have hsame : ∀ j, (setEntry (BitVec.ofNat 16 i) .dummy t).banks j = .region id ↔
        t.banks j = .region id := by
      intro j
      by_cases hji : j = BitVec.ofNat 16 i
      · rw [hp.inside j hji, hji]
        exact ⟨fun h => (nomatch h), fun h => absurd h (hb id)⟩
      · rw [hp.outside j hji]
    rcases h.fate id with hk | hr
    · exact .inl ⟨(hp.live id).trans hk.1, fun j => (hsame j).trans (hk.2 j)⟩
    · exact .inr ⟨hr.1, fun hl => hr.2.1 ((hp.live id).mp hl),
        fun j hj => hr.2.2 j ((hsame j).mp hj)⟩

/-- What `memory_uninit` does: every entry is reset, and exactly the regions that had one are
freed. -/
theorem memoryUninit_swept {st : MemState δ} (h : Sound st) :
    Swept st memoryBanks (memoryUninit st) := by
  refine Loop.rule (Swept st) ?_ ?_
  · exact ⟨h, fun j hj => absurd hj (Nat.not_lt_zero _), rfl,
      fun id => .inl ⟨Iff.rfl, fun _ => Iff.rfl⟩⟩
  · intro i t hi ht
    cases hb : t.banks (BitVec.ofNat 16 i) with
    | region id => exact ht.region hi hb
    | _ => exact ht.static fun id he => by rw [hb] at he; cases he

theorem memoryUninit_banks {st : MemState δ} (h : Sound st) (j : BankIdx) :
    (memoryUninit st).banks j = .dummy :=
  (memoryUninit_swept h).done j (by rw [memoryBanks_eq]; exact j.isLt)

theorem memoryUninit_live {st : MemState δ} (h : Sound st) (id : Nat) :
    (memoryUninit st).Live id ↔ st.Live id ∧ ∀ j, st.banks j ≠ .region id := by
  have hnone : ∀ j, (memoryUninit st).banks j ≠ .region id := by
    intro j
    rw [memoryUninit_banks h]
    exact fun h => nomatch h
  rcases (memoryUninit_swept h).fate id with hk | hr
  · rw [hk.1]
    exact ⟨fun hl => ⟨hl, fun j hj => hnone j ((hk.2 j).mpr hj)⟩, fun h => h.1⟩
  · exact ⟨fun hl => absurd hl hr.2.1, fun hl => (hr.1.elim fun j hj => absurd hj (hl.2 j))⟩

/-! ## Whole runs -/

theorem Sound.init {st : MemState δ} (h : Sound st) : Sound (memoryInit st) := by
  obtain ⟨hb, hl, hn, hf⟩ := memoryInit_painted st
  refine ⟨fun j => by rw [hb]; trivial, fun id hid => ?_, ?_, fun id hid => ?_, fun id hid => ?_⟩
  · rw [hn]; exact h.bound id ((hl id).mp hid)
  · rw [hf]; exact h.freedOnce
  · rw [hf] at hid
    rw [hn, hl]
    exact h.freedDead id hid
  · rw [hn] at hid
    rw [hl, hf]
    exact h.accounted id hid

theorem Sound.unmap {st : MemState δ} (h : Sound st) (startAddr size : Long) :
    Sound (memoryUnmap startAddr size st) := by
  obtain ⟨t, hp, ⟨id, -, hb, hno, hs⟩ | ⟨-, hs⟩⟩ := memoryUnmap_cases startAddr size st
  · have hl : st.Live id := by
      have := h.entries (startBank startAddr)
      rwa [hb] at this
    exact ((h.painted hp trivial).free ((hp.live id).mpr hl) hno).same hs
  · exact (h.painted hp trivial).same hs

/-- One call keeps the invariant. -/
theorem Sound.run {st : MemState δ} (h : Sound st) (op : MemOp δ) : Sound (op.run st) := by
  cases op with
  | init => exact h.init
  | mapPtr ok startAddr size hostPtr flags =>
    cases ok with
    | false => exact h
    | true =>
      refine (h.alloc _).painted (memoryMapPtr_painted startAddr size hostPtr flags st) ?_
      exact (live_alloc _ _ _).mpr (.inl rfl)
  | mapCustom ok startAddr size device =>
    cases ok with
    | false => exact h
    | true =>
      refine (h.alloc _).painted (memoryMapCustom_painted startAddr size device st) ?_
      exact (live_alloc _ _ _).mpr (.inl rfl)
  | unmap startAddr size => exact h.unmap startAddr size
  | uninit => exact (memoryUninit_swept h).sound

theorem Sound.runOps {st : MemState δ} (h : Sound st) (ops : List (MemOp δ)) :
    Sound (runOps ops st) :=
  Trans.Calls.run_inv (fun op _ h => h.run op) h ops

/-- An entry that has been set stays set. -/
theorem run_ne_null {st : MemState δ} (h : Sound st) (op : MemOp δ) {j : BankIdx}
    (hj : st.banks j ≠ .null) : (op.run st).banks j ≠ .null := by
  have hpaint : ∀ {S : BankIdx → Prop} {ref : BankRef} {t t' : MemState δ}, Painted S ref t t' →
      t.banks j ≠ .null → ref ≠ .null → t'.banks j ≠ .null := by
    intro S ref t t' hp ht href
    by_cases hS : S j
    · rw [hp.inside j hS]; exact href
    · rw [hp.outside j hS]; exact ht
  cases op with
  | init => rw [MemOp.run, (memoryInit_painted st).1]; exact fun h => nomatch h
  | mapPtr ok startAddr size hostPtr flags =>
    cases ok with
    | false => exact hj
    | true =>
      exact hpaint (memoryMapPtr_painted startAddr size hostPtr flags st) hj fun h => nomatch h
  | mapCustom ok startAddr size device =>
    cases ok with
    | false => exact hj
    | true =>
      exact hpaint (memoryMapCustom_painted startAddr size device st) hj fun h => nomatch h
  | unmap startAddr size =>
    obtain ⟨t, hp, ⟨id, -, -, -, hs⟩ | ⟨-, hs⟩⟩ := memoryUnmap_cases startAddr size st
    · rw [MemOp.run, hs.banks]
      show t.banks j ≠ .null
      exact hpaint hp hj fun h => nomatch h
    · rw [MemOp.run, hs.banks]
      exact hpaint hp hj fun h => nomatch h
  | uninit => rw [MemOp.run, memoryUninit_banks h]; exact fun h => nomatch h

/-- Once one of the calls that set every entry has been made, no entry is `NULL`. -/
theorem runOps_ne_null {ops : List (MemOp δ)} {st : MemState δ} (h : Sound st) {j : BankIdx}
    (hops : st.banks j ≠ .null ∨ .init ∈ ops ∨ .uninit ∈ ops) :
    (runOps ops st).banks j ≠ .null := by
  induction ops generalizing st with
  | nil => exact hops.resolve_right (by simp)
  | cons op ops ih =>
    refine ih (h.run op) ?_
    rcases hops with hj | hi | hu
    · exact .inl (run_ne_null h op hj)
    · rcases List.mem_cons.mp hi with rfl | hi
      · refine .inl ?_
        show (memoryInit st).banks j ≠ .null
        rw [(memoryInit_painted st).1]
        exact fun h => nomatch h
      · exact .inr (.inl hi)
    · rcases List.mem_cons.mp hu with rfl | hu
      · refine .inl ?_
        show (memoryUninit st).banks j ≠ .null
        rw [memoryUninit_banks h]
        exact fun h => nomatch h
      · exact .inr (.inr hu)

/-- No region dangles: after any calls in any order, every entry points to one of the three
static banks or to a region that is allocated and not freed, and no region has been freed twice.
Only before the first `memory_init` can an entry still be the `NULL` it starts as. -/
theorem memory_no_dangling (ops : List (MemOp δ)) :
    let st := runOps ops (MemState.initial : MemState δ)
    (∀ j, st.banks j = .dummy ∨ st.banks j = .musashi ∨ st.banks j = .testdev ∨
      (∃ id, st.banks j = .region id ∧ st.Live id ∧ id ∉ st.freed) ∨
      (st.banks j = .null ∧ .init ∉ ops)) ∧
    st.freed.Nodup := by
  intro st
  have h : Sound st := Sound.initial.runOps ops
  refine ⟨fun j => ?_, h.freedOnce⟩
  have hv := h.entries j
  cases hb : st.banks j with
  | null =>
    refine .inr (.inr (.inr (.inr ⟨rfl, fun hi => ?_⟩)))
    exact runOps_ne_null Sound.initial (.inr (.inl hi)) hb
  | dummy => exact .inl rfl
  | musashi => exact .inr (.inl rfl)
  | testdev => exact .inr (.inr (.inl rfl))
  | region id =>
    rw [hb] at hv
    exact .inr (.inr (.inr (.inl ⟨id, rfl, hv, fun hf => (h.freedDead id hf).2 hv⟩)))

end UaeCpu
