import UaeCpu.Lib.Marks
import UaeCpu.Atc

/-!
# UaeCpu.TableWalk

What the MMU is for: a walk over the translation tables as they stand in memory, with no cache,
and the bits it sets there. The code's table search is shown to be this walk.

* `tableWalk`              — root, pointer and page table, with at most one indirection.
* `Walk.Similar`           — two walks that differ in `U` and `M` of the page descriptor alone.
* `tableWalk_marked`       — setting `U` and `M` elsewhere does not lead a walk astray.
* `searchTables_searches`  — `mmu_fill_atc` searches as the walk says.
-/

namespace UaeCpu

open Fault FaultM Marks

/-! ## The walk -/

/-- How a walk ends. `writeProtected` is the OR over all levels. -/
inductive WalkEnd where
  | busError
  | invalid
  | resident (descAddr desc : Long) (writeProtected : Bool)

/-- What a walk comes across: the descriptors it reads, those of them that are valid table
descriptors, the indirect page descriptor if there is one, and how it ends. -/
structure Walk where
  fetched : List Long
  tables : List Long
  indirect : Option Long
  last : WalkEnd

/-- A table descriptor at `x` before the rest of a walk. -/
def Walk.below (x : Long) (w : Walk) : Walk :=
  { w with fetched := x :: w.fetched, tables := x :: w.tables }

/-- A table level: the walk goes on with the descriptor at `x` if that is valid. -/
def descLevel (mem : PhysMem) (x : Long) (next : Long → Walk) : Walk :=
  match mem x with
  | none => ⟨[x], [], none, .busError⟩
  | some d => if d &&& 2 = 0 then ⟨[x], [], none, .invalid⟩ else (next d).below x

/-- The last descriptor, under tables whose `W` bits are those of `wp`. -/
def pageEnd (x d wp : Long) : WalkEnd :=
  if d &&& 1 = 1 then .resident x d (decide ((wp ||| d) &&& mmuDesWp ≠ 0)) else .invalid

def pageLevel (mem : PhysMem) (x wp : Long) : Walk :=
  match mem x with
  | none => ⟨[x], [], none, .busError⟩
  | some d =>
    if d &&& 3 = 2 then
      match mem (d &&& mmuPageIndirectMask) with
      | none => ⟨[x, d &&& mmuPageIndirectMask], [], some x, .busError⟩
      | some d' =>
        ⟨[x, d &&& mmuPageIndirectMask], [], some x, pageEnd (d &&& mmuPageIndirectMask) d' wp⟩
    else ⟨[x], [], none, pageEnd x d wp⟩

/-- The walk below the root table descriptor `d`. -/
def ptrLevel (mem : PhysMem) (pagesize8k : Bool) (addr d : Long) : Walk :=
  descLevel mem (ptrDescAddr d addr) fun d' =>
    pageLevel mem (pageDescAddr pagesize8k d' addr) (d ||| d')

def tableWalk (mem : PhysMem) (root : Long) (pagesize8k : Bool) (addr : Long) : Walk :=
  descLevel mem (rootDescAddr root addr) (ptrLevel mem pagesize8k addr)

namespace WalkEnd

def isResident : WalkEnd → Bool
  | resident _ _ _ => true
  | _ => false

/-- The page is resident, and neither write protection nor supervisor protection is in the
way. -/
def allows (super write : Bool) : WalkEnd → Bool
  | resident _ desc wp => !(write && wp) && !(decide (desc &&& mmuDesSuper ≠ 0) && !super)
  | _ => false

/-- The bits set in the page descriptor: `U`, and `M` for a write that is allowed. -/
def bits (super write : Bool) (e : WalkEnd) : Long → Long :=
  match e with
  | resident a _ _ =>
    only a (if write && e.allows super write then mmuDesUsed ||| mmuDesModified else mmuDesUsed)
  | _ => fun _ => 0#32

/-- The descriptor a search returns: with the bits it sets, and `W` from all levels. -/
def found (super write : Bool) (e : WalkEnd) : Long :=
  match e with
  | resident a d wp => d ||| e.bits super write a ||| (if wp then mmuDesWp else 0)
  | _ => 0

end WalkEnd

/-- The bits a walk sets: `U` in the table descriptors, and those of the page descriptor. -/
def Walk.bits (super write : Bool) (w : Walk) : Long → Long := fun x =>
  (if x ∈ w.tables then mmuDesUsed else 0#32) ||| w.last.bits super write x

/-- No table descriptor of `w` with `U` clear is the indirect page descriptor of `w'`. -/
def Walk.Apart (mem : PhysMem) (w w' : Walk) : Prop :=
  ∀ x ∈ w.tables, ∀ v, mem x = some v → v &&& mmuDesUsed = 0 → w'.indirect ≠ some x

/-- A walk that does not change the address its own indirect descriptor holds. -/
abbrev Walk.Plain (mem : PhysMem) (w : Walk) : Prop := w.Apart mem w

/-! ## Walks that differ in `U` and `M` -/

/-- The bits of `k` may be set in the page descriptor of the second end. -/
inductive WalkEnd.Similar (k : Long) : WalkEnd → WalkEnd → Prop where
  | busError : Similar k .busError .busError
  | invalid : Similar k .invalid .invalid
  | resident {a d b : Long} {wp : Bool} :
      b &&& k = b → Similar k (.resident a d wp) (.resident a (d ||| b) wp)

structure Walk.Similar (k : Long) (w w' : Walk) : Prop where
  fetched : w'.fetched = w.fetched
  tables : w'.tables = w.tables
  indirect : w'.indirect = w.indirect
  last : w.last.Similar k w'.last

/-- `U` and `M`. -/
abbrev markBits : Long := 0x18

section Similar

variable {k : Long} {mem mem' : PhysMem}

theorem mark_and {v b : Long} (q : Long) (hk : k &&& markBits = k) (hb : b &&& k = b)
    (hq : markBits &&& q = 0) : (v ||| b) &&& q = v &&& q := by
  refine or_and_of_disjoint (k := markBits) ?_ hq
  rw [← hb, BitVec.and_assoc, hk]

theorem Walk.Similar.below {w w' : Walk} (h : w.Similar k w') (x : Long) :
    (w.below x).Similar k (w'.below x) :=
  ⟨congrArg (x :: ·) h.fetched, congrArg (x :: ·) h.tables, h.indirect, h.last⟩

theorem pageEnd_similar {x d b wp wp' : Long} (hk : k &&& markBits = k) (hb : b &&& k = b)
    (hwp : wp' &&& mmuDesWp = wp &&& mmuDesWp) :
    (pageEnd x d wp).Similar k (pageEnd x (d ||| b) wp') := by
  have hw : (wp' ||| (d ||| b)) &&& mmuDesWp = (wp ||| d) &&& mmuDesWp := by
    rw [BitVec.and_or_distrib_right, hwp, mark_and mmuDesWp hk hb (by decide),
      BitVec.and_or_distrib_right]
  unfold pageEnd
  rw [mark_and 1 hk hb (by decide), hw]
  split
  · exact .resident hb
  · exact .invalid

theorem pageLevel_similar {x wp wp' : Long} (hk : k &&& markBits = k)
    (hm : Marked k mem mem') (hwp : wp' &&& mmuDesWp = wp &&& mmuDesWp)
    (hind : ∀ y, (pageLevel mem x wp).indirect = some y → mem' y = mem y) :
    (pageLevel mem x wp).Similar k (pageLevel mem' x wp') := by
  unfold pageLevel at hind ⊢
  cases hx : mem x with
  | none =>
    rw [hm.none_iff.mpr hx]
    exact ⟨rfl, rfl, rfl, .busError⟩
  | some d =>
    rw [hx] at hind
    by_cases hi : d &&& 3 = 2
    · -- an indirect descriptor is the one word whose `U` and `M` are an address
      have hx' : mem' x = some d := by
        rw [← hx]
        apply hind
        dsimp only
        rw [if_pos hi]
        split <;> rfl
      rw [hx']
      dsimp only
      rw [if_pos hi, if_pos hi]
      cases ht : mem (d &&& mmuPageIndirectMask) with
      | none =>
        rw [hm.none_iff.mpr ht]
        exact ⟨rfl, rfl, rfl, .busError⟩
      | some d₁ =>
        obtain ⟨b, hb, hb'⟩ := hm.some_of ht
        rw [hb']
        exact ⟨rfl, rfl, rfl, pageEnd_similar hk hb hwp⟩
    · obtain ⟨b, hb, hb'⟩ := hm.some_of hx
      rw [hb']
      dsimp only
      rw [if_neg hi, if_neg (by rwa [mark_and 3 hk hb (by decide)])]
      exact ⟨rfl, rfl, rfl, pageEnd_similar hk hb hwp⟩

theorem descLevel_similar {x : Long} {next next' : Long → Walk} (hk : k &&& markBits = k)
    (hm : Marked k mem mem')
    (hnext : ∀ d b, b &&& k = b → mem x = some d → d &&& 2 ≠ 0 →
      (next d).Similar k (next' (d ||| b))) :
    (descLevel mem x next).Similar k (descLevel mem' x next') := by
  unfold descLevel
  cases hx : mem x with
  | none =>
    rw [hm.none_iff.mpr hx]
    exact ⟨rfl, rfl, rfl, .busError⟩
  | some d =>
    obtain ⟨b, hb, hb'⟩ := hm.some_of hx
    rw [hb']
    dsimp only
    rw [mark_and 2 hk hb (by decide)]
    by_cases hv : d &&& 2 = 0
    · rw [if_pos hv, if_pos hv]
      exact ⟨rfl, rfl, rfl, .invalid⟩
    · rw [if_neg hv, if_neg hv]
      exact (hnext d b hb hx hv).below x

theorem ptrDescAddr_mark {d b : Long} (hk : k &&& markBits = k) (hb : b &&& k = b)
    (addr : Long) : ptrDescAddr (d ||| b) addr = ptrDescAddr d addr := by
  unfold ptrDescAddr
  rw [mark_and mmuRootPtrAddrMask hk hb (by decide)]

theorem pageDescAddr_mark {d b : Long} (hk : k &&& markBits = k) (hb : b &&& k = b)
    (pagesize8k : Bool) (addr : Long) :
    pageDescAddr pagesize8k (d ||| b) addr = pageDescAddr pagesize8k d addr := by
  unfold pageDescAddr
  rw [mark_and mmuPtrPageAddrMask8 hk hb (by decide),
    mark_and mmuPtrPageAddrMask4 hk hb (by decide)]

theorem descLevel_of_valid {x d : Long} (next : Long → Walk) (hx : mem x = some d)
    (hv : d &&& 2 ≠ 0) : descLevel mem x next = (next d).below x := by
  unfold descLevel
  rw [hx]
  exact if_neg hv

theorem ptrLevel_similar (hk : k &&& markBits = k) (hm : Marked k mem mem') {addr d b : Long}
    (hb : b &&& k = b) {pagesize8k : Bool}
    (hind : ∀ y, (ptrLevel mem pagesize8k addr d).indirect = some y → mem' y = mem y) :
    (ptrLevel mem pagesize8k addr d).Similar k (ptrLevel mem' pagesize8k addr (d ||| b)) := by
  unfold ptrLevel at hind ⊢
  rw [ptrDescAddr_mark hk hb]
  apply descLevel_similar hk hm
  intro d' b' hb' hd' hv'
  rw [descLevel_of_valid _ hd' hv'] at hind
  rw [pageDescAddr_mark hk hb']
  refine pageLevel_similar hk hm ?_ hind
  rw [BitVec.and_or_distrib_right, mark_and mmuDesWp hk hb (by decide),
    mark_and mmuDesWp hk hb' (by decide), BitVec.and_or_distrib_right]

/-- Setting `U` and `M` anywhere but in the indirect descriptor leaves a walk its way. -/
theorem tableWalk_marked (hk : k &&& markBits = k) (hm : Marked k mem mem') {root addr : Long}
    {pagesize8k : Bool}
    (hind : ∀ y, (tableWalk mem root pagesize8k addr).indirect = some y → mem' y = mem y) :
    (tableWalk mem root pagesize8k addr).Similar k (tableWalk mem' root pagesize8k addr) := by
  unfold tableWalk at hind ⊢
  apply descLevel_similar hk hm
  intro d b hb hd hv
  rw [descLevel_of_valid _ hd hv] at hind
  exact ptrLevel_similar hk hm hb hind

theorem WalkEnd.Similar.isResident {e e' : WalkEnd} (h : e.Similar k e') :
    e'.isResident = e.isResident := by
  cases h <;> rfl

theorem WalkEnd.Similar.busError_iff {e e' : WalkEnd} (h : e.Similar k e') :
    e' = .busError ↔ e = .busError := by
  cases h <;> simp

theorem WalkEnd.Similar.allows {e e' : WalkEnd} (hk : k &&& markBits = k) (h : e.Similar k e')
    (super write : Bool) : e'.allows super write = e.allows super write := by
  cases h with
  | busError => rfl
  | invalid => rfl
  | resident hb =>
    unfold WalkEnd.allows
    dsimp only
    rw [mark_and mmuDesSuper hk hb (by decide)]

theorem WalkEnd.Similar.bits {e e' : WalkEnd} (hk : k &&& markBits = k) (h : e.Similar k e')
    (super write : Bool) : e'.bits super write = e.bits super write := by
  have ha := h.allows hk super write
  cases h with
  | busError => rfl
  | invalid => rfl
  | resident hb =>
    unfold WalkEnd.bits
    dsimp only
    rw [ha]

theorem Walk.Similar.bits {w w' : Walk} (hk : k &&& markBits = k) (h : w.Similar k w')
    (super write : Bool) : w'.bits super write = w.bits super write := by
  unfold Walk.bits
  rw [h.tables, h.last.bits hk]

end Similar

/-! ## The code's search -/

/-- The state with bits set in memory; the cache state is that of the last access. -/
def Mmu.marked (s : Mmu) (f : Long → Long) (c : BitVec 8) : Mmu :=
  { s with mem := addBits s.mem f, mmuCacheState := c }

def Mmu.cached (s : Mmu) (c : BitVec 8) : Mmu := { s with mmuCacheState := c }

/-- `search` does what the walk `w` says: it throws where `w` ends in a bus error, and else
returns the descriptor found, with no reason for a fault if the page is resident. -/
def Searches (search : MmuM (Long × Long)) (w : Walk) (super write : Bool) (s : Mmu) : Prop :=
  ∃ c, (w.last = .busError ∧ search s = .thrown 2 (s.marked (w.bits super write) c)) ∨
    (w.last ≠ .busError ∧ ∃ status060,
      search s = .ret (w.last.found super write, status060) (s.marked (w.bits super write) c) ∧
        (status060 = 0 ↔ w.last.isResident = true))

theorem and_used_of_ne_zero {d : Long} (h : d &&& mmuDesUsed ≠ 0) :
    d &&& mmuDesUsed = mmuDesUsed := (and_bit d 3).resolve_left h

theorem and_wp_eq (d : Long) :
    d &&& mmuDesWp = if decide (d &&& mmuDesWp ≠ 0) then mmuDesWp else 0 := by
  rcases and_bit d 2 with h | h
  · change d &&& mmuDesWp = 0 at h
    rw [h]
    rfl
  · change d &&& mmuDesWp = mmuDesWp at h
    rw [h]
    rfl

section Search

variable {s : Mmu} {a d wp : Long} {super write : Bool}

theorem marked_zero (s : Mmu) (c : BitVec 8) :
    s.marked (fun _ => 0#32) c = s.cached c := by
  unfold Mmu.marked Mmu.cached
  rw [addBits_zero]

theorem marked_marked (s : Mmu) (f g : Long → Long) (c c' : BitVec 8) :
    (s.marked f c).marked g c' = s.marked (fun x => f x ||| g x) c' := by
  unfold Mmu.marked
  rw [addBits_addBits]

theorem marked_of_set {f : Long → Long} (h : ∀ x v, s.mem x = some v → v &&& f x = f x) :
    s.marked f s.mmuCacheState = s := by
  unfold Mmu.marked
  rw [addBits_eq_self h]

theorem descGetLong_ret (h : s.mem a = some d) :
    ∃ c, descGetLong a s = .ret d (s.cached c) := by
  refine ⟨s.ceCachable (a.extractLsb' 16 16) ||| cacheDisableAllocate, ?_⟩
  unfold descGetLong Mmu.cached
  dsimp only
  rw [h]

theorem descGetLong_thrown (h : s.mem a = none) :
    ∃ c, descGetLong a s = .thrown 2 (s.cached c) := by
  refine ⟨s.ceCachable (a.extractLsb' 16 16) ||| cacheDisableAllocate, ?_⟩
  unfold descGetLong Mmu.cached
  dsimp only
  rw [h]

theorem descPutLong_marked (h : s.mem a = some d) (b : Long) :
    descPutLong a (d ||| b) s = .ret () (s.marked (only a b) cacheDisableMmu) := by
  unfold descPutLong Mmu.marked
  dsimp only
  rw [h, update_eq_addBits h]

theorem useTableDesc_marked (h : s.mem a = some d) :
    ∃ c, useTableDesc a d s = .ret () (s.marked (only a mmuDesUsed) c) := by
  unfold useTableDesc
  by_cases hu : d &&& mmuDesUsed = 0
  · rw [if_pos hu]
    exact ⟨_, descPutLong_marked h _⟩
  · rw [if_neg hu]
    refine ⟨s.mmuCacheState, ?_⟩
    rw [marked_of_set (only_set h (and_used_of_ne_zero hu))]
    rfl

/-- The three ways of `touchPageDesc`: bits that are not all set are written back. -/
theorem put_marked {p : Prop} [Decidable p] {b : Long} (h : s.mem a = some d)
    (hp : ¬p → d &&& b = b) :
    ∃ c, (if p then (do descPutLong a (d ||| b); pure (d ||| b)) else pure d : MmuM Long) s =
      .ret (d ||| b) (s.marked (only a b) c) := by
  by_cases hpp : p
  · rw [if_pos hpp]
    exact ⟨_, (bind_ret (descPutLong_marked h b)).trans rfl⟩
  · rw [if_neg hpp]
    refine ⟨s.mmuCacheState, ?_⟩
    rw [marked_of_set (only_set h (hp hpp)), or_of_and_eq (hp hpp)]
    rfl

theorem allows_iff {p : Bool} :
    (WalkEnd.resident a d p).allows super write = true ↔
      ¬(write = true ∧ p = true) ∧ ¬((!super) = true ∧ d &&& mmuDesSuper ≠ 0) := by
  unfold WalkEnd.allows
  cases write <;> cases p <;> cases super <;> simp

theorem touchPageDesc_marked (wp : Long) (super write : Bool) (h : s.mem a = some d) :
    ∃ c, touchPageDesc a d wp super write s =
      .ret (d ||| (WalkEnd.resident a d (decide (wp &&& mmuDesWp ≠ 0))).bits super write a)
        (s.marked ((WalkEnd.resident a d (decide (wp &&& mmuDesWp ≠ 0))).bits super write) c) := by
  have hself : ∀ b : Long, only a b a = b := fun b => if_pos rfl
  unfold touchPageDesc
  cases write with
  | false =>
    have hbits : (WalkEnd.resident a d (decide (wp &&& mmuDesWp ≠ 0))).bits super false =
        only a mmuDesUsed := rfl
    rw [hbits, hself, if_neg (by decide)]
    exact put_marked h and_used_of_ne_zero
  | true =>
    have hallow : (WalkEnd.resident a d (decide (wp &&& mmuDesWp ≠ 0))).allows super true = true ↔
        ¬(wp &&& mmuDesWp ≠ 0 ∨ (d &&& mmuDesSuper ≠ 0 ∧ !super)) := by
      rw [allows_iff, decide_eq_true_iff, not_or, eq_self_iff_true, true_and,
        and_comm (a := (!super) = true)]
    unfold WalkEnd.bits
    dsimp only
    rw [hself, Bool.true_and, if_pos rfl]
    by_cases hdeny : wp &&& mmuDesWp ≠ 0 ∨ (d &&& mmuDesSuper ≠ 0 ∧ !super)
    · rw [if_pos hdeny, if_neg fun h => hallow.mp h hdeny]
      exact put_marked h and_used_of_ne_zero
    · rw [if_neg hdeny, if_pos (hallow.mpr hdeny)]
      exact put_marked h Decidable.of_not_not

theorem searchPageDesc_marked (wp : Long) (super write : Bool) (h : s.mem a = some d) :
    ∃ c status060, searchPageDesc a d wp super write s =
      .ret ((pageEnd a d wp).found super write, status060)
        (s.marked ((pageEnd a d wp).bits super write) c) ∧
      (status060 = 0 ↔ (pageEnd a d wp).isResident = true) := by
  unfold searchPageDesc pageEnd
  by_cases hr : d &&& 1 = 1
  · rw [if_pos hr, if_pos hr]
    obtain ⟨c, hc⟩ := touchPageDesc_marked (wp ||| d) super write h
    refine ⟨c, 0, (bind_ret hc).trans ?_, ⟨fun _ => rfl, fun _ => rfl⟩⟩
    unfold WalkEnd.found
    dsimp only
    rw [← and_wp_eq (wp ||| d)]
    rfl
  · rw [if_neg hr, if_neg hr]
    have hbits : s.marked (WalkEnd.invalid.bits super write) s.mmuCacheState = s :=
      marked_zero s s.mmuCacheState
    split
    · refine ⟨s.mmuCacheState, mmuFslwIl, ?_, by decide⟩
      rw [hbits]
      rfl
    · refine ⟨s.mmuCacheState, mmuFslwPf, ?_, by decide⟩
      rw [hbits]
      rfl

theorem Walk.bits_of_no_table {w : Walk} (h : w.tables = []) :
    w.bits super write = w.last.bits super write := by
  funext x
  unfold Walk.bits
  rw [h, if_neg (by simp), BitVec.zero_or]

theorem pageEnd_ne_busError (a d wp : Long) : pageEnd a d wp ≠ .busError := by
  unfold pageEnd
  split
  · intro h
    cases h
  · intro h
    cases h

/-- Reading a descriptor, for what follows. -/
theorem Searches.read {next : Long → MmuM (Long × Long)} {w : Walk} (h : s.mem a = some d)
    (hnext : ∀ c, Searches (next d) w super write (s.cached c)) :
    Searches (descGetLong a >>= next) w super write s := by
  obtain ⟨c, hc⟩ := descGetLong_ret h
  obtain ⟨c', hc'⟩ := hnext c
  refine ⟨c', ?_⟩
  rw [bind_ret hc]
  exact hc'

theorem Searches.read_fails {next : Long → MmuM (Long × Long)} {w : Walk} (h : s.mem a = none)
    (ht : w.tables = []) (hw : w.last = .busError) :
    Searches (descGetLong a >>= next) w super write s := by
  obtain ⟨c, hc⟩ := descGetLong_thrown h
  refine ⟨c, .inl ⟨hw, ?_⟩⟩
  rw [bind_thrown hc, Walk.bits_of_no_table ht, hw]
  exact congrArg (Outcome.thrown 2) (marked_zero s c).symm

theorem searchPageDesc_searches {w : Walk} (h : s.mem a = some d) (ht : w.tables = [])
    (hw : w.last = pageEnd a d wp) :
    Searches (searchPageDesc a d wp super write) w super write s := by
  obtain ⟨c, status060, hc, hres⟩ := searchPageDesc_marked wp super write h
  refine ⟨c, .inr ⟨?_, status060, ?_, ?_⟩⟩
  · rw [hw]
    exact pageEnd_ne_busError a d wp
  · rw [Walk.bits_of_no_table ht, hw, hc]
  · rw [hw]
    exact hres

theorem searchPageTable_searches :
    Searches (searchPageTable a wp super write) (pageLevel s.mem a wp) super write s := by
  unfold searchPageTable pageLevel
  cases hx : s.mem a with
  | none => exact .read_fails hx rfl rfl
  | some d =>
    refine .read hx ?_
    intro c
    dsimp only
    by_cases hi : d &&& 3 = 2
    · rw [if_pos hi, if_pos hi]
      cases ht : s.mem (d &&& mmuPageIndirectMask) with
      | none => exact .read_fails (s := s.cached c) ht rfl rfl
      | some d' =>
        refine .read (s := s.cached c) ht ?_
        intro c'
        exact searchPageDesc_searches (s := (s.cached c).cached c') ht rfl rfl
    · rw [if_neg hi, if_neg hi]
      exact searchPageDesc_searches (s := s.cached c) hx rfl rfl

/-! ### Table levels -/

/-- A table level of the code's search, with the reason for a fault if it is invalid. -/
def searchLevel (a invalid : Long) (next : Long → MmuM (Long × Long)) : MmuM (Long × Long) := do
  let d ← descGetLong a
  if d &&& 2 = 0 then pure (0, invalid)
  else
    useTableDesc a d
    next d

theorem searchTables_eq (root : Long) (pagesize8k : Bool) (addr : Long) (super write : Bool) :
    searchTables root pagesize8k addr super write =
      searchLevel (rootDescAddr root addr) mmuFslwPta fun d =>
        searchLevel (ptrDescAddr d addr) mmuFslwPtb fun d' =>
          searchPageTable (pageDescAddr pagesize8k d' addr) (d ||| d') super write := rfl

theorem Walk.bits_below (x : Long) (w : Walk) :
    (w.below x).bits super write = fun y => only x mmuDesUsed y ||| w.bits super write y := by
  funext y
  unfold Walk.bits Walk.below only
  by_cases hy : y = x
  · subst hy
    rw [if_pos (List.mem_cons_self), if_pos rfl]
    split
    · rw [← BitVec.or_assoc, BitVec.or_self]
    · rw [BitVec.zero_or]
  · rw [if_neg hy, BitVec.zero_or]
    simp [hy]

theorem WalkEnd.bits_used (a d : Long) (p super write : Bool) :
    (WalkEnd.resident a d p).bits super write a &&& mmuDesUsed = mmuDesUsed := by
  unfold WalkEnd.bits only
  dsimp only
  rw [if_pos rfl]
  split <;> decide

theorem WalkEnd.Similar.found {k : Long} {e e' : WalkEnd} (hk : k &&& mmuDesUsed = k)
    (h : e.Similar k e') : e'.found super write = e.found super write := by
  have hk' : k &&& markBits = k := by
    rw [← hk, BitVec.and_assoc]
    congr 1
  have hbits := h.bits hk' super write
  cases h with
  | busError => rfl
  | invalid => rfl
  | @resident a d b p hb =>
    have hset : (WalkEnd.resident a d p).bits super write a &&& b = b := by
      rw [← hb, ← hk, BitVec.and_comm b, BitVec.and_assoc k, BitVec.and_comm k,
        ← BitVec.and_assoc, ← BitVec.and_assoc, WalkEnd.bits_used]
    unfold WalkEnd.found
    dsimp only
    rw [hbits, BitVec.or_assoc d, BitVec.or_comm b, or_of_and_eq hset]

/-! ### Walks over their own marks -/

theorem marked_only {k b : Long} (mem : PhysMem) (x : Long) (hb : b &&& k = b) :
    Marked k mem (addBits mem (only x b)) := by
  refine ⟨only x b, ?_, rfl⟩
  intro y
  unfold only
  split
  · exact hb
  · exact BitVec.zero_and

theorem Walk.Plain.of_below {mem : PhysMem} {w : Walk} {x : Long} (h : (w.below x).Plain mem) :
    w.Plain mem := fun y hy => h y (List.mem_cons_of_mem x hy)

/-- Using a table descriptor leaves the indirect descriptor of a walk kept apart alone. -/
theorem Walk.Apart.indirect_kept {mem : PhysMem} {w w' : Walk} {x y : Long} (h : w.Apart mem w')
    (hx : x ∈ w.tables) (hy : w'.indirect = some y) :
    addBits mem (only x mmuDesUsed) y = mem y := by
  cases hm : mem y with
  | none => exact addBits_none hm
  | some v =>
    rw [addBits_some hm, only]
    by_cases hyx : y = x
    · subst hyx
      have hu : v &&& mmuDesUsed = mmuDesUsed := by
        apply and_used_of_ne_zero
        intro hclear
        exact h y hx v hm hclear hy
      rw [if_pos rfl, or_of_and_eq hu]
    · rw [if_neg hyx, BitVec.or_zero]

theorem Walk.Apart.similar {k : Long} {mem mem' : PhysMem} {w w' v v' : Walk} (h : w.Apart mem v)
    (hm : Marked k mem mem') (hw : w.Similar k w') (hv : v.Similar k v') : w'.Apart mem' v' := by
  intro x hx b' hx' hclear
  rw [hv.indirect]
  rw [hw.tables] at hx
  cases hmx : mem x with
  | none =>
    rw [hm.none_iff.mpr hmx] at hx'
    cases hx'
  | some b =>
    refine h x hx b hmx ?_
    by_contra hset
    rw [hm.keeps hmx (and_used_of_ne_zero hset) hx'] at hclear
    cases hclear

theorem Searches.similar {search : MmuM (Long × Long)} {w w' : Walk}
    (h : Searches search w' super write s) (hw : w.Similar mmuDesUsed w') :
    Searches search w super write s := by
  obtain ⟨c, h⟩ := h
  rw [hw.bits (by decide), hw.last.found (by decide)] at h
  refine ⟨c, ?_⟩
  rw [hw.last.isResident, ne_eq, hw.last.busError_iff] at h
  exact h

theorem Searches.use {next : MmuM (Long × Long)} {w : Walk} (h : s.mem a = some d)
    (hnext : ∀ c, Searches next w super write (s.marked (only a mmuDesUsed) c)) :
    Searches (useTableDesc a d >>= fun _ => next) (w.below a) super write s := by
  obtain ⟨c, hc⟩ := useTableDesc_marked h
  obtain ⟨c', hc'⟩ := hnext c
  refine ⟨c', ?_⟩
  rw [bind_ret hc, Walk.bits_below, ← marked_marked _ _ _ c]
  exact hc'

/-- One level: what follows walks over memory in which this level's `U` is set, and so does what
it would do before. -/
theorem searchLevel_searches {invalid : Long} {next : Long → MmuM (Long × Long)}
    (nextWalk : PhysMem → Long → Walk) (hinvalid : invalid ≠ 0)
    (hsim : ∀ d mem', Marked mmuDesUsed s.mem mem' →
      (∀ y, (nextWalk s.mem d).indirect = some y → mem' y = s.mem y) →
        (nextWalk s.mem d).Similar mmuDesUsed (nextWalk mem' d))
    (hnext : ∀ d s', (nextWalk s'.mem d).Plain s'.mem →
      Searches (next d) (nextWalk s'.mem d) super write s')
    (hplain : (descLevel s.mem a (nextWalk s.mem)).Plain s.mem) :
    Searches (searchLevel a invalid next) (descLevel s.mem a (nextWalk s.mem)) super write s := by
  unfold searchLevel
  cases hx : s.mem a with
  | none =>
    unfold descLevel
    rw [hx]
    exact .read_fails hx rfl rfl
  | some d =>
    refine .read hx ?_
    intro c
    by_cases hv : d &&& 2 = 0
    · unfold descLevel
      rw [hx]
      dsimp only
      rw [if_pos hv, if_pos hv]
      refine ⟨c, .inr ⟨by simp, invalid, ?_, fun h => absurd h hinvalid, ?_⟩⟩
      · rw [Walk.bits_of_no_table rfl]
        exact congrArg (Outcome.ret _) (marked_zero (s.cached c) c).symm
      · intro h
        cases h
    · rw [descLevel_of_valid _ hx hv] at hplain ⊢
      rw [if_neg hv]
      refine .use (s := s.cached c) hx ?_
      intro c'
      have hm : Marked mmuDesUsed s.mem (addBits s.mem (only a mmuDesUsed)) :=
        marked_only s.mem a (by decide)
      have hw := hsim d _ hm fun y hy => hplain.indirect_kept List.mem_cons_self hy
      exact (hnext d ((s.cached c).marked (only a mmuDesUsed) c')
        (hplain.of_below.similar hm hw hw)).similar hw

theorem searchTables_searches {root addr : Long} {pagesize8k : Bool} (s : Mmu)
    (super write : Bool)
    (h : (tableWalk s.mem root pagesize8k addr).Plain s.mem) :
    Searches (searchTables root pagesize8k addr super write)
      (tableWalk s.mem root pagesize8k addr) super write s := by
  have hk : mmuDesUsed &&& markBits = mmuDesUsed := by decide
  rw [searchTables_eq]
  refine searchLevel_searches (fun mem d => ptrLevel mem pagesize8k addr d) (by decide) ?_ ?_ h
  · intro d mem' hm hind
    have hsim := ptrLevel_similar hk hm (BitVec.zero_and (x := mmuDesUsed)) hind
    rwa [BitVec.or_zero] at hsim
  · intro d s' hplain
    refine searchLevel_searches
      (fun mem d' => pageLevel mem (pageDescAddr pagesize8k d' addr) (d ||| d')) (by decide)
      ?_ ?_ hplain
    · intro d' mem' hm hind
      exact pageLevel_similar hk hm rfl hind
    · intro d' s'' _
      exact searchPageTable_searches

end Search

end UaeCpu
