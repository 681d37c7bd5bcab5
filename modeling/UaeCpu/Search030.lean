import UaeCpu.Walk030

/-!
# UaeCpu.Search030

The table search of the 68030, with its local variables and its jumps, is the walk.

* `SearchAt`             — the variables of a search that has come to a descriptor of the walk.
* `SearchEnd`            — those of a search that has ended as the walk does.
* `tableSearch_settles`  — the search comes back, with the outcome of the walk.
-/

namespace UaeCpu

open Fault FaultM Marks

/-! ## Status -/

/-- The bits of the status that the line of a search is made of. -/
structure StatusBits (status : Word) (sv wp modified invalid : Bool) : Prop where
  sv : decide (status &&& mmusrSuperViolation ≠ 0) = sv
  wp : decide (status &&& mmusrWriteProtected ≠ 0) = wp
  modified : decide (status &&& mmusrModified ≠ 0) = modified
  invalid : decide (status &&& mmusrInvalid ≠ 0) = invalid

/-- The status on the way. -/
def WalkRights.status (r : WalkRights) : Word :=
  (if r.sv then mmusrSuperViolation else 0) ||| (if r.wp then mmusrWriteProtected else 0)

/-- The status at a page descriptor. -/
theorem statusBits_page (r : WalkRights) (modified : Bool) :
    StatusBits (r.status ||| (if modified then mmusrModified else 0)) r.sv r.wp modified false := by
  obtain ⟨wp, sv⟩ := r
  cases wp <;> cases sv <;> cases modified <;> exact ⟨by decide, by decide, by decide, by decide⟩

theorem statusBits_way (r : WalkRights) : StatusBits r.status r.sv r.wp false false := by
  obtain ⟨wp, sv⟩ := r
  cases wp <;> cases sv <;> exact ⟨by decide, by decide, by decide, by decide⟩

/-- The status of an invalid translation. -/
theorem StatusBits.stop {status x : Word} {sv wp modified invalid : Bool}
    (h : StatusBits status sv wp modified invalid)
    (hx : x = mmusrInvalid ∨ x = mmusrLimitViolation ||| mmusrInvalid ∨
      x = mmusrBusError ||| mmusrInvalid) :
    StatusBits (status ||| x) sv wp modified true := by
  have hbit : ∀ q : Word, q = mmusrSuperViolation ∨ q = mmusrWriteProtected ∨ q = mmusrModified →
      (status ||| x) &&& q = status &&& q := by
    intro q hq
    have hxq : x &&& q = 0 := by
      rcases hx with rfl | rfl | rfl <;> rcases hq with rfl | rfl | rfl <;> rfl
    rw [BitVec.and_or_distrib_right, hxq]
    exact BitVec.or_zero
  have hinvalid : x &&& mmusrInvalid = mmusrInvalid := by
    rcases hx with rfl | rfl | rfl <;> rfl
  refine ⟨?_, ?_, ?_, decide_eq_true ?_⟩
  · rw [hbit _ (.inl rfl)]
    exact h.sv
  · rw [hbit _ (.inr (.inl rfl))]
    exact h.wp
  · rw [hbit _ (.inr (.inr rfl))]
    exact h.modified
  · rw [BitVec.and_or_distrib_right, hinvalid]
    intro hz
    exact absurd (BitVec.or_eq_zero_iff.mp hz).2 (by decide)

/-! ## States of the search -/

section Search

variable {m : Mmu030} {mem : PhysMem} {a : Option Long} {d : Desc030} {r : WalkRights} {k t : Nat}
  {early : Bool} {st : SearchState} {w : Walk030}

/-- The search has seen `k` descriptors and used `t` tables. -/
structure SearchOn (m : Mmu030) (mem : PhysMem) (r : WalkRights) (k t : Nat) (early : Bool)
    (st : SearchState) : Prop where
  state : st.m = { m with mem := mem, s := true, status := r.status }
  num : st.v.descrNum = k
  t : st.v.t = t
  sv : st.v.superViolation = r.sv
  wp : st.v.writeProtected = r.wp
  early : st.v.earlyTermination = early
  inhibit : st.v.cacheInhibit = cacheEnableAll
  page : st.v.pageAddr = 0

/-- The last of them is `d`, fetched from `a`. -/
structure SearchAt (m : Mmu030) (mem : PhysMem) (a : Option Long) (d : Desc030) (r : WalkRights)
    (k t : Nat) (early : Bool) (st : SearchState) : Prop extends
    SearchOn m mem r k t early st where
  status : st.v.descr0 = d.status
  addr : addrWord st.v = d.addr
  size : st.v.descrSize = if d.isLong then 8 else 4
  root : a = none → k = 0
  fetched : ∀ x, a = some x → k ≠ 0 ∧ mem x = some d.status ∧
    ∃ h : k < 7, st.v.descrAddr ⟨k, h⟩ = x

/-- The search has ended as `w` does. -/
structure SearchEnd (m : Mmu030) (w : Walk030) (st : SearchState) : Prop where
  state : ∃ status b, StatusBits status w.rights.sv w.rights.wp w.modified w.page.isNone ∧
    st.m = { m with mem := w.mem, s := true, status := status, busErrorReadWrite := b }
  inhibit : st.v.cacheInhibit = if w.inhibited then cacheDisableMmu else cacheEnableAll
  page : st.v.pageAddr = w.page.getD 0

/-- Two walks that end the same, whatever they have come by. -/
structure EndsAs (w' w : Walk030) : Prop where
  mem : w'.mem = w.mem
  rights : w'.rights = w.rights
  page : w'.page = w.page
  modified : w'.modified = w.modified
  inhibited : w'.inhibited = w.inhibited

theorem EndsAs.refl (w : Walk030) : EndsAs w w := ⟨rfl, rfl, rfl, rfl, rfl⟩

theorem EndsAs.visiting {w' : Walk030} (h : EndsAs w' w) (vs : List Visited030) :
    EndsAs w' (w.visiting vs) := ⟨h.mem, h.rights, h.page, h.modified, h.inhibited⟩

theorem EndsAs.fetching {w' : Walk030} (h : EndsAs w' w) (x : Long × Bool) :
    EndsAs w' (w.fetching x) := ⟨h.mem, h.rights, h.page, h.modified, h.inhibited⟩

theorem SearchEnd.as {w' : Walk030} (h : SearchEnd m w' st) (hw : EndsAs w' w) :
    SearchEnd m w st := by
  obtain ⟨hmem, hrights, hpage, hmodified, hinhibited⟩ := hw
  refine ⟨?_, ?_, ?_⟩
  · rw [← hmem, ← hrights, ← hpage, ← hmodified]
    exact h.state
  · rw [← hinhibited]
    exact h.inhibit
  · rw [← hpage]
    exact h.page

/-- The search stops where it is. -/
theorem SearchOn.stop {x : Word} (h : SearchOn m mem r k t early st)
    (hx : x = mmusrInvalid ∨ x = mmusrLimitViolation ||| mmusrInvalid) :
    SearchEnd m (stopWalk mem r)
      { st with m := { st.m with status := st.m.status ||| x } } := by
  refine ⟨⟨r.status ||| x, m.busErrorReadWrite, ?_, ?_⟩, h.inhibit, h.page⟩
  · exact (statusBits_way r).stop (by tauto)
  · rw [h.state]
    rfl

/-! ## Fetching -/

/-- The search after `descr_addr[++descr_num] = x`. -/
def SearchState.pushed (st : SearchState) (x : Long) (hk : st.v.descrNum + 1 < 7) : SearchState :=
  { st with
    v :=
      { st.v with
        descrNum := st.v.descrNum + 1
        descrAddr := Function.update st.v.descrAddr ⟨st.v.descrNum + 1, hk⟩ x } }

/-- `descr_num` has room for one more descriptor. -/
theorem pushDescrAddr_settles {x : Long} {Q : Unit → SearchState → Prop} {E : SearchState → Prop}
    (hk : st.v.descrNum + 1 < 7) (hq : Q () (st.pushed x hk)) :
    Settles (pushDescrAddr x) st Q E := by
  unfold Settles pushDescrAddr
  rw [dif_pos hk]
  exact hq

theorem descGetLong030_settles {x : Long} {Q : Long → SearchState → Prop} {E : SearchState → Prop}
    (hq : ∀ v, st.m.mem x = some v → Q v st)
    (he : st.m.mem x = none → E { st with m := { st.m with busErrorReadWrite := true } }) :
    Settles (descGetLong030 x) st Q E := by
  unfold Settles descGetLong030
  cases hx : st.m.mem x with
  | none => exact he hx
  | some v => exact hq v hx

theorem descPutLong030_settles {x u v : Long} {Q : Unit → SearchState → Prop}
    {E : SearchState → Prop} (hx : st.m.mem x = some u)
    (hq : Q () { st with
      m := { st.m with mem := Function.update st.m.mem x (some v) } }) :
    Settles (descPutLong030 x v) st Q E := by
  unfold Settles descPutLong030
  rw [hx]
  exact hq

theorem descrAddrAt_settles {n : Nat} {Q : Long → SearchState → Prop} {E : SearchState → Prop}
    (hn : n < 7) (hq : Q (st.v.descrAddr ⟨n, hn⟩) st) : Settles (descrAddrAt n) st Q E := by
  unfold Settles descrAddrAt
  rw [dif_pos hn]
  exact hq

theorem tableAt_settles {n : Nat} {Q : TableIndex → SearchState → Prop} {E : SearchState → Prop}
    (hn : n < 4) (hq : Q (st.m.regs.translation.table ⟨n, hn⟩) st) :
    Settles (tableAt n) st Q E := by
  unfold Settles tableAt
  rw [dif_pos hn]
  exact hq

/-- A bus error on the way. -/
theorem SearchOn.busError (h : SearchOn m mem r k t early st) :
    SearchEnd m (stopWalk mem r)
      (searchCatch { st with m := { st.m with busErrorReadWrite := true } }) := by
  refine ⟨⟨r.status ||| (mmusrBusError ||| mmusrInvalid), true, ?_, ?_⟩, h.inhibit, h.page⟩
  · exact (statusBits_way r).stop (.inr (.inr rfl))
  · unfold searchCatch
    rw [h.state]
    rfl

/-- The search once the descriptor pushed has been fetched. -/
theorem SearchOn.fetched {x : Long} {d' : Desc030} {v : SearchVars}
    (h : SearchOn m mem r k t early st) (hk : st.v.descrNum + 1 < 7) (hx : mem x = some d'.status)
    (hv : v = { (st.pushed x hk).v with
      descr0 := d'.status, descr1 := v.descr1, descrSize := if d'.isLong then 8 else 4 })
    (haddr : addrWord v = d'.addr) :
    SearchAt m mem (some x) d' r (k + 1) t early { st with v := v } := by
  obtain rfl := h.num
  have hd : v.descrAddr = (st.pushed x hk).v.descrAddr := by rw [hv]
  refine ⟨⟨h.state, ?_, ?_, ?_, ?_, ?_, ?_, ?_⟩, ?_, haddr, ?_, ?_, ?_⟩
  · rw [hv]; rfl
  · rw [hv]; exact h.t
  · rw [hv]; exact h.sv
  · rw [hv]; exact h.wp
  · rw [hv]; exact h.early
  · rw [hv]; exact h.inhibit
  · rw [hv]; exact h.page
  · rw [hv]
  · rw [hv]
  · rintro ⟨⟩
  · rintro _ ⟨⟩
    refine ⟨Nat.succ_ne_zero _, hx, hk, ?_⟩
    dsimp only
    rw [hd]
    exact Function.update_self ..

/-- The state of a search whose fetch has been a bus error. -/
def SearchState.busErrored (st : SearchState) : SearchState :=
  { st with m := { st.m with busErrorReadWrite := true } }

/-- The next descriptor is fetched, or the fetch is a bus error. -/
theorem fetchDescr_fetches {long : Bool} {x : Long} (h : SearchOn m mem r k t early st)
    (hk : k + 1 < 7) (hnext : st.v.nextSize = if long then 8 else 4) :
    Settles (fetchDescr x) st
      (fun _ st' => ∃ d', fetchDesc mem x long = some d' ∧
        SearchAt m mem (some x) d' r (k + 1) t early st')
      fun st' => fetchDesc mem x long = none ∧
        ∃ st₀, SearchOn m mem r (k + 1) t early st₀ ∧ st' = st₀.busErrored := by
  obtain rfl := h.num
  have hmem : st.m.mem = mem := by
    rw [h.state]
  have hpushed : SearchOn m mem r (st.v.descrNum + 1) t early (st.pushed x hk) :=
    ⟨h.state, rfl, h.t, h.sv, h.wp, h.early, h.inhibit, h.page⟩
  unfold fetchDescr
  rw [settles_bind]
  refine pushDescrAddr_settles hk ?_
  rw [settles_reads_bind, settles_bind]
  unfold fetchDesc
  cases long with
  | false =>
    refine .ite (fun _ => ?_) fun h4 => absurd hnext h4
    rw [if_neg (by decide), settles_bind]
    refine descGetLong030_settles (fun d hd => ?_) fun hx => ?_
    · have hd' : mem x = some d := hmem ▸ hd
      refine ⟨.short d, by rw [hd']; rfl, h.fetched hk hd' ?_ ?_⟩
      · exact congrArg (fun n => { (st.pushed x hk).v with descr0 := d, descrSize := n }) hnext
      · exact if_pos hnext
    · have hx' : mem x = none := hmem ▸ hx
      exact ⟨by rw [hx']; rfl, _, hpushed, rfl⟩
  | true =>
    have h8 : ¬st.v.nextSize = 4 := by
      rw [hnext]
      decide
    refine .ite (fun h4 => absurd h4 h8) fun _ => ?_
    rw [if_pos rfl, settles_bind]
    refine descGetLong030_settles (fun d hd => ?_) fun hx => ?_
    · have hd' : mem x = some d := hmem ▸ hd
      unfold setVars
      rw [settles_update_bind, settles_bind]
      refine descGetLong030_settles (fun d₁ hd₁ => ?_) fun hx => ?_
      · have hd₁' : mem (x + 4) = some d₁ := hmem ▸ hd₁
        refine ⟨.long d d₁, by rw [hd', hd₁']; rfl, h.fetched hk hd' ?_ ?_⟩
        · exact congrArg
            (fun n => { (st.pushed x hk).v with descr0 := d, descr1 := d₁, descrSize := n }) hnext
        · exact if_neg h8
      · have hx' : mem (x + 4) = none := hmem ▸ hx
        refine ⟨by rw [hd', hx']; rfl, { st.pushed x hk with v := { (st.pushed x hk).v with descr0 := d } },
          ?_, rfl⟩
        exact ⟨hpushed.state, hpushed.num, hpushed.t, hpushed.sv, hpushed.wp, hpushed.early,
          hpushed.inhibit, hpushed.page⟩
    · have hx' : mem x = none := hmem ▸ hx
      exact ⟨by rw [hx']; rfl, _, hpushed, rfl⟩

/-- The same, with what a bus error makes of the walk. -/
theorem fetchDescr_settles {long : Bool} {x : Long} (h : SearchOn m mem r k t early st)
    (hk : k + 1 < 7) (hnext : st.v.nextSize = if long then 8 else 4) :
    Settles (fetchDescr x) st
      (fun _ st' => ∃ d', fetchDesc mem x long = some d' ∧
        SearchAt m mem (some x) d' r (k + 1) t early st')
      fun st' => fetchDesc mem x long = none ∧ SearchEnd m (stopWalk mem r) (searchCatch st') := by
  refine (fetchDescr_fetches h hk hnext).mono (fun _ _ h => h) fun st' ⟨hnone, st₀, hon, hst'⟩ => ⟨hnone, ?_⟩
  rw [hst']
  exact hon.busError

/-! ## Types -/

theorem type_cases (d : Desc030) : d.type = 0 ∨ d.type = 1 ∨ d.type = 2 ∨ d.type = 3 := by
  have hle : d.type.toNat ≤ 3 := by
    unfold Desc030.type
    rw [BitVec.toNat_and]
    exact Nat.and_le_right
  have hof : ∀ n, d.type.toNat = n → d.type = BitVec.ofNat 32 n := fun n hn => by
    rw [← hn, BitVec.ofNat_toNat, BitVec.setWidth_eq]
  have : d.type.toNat = 0 ∨ d.type.toNat = 1 ∨ d.type.toNat = 2 ∨ d.type.toNat = 3 := by omega
  rcases this with hn | hn | hn | hn
  · exact .inl (hof 0 hn)
  · exact .inr (.inl (hof 1 hn))
  · exact .inr (.inr (.inl (hof 2 hn)))
  · exact .inr (.inr (.inr (hof 3 hn)))

/-- The size of the descriptors that `d` leads to. -/
theorem nextSizeOf_eq (h0 : d.type ≠ 0) (h1 : d.type ≠ 1) :
    nextSizeOf d.status = if d.nextLong then 8 else 4 := by
  unfold nextSizeOf
  rcases type_cases d with h | h | h | h
  · exact absurd h h0
  · exact absurd h h1
  · rw [if_pos h, Desc030.nextLong, h]
    rfl
  · have h2 : ¬d.status &&& descrTypeMask = 2 := fun h2 => absurd (h.symm.trans h2) (by decide)
    rw [if_neg h2, Desc030.nextLong, h]
    rfl

theorem descrLabel_goes {Q : SearchLabel → SearchState → Prop} {E : SearchState → Prop}
    (last : Bool) (h : SearchAt m mem a d r k t false st)
    (h0 : d.type = 0 → Q .stopSearch { st with m := { st.m with status := st.m.status ||| mmusrInvalid } })
    (h1 : ∀ st', d.type = 1 → SearchAt m mem a d r k t (!last) st' →
      Q .handlePageDescriptor st')
    (h2 : ∀ st', d.type ≠ 0 → d.type ≠ 1 → SearchAt m mem a d r k t false st' →
      (st'.v.nextSize = if d.nextLong then 8 else 4) → Q .next st') :
    Settles (descrLabel last) st Q E := by
  unfold descrLabel
  rw [settles_reads_bind]
  have htype : st.v.descr0 &&& descrTypeMask = d.type := by
    rw [h.status]
  refine .ite (fun heq => ?_) fun hne0 => .ite (fun heq => ?_) fun hne1 => ?_
  · exact h0 (htype.symm.trans heq)
  · refine h1 _ (htype.symm.trans heq)
      ⟨⟨h.state, h.num, h.t, h.sv, h.wp, ?_, h.inhibit, h.page⟩, h.status, h.addr,
      h.size, h.root, h.fetched⟩
    change (st.v.earlyTermination || !last) = !last
    rw [h.early, Bool.false_or]
  · have hne0' : d.type ≠ 0 := fun heq => hne0 (htype.trans heq)
    have hne1' : d.type ≠ 1 := fun heq => hne1 (htype.trans heq)
    refine h2 _ hne0' hne1' ⟨⟨h.state, h.num, h.t, h.sv, h.wp, h.early, h.inhibit, h.page⟩,
      h.status, h.addr, h.size, h.root, h.fetched⟩ ?_
    change nextSizeOf st.v.descr0 = _
    rw [h.status]
    exact nextSizeOf_eq hne0' hne1'

theorem descrLabel_settles {Q : SearchLabel → SearchState → Prop} {E : SearchState → Prop}
    (last : Bool) (h : SearchAt m mem a d r k t false st)
    (h0 : ∀ st', d.type = 0 → SearchEnd m (stopWalk mem r) st' → Q .stopSearch st')
    (h1 : ∀ st', d.type = 1 → SearchAt m mem a d r k t (!last) st' →
      Q .handlePageDescriptor st')
    (h2 : ∀ st', d.type ≠ 0 → d.type ≠ 1 → SearchAt m mem a d r k t false st' →
      (st'.v.nextSize = if d.nextLong then 8 else 4) → Q .next st') :
    Settles (descrLabel last) st Q E :=
  descrLabel_goes last h (fun htype => h0 _ htype (h.stop (.inl rfl))) h1 h2

/-! ## Table descriptors -/

variable {q : WalkAccess}

/-- The search at a table descriptor whose bits have been dealt with. -/
structure SearchTable (m : Mmu030) (mem : PhysMem) (d : Desc030) (r : WalkRights) (k t : Nat)
    (st : SearchState) : Prop extends SearchOn m mem r k t false st where
  addr : addrWord st.v &&& descrTdAddrMask = d.addr &&& descrTdAddrMask
  excludes : ∀ i, (st.v.descrSize = 8 ∧ limitViolated st.v.descr0 i = true) ↔ d.excludes i = true
  nextSize : st.v.nextSize = if d.nextLong then 8 else 4

/-- `U` and `M` are neither address nor limit bits. -/
theorem limitViolated_or {x b i : Long} (hb : b &&& 0x18 = b) :
    limitViolated (x ||| b) i = limitViolated x i := by
  have hlimit : (x ||| b) &&& descrLimitMask = x &&& descrLimitMask :=
    or_and_of_disjoint hb (by decide)
  have hlower : (x ||| b) &&& descrLowerMask = x &&& descrLowerMask :=
    or_and_of_disjoint hb (by decide)
  unfold limitViolated
  rw [hlimit, hlower]

theorem SearchAt.size_eq (h : SearchAt m mem a d r k t early st) :
    st.v.descrSize = 8 ↔ d.isLong = true := by
  rw [h.size]
  cases d.isLong <;> decide

theorem SearchAt.excludes (h : SearchAt m mem a d r k t early st) (i : Long) :
    (st.v.descrSize = 8 ∧ limitViolated st.v.descr0 i = true) ↔ d.excludes i = true := by
  have hexcl : d.excludes i = (d.isLong && limitViolated d.status i) := rfl
  rw [hexcl, Bool.and_eq_true, h.size_eq, h.status]

/-- `S` of the descriptor, which only a long one has. -/
theorem SearchAt.super (h : SearchAt m mem a d r k t early st) :
    decide (st.v.descrSize = 8 ∧ st.v.descr0 &&& descrS ≠ 0) = d.super := by
  have hsuper : d.super = (d.isLong && decide (d.status &&& descrS ≠ 0)) := rfl
  rw [hsuper, Bool.decide_and, h.status]
  congr 1
  rw [Bool.eq_iff_iff, decide_eq_true_iff]
  exact h.size_eq

theorem status_below (r : WalkRights) (wp sv : Bool) :
    r.status ||| (if r.sv || sv then mmusrSuperViolation else 0) |||
      (if r.wp || wp then mmusrWriteProtected else 0) =
        WalkRights.status ⟨r.wp || wp, r.sv || sv⟩ := by
  obtain ⟨wp', sv'⟩ := r
  cases wp' <;> cases sv' <;> cases wp <;> cases sv <;> rfl

theorem visitBits_one (v : Visited030) : visitBits q [v] = only v.addr (v.bits q) := by
  funext y
  exact BitVec.or_zero

/-- The search with the rights `r`. -/
def SearchState.withRights (st : SearchState) (r : WalkRights) : SearchState :=
  { st with v := { st.v with superViolation := r.sv, writeProtected := r.wp } }

theorem SearchAt.protect {x : Long} (h : SearchAt m mem (some x) d r k t early st) :
    Settles (protect q.super) st (fun _ st' => st' = st.withRights (r.below q (some x) d))
      fun _ => False := by
  have hsv : (st.v.superViolation || (decide (st.v.descrSize = 8 ∧ st.v.descr0 &&& descrS ≠ 0) &&
      !q.super)) = (r.below q (some x) d).sv := by
    rw [h.super, h.sv]
    rfl
  have hwp : (st.v.writeProtected || decide (st.v.descr0 &&& descrWp ≠ 0)) =
      (r.below q (some x) d).wp := by
    rw [h.wp, h.status]
    rfl
  unfold UaeCpu.protect setVars SearchState.withRights
  rw [settles_update]
  dsimp only
  rw [hsv, hwp]

/-- The search once the bits `c` of the descriptor at `x` are set, in memory and in its variable. -/
def SearchState.marked (st : SearchState) (x c : Long) : SearchState :=
  ⟨{ st.m with mem := addBits st.m.mem (only x c) }, { st.v with descr0 := st.v.descr0 ||| c }⟩

/-- Nothing changes if they are set already. -/
theorem marked_eq_self {x c : Long} (st : SearchState) (hx : st.m.mem x = some st.v.descr0)
    (hc : st.v.descr0 &&& c = c) : st.marked x c = st := by
  unfold SearchState.marked
  rw [or_of_and_eq hc, addBits_eq_self (only_set hx hc)]

/-- The bits `b` are set under a condition, which comes to setting those of `c`. -/
theorem markIf_settles {p : Prop} [Decidable p] {x b c : Long} {E : SearchState → Prop}
    (hn : st.v.descrNum < 7) (haddr : st.v.descrAddr ⟨st.v.descrNum, hn⟩ = x)
    (hx : st.m.mem x = some st.v.descr0) (hp : p → st.v.descr0 ||| b = st.v.descr0 ||| c)
    (hnp : ¬p → st.v.descr0 &&& c = c) :
    Settles (if p then do
        setVars fun v => { v with descr0 := v.descr0 ||| b }
        let addr ← descrAddrAt st.v.descrNum
        descPutLong030 addr (st.v.descr0 ||| b)
      else pure ()) st (fun _ st' => st' = st.marked x c) E := by
  refine .ite (fun h => ?_) fun h => ?_
  · unfold setVars SearchState.marked
    rw [settles_update_bind, settles_bind]
    refine descrAddrAt_settles hn ?_
    rw [haddr]
    refine descPutLong030_settles hx ?_
    dsimp only
    rw [hp h, update_eq_addBits hx]
  · rw [settles_pure, marked_eq_self st hx (hnp h)]

/-- The search past the descriptor at `x`: its rights and the bits `c` set. -/
def SearchState.passed (st : SearchState) (m : Mmu030) (mem : PhysMem) (r : WalkRights)
    (x c : Long) : SearchState :=
  ⟨{ m with mem := addBits mem (only x c), s := true, status := r.status },
    { st.v with superViolation := r.sv, writeProtected := r.wp, descr0 := st.v.descr0 ||| c }⟩

theorem SearchAt.protectStatus {x c : Long} {E : SearchState → Prop}
    (h : SearchAt m mem (some x) d r k t early st) :
    Settles UaeCpu.protectStatus ((st.withRights (r.below q (some x) d)).marked x c)
      (fun _ st' => st' = st.passed m mem (r.below q (some x) d) x c) E := by
  have hstatus : r.status ||| (if (r.below q (some x) d).sv then mmusrSuperViolation else 0) |||
      (if (r.below q (some x) d).wp then mmusrWriteProtected else 0) =
        (r.below q (some x) d).status := status_below r d.wp (d.super && !q.super)
  unfold UaeCpu.protectStatus orStatus
  rw [settles_reads_bind, settles_update_bind, settles_update]
  unfold SearchState.marked SearchState.withRights SearchState.passed
  dsimp only [id]
  rw [h.state]
  dsimp only
  rw [hstatus]

section Passed

variable {x c : Long}

theorem SearchAt.passed_on (h : SearchAt m mem (some x) d r k t early st) (r' : WalkRights) :
    SearchOn m (addBits mem (only x c)) r' k t early (st.passed m mem r' x c) :=
  ⟨rfl, h.num, h.t, rfl, rfl, h.early, h.inhibit, h.page⟩

/-- The bits set are not those of the address. -/
theorem SearchAt.passed_addr {b mask : Long} (h : SearchAt m mem (some x) d r k t early st)
    (r' : WalkRights) (hc : c &&& b = c) (hb : b &&& mask = 0) :
    addrWord (st.passed m mem r' x c).v &&& mask = d.addr &&& mask := by
  rw [← h.addr]
  unfold addrWord SearchState.passed
  dsimp only
  split
  · exact or_and_of_disjoint hc hb
  · rfl

/-- Nor are they those of the limit. -/
theorem SearchAt.passed_excludes (h : SearchAt m mem (some x) d r k t early st) (r' : WalkRights)
    (hc : c &&& 0x18 = c) (i : Long) :
    ((st.passed m mem r' x c).v.descrSize = 8 ∧
      limitViolated (st.passed m mem r' x c).v.descr0 i = true) ↔ d.excludes i = true := by
  rw [← h.excludes i]
  unfold SearchState.passed
  dsimp only
  rw [limitViolated_or hc]

end Passed

theorem handleTableDescr_settles {E : SearchState → Prop} (h : SearchAt m mem a d r k t false st)
    (hnext : st.v.nextSize = if d.nextLong then 8 else 4) :
    Settles (handleTableDescr q.super 0) st
      (fun reached st' => reached = false ∧
        SearchTable m (addBits mem (visitBits q (visitOf a false (r.below q a d)))) d
          (r.below q a d) k t st') E := by
  unfold handleTableDescr
  rw [settles_reads_bind]
  refine .ite (fun hroot => ?_) fun hnum => ?_
  · have hk : k = 0 := h.num.symm.trans hroot
    cases a with
    | none =>
      have hmem : addBits mem (visitBits q (visitOf none false (r.below q none d))) = mem :=
        addBits_zero
      rw [settles_pure, hmem]
      exact ⟨rfl, h.toSearchOn, by rw [h.addr], h.excludes, hnext⟩
    | some x => exact absurd hk (h.fetched x rfl).1
  · cases a with
    | none => exact absurd (h.num.trans (h.root rfl)) hnum
    | some x =>
      obtain ⟨-, hx, hk, haddr⟩ := h.fetched x rfl
      obtain rfl := h.num
      refine (h.protect.mono (fun _ _ hp => hp) fun _ hf => hf.elim).bind ?_
      rintro - _ rfl
      rw [settles_reads_bind]
      have hx₁ : st.m.mem x = some st.v.descr0 := by
        rw [h.state, h.status]
        exact hx
      refine Settles.bind (markIf_settles (c := if (r.below q (some x) d).sv then 0 else descrU)
        hk haddr hx₁ ?_ ?_) ?_
      · rintro ⟨-, -, hsv⟩
        have hsv' : (r.below q (some x) d).sv = false := by
          rw [← Bool.not_eq_true']
          exact hsv
        rw [hsv']
        rfl
      · intro hclear
        cases hsv : (r.below q (some x) d).sv with
        | true => exact BitVec.and_zero
        | false =>
          refine (and_bit st.v.descr0 3).resolve_left fun hu => hclear ⟨rfl, hu, ?_⟩
          rw [SearchState.withRights, hsv]
          rfl
      · rintro - _ rfl
        refine (h.protectStatus).bind ?_
        rintro - _ rfl
        rw [settles_pure]
        have hbits : visitBits q (visitOf (some x) false (r.below q (some x) d)) =
            only x (if (r.below q (some x) d).sv then 0 else descrU) := visitBits_one _
        have hc : ∀ b : Long, descrU &&& b = descrU →
            (if (r.below q (some x) d).sv then 0 else descrU) &&& b =
              if (r.below q (some x) d).sv then 0 else descrU := by
          intro b hb
          split
          · exact BitVec.zero_and
          · exact hb
        rw [hbits]
        refine ⟨rfl, h.passed_on _, ?_, ?_, hnext⟩
        · exact h.passed_addr _ (hc descrU (by decide)) (by decide)
        · exact h.passed_excludes _ (hc 0x18 (by decide))

/-! ## Page descriptors -/

/-- The search at a page descriptor whose bits have been dealt with. -/
structure SearchPage (m : Mmu030) (w : Walk030) (d : Desc030) (k t : Nat) (early : Bool)
    (st : SearchState) : Prop where
  state : st.m = { m with
    mem := w.mem
    s := true
    status := w.rights.status ||| (if w.modified then mmusrModified else 0) }
  inhibit : st.v.cacheInhibit = if w.inhibited then cacheDisableMmu else cacheEnableAll
  num : st.v.descrNum = k
  t : st.v.t = t
  early : st.v.earlyTermination = early
  page : st.v.pageAddr = 0
  addr : addrWord st.v &&& descrPdAddrMask = d.addr &&& descrPdAddrMask
  excludes : ∀ i, (st.v.descrSize = 8 ∧ limitViolated st.v.descr0 i = true) ↔ d.excludes i = true

theorem or_bit_of_clear (x : Long) (i : Nat) :
    x ||| (if x &&& BitVec.twoPow 32 i = 0 then BitVec.twoPow 32 i else 0) =
      x ||| BitVec.twoPow 32 i := by
  rcases and_bit x i with h | h
  · rw [if_pos h]
  · split
    · rfl
    · rw [or_of_and_eq h]
      exact BitVec.or_zero

/-- The bits that `touchPageDescr` sets, added to what is there. -/
theorem touched_bits (x : Long) (permit : Prop) [Decidable permit] :
    x ||| ((if x &&& descrM = 0 ∧ permit then descrM else 0) |||
      (if x &&& descrU = 0 then descrU else 0)) =
        x ||| (if permit then descrU ||| descrM else descrU) := by
  have hu : x ||| (if x &&& descrU = 0 then descrU else 0) = x ||| descrU := or_bit_of_clear x 3
  have hm : x ||| (if x &&& descrM = 0 then descrM else 0) = x ||| descrM := or_bit_of_clear x 4
  by_cases hp : permit
  · simp only [hp, and_true, if_true]
    calc x ||| ((if x &&& descrM = 0 then descrM else 0) |||
          (if x &&& descrU = 0 then descrU else 0))
        = (x ||| (if x &&& descrU = 0 then descrU else 0)) |||
            (if x &&& descrM = 0 then descrM else 0) := by
          rw [BitVec.or_assoc, BitVec.or_comm (if x &&& descrU = 0 then descrU else 0)]
      _ = (x ||| (if x &&& descrM = 0 then descrM else 0)) ||| descrU := by
          rw [hu, BitVec.or_assoc, BitVec.or_comm descrU, ← BitVec.or_assoc]
      _ = x ||| (descrU ||| descrM) := by
          rw [hm, BitVec.or_assoc, BitVec.or_comm descrM]
  · simp only [hp, and_false, if_false]
    rw [← hu]
    congr 1
    exact BitVec.zero_or

theorem touchPageDescr_settles {x : Long} {E : SearchState → Prop} {write : Bool}
    (st : SearchState) (hn : st.v.descrNum < 7) (haddr : st.v.descrAddr ⟨st.v.descrNum, hn⟩ = x)
    (hx : st.m.mem x = some st.v.descr0) :
    Settles (touchPageDescr write) st
      (fun _ st' => st' = st.marked x
        (if write ∧ !st.v.writeProtected then descrU ||| descrM else descrU)) E := by
  unfold touchPageDescr
  rw [settles_reads_bind]
  refine markIf_settles hn haddr hx (fun _ => touched_bits _ _) fun hzero => ?_
  have h := touched_bits st.v.descr0 (write = true ∧ (!st.v.writeProtected) = true)
  dsimp only [id] at hzero
  rw [not_not.mp hzero] at h
  exact and_of_or_eq (h.symm.trans BitVec.or_zero)

theorem page_bits {x : Long} {r : WalkRights} (h : r.sv = false) :
    Visited030.bits q ⟨x, true, r⟩ =
      if q.write ∧ !r.wp then descrU ||| descrM else descrU := by
  have hpermit : r.permitWrite q = (q.write && !r.wp) := by
    unfold WalkRights.permitWrite
    rw [h]
    exact Bool.and_true _
  unfold Visited030.bits
  dsimp only
  rw [h, hpermit]
  simp only [Bool.true_and, Bool.and_eq_true, Bool.false_eq_true, if_false]

theorem bits_and (v : Visited030) : v.bits q &&& 0x18 = v.bits q := by
  unfold Visited030.bits
  split
  · exact BitVec.zero_and
  · split <;> rfl

/-- `M` once the bits are set. -/
theorem page_modified (x : Long) (d : Desc030) (r : WalkRights) :
    decide ((d.status ||| Visited030.bits q ⟨x, true, r⟩) &&& descrM ≠ 0) =
      (d.modified || r.permitWrite q) := by
  have hbits : (d.status ||| Visited030.bits q ⟨x, true, r⟩) &&& descrM ≠ 0 ↔
      d.status &&& descrM ≠ 0 ∨ r.permitWrite q = true := by
    rw [BitVec.and_or_distrib_right]
    refine (not_congr BitVec.or_eq_zero_iff).trans ?_
    rw [not_and_or]
    refine or_congr Iff.rfl ?_
    unfold WalkRights.permitWrite
    cases hsv : r.sv with
    | true =>
      have hzero : Visited030.bits q ⟨x, true, r⟩ = 0 := if_pos hsv
      rw [hzero, Bool.not_true, Bool.and_false]
      decide
    | false =>
      rw [page_bits hsv]
      cases q.write <;> cases r.wp <;> decide
  rw [Bool.eq_iff_iff, decide_eq_true_iff, hbits, Bool.or_eq_true]
  unfold Desc030.modified
  rw [decide_eq_true_iff]

theorem pageDescr_settles {E : SearchState → Prop} (h : SearchAt m mem a d r k t early st)
    (levels : List WalkLevel) :
    Settles (pageDescr q.super q.write 0) st
      (fun _ st' => SearchPage m (walkPage q levels mem a d r) d k t early st') E := by
  unfold pageDescr
  rw [settles_reads_bind]
  refine .ite (fun hroot => ?_) fun hnum => ?_
  · have hk : k = 0 := h.num.symm.trans hroot
    cases a with
    | none =>
      have hmem : (walkPage q levels mem none d r).mem = mem := addBits_zero
      rw [settles_pure]
      refine ⟨?_, h.inhibit, h.num, h.t, h.early, h.page, by rw [h.addr], h.excludes⟩
      rw [hmem, h.state]
      congr 1
      exact BitVec.or_zero.symm
    | some x => exact absurd hk (h.fetched x rfl).1
  · cases a with
    | none => exact absurd (h.num.trans (h.root rfl)) hnum
    | some x =>
      obtain ⟨-, hx, hk, haddr⟩ := h.fetched x rfl
      obtain rfl := h.num
      refine (h.protect.mono (fun _ _ hp => hp) fun _ hf => hf.elim).bind ?_
      rintro - _ rfl
      rw [settles_reads_bind]
      have hx₁ : st.m.mem x = some st.v.descr0 := by
        rw [h.state, h.status]
        exact hx
      let v : Visited030 := ⟨x, true, r.below q (some x) d⟩
      refine Settles.bind (P := fun _ st' => st' =
        (st.withRights (r.below q (some x) d)).marked x (v.bits q)) ?_ ?_
      · refine .ite (fun hsv => ?_) fun hsv => ?_
        · have hsv' : (r.below q (some x) d).sv = false := by
            rw [← Bool.not_eq_true']
            exact hsv.2
          refine (touchPageDescr_settles (st.withRights _) hk haddr hx₁).mono
            (fun _ st' hst => ?_) fun _ h => h
          rw [hst]
          congr 1
          exact (page_bits hsv').symm
        · have hsv' : (r.below q (some x) d).sv = true := by
            rw [← Bool.not_eq_false, ← Bool.not_eq_true']
            exact fun hf => hsv ⟨rfl, hf⟩
          have hzero : v.bits q = 0 := if_pos hsv'
          rw [settles_pure, hzero]
          exact (marked_eq_self (st.withRights _) hx₁ BitVec.and_zero).symm
      · rintro - _ rfl
        refine (h.protectStatus).bind ?_
        rintro - _ rfl
        have hmem : (walkPage q levels mem (some x) d r).mem = addBits mem (only x (v.bits q)) :=
          congrArg (addBits mem) (visitBits_one v)
        have hinhibit : (st.v.descr0 ||| v.bits q) &&& descrCi = d.status &&& descrCi := by
          rw [h.status]
          exact or_and_of_disjoint (bits_and v) (by decide)
        unfold setVars orStatus
        rw [settles_update_bind, settles_reads_bind, settles_update]
        have hexcludes := h.passed_excludes v.rights (bits_and (q := q) v)
        have haddr' : addrWord (st.passed m mem v.rights x (v.bits q)).v &&& descrPdAddrMask =
            d.addr &&& descrPdAddrMask := h.passed_addr v.rights (bits_and v) (by decide)
        have hmodified : (if (st.v.descr0 ||| v.bits q) &&& descrM ≠ 0 then mmusrModified else 0) =
            if (walkPage q levels mem (some x) d r).modified then mmusrModified else 0 := by
          have hm := page_modified (q := q) x d (r.below q (some x) d)
          rw [← h.status] at hm
          refine ite_congr ?_ (fun _ => rfl) fun _ => rfl
          rw [← decide_eq_true_iff (p := (st.v.descr0 ||| v.bits q) &&& descrM ≠ 0), hm]
          rfl
        refine ⟨?_, ?_, rfl, h.t, h.early, h.page, haddr', hexcludes⟩
        · rw [hmem, ← hmodified]
          rfl
        · refine ite_congr ?_ (fun _ => rfl) fun _ => rfl
          change ((st.v.descr0 ||| v.bits q) &&& descrCi ≠ 0) =
            ((true && decide (d.status &&& descrCi ≠ 0)) = true)
          rw [hinhibit, Bool.true_and, decide_eq_true_iff]

/-! ## Early termination -/

/-- The levels of the tables from `t` on. -/
def Mmu030Regs.levelsFrom (r : Mmu030Regs) (addr : Long) (t : Nat) : List WalkLevel :=
  (r.tableLevels addr).drop t

theorem levelsFrom_cons {r : Mmu030Regs} {addr : Long} {t : Nat} (hlast : r.lastTable ≤ 3)
    (ht : t ≤ r.lastTable) :
    r.levelsFrom addr t =
      (r.translation.table ⟨t, by omega⟩).level addr :: r.levelsFrom addr (t + 1) := by
  unfold Mmu030Regs.levelsFrom Mmu030Regs.tableLevels
  rw [List.drop_eq_getElem_cons (by simp; omega)]
  simp

theorem levelsFrom_nil {r : Mmu030Regs} {addr : Long} {t : Nat} (ht : r.lastTable < t) :
    r.levelsFrom addr t = [] := by
  unfold Mmu030Regs.levelsFrom Mmu030Regs.tableLevels
  rw [List.drop_eq_nil_iff]
  simp
  omega

/-- The bits of the address that levels are made of. -/
def fieldsOf (levels : List WalkLevel) : Long := levels.foldr (fun l f => l.field ||| f) 0

theorem unusedFieldsMask_settles {E : SearchState → Prop} (addr : Long) (n : Nat) (mask : Long)
    (st : SearchState) (hlast : st.m.regs.lastTable ≤ 3) (ht : st.v.t ≤ st.m.regs.lastTable)
    (hn : st.m.regs.lastTable + 1 - st.v.t ≤ n) :
    Settles (unusedFieldsMask n mask) st
      (fun res st' => res = mask ||| fieldsOf (st.m.regs.levelsFrom addr st.v.t) ∧
        st' = { st with v := { st.v with t := st'.v.t } }) E := by
  induction n generalizing mask st with
  | zero => omega
  | succ n ih =>
    unfold unusedFieldsMask
    rw [settles_reads_bind, settles_bind]
    refine tableAt_settles (by change st.v.t < 4; omega) ?_
    unfold setVars
    rw [settles_update_bind, levelsFrom_cons hlast ht]
    refine .ite (fun hmore => ?_) fun hmore => ?_
    · have hn' : st.m.regs.lastTable + 1 - (st.v.t + 1) ≤ n := by omega
      refine (ih _ { st with v := { st.v with t := st.v.t + 1 } } hlast hmore hn').mono
        (fun res st' hres => ?_) fun _ h => h
      obtain ⟨hres, hst'⟩ := hres
      refine ⟨?_, hst'⟩
      rw [hres, BitVec.or_assoc]
      rfl
    · have hnil : st.m.regs.levelsFrom addr (st.v.t + 1) = [] :=
        levelsFrom_nil (Nat.lt_of_not_le hmore)
      rw [settles_pure, hnil]
      refine ⟨?_, rfl⟩
      rw [fieldsOf, List.foldr_cons, List.foldr_nil]
      congr 1
      exact BitVec.or_zero.symm

/-- The levels left at a page descriptor: none, or the tables from `t` on, with that of the function
codes first at the root pointer. -/
inductive PageLevels (r : Mmu030Regs) (addr : Long) (k t : Nat) : Bool → List WalkLevel → Prop
  | none : PageLevels r addr k t false []
  | tables : t ≤ r.lastTable → k ≠ 0 ∨ r.tc030 &&& tcEnableFcl = 0 →
      PageLevels r addr k t true (r.levelsFrom addr t)
  | functionCodes {fc : Long} : t ≤ r.lastTable → k = 0 → r.tc030 &&& tcEnableFcl ≠ 0 →
      PageLevels r addr k t true (⟨fc, 0, false⟩ :: r.levelsFrom addr t)

theorem PageLevels.t_le {levels : List WalkLevel} {r : Mmu030Regs} {addr : Long}
    (h : PageLevels r addr k t true levels) : t ≤ r.lastTable := by
  cases h with
  | tables ht _ => exact ht
  | functionCodes ht _ _ => exact ht

/-- The function codes are no bits of the address. -/
theorem PageLevels.fields {levels : List WalkLevel} {r : Mmu030Regs} {addr : Long}
    (h : PageLevels r addr k t true levels) : fieldsOf levels = fieldsOf (r.levelsFrom addr t) := by
  cases h with
  | tables _ _ => rfl
  | functionCodes _ _ _ => exact BitVec.zero_or

theorem earlyLimitViolated_settles {E : SearchState → Prop} {levels : List WalkLevel}
    (h : SearchPage m w d k t true st) (hlast : m.regs.lastTable ≤ 3)
    (hlevels : PageLevels m.regs q.addr k t true levels) :
    Settles (earlyLimitViolated q.addr) st
      (fun violated st' => st' = st ∧
        violated = levels.head?.any fun l => l.limited && d.excludes l.index) E := by
  have hregs : st.m.regs = m.regs := by
    rw [h.state]
  rw [← hregs] at hlast hlevels
  obtain rfl := h.num
  obtain rfl := h.t
  unfold earlyLimitViolated
  rw [settles_reads_bind]
  cases hlevels with
  | tables ht hk =>
    have hhead : (st.m.regs.levelsFrom q.addr st.v.t).head?.any
        (fun l => l.limited && d.excludes l.index) =
          d.excludes ((st.m.regs.translation.table ⟨st.v.t, by omega⟩).of q.addr) := by
      rw [levelsFrom_cons hlast ht]
      rfl
    rw [hhead]
    refine .ite (fun hc => ?_) fun hc => ?_
    · rw [settles_bind]
      refine tableAt_settles (by change st.v.t < 4; omega) ?_
      rw [settles_pure]
      refine ⟨rfl, ?_⟩
      rw [Bool.eq_iff_iff, ← h.excludes]
      exact ⟨fun hv => ⟨hc.2, hv⟩, And.right⟩
    · rw [settles_pure]
      refine ⟨rfl, ?_⟩
      rw [Bool.eq_iff_iff, ← h.excludes]
      exact ⟨fun hf => (by cases hf), fun hv => absurd ⟨hk, hv.1⟩ hc⟩
  | functionCodes ht hk hfcl =>
    refine .ite (fun hc => ?_) fun _ => ⟨rfl, rfl⟩
    exact absurd hc.1 (by rintro (hne | hoff); exacts [hne hk, hfcl hoff])

/-- The page is there. -/
theorem SearchPage.resident {x : Long} {v : SearchVars} (h : SearchPage m w d k t early st)
    (hpage : w.page = some x) (hinhibit : v.cacheInhibit = st.v.cacheInhibit)
    (hx : v.pageAddr = x) : SearchEnd m w { st with v := v } := by
  refine ⟨⟨_, m.busErrorReadWrite, ?_, h.state⟩, hinhibit.trans h.inhibit, ?_⟩
  · rw [hpage]
    exact statusBits_page w.rights w.modified
  · rw [hpage]
    exact hx

/-- The limit excludes it. -/
theorem SearchPage.limit (h : SearchPage m w d k t early st) (hpage : w.page = none) :
    SearchEnd m w { st with
      m := { st.m with status := st.m.status ||| (mmusrLimitViolation ||| mmusrInvalid) } } := by
  refine ⟨⟨w.rights.status ||| (if w.modified then mmusrModified else 0) |||
    (mmusrLimitViolation ||| mmusrInvalid), m.busErrorReadWrite, ?_, ?_⟩, h.inhibit, ?_⟩
  · rw [hpage]
    exact (statusBits_page w.rights w.modified).stop (.inr (.inl rfl))
  · dsimp only
    rw [h.state]
  · rw [hpage]
    exact h.page

theorem handlePageDescr_settles {E : SearchState → Prop} {levels : List WalkLevel}
    (h : SearchAt m mem a d r k t early st) (hlast : m.regs.lastTable ≤ 3)
    (hlevels : PageLevels m.regs q.addr k t early levels) :
    Settles (handlePageDescr q.addr q.super q.write 0) st
      (fun _ st' => SearchEnd m (walkPage q levels mem a d r) st') E := by
  unfold handlePageDescr
  refine (pageDescr_settles h levels).bind fun _ st₁ h₁ => ?_
  rw [settles_reads_bind]
  cases early with
  | false =>
    cases hlevels
    refine .ite (fun hearly => absurd (h₁.early.symm.trans hearly) (by decide)) fun _ => ?_
    have hpage : (walkPage q [] mem a d r).page =
        some ((q.addr &&& 0) + (d.addr &&& descrPdAddrMask)) := rfl
    refine h₁.resident hpage rfl ?_
    change st₁.v.pageAddr + (addrWord st₁.v &&& descrPdAddrMask) = _
    rw [h₁.page, h₁.addr]
    congr 1
    exact BitVec.and_zero.symm
  | true =>
    have hregs : st₁.m.regs = m.regs := by
      rw [h₁.state]
    refine .ite (fun _ => ?_) fun hearly => absurd h₁.early hearly
    refine (earlyLimitViolated_settles h₁ hlast hlevels).bind ?_
    rintro violated st₂ ⟨hst₂, hviolated⟩
    rw [hst₂]
    refine .ite (fun hlimit => ?_) fun hlimit => ?_
    · refine h₁.limit ?_
      unfold walkPage
      rw [← hviolated]
      exact if_pos hlimit
    · have hpage : (walkPage q levels mem a d r).page =
          some ((q.addr &&& fieldsOf levels) + (d.addr &&& descrPdAddrMask)) := by
        unfold walkPage
        rw [← hviolated]
        exact if_neg hlimit
      have ht : st₁.v.t ≤ st₁.m.regs.lastTable := by
        rw [h₁.t, hregs]
        exact hlevels.t_le
      refine (unusedFieldsMask_settles q.addr 4 0 st₁ (by rw [hregs]; exact hlast) ht
        (by rw [hregs]; omega)).bind ?_
      rintro res st₃ ⟨hres, hst₃⟩
      rw [hst₃]
      refine h₁.resident hpage rfl ?_
      change (q.addr &&& res) + (addrWord st₁.v &&& descrPdAddrMask) = _
      rw [hres, h₁.addr, h₁.t, hregs, hlevels.fields]
      congr 2
      exact BitVec.zero_or

/-! ## Levels -/

/-- Where the search goes on, for a walk that ends as `w`. -/
def SearchGoes (m : Mmu030) (q : WalkAccess) (w : Walk030) : SearchLabel → SearchState → Prop
  | .stopSearch, st => SearchEnd m w st
  | .handlePageDescriptor, st => ∃ levels mem a d r k t early,
      SearchAt m mem a d r k t early st ∧ PageLevels m.regs q.addr k t early levels ∧
        EndsAs (walkPage q levels mem a d r) w
  | .next, st => ∃ mem a d r k t, SearchAt m mem a d r k t false st ∧ k + 1 < 7 ∧
      (st.v.nextSize = if d.nextLong then 8 else 4) ∧ EndsAs (walkIndirect q mem d r) w

theorem walkFrom_zero (levels : List WalkLevel) (h : d.type = 0) :
    walkFrom q levels mem a d r = stopWalk mem r := by
  cases levels <;> exact if_pos h

theorem walkFrom_one (levels : List WalkLevel) (h : d.type = 1) :
    walkFrom q levels mem a d r = walkPage q levels mem a d r := by
  have h0 : d.type ≠ 0 := by
    rw [h]
    decide
  cases levels with
  | nil => exact (if_neg h0).trans (if_pos h)
  | cons l levels => exact (if_neg h0).trans (if_pos h)

theorem walkFrom_nil (h0 : d.type ≠ 0) (h1 : d.type ≠ 1) :
    walkFrom q [] mem a d r = walkIndirect q mem d r := (if_neg h0).trans (if_neg h1)

/-- A level passes on to the next, unless its limit or a bus error ends the walk. -/
theorem walkFrom_cons (l : WalkLevel) (levels : List WalkLevel) (h0 : d.type ≠ 0)
    (h1 : d.type ≠ 1) :
    EndsAs (
      let r' := r.below q a d
      let mem' := addBits mem (visitBits q (visitOf a false r'))
      if l.limited && d.excludes l.index then stopWalk mem' r'
      else
        match fetchDesc mem' (d.nextAddr l.index) d.nextLong with
        | none => stopWalk mem' r'
        | some d' => walkFrom q levels mem' (some (d.nextAddr l.index)) d' r')
      (walkFrom q (l :: levels) mem a d r) := by
  rw [walkFrom, if_neg h0, if_neg h1]
  dsimp only
  refine EndsAs.visiting ?_ _
  split
  · exact .refl _
  · exact (EndsAs.refl _).fetching _

/-- What is left of the walk `w` at the descriptor `d`, which is a table. -/
structure SearchOpen (m : Mmu030) (q : WalkAccess) (w : Walk030) (k t : Nat) (st : SearchState)
    (mem : PhysMem) (a : Option Long) (d : Desc030) (r : WalkRights) : Prop where
  here : SearchAt m mem a d r k t false st
  nonzero : d.type ≠ 0
  table : d.type ≠ 1
  nextSize : st.v.nextSize = if d.nextLong then 8 else 4
  rest : EndsAs (walkFrom q (m.regs.levelsFrom q.addr t) mem a d r) w

theorem EndsAs.trans {w₁ w₂ w₃ : Walk030} (h : EndsAs w₁ w₂) (h' : EndsAs w₂ w₃) :
    EndsAs w₁ w₃ :=
  ⟨h.mem.trans h'.mem, h.rights.trans h'.rights, h.page.trans h'.page,
    h.modified.trans h'.modified, h.inhibited.trans h'.inhibited⟩

/-- The type of the next descriptor of a table, after `t` tables. -/
theorem tableLabel_settles {x : Long} {E : SearchState → Prop}
    (h : SearchAt m mem (some x) d r (k + 1) t false st)
    (hw : EndsAs (walkFrom q (m.regs.levelsFrom q.addr t) mem (some x) d r) w) :
    Settles (descrLabel (decide (m.regs.lastTable < t))) st
      (fun label st' => match label with
        | .next => ∃ mem a d r, SearchOpen m q w (k + 1) t st' mem a d r
        | label => SearchGoes m q w label st') E := by
  refine descrLabel_settles _ h (fun st' htype hend => ?_) (fun st' htype hat => ?_)
    fun st' h0 h1 hat hsize => ⟨mem, some x, d, r, hat, h0, h1, hsize, hw⟩
  · rw [walkFrom_zero _ htype] at hw
    exact hend.as hw
  · rw [walkFrom_one _ htype] at hw
    refine ⟨_, mem, some x, d, r, k + 1, t, _, hat, ?_, hw⟩
    by_cases ht : t ≤ m.regs.lastTable
    · rw [decide_eq_false (Nat.not_lt.mpr ht)]
      exact .tables ht (.inl (Nat.succ_ne_zero k))
    · rw [decide_eq_true (Nat.lt_of_not_le ht), levelsFrom_nil (Nat.lt_of_not_le ht)]
      exact .none

theorem tableRound_settles (h : SearchOpen m q w k t st mem a d r) (hlast : m.regs.lastTable ≤ 3)
    (ht : t ≤ m.regs.lastTable) (hk : k ≤ t + 1) :
    Settles (tableRound q.addr q.super 0) st
      (fun label st' => match label with
        | .next => ∃ mem a d r, SearchOpen m q w (k + 1) (t + 1) st' mem a d r
        | label => SearchGoes m q w label st')
      fun st' => SearchEnd m w (searchCatch st') := by
  have hw := h.rest
  rw [levelsFrom_cons hlast ht] at hw
  have hstep : EndsAs _ w := (walkFrom_cons ((m.regs.translation.table ⟨t, by omega⟩).level q.addr)
    (m.regs.levelsFrom q.addr (t + 1)) h.nonzero h.table).trans hw
  unfold tableRound
  refine (handleTableDescr_settles h.here h.nextSize).bind ?_
  rintro _ st₁ ⟨rfl, h₁⟩
  refine .ite (fun hf => absurd hf (by decide)) fun _ => ?_
  obtain rfl := h₁.t
  have hregs : st₁.m.regs = m.regs := by
    rw [h₁.state]
  have hti : st₁.m.regs.translation.table ⟨st₁.v.t, by omega⟩ =
      m.regs.translation.table ⟨st₁.v.t, by omega⟩ := by
    rw [hregs]
  rw [settles_reads_bind]
  dsimp only [id]
  rw [settles_bind]
  refine tableAt_settles (by omega) ?_
  rw [hti]
  unfold setVars
  rw [settles_update_bind]
  have hon : SearchOn m (addBits mem (visitBits q (visitOf a false (r.below q a d))))
      (r.below q a d) k (st₁.v.t + 1) false
      { st₁ with v := { st₁.v with t := st₁.v.t + 1 } } :=
    ⟨h₁.state, h₁.num, rfl, h₁.sv, h₁.wp, h₁.early, h₁.inhibit, h₁.page⟩
  have hexcludes := h₁.excludes ((m.regs.translation.table ⟨st₁.v.t, by omega⟩).of q.addr)
  refine .ite (fun hlimit => ?_) fun hlimit => ?_
  · rw [if_pos (by rw [Bool.and_eq_true]; exact ⟨rfl, hexcludes.mp hlimit⟩)] at hstep
    exact (hon.stop (.inr rfl)).as hstep
  · rw [if_neg (by rw [Bool.and_eq_true]; exact fun hc => hlimit (hexcludes.mpr hc.2))] at hstep
    have haddr : (addrWord st₁.v &&& descrTdAddrMask) +
        (m.regs.translation.table ⟨st₁.v.t, by omega⟩).of q.addr * BitVec.ofNat 32 st₁.v.nextSize =
          d.nextAddr ((m.regs.translation.table ⟨st₁.v.t, by omega⟩).of q.addr) := by
      rw [h₁.addr, h₁.nextSize]
      unfold Desc030.nextAddr
      cases d.nextLong <;> rfl
    have hlevel : ((m.regs.translation.table ⟨st₁.v.t, by omega⟩).level q.addr).index =
        (m.regs.translation.table ⟨st₁.v.t, by omega⟩).of q.addr := rfl
    rw [haddr]
    refine ((fetchDescr_settles hon (by omega) h₁.nextSize).mono (fun _ _ h => h) ?_).bind ?_
    · rintro st' ⟨hnone, hend⟩
      rw [hlevel, hnone] at hstep
      exact hend.as hstep
    · rintro - st₂ ⟨d', hsome, hat⟩
      rw [hlevel, hsome] at hstep
      have hregs₂ : st₂.m.regs = m.regs := by
        rw [hat.state]
      have hlast : decide (st₂.m.regs.lastTable < st₂.v.t) =
          decide (m.regs.lastTable < st₁.v.t + 1) := by
        rw [hregs₂, hat.t]
      rw [settles_reads_bind]
      change Settles (descrLabel (decide (st₂.m.regs.lastTable < st₂.v.t))) _ _ _
      rw [hlast]
      exact tableLabel_settles hat hstep

/-- The tables: each round leads one level down. -/
theorem tableRounds_settles (n : Nat) (h : SearchOpen m q w k t st mem a d r)
    (hlast : m.regs.lastTable ≤ 3) (ht : t ≤ m.regs.lastTable) (hk : k ≤ t + 1)
    (hn : m.regs.lastTable + 1 - t ≤ n) :
    Settles (tableRounds q.addr q.super 0 n) st (fun label st' => SearchGoes m q w label st')
      fun st' => SearchEnd m w (searchCatch st') := by
  induction n generalizing st mem a d r k t with
  | zero => omega
  | succ n ih =>
    unfold tableRounds
    refine (tableRound_settles h hlast ht hk).bind fun label st₁ h₁ => ?_
    refine .ite (fun hlabel => ?_) fun hlabel => ?_
    · subst hlabel
      obtain ⟨mem₁, a₁, d₁, r₁, h₁⟩ := h₁
      have hregs : st₁.m.regs = m.regs := by
        rw [h₁.here.state]
      have hle : st₁.v.t ≤ st₁.m.regs.lastTable ↔ t + 1 ≤ m.regs.lastTable := by
        rw [hregs, h₁.here.t]
      rw [settles_reads_bind]
      refine .ite (fun hmore => ?_) fun hmore => ?_
      · exact ih h₁ (hle.mp hmore) (by omega) (by omega)
      · have hmore : ¬t + 1 ≤ m.regs.lastTable := fun hc => hmore (hle.mpr hc)
        have hrest := h₁.rest
        rw [levelsFrom_nil (Nat.lt_of_not_le hmore), walkFrom_nil h₁.nonzero h₁.table] at hrest
        exact ⟨mem₁, a₁, d₁, r₁, k + 1, t + 1, h₁.here, by omega, h₁.nextSize, hrest⟩
    · rw [settles_pure]
      cases label with
      | next => exact absurd rfl hlabel
      | stopSearch => exact h₁
      | handlePageDescriptor => exact h₁

theorem walkIndirect_ends (mem : PhysMem) (d : Desc030) (r : WalkRights) :
    EndsAs (match fetchDesc mem (d.addr &&& descrIdAddrMask) d.nextLong with
      | none => stopWalk mem r
      | some d' =>
        if d'.type = 1 then walkPage q [] mem (some (d.addr &&& descrIdAddrMask)) d' r
        else stopWalk mem r) (walkIndirect q mem d r) := (EndsAs.refl _).fetching _

theorem indirectDescr_settles (h : SearchGoes m q w .next st) :
    Settles (indirectDescr 0) st
      (fun label st' => label ≠ .next ∧ SearchGoes m q w label st')
      fun st' => SearchEnd m w (searchCatch st') := by
  obtain ⟨mem, a, d, r, k, t, h, hk, hnext, hw⟩ := h
  have hw := (walkIndirect_ends mem d r).trans hw
  unfold indirectDescr
  rw [settles_reads_bind]
  refine .ite (fun hc => absurd rfl hc.1) fun _ => ?_
  dsimp only [id]
  rw [h.addr]
  refine ((fetchDescr_settles h.toSearchOn hk hnext).mono (fun _ _ h => h) ?_).bind ?_
  · rintro st' ⟨hnone, hend⟩
    rw [hnone] at hw
    exact hend.as hw
  · rintro - st₁ ⟨d', hsome, hat⟩
    rw [hsome] at hw
    have htype : st₁.v.descr0 &&& descrTypeMask = d'.type := by
      rw [hat.status]
    dsimp only at hw
    rw [settles_reads_bind]
    refine .ite (fun hne => ?_) fun heq => ?_
    · rw [if_neg fun hc => hne (htype.trans hc)] at hw
      exact ⟨by decide, (hat.stop (.inl rfl)).as hw⟩
    · rw [if_pos (htype.symm.trans (not_not.mp heq))] at hw
      exact ⟨by decide, [], mem, _, d', r, k + 1, t, false, hat, .none, hw⟩

/-! ## The whole search -/

/-- The first descriptor is the root pointer. -/
theorem startSearch_at (m : Mmu030) (fc : Long) :
    SearchAt m m.mem none (rootDesc (rootPointer m (decide (fc &&& 4 ≠ 0)))) ⟨false, false⟩ 0 0
      false (startSearch fc m) :=
  ⟨⟨rfl, rfl, rfl, rfl, rfl, rfl, rfl, rfl⟩, rfl, rfl, rfl, fun _ => rfl, by rintro _ ⟨⟩⟩

theorem levels_of_fcl {r : Mmu030Regs} {addr fc : Long} (h : r.tc030 &&& tcEnableFcl ≠ 0) :
    r.levels addr fc = ⟨fc, 0, false⟩ :: r.levelsFrom addr 0 := by
  unfold Mmu030Regs.levels
  rw [if_pos h]
  rfl

theorem levels_of_not_fcl {r : Mmu030Regs} {addr fc : Long} (h : r.tc030 &&& tcEnableFcl = 0) :
    r.levels addr fc = r.levelsFrom addr 0 := by
  unfold Mmu030Regs.levels
  rw [if_neg (not_not.mpr h)]
  rfl

/-- The type of the root pointer. -/
theorem rootLabel_settles {fc : Long} {E : SearchState → Prop}
    (h : SearchAt m mem none d r 0 0 false st)
    (hw : EndsAs (walkFrom q (m.regs.levels q.addr fc) mem none d r) w) :
    Settles (descrLabel false) st
      (fun label st' => match label with
        | .next => SearchAt m mem none d r 0 0 false st' ∧ d.type ≠ 0 ∧ d.type ≠ 1 ∧
            st'.v.nextSize = if d.nextLong then 8 else 4
        | label => SearchGoes m q w label st') E := by
  refine descrLabel_settles _ h (fun st' htype hend => ?_) (fun st' htype hat => ?_)
    fun st' h0 h1 hat hsize => ⟨hat, h0, h1, hsize⟩
  · rw [walkFrom_zero _ htype] at hw
    exact hend.as hw
  · rw [walkFrom_one _ htype] at hw
    refine ⟨_, mem, none, d, r, 0, 0, _, hat, ?_, hw⟩
    by_cases hfcl : m.regs.tc030 &&& tcEnableFcl = 0
    · rw [levels_of_not_fcl hfcl]
      exact .tables (Nat.zero_le _) (.inr hfcl)
    · rw [levels_of_fcl hfcl]
      exact .functionCodes (Nat.zero_le _) rfl hfcl

/-- The table of the function codes. -/
theorem fclTable_settles {fc : Long} (h : SearchAt m mem none d r 0 0 false st)
    (h0 : d.type ≠ 0) (h1 : d.type ≠ 1) (hnext : st.v.nextSize = if d.nextLong then 8 else 4)
    (hfcl : m.regs.tc030 &&& tcEnableFcl ≠ 0)
    (hw : EndsAs (walkFrom q (m.regs.levels q.addr fc) mem none d r) w) :
    Settles (fclTable fc) st
      (fun label st' => match label with
        | .next => ∃ mem a d r, SearchOpen m q w 1 0 st' mem a d r
        | label => SearchGoes m q w label st')
      fun st' => SearchEnd m w (searchCatch st') := by
  rw [levels_of_fcl hfcl] at hw
  have hstep : EndsAs _ w := (walkFrom_cons ⟨fc, 0, false⟩ (m.regs.levelsFrom q.addr 0) h0 h1).trans hw
  have hmem : addBits mem (visitBits q (visitOf none false (r.below q none d))) = mem :=
    addBits_zero
  have hrights : r.below q none d = r := rfl
  dsimp only at hstep
  rw [hmem, hrights, Bool.false_and, if_neg (by decide)] at hstep
  unfold fclTable
  rw [settles_reads_bind]
  dsimp only [id]
  have haddr : (addrWord st.v &&& descrTdAddrMask) + fc * BitVec.ofNat 32 st.v.nextSize =
      d.nextAddr fc := by
    rw [h.addr, hnext]
    unfold Desc030.nextAddr
    cases d.nextLong <;> rfl
  rw [haddr]
  refine ((fetchDescr_settles h.toSearchOn (by decide) hnext).mono (fun _ _ h => h) ?_).bind ?_
  · rintro st' ⟨hnone, hend⟩
    rw [hnone] at hstep
    exact hend.as hstep
  · rintro - st₁ ⟨d', hsome, hat⟩
    rw [hsome] at hstep
    have hlabel := tableLabel_settles (E := fun st' => SearchEnd m w (searchCatch st')) hat hstep
    rw [decide_eq_false (Nat.not_lt_zero _)] at hlabel
    exact hlabel

/-- The search from the tables on. -/
theorem tableTail_settles {label : SearchLabel} (hlast : m.regs.lastTable ≤ 3)
    (h : match label with
      | .next => ∃ mem a d r k, k ≤ 1 ∧ SearchOpen m q w k 0 st mem a d r
      | label => SearchGoes m q w label st) :
    Settles (do
        let label ← (if label = .next then tableRounds q.addr q.super 0 4 else pure label)
        let label ← (if label = .next then indirectDescr 0 else pure label)
        if label = .handlePageDescriptor then handlePageDescr q.addr q.super q.write 0
        else pure ()) st (fun _ st' => SearchEnd m w st')
      fun st' => SearchEnd m w (searchCatch st') := by
  refine Settles.bind (P := fun label st' => SearchGoes m q w label st') ?_ fun label st₁ h₁ => ?_
  · refine .ite (fun hc => ?_) fun hc => ?_
    · subst hc
      obtain ⟨mem, a, d, r, k, hk, h⟩ := h
      exact tableRounds_settles 4 h hlast (Nat.zero_le _) hk (by omega)
    · rw [settles_pure]
      cases label with
      | next => exact absurd rfl hc
      | stopSearch => exact h
      | handlePageDescriptor => exact h
  refine Settles.bind (P := fun label st' => label ≠ .next ∧ SearchGoes m q w label st') ?_ ?_
  · refine .ite (fun hc => ?_) fun hc => ?_
    · subst hc
      exact indirectDescr_settles h₁
    · exact ⟨hc, h₁⟩
  rintro label st₂ ⟨hne, h₂⟩
  refine .ite (fun hc => ?_) fun hc => ?_
  · subst hc
    obtain ⟨levels, mem, a, d, r, k, t, early, hat, hlevels, hends⟩ := h₂
    exact (handlePageDescr_settles hat hlast hlevels).mono (fun _ _ h => h.as hends) fun _ h => h
  · rw [settles_pure]
    cases label with
    | next => exact absurd rfl hne
    | stopSearch => exact h₂
    | handlePageDescriptor => exact absurd rfl hc

/-- The search for an access comes back, with the outcome of the walk. -/
theorem tableSearch_settles (m : Mmu030) (addr fc : Long) (write : Bool)
    (hlast : m.regs.lastTable ≤ 3) :
    Settles (tableSearch addr fc write 0) (startSearch fc m)
      (fun _ st => SearchEnd m (m.walk addr fc write) st)
      fun st => SearchEnd m (m.walk addr fc write) (searchCatch st) := by
  let q : WalkAccess := ⟨addr, decide (fc &&& 4 ≠ 0), write⟩
  have hw : EndsAs (walkFrom q (m.regs.levels addr fc) m.mem none
      (rootDesc (rootPointer m q.super)) ⟨false, false⟩) (m.walk addr fc write) := .refl _
  unfold tableSearch
  dsimp only
  rw [settles_reads_bind]
  refine (rootLabel_settles (startSearch_at m fc) hw).bind fun label st₁ h₁ => ?_
  refine Settles.bind (P := fun label st' => match label with
    | .next => ∃ mem a d r k, k ≤ 1 ∧ SearchOpen m q (m.walk addr fc write) k 0 st' mem a d r
    | label => SearchGoes m q (m.walk addr fc write) label st') ?_ fun label st₂ h₂ => ?_
  rotate_left
  · have htail := tableTail_settles hlast h₂
    dsimp only [q] at htail
    exact htail
  refine .ite (fun hc => ?_) fun hc => ?_
  · obtain ⟨rfl, hfcl⟩ := hc
    obtain ⟨hat, h0, h1, hsize⟩ := h₁
    refine (fclTable_settles hat h0 h1 hsize hfcl hw).mono (fun label st' h => ?_) fun _ h => h
    cases label with
    | next =>
      obtain ⟨mem, a, d, r, h⟩ := h
      exact ⟨mem, a, d, r, 1, Nat.le_refl _, h⟩
    | stopSearch => exact h
    | handlePageDescriptor => exact h
  · rw [settles_pure]
    cases label with
    | next =>
      have hfcl : m.regs.tc030 &&& tcEnableFcl = 0 := not_not.mp fun h => hc ⟨rfl, h⟩
      obtain ⟨hat, h0, h1, hsize⟩ := h₁
      rw [levels_of_not_fcl hfcl] at hw
      exact ⟨_, _, _, _, 0, Nat.zero_le _, hat, h0, h1, hsize, hw⟩
    | stopSearch => exact h₁
    | handlePageDescriptor => exact h₁

end Search

end UaeCpu
