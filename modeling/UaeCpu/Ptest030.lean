import UaeCpu.AtcRefill

/-!
# UaeCpu.Ptest030

The table search of `PTEST` with a level of 1 to 7: a walk cut at that level, which marks nothing and
makes no line.

* `ptestFrom`              — the walk that is cut, and what is known of it there.
* `tableSearch_ptest`      — the search with a level is that walk.
* `mmu030TableSearch_ptest` — all else is as before.
-/

namespace UaeCpu

open Fault FaultM Marks

/-! ## The walk, cut -/

/-- What is known of a walk: the bits of MMUSR, and how many descriptors it has come by. -/
structure PtestWalk where
  status : Word
  levels : Nat
  deriving DecidableEq

section Walk

variable (q : WalkAccess) (mem : PhysMem) (level : Nat)

/-- The walk has come to a page. -/
def ptestPage (levels : List WalkLevel) (a : Option Long) (d : Desc030) (r : WalkRights) (n : Nat) :
    PtestWalk :=
  let r := r.below q a d
  { status := (r.status ||| if a.isSome && d.modified then mmusrModified else 0) |||
      if levels.head?.any fun l => l.limited && d.excludes l.index then
        mmusrLimitViolation ||| mmusrInvalid
      else 0
    levels := n }

/-- The walk has come to an indirect descriptor. -/
def ptestIndirect (d : Desc030) (r : WalkRights) (n : Nat) : PtestWalk :=
  let a := d.addr &&& descrIdAddrMask
  if level = n then ⟨r.status, n⟩
  else
    match fetchDesc mem a d.nextLong with
    | none => ⟨r.status ||| (mmusrBusError ||| mmusrInvalid), n⟩
    | some d' =>
      if d'.type = 1 then ptestPage q [] (some a) d' r (n + 1) else ⟨r.status ||| mmusrInvalid, n + 1⟩

/-- The walk from the descriptor `d` at `a` on, the `n`th it comes by: it goes no further than to
the descriptor of `level`. -/
def ptestFrom : List WalkLevel → Option Long → Desc030 → WalkRights → Nat → PtestWalk
  | [], a, d, r, n =>
    if d.type = 0 then ⟨r.status ||| mmusrInvalid, n⟩
    else if d.type = 1 then ptestPage q [] a d r n
    else ptestIndirect q mem level d r n
  | l :: levels, a, d, r, n =>
    if d.type = 0 then ⟨r.status ||| mmusrInvalid, n⟩
    else if d.type = 1 then ptestPage q (l :: levels) a d r n
    else
      let r := r.below q a d
      let next := d.nextAddr l.index
      if level = n then ⟨r.status, n⟩
      else if l.limited && d.excludes l.index then
        ⟨r.status ||| (mmusrLimitViolation ||| mmusrInvalid), n⟩
      else
        match fetchDesc mem next d.nextLong with
        | none => ⟨r.status ||| (mmusrBusError ||| mmusrInvalid), n⟩
        | some d' => ptestFrom levels (some next) d' r (n + 1)

end Walk

/-- The walk of a `PTEST`, from the root pointer. -/
def Mmu030.ptestWalk (m : Mmu030) (addr fc : Long) (write : Bool) (level : Nat) : PtestWalk :=
  let super := decide (fc &&& 4 ≠ 0)
  ptestFrom ⟨addr, super, write⟩ m.mem level (m.regs.levels addr fc) none
    (rootDesc (rootPointer m super)) ⟨false, false⟩ 0

/-- What MMUSR has of it. -/
def PtestWalk.mmusr (o : PtestWalk) : Word := (o.status &&& ~~~mmusrNumLevelsMask) ||| BitVec.ofNat 16 o.levels

/-! ## The search -/

section Search

variable {m : Mmu030} {mem : PhysMem} {a : Option Long} {d : Desc030} {r : WalkRights} {k t level : Nat} {early : Bool}
  {st : SearchState} {q : WalkAccess} {o : PtestWalk}

/-- The search has ended as the walk does, and has left memory alone. -/
structure PtestEnd (m : Mmu030) (o : PtestWalk) (st : SearchState) : Prop where
  state : ∃ b, st.m = { m with s := true, status := o.status, busErrorReadWrite := b }
  num : st.v.descrNum = o.levels
  few : o.levels < 7

theorem SearchOn.ptestStop (h : SearchOn m m.mem r k t early st) (hk : k < 7) (x : Word) :
    PtestEnd m ⟨r.status ||| x, k⟩ { st with m := { st.m with status := st.m.status ||| x } } := by
  refine ⟨⟨m.busErrorReadWrite, ?_⟩, h.num, hk⟩
  rw [h.state]

theorem SearchOn.ptestBusError {st₀ : SearchState} (h : SearchOn m m.mem r (k + 1) t early st₀) (hk : k < 7) :
    PtestEnd m ⟨r.status ||| (mmusrBusError ||| mmusrInvalid), k⟩ (searchCatch st₀.busErrored) := by
  refine ⟨⟨true, ?_⟩, ?_, hk⟩
  · unfold searchCatch SearchState.busErrored
    rw [h.state]
  · change st₀.v.descrNum - 1 = k
    rw [h.num]
    rfl

theorem addBits_only_zero (mem : PhysMem) (x : Long) : addBits mem (only x 0) = mem := by
  have hzero : (only x 0 : Long → Long) = fun _ => 0 := by
    funext y
    unfold only
    split <;> rfl
  rw [hzero]
  exact addBits_zero

/-- A table descriptor is left as it is. -/
theorem handleTableDescr_ptest {E : SearchState → Prop} (hl : level ≠ 0)
    (h : SearchAt m m.mem a d r k t false st) (hnext : st.v.nextSize = if d.nextLong then 8 else 4) :
    Settles (handleTableDescr q.super level) st
      (fun reached st' => reached = decide (level = k) ∧
        SearchTable m m.mem d (r.below q a d) k t st') E := by
  unfold handleTableDescr
  rw [settles_reads_bind]
  refine .ite (fun hroot => ?_) fun hnum => ?_
  · have hk : k = 0 := h.num.symm.trans hroot
    cases a with
    | none =>
      rw [settles_pure]
      exact ⟨by rw [hk, decide_eq_false hl], h.toSearchOn, by rw [h.addr], h.excludes, hnext⟩
    | some x => exact absurd hk (h.fetched x rfl).1
  · cases a with
    | none => exact absurd (h.num.trans (h.root rfl)) hnum
    | some x =>
      obtain ⟨-, hx, hk, haddr⟩ := h.fetched x rfl
      obtain rfl := h.num
      refine (h.protect.mono (fun _ _ hp => hp) fun _ hf => hf.elim).bind ?_
      rintro - _ rfl
      rw [settles_reads_bind]
      refine Settles.bind (P := fun _ st' => st' = st.withRights (r.below q (some x) d))
        (.ite (fun hc => absurd hc.1 hl) fun _ => settles_pure.mpr rfl) ?_
      rintro - _ rfl
      have hx₁ : st.m.mem x = some st.v.descr0 := by
        rw [h.state, h.status]
        exact hx
      have hmark := marked_eq_self (c := 0) (st.withRights (r.below q (some x) d)) hx₁ BitVec.and_zero
      have hprotect := h.protectStatus (q := q) (c := 0) (E := E)
      rw [hmark] at hprotect
      refine hprotect.bind ?_
      rintro - _ rfl
      rw [settles_pure]
      have hon := h.passed_on (c := 0) (r.below q (some x) d)
      have hexcl := h.passed_excludes (c := 0) (r.below q (some x) d) BitVec.zero_and
      have hword := @SearchAt.passed_addr m _ d r _ t false st x 0 0 descrTdAddrMask h
        (r.below q (some x) d) BitVec.zero_and BitVec.zero_and
      rw [addBits_only_zero] at hon
      exact ⟨decide_eq_decide.mpr (and_iff_right hl), hon, hword, hexcl, hnext⟩

/-! ### Pages -/

/-- What the search knows of a page: as of an access, but that nothing is marked. -/
def ptestSeen (q : WalkAccess) (mem : PhysMem) (a : Option Long) (d : Desc030) (r : WalkRights) : Walk030 where
  mem := mem
  rights := r.below q a d
  page := none
  modified := a.isSome && d.modified
  inhibited := a.isSome && d.inhibited
  fetched := []
  visited := []

theorem pageDescr_ptest {E : SearchState → Prop} (hl : level ≠ 0) (h : SearchAt m mem a d r k t early st) :
    Settles (pageDescr q.super q.write level) st
      (fun _ st' => SearchPage m (ptestSeen q mem a d r) d k t early st') E := by
  unfold pageDescr
  rw [settles_reads_bind]
  refine .ite (fun hroot => ?_) fun hnum => ?_
  · have hk : k = 0 := h.num.symm.trans hroot
    cases a with
    | none =>
      rw [settles_pure]
      refine ⟨?_, h.inhibit, h.num, h.t, h.early, h.page, by rw [h.addr], h.excludes⟩
      rw [h.state]
      congr 1
      exact BitVec.or_zero.symm
    | some x => exact absurd hk (h.fetched x rfl).1
  · cases a with
    | none => exact absurd (h.num.trans (h.root rfl)) hnum
    | some x =>
      obtain ⟨-, hx, hk, haddr⟩ := h.fetched x rfl
      obtain rfl := h.num
      refine (h.protect.mono (fun _ _ hp => hp) fun _ hf => hf.elim).bind ?_
      rintro - _ rfl
      rw [settles_reads_bind]
      refine Settles.bind (P := fun _ st' => st' = st.withRights (r.below q (some x) d))
        (.ite (fun hc => absurd hc.1 hl) fun _ => settles_pure.mpr rfl) ?_
      rintro - _ rfl
      have hx₁ : st.m.mem x = some st.v.descr0 := by
        rw [h.state, h.status]
        exact hx
      have hmark := marked_eq_self (c := 0) (st.withRights (r.below q (some x) d)) hx₁ BitVec.and_zero
      have hprotect := h.protectStatus (q := q) (c := 0) (E := E)
      rw [hmark] at hprotect
      refine hprotect.bind ?_
      rintro - _ rfl
      have hstatus : st.v.descr0 ||| 0 = d.status := BitVec.or_zero.trans h.status
      have haddr' := @SearchAt.passed_addr m mem d r _ t early st x 0 0 descrPdAddrMask h
        (r.below q (some x) d) BitVec.zero_and BitVec.zero_and
      have hmodified : (ptestSeen q mem (some x) d r).modified = decide (d.status &&& descrM ≠ 0) := rfl
      have hinhibited : (ptestSeen q mem (some x) d r).inhibited = decide (d.status &&& descrCi ≠ 0) := rfl
      unfold setVars orStatus
      rw [settles_update_bind, settles_reads_bind, settles_update]
      refine ⟨?_, ?_, rfl, h.t, h.early, h.page, haddr',
        h.passed_excludes (c := 0) (r.below q (some x) d) BitVec.zero_and⟩
      · unfold SearchState.passed
        dsimp only [id]
        rw [addBits_only_zero, hstatus, hmodified]
        simp only [decide_eq_true_iff]
        rfl
      · change (if (st.v.descr0 ||| 0) &&& descrCi ≠ 0 then cacheDisableMmu else cacheEnableAll) = _
        rw [hstatus, hinhibited]
        simp only [decide_eq_true_iff]

/-- The search has come to a page. -/
theorem SearchPage.ptestEnd {levels : List WalkLevel} {x : Word} {v : SearchVars}
    (h : SearchPage m (ptestSeen q m.mem a d r) d k t early st) (hk : k < 7)
    (hx : x = if levels.head?.any fun l => l.limited && d.excludes l.index then
      mmusrLimitViolation ||| mmusrInvalid else 0) (hv : v.descrNum = st.v.descrNum) :
    PtestEnd m (ptestPage q levels a d r k) ⟨{ st.m with status := st.m.status ||| x }, v⟩ := by
  refine ⟨⟨m.busErrorReadWrite, ?_⟩, hv.trans h.num, hk⟩
  dsimp only
  rw [h.state, hx]
  rfl

theorem handlePageDescr_ptest {E : SearchState → Prop} {levels : List WalkLevel} (hl : level ≠ 0)
    (h : SearchAt m m.mem a d r k t early st) (hk : k < 7) (hlast : m.regs.lastTable ≤ 3)
    (hlevels : PageLevels m.regs q.addr k t early levels) :
    Settles (handlePageDescr q.addr q.super q.write level) st
      (fun _ st' => PtestEnd m (ptestPage q levels a d r k) st') E := by
  have hor : ∀ st : SearchState, st.m = { st.m with status := st.m.status ||| 0 } := fun st =>
    congrArg (fun s => { st.m with status := s }) BitVec.or_zero.symm
  unfold handlePageDescr
  refine (pageDescr_ptest hl h).bind fun _ st₁ h₁ => ?_
  rw [settles_reads_bind]
  cases early with
  | false =>
    cases hlevels
    refine .ite (fun hearly => absurd (h₁.early.symm.trans hearly) (by decide)) fun _ => ?_
    unfold setVars
    rw [settles_update, hor st₁]
    exact h₁.ptestEnd hk rfl rfl
  | true =>
    have hregs : st₁.m.regs = m.regs := by
      rw [h₁.state]
    refine .ite (fun _ => ?_) fun hearly => absurd h₁.early hearly
    refine (earlyLimitViolated_settles h₁ hlast hlevels).bind ?_
    rintro violated st₂ ⟨hst₂, hviolated⟩
    rw [hst₂]
    refine .ite (fun hlimit => ?_) fun hlimit => ?_
    · exact h₁.ptestEnd hk (if_pos (hviolated.symm.trans hlimit)).symm rfl
    · have ht : st₁.v.t ≤ st₁.m.regs.lastTable := by
        rw [h₁.t, hregs]
        exact hlevels.t_le
      refine (unusedFieldsMask_settles q.addr 4 0 st₁ (by rw [hregs]; exact hlast) ht
        (by rw [hregs]; omega)).bind ?_
      rintro res st₃ ⟨-, hst₃⟩
      unfold setVars
      rw [hst₃, settles_update, hor st₁]
      exact h₁.ptestEnd hk (if_neg fun hc => hlimit (hviolated.trans hc)).symm rfl

/-! ### Levels -/

/-- Where the search goes on, for a walk that ends as `o`. -/
def PtestGoes (m : Mmu030) (q : WalkAccess) (level : Nat) (o : PtestWalk) : SearchLabel → SearchState → Prop
  | .stopSearch, st => PtestEnd m o st
  | .handlePageDescriptor, st => ∃ levels a d r k t early, k < 7 ∧
      SearchAt m m.mem a d r k t early st ∧ PageLevels m.regs q.addr k t early levels ∧
        ptestPage q levels a d r k = o
  | .next, st => ∃ a d r k t, SearchAt m m.mem a d r k t false st ∧ k + 1 < 7 ∧
      (st.v.nextSize = if d.nextLong then 8 else 4) ∧ ptestIndirect q m.mem level d r k = o

/-- What is left of the walk at the descriptor `d`, which is a table. -/
structure PtestOpen (m : Mmu030) (q : WalkAccess) (level : Nat) (o : PtestWalk) (k t : Nat)
    (st : SearchState) (a : Option Long) (d : Desc030) (r : WalkRights) : Prop where
  here : SearchAt m m.mem a d r k t false st
  nonzero : d.type ≠ 0
  table : d.type ≠ 1
  nextSize : st.v.nextSize = if d.nextLong then 8 else 4
  rest : ptestFrom q m.mem level (m.regs.levelsFrom q.addr t) a d r k = o

section From

variable {n : Nat}

theorem ptestFrom_zero (levels : List WalkLevel) (h : d.type = 0) :
    ptestFrom q mem level levels a d r n = ⟨r.status ||| mmusrInvalid, n⟩ := by
  cases levels <;> exact if_pos h

theorem ptestFrom_one (levels : List WalkLevel) (h : d.type = 1) :
    ptestFrom q mem level levels a d r n = ptestPage q levels a d r n := by
  have h0 : d.type ≠ 0 := by
    rw [h]
    decide
  cases levels with
  | nil => exact (if_neg h0).trans (if_pos h)
  | cons l levels => exact (if_neg h0).trans (if_pos h)

theorem ptestFrom_nil (h0 : d.type ≠ 0) (h1 : d.type ≠ 1) :
    ptestFrom q mem level [] a d r n = ptestIndirect q mem level d r n :=
  (if_neg h0).trans (if_neg h1)

theorem ptestFrom_cons (l : WalkLevel) (levels : List WalkLevel) (h0 : d.type ≠ 0) (h1 : d.type ≠ 1) :
    ptestFrom q mem level (l :: levels) a d r n =
      let r' := r.below q a d
      if level = n then ⟨r'.status, n⟩
      else if l.limited && d.excludes l.index then
        ⟨r'.status ||| (mmusrLimitViolation ||| mmusrInvalid), n⟩
      else
        match fetchDesc mem (d.nextAddr l.index) d.nextLong with
        | none => ⟨r'.status ||| (mmusrBusError ||| mmusrInvalid), n⟩
        | some d' => ptestFrom q mem level levels (some (d.nextAddr l.index)) d' r' (n + 1) :=
  (if_neg h0).trans (if_neg h1)

end From

/-- The type of the next descriptor of a table, after `t` tables. -/
theorem tableLabel_ptest {x : Long} {E : SearchState → Prop} (hk : k + 1 < 7)
    (h : SearchAt m m.mem (some x) d r (k + 1) t false st)
    (ho : ptestFrom q m.mem level (m.regs.levelsFrom q.addr t) (some x) d r (k + 1) = o) :
    Settles (descrLabel (decide (m.regs.lastTable < t))) st
      (fun label st' => match label with
        | .next => ∃ a d r, PtestOpen m q level o (k + 1) t st' a d r
        | label => PtestGoes m q level o label st') E := by
  refine descrLabel_goes _ h (fun htype => ?_) (fun st' htype hat => ?_)
    fun st' h0 h1 hat hsize => ⟨some x, d, r, hat, h0, h1, hsize, ho⟩
  · rw [ptestFrom_zero _ htype] at ho
    rw [← ho]
    exact h.ptestStop hk _
  · rw [ptestFrom_one _ htype] at ho
    refine ⟨_, some x, d, r, k + 1, t, _, hk, hat, ?_, ho⟩
    by_cases ht : t ≤ m.regs.lastTable
    · rw [decide_eq_false (Nat.not_lt.mpr ht)]
      exact .tables ht (.inl (Nat.succ_ne_zero k))
    · rw [decide_eq_true (Nat.lt_of_not_le ht), levelsFrom_nil (Nat.lt_of_not_le ht)]
      exact .none

theorem tableRound_ptest (hl : level ≠ 0) (h : PtestOpen m q level o k t st a d r)
    (hlast : m.regs.lastTable ≤ 3) (ht : t ≤ m.regs.lastTable) (hk : k ≤ t + 1) :
    Settles (tableRound q.addr q.super level) st
      (fun label st' => match label with
        | .next => ∃ a d r, PtestOpen m q level o (k + 1) (t + 1) st' a d r
        | label => PtestGoes m q level o label st')
      fun st' => PtestEnd m o (searchCatch st') := by
  have ho := h.rest
  rw [levelsFrom_cons hlast ht, ptestFrom_cons _ _ h.nonzero h.table] at ho
  unfold tableRound
  refine (handleTableDescr_ptest hl h.here h.nextSize).bind ?_
  rintro _ st₁ ⟨rfl, h₁⟩
  refine .ite (fun hreached => ?_) fun hreached => ?_
  · rw [if_pos (of_decide_eq_true hreached)] at ho
    rw [settles_pure, ← ho]
    exact ⟨⟨m.busErrorReadWrite, by rw [h₁.state]⟩, h₁.num, by dsimp only; omega⟩
  rw [if_neg fun hc => hreached (decide_eq_true hc)] at ho
  obtain rfl := h₁.t
  have hregs : st₁.m.regs = m.regs := by
    rw [h₁.state]
  have hti : st₁.m.regs.translation.table ⟨st₁.v.t, by omega⟩ =
      m.regs.translation.table ⟨st₁.v.t, by omega⟩ := by
    rw [hregs]
  rw [settles_reads_bind]
  dsimp only [id]
  rw [settles_bind]
  refine tableAt_settles (by omega) ?_
  rw [hti]
  unfold setVars
  rw [settles_update_bind]
  have hon : SearchOn m m.mem (r.below q a d) k (st₁.v.t + 1) false
      { st₁ with v := { st₁.v with t := st₁.v.t + 1 } } :=
    ⟨h₁.state, h₁.num, rfl, h₁.sv, h₁.wp, h₁.early, h₁.inhibit, h₁.page⟩
  have hexcludes := h₁.excludes ((m.regs.translation.table ⟨st₁.v.t, by omega⟩).of q.addr)
  refine .ite (fun hlimit => ?_) fun hlimit => ?_
  · rw [if_pos (by rw [Bool.and_eq_true]; exact ⟨rfl, hexcludes.mp hlimit⟩)] at ho
    unfold orStatus
    rw [settles_update_bind, settles_pure, ← ho]
    exact hon.ptestStop (by omega) _
  · rw [if_neg (by rw [Bool.and_eq_true]; exact fun hc => hlimit (hexcludes.mpr hc.2))] at ho
    have haddr : (addrWord st₁.v &&& descrTdAddrMask) +
        (m.regs.translation.table ⟨st₁.v.t, by omega⟩).of q.addr * BitVec.ofNat 32 st₁.v.nextSize =
          d.nextAddr ((m.regs.translation.table ⟨st₁.v.t, by omega⟩).of q.addr) := by
      rw [h₁.addr, h₁.nextSize]
      unfold Desc030.nextAddr
      cases d.nextLong <;> rfl
    have hlevel : ((m.regs.translation.table ⟨st₁.v.t, by omega⟩).level q.addr).index =
        (m.regs.translation.table ⟨st₁.v.t, by omega⟩).of q.addr := rfl
    rw [haddr]
    refine ((fetchDescr_fetches hon (by omega) h₁.nextSize).mono (fun _ _ h => h) ?_).bind ?_
    · rintro st' ⟨hnone, st₀, hon₀, rfl⟩
      rw [hlevel, hnone] at ho
      rw [← ho]
      exact hon₀.ptestBusError (by omega)
    · rintro - st₂ ⟨d', hsome, hat⟩
      rw [hlevel, hsome] at ho
      have hregs₂ : st₂.m.regs = m.regs := by
        rw [hat.state]
      have hlast : decide (st₂.m.regs.lastTable < st₂.v.t) =
          decide (m.regs.lastTable < st₁.v.t + 1) := by
        rw [hregs₂, hat.t]
      rw [settles_reads_bind]
      change Settles (descrLabel (decide (st₂.m.regs.lastTable < st₂.v.t))) _ _ _
      rw [hlast]
      exact tableLabel_ptest (by omega) hat ho

theorem tableRounds_ptest (hl : level ≠ 0) (n : Nat) (h : PtestOpen m q level o k t st a d r)
    (hlast : m.regs.lastTable ≤ 3) (ht : t ≤ m.regs.lastTable) (hk : k ≤ t + 1)
    (hn : m.regs.lastTable + 1 - t ≤ n) :
    Settles (tableRounds q.addr q.super level n) st (fun label st' => PtestGoes m q level o label st')
      fun st' => PtestEnd m o (searchCatch st') := by
  induction n generalizing st a d r k t with
  | zero => omega
  | succ n ih =>
    unfold tableRounds
    refine (tableRound_ptest hl h hlast ht hk).bind fun label st₁ h₁ => ?_
    refine .ite (fun hlabel => ?_) fun hlabel => ?_
    · subst hlabel
      obtain ⟨a₁, d₁, r₁, h₁⟩ := h₁
      have hregs : st₁.m.regs = m.regs := by
        rw [h₁.here.state]
      have hle : st₁.v.t ≤ st₁.m.regs.lastTable ↔ t + 1 ≤ m.regs.lastTable := by
        rw [hregs, h₁.here.t]
      rw [settles_reads_bind]
      refine .ite (fun hmore => ?_) fun hmore => ?_
      · exact ih h₁ (hle.mp hmore) (by omega) (by omega)
      · have hmore : ¬t + 1 ≤ m.regs.lastTable := fun hc => hmore (hle.mpr hc)
        have hrest := h₁.rest
        rw [levelsFrom_nil (Nat.lt_of_not_le hmore), ptestFrom_nil h₁.nonzero h₁.table] at hrest
        exact ⟨a₁, d₁, r₁, k + 1, t + 1, h₁.here, by omega, h₁.nextSize, hrest⟩
    · rw [settles_pure]
      cases label with
      | next => exact absurd rfl hlabel
      | stopSearch => exact h₁
      | handlePageDescriptor => exact h₁

theorem indirectDescr_ptest (hl : level ≠ 0) (h : PtestGoes m q level o .next st) :
    Settles (indirectDescr level) st
      (fun label st' => label ≠ .next ∧ PtestGoes m q level o label st')
      fun st' => PtestEnd m o (searchCatch st') := by
  obtain ⟨a, d, r, k, t, h, hk, hnext, ho⟩ := h
  unfold ptestIndirect at ho
  unfold indirectDescr
  rw [settles_reads_bind]
  refine .ite (fun hc => ?_) fun hc => ?_
  · rw [if_pos (hc.2.trans h.num)] at ho
    rw [settles_pure, ← ho]
    exact ⟨by decide, ⟨m.busErrorReadWrite, by rw [h.state]⟩, h.num, by dsimp only; omega⟩
  rw [if_neg fun heq => hc ⟨hl, heq.trans h.num.symm⟩] at ho
  dsimp only [id]
  rw [h.addr]
  refine ((fetchDescr_fetches h.toSearchOn hk hnext).mono (fun _ _ h => h) ?_).bind ?_
  · rintro st' ⟨hnone, st₀, hon₀, rfl⟩
    rw [hnone] at ho
    rw [← ho]
    exact hon₀.ptestBusError (by omega)
  · rintro - st₁ ⟨d', hsome, hat⟩
    rw [hsome] at ho
    have htype : st₁.v.descr0 &&& descrTypeMask = d'.type := by
      rw [hat.status]
    dsimp only at ho
    rw [settles_reads_bind]
    refine .ite (fun hne => ?_) fun heq => ?_
    · rw [if_neg fun hc => hne (htype.trans hc)] at ho
      unfold orStatus
      rw [settles_update_bind, settles_pure, ← ho]
      exact ⟨by decide, hat.ptestStop hk _⟩
    · rw [if_pos (htype.symm.trans (not_not.mp heq))] at ho
      exact ⟨by decide, [], _, d', r, k + 1, t, false, hk, hat, .none, ho⟩

/-! ### The whole search -/

theorem rootLabel_ptest {fc : Long} {E : SearchState → Prop}
    (h : SearchAt m m.mem none d r 0 0 false st)
    (ho : ptestFrom q m.mem level (m.regs.levels q.addr fc) none d r 0 = o) :
    Settles (descrLabel false) st
      (fun label st' => match label with
        | .next => SearchAt m m.mem none d r 0 0 false st' ∧ d.type ≠ 0 ∧ d.type ≠ 1 ∧
            st'.v.nextSize = if d.nextLong then 8 else 4
        | label => PtestGoes m q level o label st') E := by
  refine descrLabel_goes _ h (fun htype => ?_) (fun st' htype hat => ?_)
    fun st' h0 h1 hat hsize => ⟨hat, h0, h1, hsize⟩
  · rw [ptestFrom_zero _ htype] at ho
    rw [← ho]
    exact h.ptestStop (by decide) _
  · rw [ptestFrom_one _ htype] at ho
    refine ⟨_, none, d, r, 0, 0, _, by decide, hat, ?_, ho⟩
    by_cases hfcl : m.regs.tc030 &&& tcEnableFcl = 0
    · rw [levels_of_not_fcl hfcl]
      exact .tables (Nat.zero_le _) (.inr hfcl)
    · rw [levels_of_fcl hfcl]
      exact .functionCodes (Nat.zero_le _) rfl hfcl

theorem fclTable_ptest {fc : Long} (hl : level ≠ 0) (h : SearchAt m m.mem none d r 0 0 false st)
    (h0 : d.type ≠ 0) (h1 : d.type ≠ 1) (hnext : st.v.nextSize = if d.nextLong then 8 else 4)
    (hfcl : m.regs.tc030 &&& tcEnableFcl ≠ 0)
    (ho : ptestFrom q m.mem level (m.regs.levels q.addr fc) none d r 0 = o) :
    Settles (fclTable fc) st
      (fun label st' => match label with
        | .next => ∃ a d r, PtestOpen m q level o 1 0 st' a d r
        | label => PtestGoes m q level o label st')
      fun st' => PtestEnd m o (searchCatch st') := by
  have hrights : r.below q none d = r := rfl
  rw [levels_of_fcl hfcl, ptestFrom_cons _ _ h0 h1] at ho
  dsimp only at ho
  rw [hrights, if_neg hl, Bool.false_and, if_neg (by decide)] at ho
  unfold fclTable
  rw [settles_reads_bind]
  dsimp only [id]
  have haddr : (addrWord st.v &&& descrTdAddrMask) + fc * BitVec.ofNat 32 st.v.nextSize =
      d.nextAddr fc := by
    rw [h.addr, hnext]
    unfold Desc030.nextAddr
    cases d.nextLong <;> rfl
  rw [haddr]
  refine ((fetchDescr_fetches h.toSearchOn (by decide) hnext).mono (fun _ _ h => h) ?_).bind ?_
  · rintro st' ⟨hnone, st₀, hon₀, rfl⟩
    rw [hnone] at ho
    rw [← ho]
    exact hon₀.ptestBusError (by decide)
  · rintro - st₁ ⟨d', hsome, hat⟩
    rw [hsome] at ho
    have hlabel := tableLabel_ptest (E := fun st' => PtestEnd m o (searchCatch st')) (by decide) hat ho
    rw [decide_eq_false (Nat.not_lt_zero _)] at hlabel
    exact hlabel

/-- The search from the tables on. -/
theorem tableTail_ptest {label : SearchLabel} (hl : level ≠ 0) (hlast : m.regs.lastTable ≤ 3)
    (h : match label with
      | .next => ∃ a d r k, k ≤ 1 ∧ PtestOpen m q level o k 0 st a d r
      | label => PtestGoes m q level o label st) :
    Settles (do
        let label ← (if label = .next then tableRounds q.addr q.super level 4 else pure label)
        let label ← (if label = .next then indirectDescr level else pure label)
        if label = .handlePageDescriptor then handlePageDescr q.addr q.super q.write level
        else pure ()) st (fun _ st' => PtestEnd m o st')
      fun st' => PtestEnd m o (searchCatch st') := by
  refine Settles.bind (P := fun label st' => PtestGoes m q level o label st') ?_ fun label st₁ h₁ => ?_
  · refine .ite (fun hc => ?_) fun hc => ?_
    · subst hc
      obtain ⟨a, d, r, k, hk, h⟩ := h
      exact tableRounds_ptest hl 4 h hlast (Nat.zero_le _) hk (by omega)
    · rw [settles_pure]
      cases label with
      | next => exact absurd rfl hc
      | stopSearch => exact h
      | handlePageDescriptor => exact h
  refine Settles.bind (P := fun label st' => label ≠ .next ∧ PtestGoes m q level o label st') ?_ ?_
  · refine .ite (fun hc => ?_) fun hc => ?_
    · subst hc
      exact indirectDescr_ptest hl h₁
    · exact ⟨hc, h₁⟩
  rintro label st₂ ⟨hne, h₂⟩
  refine .ite (fun hc => ?_) fun hc => ?_
  · subst hc
    obtain ⟨levels, a, d, r, k, t, early, hk, hat, hlevels, ho⟩ := h₂
    rw [← ho]
    exact handlePageDescr_ptest hl hat hk hlast hlevels
  · rw [settles_pure]
    cases label with
    | next => exact absurd rfl hne
    | stopSearch => exact h₂
    | handlePageDescriptor => exact absurd rfl hc

/-- The search with a level comes back, with the outcome of the walk that is cut. -/
theorem tableSearch_ptest (m : Mmu030) (addr fc : Long) (write : Bool) (hl : level ≠ 0)
    (hlast : m.regs.lastTable ≤ 3) :
    Settles (tableSearch addr fc write level) (startSearch fc m)
      (fun _ st => PtestEnd m (m.ptestWalk addr fc write level) st)
      fun st => PtestEnd m (m.ptestWalk addr fc write level) (searchCatch st) := by
  obtain ⟨q, hq⟩ : ∃ q : WalkAccess, q = ⟨addr, decide (fc &&& 4 ≠ 0), write⟩ := ⟨_, rfl⟩
  obtain ⟨o, ho'⟩ : ∃ o, o = m.ptestWalk addr fc write level := ⟨_, rfl⟩
  have haddr : q.addr = addr := by rw [hq]
  have hsuper : q.super = decide (fc &&& 4 ≠ 0) := by rw [hq]
  have hwrite : q.write = write := by rw [hq]
  have ho : ptestFrom q m.mem level (m.regs.levels q.addr fc) none
      (rootDesc (rootPointer m q.super)) ⟨false, false⟩ 0 = o := by
    rw [ho', hq]
    rfl
  unfold tableSearch
  dsimp only
  rw [← ho', ← haddr, ← hsuper, ← hwrite, settles_reads_bind]
  have hstart := startSearch_at m fc
  rw [← hsuper] at hstart
  refine (rootLabel_ptest hstart ho).bind fun label st₁ h₁ => ?_
  refine Settles.bind (P := fun label st' => match label with
    | .next => ∃ a d r k, k ≤ 1 ∧ PtestOpen m q level o k 0 st' a d r
    | label => PtestGoes m q level o label st') ?_ fun label st₂ h₂ => tableTail_ptest hl hlast h₂
  refine .ite (fun hc => ?_) fun hc => ?_
  · obtain ⟨rfl, hfcl⟩ := hc
    obtain ⟨hat, h0, h1, hsize⟩ := h₁
    refine (fclTable_ptest hl hat h0 h1 hsize hfcl ho).mono (fun label st' h => ?_) fun _ h => h
    cases label with
    | next =>
      obtain ⟨a, d, r, h⟩ := h
      exact ⟨a, d, r, 1, Nat.le_refl _, h⟩
    | stopSearch => exact h
    | handlePageDescriptor => exact h
  · rw [settles_pure]
    cases label with
    | next =>
      have hfcl : m.regs.tc030 &&& tcEnableFcl = 0 := not_not.mp fun h => hc ⟨rfl, h⟩
      obtain ⟨hat, h0, h1, hsize⟩ := h₁
      rw [levels_of_not_fcl hfcl] at ho
      exact ⟨_, _, _, 0, Nat.zero_le _, hat, h0, h1, hsize, ho⟩
    | stopSearch => exact h₁
    | handlePageDescriptor => exact h₁

/-- It leaves all as it is, but for what the search itself leaves behind. -/
theorem mmu030TableSearch_ptest (m : Mmu030) (addr fc : Long) (write : Bool) (hl : level ≠ 0)
    (hlast : m.regs.lastTable ≤ 3) :
    ∃ ret b, mmu030TableSearch addr fc write level m =
      .ret ret { m with status := (m.ptestWalk addr fc write level).mmusr, busErrorReadWrite := b } := by
  have hend : ∀ st, PtestEnd m (m.ptestWalk addr fc write level) st → ∃ ret b,
      finishSearch addr fc level m.s st =
        .ret ret { m with status := (m.ptestWalk addr fc write level).mmusr, busErrorReadWrite := b } := by
    rintro st ⟨⟨b, hst⟩, hnum, hfew⟩
    unfold finishSearch PtestWalk.mmusr
    rw [if_neg hl, hst, hnum]
    dsimp only
    split
    · exact ⟨_, b, rfl⟩
    · exact ⟨_, b, rfl⟩
  have hsettles := tableSearch_ptest m addr fc write hl hlast
  unfold mmu030TableSearch
  unfold Settles at hsettles
  cases hs : tableSearch addr fc write level (startSearch fc m) with
  | ret u st =>
    rw [hs] at hsettles
    exact hend _ hsettles
  | thrown c st =>
    rw [hs] at hsettles
    exact hend _ hsettles
  | diverge =>
    rw [hs] at hsettles
    exact hsettles.elim

end Search

end UaeCpu
