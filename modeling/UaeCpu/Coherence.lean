import UaeCpu.Translation

/-!
# UaeCpu.Coherence

The translation cache over any sequence of accesses, flushes, tests, page sizes and edits of the
tables by the guest.

* `MmuReaches`  — the states such a sequence leads to, with the pages edited and not yet flushed.
* `Coherent`    — every line of a page that is not waiting for a flush agrees with its walk.
* `mmuTranslate_refines_walk` — a translation gives what a fresh walk gives.
-/

namespace UaeCpu

open Fault FaultM Marks

/-! ## Operations -/

/-- What the guest does to the MMU: `edit` leaves other contents of physical memory. -/
inductive MmuOp where
  | translate (addr val : Long) (super data write : Bool) (size : Nat)
  | flushAtc (addr : Long) (super global : Bool)
  | flushAtcAll (global : Bool)
  | ptest (dfc : BitVec 3) (addr : Long) (write : Bool)
  | setTc (tc : Word)
  | edit (mem : PhysMem)

def MmuOp.perform (fuel : Nat) : MmuOp → MmuM Unit
  | .translate addr val super data write size => do
    let _ ← mmuTranslate addr val super data write size fuel
  | .flushAtc addr super global => mmuFlushAtc addr super global
  | .flushAtcAll global => mmuFlushAtcAll global
  | .ptest dfc addr write => UaeCpu.ptest dfc addr write
  | .setTc tc => do
    let _ ← mmuSetTc tc
  | .edit mem => update fun m => { m with mem := mem }

/-- The state after an operation, whether it returns or throws. -/
def MmuOp.next (fuel : Nat) (op : MmuOp) (s : Mmu) : Mmu :=
  match op.perform fuel s with
  | .ret _ s' => s'
  | .thrown _ s' => s'
  | .diverge => s

/-- The page a walk ends in is global. -/
def WalkEnd.global : WalkEnd → Bool
  | resident _ d _ => decide (d &&& mmuDesGlobal ≠ 0)
  | _ => false

def MmuAtcLine.global (l : MmuAtcLine) : Bool := decide (l.status &&& mmuDesGlobal ≠ 0)

/-- Pages with an edited descriptor that has not been flushed, by whether a line of the page from
before the edit is global. -/
abbrev Dirty := Bool → Long → Bool → Prop

/-- An edit makes the pages dirty whose walk reads a longword it changes. A flush cleans what it
reaches: one that spares global lines cleans pages that were not global. -/
def Dirty.after (s : Mmu) (dirty : Dirty) : MmuOp → Dirty
  | .translate _ _ _ _ _ _ => dirty
  | .flushAtc addr super global => fun g a sup =>
    dirty g a sup ∧ ¬(s.regs.SamePage a addr ∧ sup = super ∧ (global = true ∨ g = false))
  | .flushAtcAll global => fun g a sup => dirty g a sup ∧ ¬(global = true ∨ g = false)
  | .ptest dfc addr _ => fun g a sup =>
    dirty g a sup ∧ ¬(s.regs.SamePage a addr ∧ sup = decide (dfc &&& 4 ≠ 0))
  | .setTc _ => fun _ _ _ => False
  | .edit mem => fun g a sup =>
    dirty g a sup ∨
      (g = (s.regs.walk s.mem a sup).last.global ∧
        ∃ x ∈ (s.regs.walk s.mem a sup).fetched, mem x ≠ s.mem x)

/-- Every edit has been flushed. -/
def Dirty.Clean (dirty : Dirty) : Prop := ∀ g a sup, ¬dirty g a sup

/-- The guest flushes before the next access. -/
def MmuOp.Flushed (dirty : Dirty) : MmuOp → Prop
  | .translate _ _ _ _ _ _ => dirty.Clean
  | _ => True

def Mmu.AtcEmpty (s : Mmu) : Prop := ∀ data index way, (s.mmuAtcArray data index way).valid = false

/-- No longword with `U` clear is both a table descriptor of one walk and the indirect page
descriptor of one. -/
def Mmu.TablesApart (s : Mmu) : Prop :=
  ∀ addr super addr' super',
    (s.regs.walk s.mem addr super).Apart s.mem (s.regs.walk s.mem addr' super')

/-- The states that operations lead to from an empty cache, all of them with tables as `P` says,
where the guest flushes what it edits. -/
inductive MmuReaches (P : Mmu → Prop) (fuel : Nat) : Mmu → Dirty → Prop where
  | start {s : Mmu} : s.AtcEmpty → P s → MmuReaches P fuel s fun _ _ _ => False
  | step {s : Mmu} {dirty : Dirty} (op : MmuOp) :
      MmuReaches P fuel s dirty → op.Flushed dirty → P (op.next fuel s) →
        MmuReaches P fuel (op.next fuel s) (dirty.after s op)

/-! ## The invariant -/

/-- Every line of a page that is not dirty agrees with the walk of its page. -/
def Coherent (s : Mmu) (dirty : Dirty) : Prop :=
  ∀ addr super data way,
    (s.mmuAtcArray data (s.regs.atcIndex addr) way).valid = true →
      (s.mmuAtcArray data (s.regs.atcIndex addr) way).tag = s.regs.atcTag addr super →
        dirty (s.mmuAtcArray data (s.regs.atcIndex addr) way).global addr super ∨
          LineAgrees s.regs s.mem addr super (s.mmuAtcArray data (s.regs.atcIndex addr) way)

section Invariant

variable {s s' : Mmu} {dirty dirty' : Dirty}

theorem Coherent.of_empty (h : s.AtcEmpty) : Coherent s dirty := by
  intro addr super data way hvalid
  rw [h] at hvalid
  cases hvalid

/-- Dropping lines, and dirty pages with no line left, keeps coherence. -/
theorem Coherent.drop (h : Coherent s dirty) (hregs : s'.regs = s.regs) (hmem : s'.mem = s.mem)
    (hline : ∀ data index way, (s'.mmuAtcArray data index way).valid = true →
      s'.mmuAtcArray data index way = s.mmuAtcArray data index way)
    (hdirty : ∀ addr super data way,
      (s'.mmuAtcArray data (s.regs.atcIndex addr) way).valid = true →
        (s'.mmuAtcArray data (s.regs.atcIndex addr) way).tag = s.regs.atcTag addr super →
          dirty (s'.mmuAtcArray data (s.regs.atcIndex addr) way).global addr super →
            dirty' (s'.mmuAtcArray data (s.regs.atcIndex addr) way).global addr super) :
    Coherent s' dirty' := by
  intro addr super data way hvalid htag
  rw [hregs] at hvalid htag ⊢
  have hd := hdirty addr super data way hvalid htag
  have hl := hline data _ way hvalid
  rw [hl] at hvalid htag hd ⊢
  rw [hmem]
  exact (h addr super data way hvalid htag).imp_left hd

theorem LineAgrees.congr {r : MmuRegs} {mem : PhysMem} {addr addr' : Long} {super : Bool}
    {l : MmuAtcLine} (h : LineAgrees r mem addr super l) (hpage : r.SamePage addr addr') :
    LineAgrees r mem addr' super l := by
  have hwalk := walk_congr hpage mem super
  obtain ⟨hstatus, hphys, hsettled, hmodified⟩ := h
  rw [hwalk] at hstatus hphys hsettled hmodified
  exact ⟨hstatus, hphys, hsettled, hmodified⟩

/-- The marks of a walk leave the lines of other pages agreeing. -/
theorem LineAgrees.walked (hapart : s.TablesApart) {addr addr' : Long} {super super' : Bool}
    {l : MmuAtcLine} (write : Bool) (h : LineAgrees s.regs s.mem addr' super' l) :
    LineAgrees s.regs (addBits s.mem ((s.regs.walk s.mem addr super).bits super write)) addr'
      super' l := by
  have hg := walk_genuine s.regs s.mem addr super
  have hg' := walk_genuine s.regs s.mem addr' super'
  apply h.mark (Walk.marked _ _ super write)
  intro y hy
  exact (hapart addr super addr' super').bits_kept hg hg' hy

/-- A walk's marks and its line, in a cache of other agreeing lines. -/
theorem Coherent.fill (h : Coherent s dirty) (hapart : s.TablesApart) {addr : Long}
    {super write data : Bool} {way : Fin 4} (hregs : s'.regs = s.regs)
    (hmem : s'.mem = addBits s.mem ((s.regs.walk s.mem addr super).bits super write))
    (hatc : s'.mmuAtcArray = (s.withLine data (s.regs.atcIndex addr) way
      (s.regs.atcTag addr super) super write (s.regs.walk s.mem addr super).last).mmuAtcArray) :
    Coherent s' dirty := by
  intro addr' super' data' way' hvalid htag
  rw [hregs, hatc] at hvalid htag ⊢
  rw [hmem]
  have hold : ∀ hv ht, dirty (s.mmuAtcArray data' (s.regs.atcIndex addr') way').global addr'
        super' ∨ LineAgrees s.regs
          (addBits s.mem ((s.regs.walk s.mem addr super).bits super write)) addr' super'
          (s.mmuAtcArray data' (s.regs.atcIndex addr') way') :=
    fun hv ht => (h addr' super' data' way' hv ht).imp_right (LineAgrees.walked hapart write)
  unfold Mmu.withLine Mmu.setLine at hvalid htag ⊢
  split at hvalid
  · next hkeep =>
    rw [if_pos hkeep] at htag ⊢
    dsimp only at hvalid htag ⊢
    by_cases hsame : data' = data ∧ s.regs.atcIndex addr' = s.regs.atcIndex addr ∧ way' = way
    · rw [if_pos hsame] at htag ⊢
      obtain ⟨hpage, rfl⟩ := samePage_iff.mp ⟨hsame.2.1.symm, htag⟩
      exact .inr ((atcLine_agrees (hapart addr super addr super) _).congr hpage)
    · rw [if_neg hsame] at hvalid htag ⊢
      exact hold hvalid htag
  · next hkeep =>
    rw [if_neg hkeep] at htag ⊢
    exact hold hvalid htag

/-- A walk's marks in a cache that stays as it is. -/
theorem Coherent.marked (h : Coherent s dirty) (hapart : s.TablesApart) {addr : Long}
    {super write : Bool} (hregs : s'.regs = s.regs)
    (hmem : s'.mem = addBits s.mem ((s.regs.walk s.mem addr super).bits super write))
    (hatc : s'.mmuAtcArray = s.mmuAtcArray) : Coherent s' dirty := by
  intro addr' super' data' way' hvalid htag
  rw [hregs, hatc] at hvalid htag ⊢
  rw [hmem]
  exact (h addr' super' data' way' hvalid htag).imp_right (LineAgrees.walked hapart write)

end Invariant

/-! ## Edits -/

section Edit

variable {mem mem' : PhysMem}

theorem pageLevel_of_fetched {x wp : Long}
    (h : ∀ y ∈ (pageLevel mem x wp).fetched, mem' y = mem y) :
    pageLevel mem' x wp = pageLevel mem x wp := by
  unfold pageLevel at h ⊢
  cases hx : mem x with
  | none =>
    rw [hx] at h
    rw [h x (by simp), hx]
  | some d =>
    rw [hx] at h
    dsimp only at h
    by_cases hi : d &&& 3 = 2
    · rw [if_pos hi] at h
      cases ht : mem (d &&& mmuPageIndirectMask) with
      | none =>
        rw [ht] at h
        rw [h x (by simp), hx]
        dsimp only
        rw [if_pos hi, if_pos hi, h _ (by simp), ht]
      | some d' =>
        rw [ht] at h
        rw [h x (by simp), hx]
        dsimp only
        rw [if_pos hi, if_pos hi, h _ (by simp), ht]
    · rw [if_neg hi] at h
      rw [h x (by simp), hx]
      dsimp only
      rw [if_neg hi, if_neg hi]

theorem descLevel_of_fetched {x : Long} {next next' : Long → Walk}
    (h : ∀ y ∈ (descLevel mem x next).fetched, mem' y = mem y)
    (hnext : ∀ d, (∀ y ∈ (next d).fetched, mem' y = mem y) → next' d = next d) :
    descLevel mem' x next' = descLevel mem x next := by
  unfold descLevel at h ⊢
  cases hx : mem x with
  | none =>
    rw [hx] at h
    rw [h x (by simp), hx]
  | some d =>
    rw [hx] at h
    dsimp only at h
    by_cases hv : d &&& 2 = 0
    · rw [if_pos hv] at h
      rw [h x (by simp), hx]
      dsimp only
      rw [if_pos hv, if_pos hv]
    · rw [if_neg hv] at h
      rw [h x (List.mem_cons_self ..), hx]
      dsimp only
      rw [if_neg hv, if_neg hv, hnext d fun y hy => h y (List.mem_cons_of_mem _ hy)]

/-- A walk depends on the longwords it reads, and on no other. -/
theorem walk_of_fetched {r : MmuRegs} {addr : Long} {super : Bool}
    (h : ∀ y ∈ (r.walk mem addr super).fetched, mem' y = mem y) :
    r.walk mem' addr super = r.walk mem addr super := by
  unfold MmuRegs.walk tableWalk at h ⊢
  apply descLevel_of_fetched h
  intro d hd
  unfold ptrLevel at hd ⊢
  apply descLevel_of_fetched hd
  intro d' hd'
  exact pageLevel_of_fetched hd'

/-- What a walk marks it has read. -/
structure Walk.Marks (w : Walk) : Prop where
  tables : ∀ x ∈ w.tables, x ∈ w.fetched
  page : ∀ a d p, w.last = .resident a d p → a ∈ w.fetched

theorem pageLevel_marks (x wp : Long) : (pageLevel mem x wp).Marks := by
  unfold pageLevel
  split
  · exact ⟨by simp, by simp⟩
  · split
    · split
      · exact ⟨by simp, by simp⟩
      · refine ⟨by simp, ?_⟩
        intro a d p h
        rw [(pageEnd_page h).1]
        simp
    · refine ⟨by simp, ?_⟩
      intro a d p h
      rw [(pageEnd_page h).1]
      simp

theorem descLevel_marks {x : Long} {next : Long → Walk} (h : ∀ d, (next d).Marks) :
    (descLevel mem x next).Marks := by
  unfold descLevel
  split
  · exact ⟨by simp, by simp⟩
  · next d _ =>
    split
    · exact ⟨by simp, by simp⟩
    · refine ⟨?_, ?_⟩
      · intro y hy
        rcases List.mem_cons.mp hy with rfl | hy
        · exact List.mem_cons_self ..
        · exact List.mem_cons_of_mem _ ((h d).tables y hy)
      · intro a d' p hl
        exact List.mem_cons_of_mem _ ((h d).page a d' p hl)

theorem walk_marks (r : MmuRegs) (addr : Long) (super : Bool) : (r.walk mem addr super).Marks :=
  descLevel_marks fun _ => descLevel_marks fun _ => pageLevel_marks _ _

theorem Walk.Marks.bits_of_not_mem {w : Walk} (h : w.Marks) {x : Long} (hx : x ∉ w.fetched)
    (super write : Bool) : w.bits super write x = 0#32 := by
  have hlast : w.last.bits super write x = 0#32 := by
    cases hl : w.last with
    | busError => rfl
    | invalid => rfl
    | resident a d p =>
      unfold WalkEnd.bits only
      dsimp only
      apply if_neg
      rintro rfl
      exact hx (h.page _ d p hl)
  unfold Walk.bits
  rw [if_neg (mt (h.tables x) hx), hlast]
  rfl

/-- A line agrees after an edit of longwords that the walk does not read. -/
theorem LineAgrees.edit {r : MmuRegs} {addr : Long} {super : Bool} {l : MmuAtcLine}
    (h : LineAgrees r mem addr super l)
    (hkeep : ∀ y ∈ (r.walk mem addr super).fetched, mem' y = mem y) :
    LineAgrees r mem' addr super l := by
  have hwalk := walk_of_fetched hkeep
  refine ⟨?_, ?_, ?_, ?_⟩
  · rw [hwalk]
    exact h.status
  · rw [hwalk]
    exact h.phys
  · rw [hwalk]
    apply addBits_eq_self
    intro x v hx
    by_cases hf : x ∈ (r.walk mem addr super).fetched
    · rw [hkeep x hf] at hx
      exact set_of_addBits_eq_self h.settled hx
    · rw [(walk_marks r addr super).bits_of_not_mem hf]
      exact BitVec.and_zero
  · rw [hwalk]
    exact h.modified

theorem LineAgrees.global {r : MmuRegs} {addr : Long} {super : Bool} {l : MmuAtcLine}
    (h : LineAgrees r mem addr super l) : l.global = (r.walk mem addr super).last.global := by
  unfold MmuAtcLine.global
  rw [Bool.eq_iff_iff, decide_eq_true_iff, h.and (q := mmuDesGlobal) (by decide) (by decide)]
  cases (r.walk mem addr super).last with
  | busError => simp [WalkEnd.found, WalkEnd.global]
  | invalid => simp [WalkEnd.found, WalkEnd.global]
  | resident a d p =>
    rw [WalkEnd.found_and (by decide)]
    exact decide_eq_true_iff.symm

end Edit

/-! ## Steps -/

section Steps

variable {s : Mmu} {dirty : Dirty} {fuel : Nat}

theorem next_ret (op : MmuOp) {s' : Mmu} (h : op.perform fuel s = .ret () s') :
    op.next fuel s = s' := by
  unfold MmuOp.next
  rw [h]

theorem next_thrown {op : MmuOp} {s' : Mmu} {prb : Nat} (h : op.perform fuel s = .thrown prb s') :
    op.next fuel s = s' := by
  unfold MmuOp.next
  rw [h]

theorem next_translate {addr val : Long} {super data write : Bool} {size : Nat} {s' : Mmu}
    (h : Served (mmuTranslate addr val super data write size fuel s) s s' addr super write) :
    (MmuOp.translate addr val super data write size).next fuel s = s' := by
  have hout := h.outcome
  cases ht : s.regs.translate s.mem addr super write with
  | some pa =>
    rw [ht] at hout
    exact next_ret _ (bind_ret hout)
  | none =>
    rw [ht] at hout
    exact next_thrown (bind_thrown hout)

/-- Every line of a clean page agrees, so the access is the reference's. -/
theorem Coherent.serves (h : Coherent s dirty) (hapart : s.TablesApart) (hclean : dirty.Clean)
    (addr val : Long) (super data write : Bool) (size fuel : Nat) :
    ∃ s', Served (mmuTranslate addr val super data write size (fuel + 2) s) s s' addr super
        write ∧ Coherent s' dirty := by
  obtain ⟨s', hserved, hatc | ⟨way, hatc⟩⟩ := mmuTranslate_serves val write size fuel
    (hapart addr super addr super)
    (fun way hvalid htag => (h addr super data way hvalid htag).resolve_left (hclean _ _ _))
  · exact ⟨s', hserved, h.marked hapart hserved.regs hserved.mem hatc⟩
  · exact ⟨s', hserved, h.fill hapart hserved.regs hserved.mem hatc⟩

/-- What a flush leaves: lines as they were, and none that `drops` says. -/
structure FlushLeaves (s s' : Mmu) (drops : Bool → Long → Bool → Prop) : Prop where
  regs : s'.regs = s.regs
  supervisor : s'.s = s.s
  mem : s'.mem = s.mem
  line : ∀ data index way, (s'.mmuAtcArray data index way).valid = true →
    s'.mmuAtcArray data index way = s.mmuAtcArray data index way
  gone : ∀ addr super data way, (s'.mmuAtcArray data (s.regs.atcIndex addr) way).valid = true →
    (s'.mmuAtcArray data (s.regs.atcIndex addr) way).tag = s.regs.atcTag addr super →
      ¬drops (s'.mmuAtcArray data (s.regs.atcIndex addr) way).global addr super

theorem FlushLeaves.coherent {s' : Mmu} {drops : Bool → Long → Bool → Prop}
    (hl : FlushLeaves s s' drops) (h : Coherent s dirty) :
    Coherent s' fun g a sup => dirty g a sup ∧ ¬drops g a sup :=
  h.drop hl.regs hl.mem hl.line fun addr super data way hvalid htag hd =>
    ⟨hd, hl.gone addr super data way hvalid htag⟩

theorem mmuFlushAtc_leaves (s : Mmu) (addr : Long) (super global : Bool) :
    ∃ s', mmuFlushAtc addr super global s = .ret () s' ∧
      FlushLeaves s s' fun g a sup =>
        s.regs.SamePage a addr ∧ sup = super ∧ (global = true ∨ g = false) := by
  refine ⟨_, rfl, rfl, rfl, rfl, ?_, ?_⟩
  · intro data index way
    dsimp only
    split
    · intro h
      cases h
    · intro _
      rfl
  · intro addr' super' data way
    dsimp only
    split
    · intro h
      cases h
    · next hkeep =>
      rintro - htag ⟨hpage, rfl, hglobal⟩
      obtain ⟨hindex, hsame⟩ := samePage_iff.mpr ⟨hpage, (rfl : super' = super')⟩
      refine hkeep ⟨hindex, ?_, ?_⟩
      · rintro ⟨hg, hl⟩
        rcases hglobal with rfl | hline
        · cases hg
        · exact of_decide_eq_false hline hl
      · rw [htag]
        exact hsame.symm

theorem mmuFlushAtcAll_leaves (s : Mmu) (global : Bool) :
    ∃ s', mmuFlushAtcAll global s = .ret () s' ∧
      FlushLeaves s s' fun g _ _ => global = true ∨ g = false := by
  refine ⟨_, rfl, rfl, rfl, rfl, ?_, ?_⟩
  · intro data index way
    dsimp only
    split
    · intro _
      rfl
    · intro h
      cases h
  · intro addr super data way
    dsimp only
    split
    · next hkeep =>
      rintro - - (rfl | hline)
      · cases hkeep.1
      · exact of_decide_eq_false hline hkeep.2
    · intro h
      cases h

theorem mmuSetTc_empties (s : Mmu) (tc : Word) :
    ∃ tc' s', mmuSetTc tc s = .ret tc' s' ∧ s'.AtcEmpty := by
  refine ⟨_, _, rfl, ?_⟩
  intro data index way
  rfl

theorem Coherent.edit (h : Coherent s dirty) (mem : PhysMem) :
    Coherent ((MmuOp.edit mem).next fuel s) (dirty.after s (.edit mem)) := by
  intro addr super data way hvalid htag
  rcases h addr super data way hvalid htag with hd | hl
  · exact .inl (.inl hd)
  · by_cases hkeep : ∀ y ∈ (s.regs.walk s.mem addr super).fetched, mem y = s.mem y
    · exact .inr (hl.edit hkeep)
    · push Not at hkeep
      exact .inl (.inr ⟨hl.global, hkeep⟩)

theorem TablesApart.congr {s' : Mmu} (h : s.TablesApart) (hregs : s'.regs = s.regs)
    (hmem : s'.mem = s.mem) : s'.TablesApart := by
  unfold Mmu.TablesApart
  rw [hregs, hmem]
  exact h

theorem mmuDoMatchTtr_ret (s : Mmu) (ttr addr : Long) (super : Bool) :
    ∃ m c, mmuDoMatchTtr ttr addr super s = .ret m (s.cached c) := by
  unfold mmuDoMatchTtr
  dsimp only
  split
  · exact ⟨_, s.mmuCacheState, rfl⟩
  · split
    · exact ⟨_, s.mmuCacheState, rfl⟩
    · split
      · exact ⟨_, s.mmuCacheState, rfl⟩
      · exact ⟨_, _, rfl⟩

theorem mmuMatchTtr_ret (s : Mmu) (addr : Long) (super data : Bool) :
    ∃ m c, mmuMatchTtr addr super data s = .ret m (s.cached c) := by
  unfold mmuMatchTtr
  rw [reads_bind_apply]
  split
  · obtain ⟨m, c, h⟩ :=
      mmuDoMatchTtr_ret s (if data then s.regs.dtt0 else s.regs.itt0) addr super
    rw [bind_ret h]
    split
    · obtain ⟨m', c', h'⟩ :=
        mmuDoMatchTtr_ret (s.cached c) (if data then s.regs.dtt1 else s.regs.itt1) addr super
      exact ⟨m', c', h'⟩
    · exact ⟨m, c, rfl⟩
  · exact ⟨_, s.mmuCacheState, rfl⟩

/-- `PTEST` flushes the page, and may fill a line of it. -/
theorem Coherent.ptest (h : Coherent s dirty) (hapart : s.TablesApart) (dfc : BitVec 3)
    (addr : Long) (write : Bool) :
    ∃ s', UaeCpu.ptest dfc addr write s = .ret () s' ∧ s'.regs = s.regs ∧ s'.s = s.s ∧
      Coherent s' (dirty.after s (.ptest dfc addr write)) := by
  obtain ⟨s₁, h₁, hflush⟩ := mmuFlushAtc_leaves s addr (decide (dfc &&& 4 ≠ 0)) true
  have hco : Coherent s₁ (dirty.after s (.ptest dfc addr write)) := by
    have hdrop := hflush.coherent h
    unfold Dirty.after
    simpa only [true_or, and_true] using hdrop
  obtain ⟨m, c, h₂⟩ := mmuMatchTtr_ret s₁ addr (decide (dfc &&& 4 ≠ 0)) (decide (dfc &&& 3 ≠ 2))
  have hapart₁ : (s₁.cached c).TablesApart := TablesApart.congr hapart hflush.regs hflush.mem
  unfold UaeCpu.ptest
  dsimp only
  rw [bind_ret h₁, bind_ret h₂, reads_bind_apply]
  dsimp only [id]
  split
  · exact ⟨_, rfl, hflush.regs, hflush.supervisor, hco⟩
  · split
    · exact ⟨_, rfl, hflush.regs, hflush.supervisor, hco⟩
    · obtain ⟨status, status060, s₃, h₃, hf, -⟩ := mmuFillAtc_fills
        ((s₁.cached c).regs.atcTag addr (decide (dfc &&& 4 ≠ 0))) write (decide (dfc &&& 3 ≠ 2))
        ((s₁.cached c).regs.atcIndex addr)
        (ptestWay ((s₁.cached c).mmuAtcArray (decide (dfc &&& 3 ≠ 2))
          ((s₁.cached c).regs.atcIndex addr)) (s₁.cached c).wayRandom) (hapart₁ addr _ addr _)
      have hfill : Coherent s₃ (dirty.after s (.ptest dfc addr write)) :=
        Coherent.fill (s := s₁.cached c) hco hapart₁ hf.regs hf.mem hf.atc
      rw [bind_ret h₃]
      exact ⟨_, rfl, hf.regs.trans hflush.regs, hf.supervisor.trans hflush.supervisor, hfill⟩

/-- An operation keeps the cache coherent. -/
theorem Coherent.next {op : MmuOp} (h : Coherent s dirty) (hapart : s.TablesApart)
    (hflushed : op.Flushed dirty) :
    Coherent (op.next (fuel + 2) s) (dirty.after s op) := by
  cases op with
  | translate addr val super data write size =>
    obtain ⟨s', hserved, hco⟩ := h.serves hapart hflushed addr val super data write size
      fuel
    rw [next_translate hserved]
    exact hco
  | flushAtc addr super global =>
    obtain ⟨s', hret, hflush⟩ := mmuFlushAtc_leaves s addr super global
    rw [next_ret (.flushAtc addr super global) hret]
    exact hflush.coherent h
  | flushAtcAll global =>
    obtain ⟨s', hret, hflush⟩ := mmuFlushAtcAll_leaves s global
    rw [next_ret (.flushAtcAll global) hret]
    exact hflush.coherent h
  | ptest dfc addr write =>
    obtain ⟨s', hret, -, -, hco⟩ := h.ptest hapart dfc addr write
    rw [next_ret (.ptest dfc addr write) hret]
    exact hco
  | setTc tc =>
    obtain ⟨tc', s', hret, hempty⟩ := mmuSetTc_empties s tc
    rw [next_ret (.setTc tc) (bind_ret hret)]
    exact .of_empty hempty
  | edit mem => exact h.edit mem

end Steps

/-! ## Runs -/

theorem MmuReaches.coherent {fuel : Nat} {s : Mmu} {dirty : Dirty}
    (h : MmuReaches Mmu.TablesApart (fuel + 2) s dirty) : s.TablesApart ∧ Coherent s dirty := by
  induction h with
  | start hempty hapart => exact ⟨hapart, .of_empty hempty⟩
  | step op _ hflushed hapart ih => exact ⟨hapart, ih.2.next ih.1 hflushed⟩

/-- A translation in a state that such a run has reached is a fresh walk: the outcome, the marks
in memory and nothing else there, and `S` as it was. -/
theorem mmuTranslate_refines_walk {fuel : Nat} {s : Mmu} {dirty : Dirty}
    (h : MmuReaches Mmu.TablesApart (fuel + 2) s dirty) (hclean : dirty.Clean) (addr val : Long)
    (super data write : Bool) (size : Nat) :
    ∃ s', Served (mmuTranslate addr val super data write size (fuel + 2) s) s s' addr super
      write := by
  obtain ⟨hapart, hco⟩ := h.coherent
  obtain ⟨s', hserved, -⟩ := hco.serves hapart hclean addr val super data write size fuel
  exact ⟨s', hserved⟩

/-- A 68040 with 4K pages, both root pointers 0 and an empty cache. -/
def emptyMmu (mem : PhysMem) : Mmu where
  mem := mem
  regs :=
    { mmuModel := .mmu68040, cpuModel := 68040, mmuEc := false, urp := 0, srp := 0, itt0 := 0
      itt1 := 0, dtt0 := 0, dtt1 := 0, mmuTtrEnabled := false, mmuEnabled := true
      mmuPagesize8k := false, cacheDefaultIns := cacheEnableAll
      cacheDefaultData := cacheEnableAll }
  s := false
  mmusr := 0
  mmuAtcArray := fun _ _ _ => ⟨0, false, 0, 0⟩
  mmuAtcWays := fun _ => Fin.last 3
  wayRandom := 0
  mmuCacheState := 0
  ceCachable := fun _ => 0
  atcLastIns := ⟨0, 0, 0⟩
  atcDataCacheRead := fun _ => ⟨0, 0, 0⟩
  atcDataCacheWrite := fun _ => ⟨0, 0, 0⟩
  fault := none

theorem emptyMmu_atcEmpty (mem : PhysMem) : (emptyMmu mem).AtcEmpty := fun _ _ _ => rfl

/-- One page, at `0x1000`, in the frame of the page descriptor `d`. -/
def onePage (d : Long) : PhysMem := fun x =>
  if x = 0 then some 0x203
  else if x = 0x200 then some 0x403
  else if x = 0x404 then some d
  else none

theorem pageLevel_direct {mem : PhysMem} (h : ∀ x d, mem x = some d → d &&& 3 ≠ 2) (x wp : Long) :
    (pageLevel mem x wp).indirect = none := by
  unfold pageLevel
  cases hx : mem x with
  | none => rfl
  | some d =>
    dsimp only
    rw [if_neg (h x d hx)]

theorem descLevel_direct {mem : PhysMem} {x : Long} {next : Long → Walk}
    (h : ∀ d, (next d).indirect = none) : (descLevel mem x next).indirect = none := by
  unfold descLevel
  split
  · rfl
  · split
    · rfl
    · exact h _

/-- Without indirect descriptors nothing is shared. -/
theorem tablesApart_of_direct {s : Mmu} (h : ∀ x d, s.mem x = some d → d &&& 3 ≠ 2) :
    s.TablesApart := by
  intro addr super addr' super' x _ v _ _ hind
  have hnone : (s.regs.walk s.mem addr' super').indirect = none :=
    descLevel_direct fun d => descLevel_direct fun d' => pageLevel_direct h _ _
  rw [hnone] at hind
  cases hind

theorem onePage_direct {d : Long} (hd : d &&& 3 ≠ 2) (x v : Long) (h : onePage d x = some v) :
    v &&& 3 ≠ 2 := by
  unfold onePage at h
  split at h
  · cases h
    decide
  · split at h
    · cases h
      decide
    · split at h
      · cases h
        exact hd
      · cases h

theorem direct_marked {mem mem' : PhysMem} (h : ∀ x d, mem x = some d → d &&& 3 ≠ 2)
    (hm : Marked markBits mem mem') (x d : Long) (hx : mem' x = some d) : d &&& 3 ≠ 2 := by
  cases hv : mem x with
  | none =>
    rw [hm.none_iff.mpr hv] at hx
    cases hx
  | some v =>
    obtain ⟨b, hb, hb'⟩ := hm.some_of hv
    rw [hx, Option.some.injEq] at hb'
    rw [hb', mark_and 3 (by decide : markBits &&& markBits = markBits) hb (by decide)]
    exact h x v hv

/-- A page that is accessed, moved to another frame, flushed, and accessed again. -/
theorem mmuTranslate_moved_page :
    ∃ s s', s.mem = onePage 0x20001 ∧
      Served (mmuTranslate 0x1000 0 false true false 4 2 s) s s' 0x1000 false false ∧
      s.regs.translate s.mem 0x1000 false false = some 0x20000 := by
  have h₀ : MmuReaches Mmu.TablesApart 2 (emptyMmu (onePage 0x10001)) fun _ _ _ => False :=
    .start (emptyMmu_atcEmpty _) (tablesApart_of_direct (onePage_direct (by decide)))
  have hclean : Dirty.Clean fun _ _ _ => False := fun _ _ _ => id
  obtain ⟨s₁, hserved⟩ := mmuTranslate_refines_walk h₀ hclean 0x1000 0 false true false 4
  have hnext := next_translate hserved
  have h₁ := h₀.step (.translate 0x1000 0 false true false 4) hclean
  rw [hnext] at h₁
  have hm : Marked markBits (onePage 0x10001) s₁.mem := by
    rw [hserved.mem]
    exact Walk.marked _ _ _ _
  have h₂ := (h₁ (tablesApart_of_direct (direct_marked (onePage_direct (by decide)) hm))).step
    (.edit (onePage 0x20001)) trivial (tablesApart_of_direct (onePage_direct (by decide)))
  have h₃ := h₂.step (.flushAtcAll true) trivial
    (tablesApart_of_direct (onePage_direct (by decide)))
  obtain ⟨s', hserved'⟩ := mmuTranslate_refines_walk h₃ (fun _ _ _ h => h.2 (.inl rfl)) 0x1000 0
    false true false 4
  refine ⟨_, s', rfl, hserved', ?_⟩
  change s₁.regs.translate (onePage 0x20001) 0x1000 false false = some 0x20000
  rw [hserved.regs]
  decide

/-- Two pages at `0x1000` and `0x40000`: the indirect page descriptor of the one is the pointer
table descriptor of the other. -/
def sharedDesc : PhysMem := fun x =>
  if x = 0 then some 0x20A
  else if x = 0x200 then some 0x20A
  else if x = 0x204 then some 0x602
  else if x = 0x600 then some 0x10009
  else if x = 0x608 then some 0x20009
  else none

/-- The state after an access to each of the two pages. -/
def sharedAccessed : Mmu :=
  (MmuOp.translate 0x40000 0 false true false 4).next 2
    ((MmuOp.translate 0x1000 0 false true false 4).next 2 (emptyMmu sharedDesc))

/-- `U` of a table descriptor is an address bit of the indirect descriptor it also is, so that an
access to one page moves the other, which nothing flushes. -/
theorem mmuTranslate_shared_descriptor :
    ¬∀ s dirty, MmuReaches (fun _ => True) 2 s dirty → dirty.Clean →
      ∀ addr val super data write size, ∃ s',
        Served (mmuTranslate addr val super data write size 2 s) s s' addr super write := by
  intro h
  have hclean : Dirty.Clean fun _ _ _ => False := fun _ _ _ => id
  have h₀ : MmuReaches (fun _ => True) 2 (emptyMmu sharedDesc) fun _ _ _ => False :=
    .start (emptyMmu_atcEmpty _) trivial
  have h₁ := h₀.step (.translate 0x1000 0 false true false 4) hclean trivial
  have h₂ := h₁.step (.translate 0x40000 0 false true false 4) hclean trivial
  obtain ⟨s', hserved⟩ := h sharedAccessed _ h₂ hclean 0x1000 0 false true false 4
  have hwalk : sharedAccessed.regs.translate sharedAccessed.mem 0x1000 false false =
      some 0x20000 := by decide +kernel
  have hcode : (mmuTranslate 0x1000 0 false true false 4 2 sharedAccessed).result =
      some (.ok 0x10000) := by decide +kernel
  have hout := hserved.outcome
  rw [hwalk] at hout
  rw [hout] at hcode
  cases hcode

end UaeCpu
