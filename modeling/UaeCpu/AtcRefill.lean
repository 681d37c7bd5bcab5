import UaeCpu.TableSearch030

/-!
# UaeCpu.AtcRefill

The translation cache of the 68030: a page and a function code have one valid line at most, and the
lookup after a search finds the line that has been made.

* `Looked`   — what a lookup does.
* `AtcInv`   — the invariant: lines are of whole pages, and no two are of the same one.
* `Mmu030Run` — the states reached with the cache empty at first.
-/

namespace UaeCpu

open Fault FaultM

/-! ## The lookup -/

/-- A valid line of the page `maddr`. -/
def AtcLine030.Matches (l : AtcLine030) (imask maddr fc : Long) : Prop :=
  maddr = l.logAddr &&& imask ∧ l.fc = fc ∧ l.valid = true

/-- The lookup takes the line: for a write it must be known that `M` is set in the tables, or that
the write faults. -/
def AtcLine030.serves (l : AtcLine030) (write : Bool) : Bool :=
  !write || l.modified || l.writeProtect || l.busError

/-- Lines have lost their validity or changed their history bit, no more. -/
def AtcShrinks (atc atc' : Fin 22 → AtcLine030) : Prop :=
  ∀ i, ∃ valid mru, atc' i = { atc i with valid := valid, mru := mru } ∧
    (valid = true → (atc i).valid = true)

theorem AtcShrinks.refl (atc : Fin 22 → AtcLine030) : AtcShrinks atc atc :=
  fun i => ⟨(atc i).valid, (atc i).mru, rfl, id⟩

theorem AtcShrinks.trans {atc atc' atc'' : Fin 22 → AtcLine030} (h : AtcShrinks atc atc')
    (h' : AtcShrinks atc' atc'') : AtcShrinks atc atc'' := by
  intro i
  obtain ⟨valid, mru, heq, hvalid⟩ := h i
  obtain ⟨valid', mru', heq', hvalid'⟩ := h' i
  rw [heq] at heq' hvalid'
  exact ⟨valid', mru', heq', fun hv => hvalid (hvalid' hv)⟩

theorem AtcShrinks.matches {atc atc' : Fin 22 → AtcLine030} (h : AtcShrinks atc atc') {i : Fin 22}
    {imask maddr fc : Long} (hm : (atc' i).Matches imask maddr fc) :
    (atc i).Matches imask maddr fc := by
  obtain ⟨valid, mru, heq, hvalid⟩ := h i
  rw [heq] at hm
  exact ⟨hm.1, hm.2.1, hvalid hm.2.2⟩

theorem usedAtc_shrinks (atc : Fin 22 → AtcLine030) (i : Fin 22) :
    AtcShrinks atc (usedAtc atc i) := by
  intro j
  obtain ⟨mru, hmru⟩ := usedAtc_mru atc i j
  exact ⟨(atc j).valid, mru, hmru, id⟩

theorem invalidated_shrinks (atc : Fin 22 → AtcLine030) (i : Fin 22) :
    AtcShrinks atc (Function.update atc i { atc i with valid := false }) := by
  intro j
  by_cases hj : j = i
  · rw [hj, Function.update_self]
    exact ⟨false, (atc i).mru, rfl, fun h => by cases h⟩
  · rw [Function.update_of_ne hj]
    exact AtcShrinks.refl atc j

/-- How many lines before `j` a lookup from `index` on looks at. -/
def ahead (index j : Fin 22) : Nat := (j.val + 22 - index.val) % 22

theorem ahead_lt (index j : Fin 22) : ahead index j < 22 := Nat.mod_lt _ (by decide)

theorem ahead_succ {index j : Fin 22} (h : j ≠ index) :
    ahead (index + 1) j + 1 = ahead index j := by
  have hval : (index + 1).val = (index.val + 1) % 22 := Fin.val_add index 1
  have hne : j.val ≠ index.val := fun he => h (Fin.ext he)
  unfold ahead
  rw [hval]
  omega

/-- What a lookup of `n` lines from `index` on does. -/
structure Looked (maddr fc : Long) (write : Bool) (n : Nat) (index : Fin 22) (m : Mmu030)
    (r : Option (Fin 22)) (m' : Mmu030) : Prop where
  kept : Kept030 m m'
  mem : m'.mem = m.mem
  shrinks : AtcShrinks m.atc m'.atc
  missed : r = none → ∀ j, ahead index j < n → ¬(m'.atc j).Matches m.regs.imask maddr fc
  found : ∀ j, ahead index j < n → (m.atc j).Matches m.regs.imask maddr fc →
    (m.atc j).serves write = true → r.isSome = true

/-- One line that is not taken, and the lookup of the others. -/
theorem Looked.next {maddr fc : Long} {write : Bool} {n : Nat} {index : Fin 22} {m m₁ m' : Mmu030}
    {r : Option (Fin 22)} (h : Looked maddr fc write n (index + 1) m₁ r m') (hk : Kept030 m m₁)
    (hmem : m₁.mem = m.mem) (hs : AtcShrinks m.atc m₁.atc)
    (hrest : ∀ j, j ≠ index → m₁.atc j = m.atc j)
    (hpassed : ¬(m₁.atc index).Matches m.regs.imask maddr fc)
    (hunused : (m.atc index).Matches m.regs.imask maddr fc →
      (m.atc index).serves write ≠ true) :
    Looked maddr fc write (n + 1) index m r m' := by
  have hregs : m₁.regs = m.regs := hk.1
  refine ⟨Trans.trans hk h.kept, h.mem.trans hmem, hs.trans h.shrinks, ?_, ?_⟩
  · intro hr j hj hm
    by_cases hji : j = index
    · rw [hji] at hm
      exact hpassed (h.shrinks.matches hm)
    · have hstep := ahead_succ hji
      exact h.missed hr j (by omega) (by rw [hregs]; exact hm)
  · intro j hj hm hserves
    by_cases hji : j = index
    · rw [hji] at hm hserves
      exact absurd hserves (hunused hm)
    · have hstep := ahead_succ hji
      refine h.found j (by omega) ?_ ?_
      · rw [hregs, hrest j hji]
        exact hm
      · rw [hrest j hji]
        exact hserves

theorem atcLookup_looked (maddr fc : Long) (write : Bool) (offset : BitVec 5) (n : Nat)
    (index : Fin 22) (m : Mmu030) :
    ∃ r m', atcLookup maddr fc write offset n index m = .ret r m' ∧
      Looked maddr fc write n index m r m' := by
  induction n generalizing index m with
  | zero =>
    exact ⟨none, m, rfl, Std.Refl.refl m, rfl, .refl _, fun _ _ hj => absurd hj (Nat.not_lt_zero _),
      fun _ hj => absurd hj (Nat.not_lt_zero _)⟩
  | succ n ih =>
    unfold atcLookup
    rw [reads_bind_apply]
    dsimp only [id]
    by_cases hm : maddr = (m.atc index).logAddr &&& m.regs.imask ∧ (m.atc index).fc = fc ∧
        (m.atc index).valid = true
    · rw [if_pos hm]
      by_cases hserves : (m.atc index).serves write = true
      · refine ⟨some index, _, congrFun (if_pos hserves) m, ⟨rfl, rfl⟩, rfl,
          usedAtc_shrinks m.atc index, ?_, ?_⟩
        · intro h
          cases h
        · exact fun _ _ _ _ => rfl
      · obtain ⟨r, m', hrun, hlooked⟩ := ih (index + 1)
          { m with atc := Function.update m.atc index { m.atc index with valid := false } }
        refine ⟨r, m', (congrFun (if_neg hserves) m).trans hrun, hlooked.next ⟨rfl, rfl⟩ rfl
          (invalidated_shrinks m.atc index) (fun j hj => Function.update_of_ne hj ..) ?_ ?_⟩
        · dsimp only
          rw [Function.update_self]
          exact fun h => by cases h.2.2
        · exact fun _ => hserves
    · rw [if_neg hm]
      obtain ⟨r, m', hrun, hlooked⟩ := ih (index + 1) m
      exact ⟨r, m', hrun, hlooked.next (Std.Refl.refl m) rfl (.refl _) (fun _ _ => rfl) hm
        fun h => absurd h hm⟩

/-- The lookup looks at all lines. -/
theorem mmu030LogicalIsInAtc_looked (addr fc : Long) (write : Bool) (m : Mmu030) :
    ∃ r m' index, mmu030LogicalIsInAtc addr fc write m = .ret r m' ∧
      Looked (addr &&& m.regs.imask) fc write 22 index m r m' := by
  obtain ⟨r, m', hrun, hlooked⟩ := atcLookup_looked (addr &&& m.regs.imask) fc write
    (((addr &&& m.regs.imask) >>> m.regs.translation.page.size).setWidth 5) 22
    (m.atcindextable (((addr &&& m.regs.imask) >>> m.regs.translation.page.size).setWidth 5)) m
  exact ⟨r, m', _, hrun, hlooked⟩

/-! ## The invariant -/

/-- The lines are of pages of the size in force, and no two valid ones are of the same page. -/
structure AtcOk (imask : Long) (atc : Fin 22 → AtcLine030) : Prop where
  masked : ∀ i, (atc i).valid = true → (atc i).logAddr &&& imask = (atc i).logAddr
  unique : ∀ maddr fc i j, (atc i).Matches imask maddr fc → (atc j).Matches imask maddr fc → i = j

theorem AtcOk.of_invalid {imask : Long} {atc : Fin 22 → AtcLine030}
    (h : ∀ i, (atc i).valid = false) : AtcOk imask atc := by
  refine ⟨fun i hv => ?_, fun _ _ i _ hm _ => ?_⟩
  · rw [h i] at hv
    cases hv
  · have hv := hm.2.2
    rw [h i] at hv
    cases hv

theorem AtcOk.shrinks {imask : Long} {atc atc' : Fin 22 → AtcLine030} (h : AtcOk imask atc)
    (hs : AtcShrinks atc atc') : AtcOk imask atc' := by
  refine ⟨fun i hv => ?_, fun maddr fc i j hi hj => ?_⟩
  · obtain ⟨valid, mru, heq, hvalid⟩ := hs i
    rw [heq] at hv ⊢
    exact h.masked i (hvalid hv)
  · exact h.unique maddr fc i j (hs.matches hi) (hs.matches hj)

/-- A line for a page that has none. -/
theorem AtcOk.fill {imask : Long} {atc atc' : Fin 22 → AtcLine030} {victim : Fin 22}
    (h : AtcOk imask atc) (hrest : ∀ i, i ≠ victim → ∃ mru, atc' i = { atc i with mru := mru })
    (hmasked : (atc' victim).logAddr &&& imask = (atc' victim).logAddr)
    (hnew : ∀ i, ¬(atc i).Matches imask (atc' victim).logAddr (atc' victim).fc) :
    AtcOk imask atc' := by
  have hold : ∀ {i maddr fc}, i ≠ victim → (atc' i).Matches imask maddr fc →
      (atc i).Matches imask maddr fc := by
    intro i maddr fc hi hm
    obtain ⟨mru, heq⟩ := hrest i hi
    rw [heq] at hm
    exact hm
  -- the page of a line that matches as the new one does
  have hclash : ∀ {i maddr fc}, i ≠ victim → (atc' i).Matches imask maddr fc →
      ¬(atc' victim).Matches imask maddr fc := by
    intro i maddr fc hi hm hv
    refine hnew i ?_
    rw [← hmasked, ← hv.1, hv.2.1]
    exact hold hi hm
  refine ⟨fun i hv => ?_, fun maddr fc i j hi hj => ?_⟩
  · by_cases hiv : i = victim
    · rw [hiv]
      exact hmasked
    · obtain ⟨mru, heq⟩ := hrest i hiv
      rw [heq] at hv ⊢
      exact h.masked i hv
  · by_cases hiv : i = victim
    · by_cases hjv : j = victim
      · rw [hiv, hjv]
      · rw [hiv] at hi
        exact absurd hi (hclash hjv hj)
    · by_cases hjv : j = victim
      · rw [hjv] at hj
        exact absurd hj (hclash hiv hi)
      · exact h.unique maddr fc i j (hold hiv hi) (hold hjv hj)

/-- What holds of the translation cache in every run. -/
structure AtcInv (m : Mmu030) : Prop where
  lastTable : m.regs.lastTable ≤ 3
  ok : AtcOk m.regs.imask m.atc

theorem AtcInv.shrinks {m m' : Mmu030} (h : AtcInv m) (htr : m'.regs.translation =
    m.regs.translation) (hs : AtcShrinks m.atc m'.atc) : AtcInv m' := by
  refine ⟨?_, ?_⟩
  · rw [Mmu030Regs.lastTable, htr]
    exact h.lastTable
  · rw [Mmu030Regs.imask, htr]
    exact h.ok.shrinks hs

/-- A search, after which the page has a line, if it had none. -/
theorem AtcInv.search {m : Mmu030} (h : AtcInv m) (addr fc : Long) (write : Bool)
    (hnew : ∀ i, ¬(m.atc i).Matches m.regs.imask (addr &&& m.regs.imask) fc) :
    ∃ m', mmu030TableSearch addr fc write 0 m = .ret 0 m' ∧ m'.regs = m.regs ∧ AtcInv m' := by
  obtain ⟨m', hrun, hregs, hs⟩ := mmu030TableSearch_searched m addr fc write h.lastTable
  refine ⟨m', hrun, hregs, by rw [hregs]; exact h.lastTable, ?_⟩
  rw [hregs]
  refine h.ok.fill hs.others ?_ fun i => ?_
  · rw [hs.line]
    change (addr &&& m.regs.imask) &&& m.regs.imask = addr &&& m.regs.imask
    rw [BitVec.and_assoc, BitVec.and_self]
  · rw [hs.line]
    exact hnew i

/-- The invariant is kept, and so is what `TC` has been decoded to. -/
def AtcKept (m m' : Mmu030) : Prop :=
  AtcInv m → AtcInv m' ∧ m'.regs.translation = m.regs.translation

instance : Std.Refl AtcKept := ⟨fun _ h => ⟨h, rfl⟩⟩

instance : IsTrans Mmu030 AtcKept := ⟨fun _ _ _ h h' hinv =>
  ⟨(h' (h hinv).1).1, (h' (h hinv).1).2.trans (h hinv).2⟩⟩

theorem AtcKept.of_shrinks {m m' : Mmu030} (htr : m'.regs.translation = m.regs.translation)
    (hs : AtcShrinks m.atc m'.atc) : AtcKept m m' := fun h => ⟨h.shrinks htr hs, htr⟩

theorem AtcKept.of_atc {m m' : Mmu030} (htr : m'.regs.translation = m.regs.translation)
    (hatc : m'.atc = m.atc) : AtcKept m m' := .of_shrinks htr (hatc ▸ .refl _)

/-- Where the invariant does not hold nothing is said. -/
theorem atcKept_within {α : Type} {c : Mmu030M α}
    (h : ∀ m, AtcInv m → Ends c m (fun _ => AtcKept m) (AtcKept m)) : Within AtcKept c := by
  intro m
  by_cases hinv : AtcInv m
  · exact h m hinv
  · exact .of_forall (fun _ _ h => absurd h hinv) fun _ h => absurd h hinv

theorem refillAtc_atcKept {α : Type} (addr fc : Long) (write searchWrite : Bool)
    {hit miss : Option (Fin 22) → Mmu030M α} (hhit : ∀ l, Within AtcKept (hit l))
    (hmiss : ∀ l, Within AtcKept (miss l)) :
    Within AtcKept (refillAtc addr fc write searchWrite hit miss) := by
  have hlookup : Within AtcKept (mmu030LogicalIsInAtc addr fc write) := by
    intro m
    obtain ⟨r, m', _, hrun, hlooked⟩ := mmu030LogicalIsInAtc_looked addr fc write m
    unfold Ends
    rw [hrun]
    exact .of_shrinks (congrArg _ hlooked.kept.1) hlooked.shrinks
  refine atcKept_within fun m hinv => ?_
  obtain ⟨r, m₁, index, hrun, hlooked⟩ := mmu030LogicalIsInAtc_looked addr fc write m
  have hkept : AtcKept m m₁ := .of_shrinks (congrArg _ hlooked.kept.1) hlooked.shrinks
  have hafter : ∀ c : Mmu030M α, Within AtcKept c → Ends c m₁ (fun _ => AtcKept m) (AtcKept m) :=
    fun c hc => (hc m₁).mono (fun _ _ h => Trans.trans hkept h) fun _ h => Trans.trans hkept h
  unfold refillAtc
  rw [ends_bind]
  unfold Ends
  rw [hrun]
  refine Ends.ite (fun _ => hafter _ (hhit r)) fun hnone => ?_
  obtain ⟨m₂, hsearch, hregs, hinv₂⟩ := (hkept hinv).1.search addr fc searchWrite fun i => by
    rw [hlooked.kept.1]
    exact hlooked.missed (Option.not_isSome_iff_eq_none.mp hnone) i (ahead_lt index i)
  rw [ends_bind]
  unfold Ends
  rw [hsearch]
  have hkept₂ : AtcKept m m₂ := fun _ =>
    ⟨hinv₂, by rw [hregs, hlooked.kept.1]⟩
  refine (Within.bind hlookup hmiss m₂).mono (fun _ _ h => ?_) fun _ h => ?_
  · exact Trans.trans hkept₂ h
  · exact Trans.trans hkept₂ h

theorem invalidateAtc_shrinks (drop : Mmu030 → AtcLine030 → Bool) (m : Mmu030) :
    AtcShrinks m.atc fun i => if drop m (m.atc i) then { m.atc i with valid := false }
      else m.atc i := by
  intro i
  by_cases hd : drop m (m.atc i) = true
  · exact ⟨false, (m.atc i).mru, if_pos hd, fun h => by cases h⟩
  · exact ⟨(m.atc i).valid, (m.atc i).mru, if_neg hd, id⟩

/-- A flush of a page leaves no line of it. -/
theorem mmu030FlushAtcPage_ret (addr : Long) (m : Mmu030) :
    ∃ m', mmu030FlushAtcPage addr m = .ret () m' ∧ m'.regs = m.regs ∧ AtcShrinks m.atc m'.atc ∧
      ∀ i, (m.atc i).logAddr = addr &&& m.regs.imask → (m'.atc i).valid = false := by
  have hdrop := invalidateAtc_shrinks (fun _ l => decide (l.logAddr = addr &&& m.regs.imask)) m
  refine ⟨_, rfl, rfl, hdrop, fun i hi => ?_⟩
  exact congrArg AtcLine030.valid (if_pos (decide_eq_true hi))

theorem atcKept_opRel : OpRel AtcKept where
  aside h := .of_atc (congrArg _ h.1) h.2.2.2
  refill addr fc write searchWrite _ _ := refillAtc_atcKept addr fc write searchWrite
  registers h hatc := .of_atc h.2.2.2 hatc
  invalidate drop := .update fun m => .of_shrinks rfl (invalidateAtc_shrinks drop m)
  load addr fc write := by
    refine atcKept_within fun m hinv => ?_
    obtain ⟨m₁, hflush, hregs, hs, hgone⟩ := mmu030FlushAtcPage_ret addr m
    obtain ⟨m₂, hsearch, hregs₂, hinv₂⟩ :=
        (hinv.shrinks (congrArg _ hregs) hs).search addr fc write fun i hm => by
      have hold := hs.matches hm
      rw [hregs] at hold
      have hpage := hold.1.trans (hinv.ok.masked i hold.2.2)
      have hv := hm.2.2
      rw [hgone i hpage.symm] at hv
      cases hv
    unfold Ends
    rw [bind_ret hflush, hsearch]
    exact fun _ => ⟨hinv₂, by rw [hregs₂, hregs]⟩
  search addr fc write level hl := by
    intro m
    have hkept := mmu030TableSearch_kept addr fc write level m
    have hatc := mmu030TableSearch_atc addr fc write hl m
    unfold Ends at *
    split
    · rename_i hs
      rw [hs] at hkept hatc
      exact .of_atc (congrArg _ hkept.1) hatc
    · rename_i hs
      rw [hs] at hkept hatc
      exact .of_atc (congrArg _ hkept.1) hatc
    · trivial

/-! ## Runs -/

/-- `PMOVE` to `TC`. -/
def Mmu030Op.LoadsTc : Mmu030Op → Prop
  | pmove _ next _ => UaeCpu.LoadsTc next
  | _ => False

/-- A load of `TC` leaves the page size as it is, or leaves no line. -/
def Mmu030Op.KeepsPages (op : Mmu030Op) (m m' : Mmu030) : Prop :=
  op.LoadsTc → m'.regs.imask = m.regs.imask ∨ ∀ i, (m'.atc i).valid = false

/-- The states reached by operations that satisfy `C`, from one with translation off and no lines. -/
inductive Mmu030Run (C : Mmu030Op → Mmu030 → Mmu030 → Prop) : Mmu030 → Prop where
  | start {m : Mmu030} : m.regs.enabled = false → m.regs.lastTable = 0 →
      (∀ i, (m.atc i).valid = false) → Mmu030Run C m
  | step {m m' : Mmu030} (op : Mmu030Op) : Mmu030Run C m → op.next m = some m' → C op m m' →
      Mmu030Run C m'

/-- The decoding of `TC` leaves the lines alone. -/
theorem decodeTranslation_atc {m : Mmu030} (h : m.regs.lastTable ≤ 3) (tc : Long) :
    Ends (decodeTranslation tc) m (fun _ m' => m'.regs.lastTable ≤ 3 ∧ m'.atc = m.atc)
      fun _ => False := by
  unfold decodeTranslation updateRegs raiseException
  rw [ends_bind, ends_update, ends_bind, ends_reads]
  dsimp only [id]
  refine .ite (fun _ => ?_) fun _ => ?_
  · rw [ends_bind, ends_update, ends_pure]
    exact ⟨h, rfl⟩
  · obtain ⟨tr, htr⟩ : ∃ tr, tr = pageTranslation (resetTranslation tc m.regs.translation) :=
      ⟨_, rfl⟩
    have hlast : (decodeTables tc (List.finRange 4) (32 - tr.initShift) tr).2.lastTable.toNat ≤
        3 := by
      rcases decodeTables_last tc (List.finRange 4) (32 - tr.initShift) tr with
        ⟨hstop, -⟩ | ⟨i, hi, -⟩
      · rw [hstop, htr]
        exact Nat.zero_le 3
      · rw [hi, BitVec.toNat_ofNat]
        omega
    rw [ends_bind, ends_update, ← htr]
    refine .ite (fun _ => ?_) fun _ => ?_
    · rw [ends_bind, ends_update, ends_pure]
      exact ⟨hlast, rfl⟩
    · rw [ends_pure]
      exact ⟨hlast, rfl⟩

/-- The lines are right for the page size that was in force before. -/
def AtcOkFor (imask : Long) (m : Mmu030) : Prop := m.regs.lastTable ≤ 3 ∧ AtcOk imask m.atc

theorem AtcInv.okFor {m : Mmu030} (h : AtcInv m) : AtcOkFor m.regs.imask m := ⟨h.lastTable, h.ok⟩

theorem AtcInv.kept_okFor {m m' : Mmu030} (h : AtcInv m) (hk : AtcKept m m') :
    AtcOkFor m.regs.imask m' := by
  obtain ⟨hinv, htr⟩ := hk h
  have hok := hinv.ok
  rw [Mmu030Regs.imask, htr] at hok
  exact ⟨hinv.lastTable, hok⟩

theorem mmu030DecodeTc_atc {m : Mmu030} (h : AtcInv m) (tc : Long) (check : Bool) :
    Ends (mmu030DecodeTc mmu030DoFakePrefetch tc check) m (fun _ => AtcOkFor m.regs.imask)
      fun _ => False := by
  have hinv : AtcInv { m with lastLogicalAddress := 0xFFFFFFFF } := ⟨h.lastTable, h.ok⟩
  unfold mmu030DecodeTc updateRegs
  rw [ends_bind, ends_update, ends_bind, ends_reads]
  dsimp only [id]
  refine .ite (fun _ => ?_) fun _ => ?_
  · rw [ends_bind]
    refine (fakePrefetchIf_ends atcKept_opRel.toAccessRel _ _).mono (fun _ m₁ h₁ => ?_) fun _ h => h
    rw [ends_bind, ends_update]
    obtain ⟨hlast, hok⟩ := hinv.kept_okFor h₁
    refine (decodeTranslation_atc (by exact hlast) _).mono (fun _ m' h' => ?_) fun _ h' => h'
    exact ⟨h'.1, by rw [h'.2]; exact hok⟩
  · rw [ends_bind]
    refine (fakePrefetchIf_ends atcKept_opRel.toAccessRel _ _).mono (fun _ m₁ h₁ => ?_) fun _ h => h
    rw [ends_bind, ends_update, ends_pure]
    obtain ⟨hlast, hok⟩ := hinv.kept_okFor h₁
    exact ⟨hlast, hok⟩

/-- After a load of `TC` the lines are as they were, or there are none. -/
theorem mmuOp30Pmove_atc {m : Mmu030} (h : AtcInv m) (opcode : Long) {next : Word} (extra : Long)
    (hload : LoadsTc next) :
    Ends (mmuOp30Pmove operand030 mmu030DoFakePrefetch opcode next extra) m
      (fun _ => AtcOkFor m.regs.imask) (AtcOkFor m.regs.imask) := by
  rw [mmuOp30Pmove_loadsTc _ _ _ _ hload]
  refine .ite (fun _ => ends_pure.mpr h.okFor) fun _ => ?_
  have hget := (operand_within atcKept_opRel.toAccessRel).getLong extra m
  refine Ends.bind (P := fun _ => AtcKept m) (hget.mono (fun _ _ hk => hk) fun _ hk => ?_) ?_
  · exact h.kept_okFor hk
  intro v m₁ hk
  obtain ⟨hinv, htr⟩ := hk h
  have himask : m₁.regs.imask = m.regs.imask := congrArg (fun tr => tr.page.imask) htr
  unfold updateRegs
  rw [ends_bind, ends_update, ← himask]
  obtain ⟨m₂, hm₂⟩ : ∃ m₂, m₂ = { m₁ with regs := { m₁.regs with tc030 := v } } := ⟨_, rfl⟩
  have hinv₂ : AtcInv m₂ := by
    rw [hm₂]
    exact ⟨hinv.lastTable, hinv.ok⟩
  have himask₂ : m₂.regs.imask = m₁.regs.imask := by
    rw [hm₂]
  rw [← hm₂, ← himask₂]
  refine Ends.bind (P := fun _ => AtcOkFor m₂.regs.imask)
    ((mmu030DecodeTc_atc hinv₂ v true).mono (fun _ _ h' => h') fun _ h' => h'.elim) ?_
  intro bad m₃ h₃
  refine .ite (fun _ => ends_pure.mpr h₃) fun _ => ?_
  refine Ends.bind (P := fun _ => AtcOkFor m₂.regs.imask) (.ite (fun _ => ?_) fun _ =>
    ends_pure.mpr h₃) fun _ m₄ h₄ => ?_
  · exact ⟨h₃.1, h₃.2.shrinks (invalidateAtc_shrinks (fun _ _ => true) m₃)⟩
  · rw [ends_bind, ends_update, ends_pure]
    exact h₄

theorem mmu030Reset_atcKept (hardreset : Int) : Within AtcKept (mmu030Reset hardreset) := by
  unfold mmu030Reset
  refine .bind (.update fun _ => .of_atc rfl rfl) fun _ => ?_
  refine .bind (.update fun _ => .of_atc rfl rfl) fun _ => .bind (.ite (fun _ => ?_) fun _ => ?_) ?_
  · exact .update fun _ => .of_atc rfl rfl
  · exact .pure _
  refine fun _ => .ite (fun _ => ?_) fun _ => .pure _
  refine .bind (.update fun _ => .of_atc rfl rfl) fun _ => ?_
  exact .bind (.update fun _ => .of_atc rfl rfl) fun _ => mmu030FlushAtcAll_within atcKept_opRel

/-- One operation that is no load of `TC`. -/
theorem perform_atcKept {op : Mmu030Op} (h : ¬op.LoadsTc) : Within AtcKept op.perform := by
  cases op with
  | access a => exact .bind (access_within atcKept_opRel.toAccessRel a) fun _ => .pure _
  | checkFc flags addr write =>
    refine .bind ?_ fun _ => .pure _
    exact uaeMmu030CheckFc_within atcKept_opRel.toAccessRel _ _ _
  | pmove opcode next extra =>
    exact .bind (mmuOp30Pmove_within atcKept_opRel _ _ _ _ h) fun _ => .pure _
  | pflush opcode next extra =>
    exact .bind (mmuOp30Pflush_within atcKept_opRel _ _ _) fun _ => .pure _
  | ptest opcode next extra =>
    exact .bind (mmuOp30Ptest_within atcKept_opRel _ _ _) fun _ => .pure _
  | reset hardreset => exact mmu030Reset_atcKept _
  | edit mem => exact .update fun _ => .of_atc rfl rfl
  | cpu pc sfc dfc fc030 dregs aregs s =>
    exact .bind (.update fun _ => .of_atc rfl rfl) fun _ => .update fun _ => .of_atc rfl rfl

theorem Mmu030Op.next_atc {op : Mmu030Op} {m m' : Mmu030} (h : AtcInv m)
    (hn : op.next m = some m') (hc : op.KeepsPages m m') : AtcInv m' := by
  by_cases hload : op.LoadsTc
  · have hfor : AtcOkFor m.regs.imask m' := by
      cases op with
      | pmove opcode next extra =>
        refine next_ends ((mmuOp30Pmove_atc h opcode extra hload).bind fun _ _ h' => ?_) hn
        exact h'
      | _ => exact hload.elim
    refine ⟨hfor.1, ?_⟩
    rcases hc hload with himask | hnone
    · rw [himask]
      exact hfor.2
    · exact .of_invalid hnone
  · exact (next_ends (perform_atcKept hload m) hn h).1

theorem Mmu030Run.atcInv {m : Mmu030} (h : Mmu030Run Mmu030Op.KeepsPages m) : AtcInv m := by
  induction h with
  | start _ hlast hnone => exact ⟨by omega, .of_invalid hnone⟩
  | step op _ hn hc ih => exact Mmu030Op.next_atc ih hn hc

/-! ## Refilling -/

/-- The root pointer is a page descriptor, and its limit does not exclude the access. -/
def Mmu030.EarlyRoot (m : Mmu030) (addr fc : Long) : Prop :=
  let d := rootDesc (rootPointer m (decide (fc &&& 4 ≠ 0)))
  d.type = 1 ∧
    ((m.regs.levels addr fc).head?.any fun l => l.limited && d.excludes l.index) = false

/-- A write marks the page modified, unless it is not permitted. -/
def Walk030.Writable (w : Walk030) : Prop :=
  w.page = none ∨ w.rights.sv = true ∨ w.rights.wp = true ∨ w.modified = true

theorem walkFrom_writable {q : WalkAccess} {levels : List WalkLevel} {mem : PhysMem}
    {a : Option Long} {d : Desc030} {r : WalkRights} (hq : q.write = true)
    (ha : a = none → d.type ≠ 1) : (walkFrom q levels mem a d r).Writable := by
  refine walkFrom_rule (P := fun _ w => w.Writable) (H := fun _ a d => a = none → d.type ≠ 1)
    (fun _ _ => .inl rfl) (fun levels mem a d r htype ha => ?_) (fun _ _ _ h => h)
    (fun _ _ _ _ _ _ h => h) (fun _ _ _ _ h => nomatch h) ha
  have hsome : a.isSome = true := by
    cases a with
    | none => exact absurd htype (ha rfl)
    | some x => rfl
  unfold Walk030.Writable walkPage WalkRights.permitWrite
  dsimp only
  rw [hsome, hq]
  cases (r.below q a d).sv with
  | true => exact .inr (.inl rfl)
  | false =>
    cases (r.below q a d).wp with
    | true => exact .inr (.inr (.inl rfl))
    | false => exact .inr (.inr (.inr (by simp)))

theorem walk_writable {m : Mmu030} {addr fc : Long} (h : ¬m.EarlyRoot addr fc) :
    (m.walk addr fc true).Writable := by
  unfold Mmu030.EarlyRoot at h
  unfold Mmu030.walk
  dsimp only at h ⊢
  generalize rootDesc (rootPointer m (decide (fc &&& 4 ≠ 0))) = d at h
  by_cases htype : d.type = 1
  · refine .inl ?_
    have h0 : d.type ≠ 0 := by
      rw [htype]
      decide
    have hex : ((m.regs.levels addr fc).head?.any fun l => l.limited && d.excludes l.index) =
        true := by
      rw [← Bool.not_eq_false]
      exact fun hex => h ⟨htype, hex⟩
    generalize m.regs.levels addr fc = levels at hex
    cases levels with
    | nil => cases hex
    | cons l levels =>
      unfold walkFrom
      rw [if_neg h0, if_pos htype]
      exact if_pos hex
  · exact walkFrom_writable rfl fun _ => htype

theorem Walk030.Writable.serves {w : Walk030} (h : w.Writable) (r : Mmu030Regs) (addr fc : Long)
    (write : Bool) : (w.line r addr fc).serves write = true := by
  unfold AtcLine030.serves Walk030.line
  rcases h with h | h | h | h
  · simp [h]
  · simp [h]
  · simp [h]
  · simp [h]

/-- After a search the lookup finds a line. -/
theorem search_found {m : Mmu030} (hlast : m.regs.lastTable ≤ 3) (addr fc : Long)
    {write searchWrite : Bool}
    (h : write = true → searchWrite = true ∧ ¬m.EarlyRoot addr fc) :
    ∃ m₁ i m₂, mmu030TableSearch addr fc searchWrite 0 m = .ret 0 m₁ ∧
      mmu030LogicalIsInAtc addr fc write m₁ = .ret (some i) m₂ := by
  obtain ⟨m₁, hsearch, hregs, hs⟩ := mmu030TableSearch_searched m addr fc searchWrite hlast
  obtain ⟨r, m₂, index, hlookup, hlooked⟩ := mmu030LogicalIsInAtc_looked addr fc write m₁
  have hserves : (m₁.atc (atcVictim m)).serves write = true := by
    rw [hs.line]
    cases write with
    | false => rfl
    | true =>
      obtain ⟨hwrite, hroot⟩ := h rfl
      rw [hwrite]
      exact (walk_writable hroot).serves m.regs addr fc true
  have hfound := hlooked.found (atcVictim m) (ahead_lt index _) (by
    rw [hs.line, hregs]
    refine ⟨?_, rfl, rfl⟩
    change _ = (addr &&& m.regs.imask) &&& m.regs.imask
    rw [BitVec.and_assoc, BitVec.and_self]) hserves
  obtain ⟨i, hi⟩ := Option.isSome_iff_exists.mp hfound
  exact ⟨m₁, i, m₂, hsearch, hi ▸ hlookup⟩

/-! ### Accesses -/

section Accesses

variable (addr : Long) (i : Fin 22) (fc : Long) (flags : Word)

theorem mmu030PageFault_comes {α : Type} (read : Bool) :
    Comes (mmu030PageFault addr read flags fc : Mmu030M α) :=
  .bind (.update _) fun _ => .throwCode 2

/-- `mmu030.atc[i]`, and what is done with it. -/
theorem atcAt_bind_comes {α : Type} {f : AtcLine030 → Mmu030M α} (h : ∀ l, Comes (f l)) :
    Comes (atcAt (some i) >>= f) := fun m => h (m.atc i) m

theorem mmu030PutAtc_comes : Comes (mmu030PutAtc addr (some i) fc flags) := by
  refine atcAt_bind_comes i fun _ => .ite (fun _ => mmu030PageFault_comes _ _ _ _) fun _ => ?_
  exact .bind (.update _) fun _ => .reads_bind fun _ => .bind (.update _) fun _ => .pure _

theorem mmu030GetAtc_comes : Comes (mmu030GetAtc addr (some i) fc flags) := by
  refine atcAt_bind_comes i fun _ => .ite (fun _ => mmu030PageFault_comes _ _ _ _) fun _ => ?_
  exact .bind (.update _) fun _ => .reads_bind fun _ => .bind (.update _) fun _ => .pure _

theorem mmu030GetIAtc_comes : Comes (mmu030GetIAtc addr (some i) fc flags) := by
  refine atcAt_bind_comes i fun _ => .ite (fun _ => mmu030PageFault_comes _ _ _ _) fun _ => ?_
  exact .bind (.update _) fun _ => .reads_bind fun _ => .pure _

theorem mmu030PutAtcGeneric_comes : Comes (mmu030PutAtcGeneric addr (some i) fc flags) := by
  refine atcAt_bind_comes i fun _ => .ite (fun _ => mmu030PageFault_comes _ _ _ _) fun _ => ?_
  exact .reads_bind fun _ => .bind (.update _) fun _ => .pure _

theorem mmu030GetAtcGeneric_comes (checkwrite : Bool) :
    Comes (mmu030GetAtcGeneric addr (some i) fc flags checkwrite) := by
  refine atcAt_bind_comes i fun _ => .ite (fun _ => mmu030PageFault_comes _ _ _ _) fun _ => ?_
  exact .reads_bind fun _ => .bind (.update _) fun _ => .pure _

theorem mmu030GetAddrAtc_comes (write : Bool) :
    Comes (mmu030GetAddrAtc addr (some i) fc flags write) := by
  refine atcAt_bind_comes i fun _ => .ite (fun _ => mmu030PageFault_comes _ _ _ _) fun _ => ?_
  exact .reads_bind fun _ => .pure _

theorem cacheablecheck_comes : Comes (cacheablecheck addr) := .update _

/-- A search for writing marks the page, where the lookup after it is for writing. -/
def Mmu030.Refills (m : Mmu030) (addr fc : Long) (write searchWrite : Bool) : Prop :=
  write = true → searchWrite = true ∧ ¬m.EarlyRoot addr fc

theorem Mmu030.refills_read (m : Mmu030) (searchWrite : Bool) :
    m.Refills addr fc false searchWrite := fun h => nomatch h

theorem refillAtc_comes {α : Type} {m : Mmu030} {write searchWrite : Bool}
    (hlast : m.regs.lastTable ≤ 3) (h : m.Refills addr fc write searchWrite)
    (hit miss : Option (Fin 22) → Mmu030M α) (hhit : ∀ i, Comes (hit (some i)))
    (hmiss : ∀ i, Comes (miss (some i))) :
    refillAtc addr fc write searchWrite hit miss m ≠ .diverge := by
  obtain ⟨r, m₁, _, hlookup, hlooked⟩ := mmu030LogicalIsInAtc_looked addr fc write m
  have hregs : m₁.regs = m.regs := hlooked.kept.1
  unfold refillAtc
  rw [bind_ret hlookup]
  cases r with
  | some i => exact hhit i m₁
  | none =>
    have hrefills : write = true → searchWrite = true ∧ ¬m₁.EarlyRoot addr fc := by
      unfold Mmu030.EarlyRoot rootPointer
      rw [hregs]
      exact h
    obtain ⟨m₂, i, m₃, hsearch, hfound⟩ := search_found (by rw [hregs]; exact hlast) addr fc hrefills
    refine ite_comes (fun hsome => nomatch hsome) fun _ => ?_
    rw [bind_ret hsearch, bind_ret hfound]
    exact hmiss i m₃

theorem throughAtc_comes {m : Mmu030} {write searchWrite : Bool} (hlast : m.regs.lastTable ≤ 3)
    (h : m.Refills addr fc write searchWrite) {access : Option (Fin 22) → Mmu030M Long}
    (haccess : ∀ i, Comes (access (some i))) :
    throughAtc addr fc write searchWrite access m ≠ .diverge :=
  refillAtc_comes addr fc hlast h access access haccess haccess

end Accesses

/-- Accesses that write go through no root pointer that is a page descriptor; `mmu030_translate`,
whose search is never for writing, is for reading. -/
def Access030.Refills (m : Mmu030) : Access030 → Prop
  | put _ addr fc => ¬m.EarlyRoot addr fc
  | get _ _ _ => True
  | getI _ _ _ => True
  | putGeneric _ addr fc => ¬m.EarlyRoot addr fc
  | getGeneric flags addr fc => flags &&& mmu030SswRm ≠ 0 → ¬m.EarlyRoot addr fc
  | translate _ _ _ write => write = false

theorem checked_comes {c : Mmu030M Long} {m : Mmu030} (h : c m ≠ .diverge) :
    (c >>= fun phys => do
      cacheablecheck phys
      pure phys) m ≠ .diverge :=
  bind_comes h fun phys => .bind (cacheablecheck_comes phys) fun _ => .pure phys

section Perform

variable {m : Mmu030} {addr fc : Long} {flags : Word} (hlast : m.regs.lastTable ≤ 3)

include hlast

theorem mmu030Put_comes (h : ¬m.EarlyRoot addr fc) : mmu030Put addr fc flags m ≠ .diverge := by
  unfold mmu030Put
  rw [update_bind_apply, reads_bind_apply]
  refine checked_comes ?_
  refine ite_comes (fun _ => ite_comes (fun _ => ?_) fun _ => ?_) fun _ => ?_
  · exact Comes.bind (.update _) (fun _ => .pure _) _
  · exact throughAtc_comes _ _ (by exact hlast) (fun _ => ⟨rfl, by exact h⟩)
      fun i => mmu030PutAtc_comes _ i _ _
  · exact Comes.pure _ _

theorem mmu030Get_comes : mmu030Get addr fc flags m ≠ .diverge := by
  unfold mmu030Get
  rw [update_bind_apply, reads_bind_apply]
  refine checked_comes ?_
  refine ite_comes (fun _ => ite_comes (fun _ => ?_) fun _ => ?_) fun _ => ?_
  · exact Comes.bind (.update _) (fun _ => .pure _) _
  · exact throughAtc_comes _ _ (by exact hlast) (Mmu030.refills_read _ _ _ _)
      fun i => mmu030GetAtc_comes _ i _ _
  · exact Comes.pure _ _

theorem mmu030GetI_comes : mmu030GetI addr fc flags m ≠ .diverge := by
  unfold mmu030GetI
  rw [reads_bind_apply]
  refine ite_comes (fun _ => Comes.bind (.update _) (fun _ => .pure _) _) fun _ => ?_
  rw [update_bind_apply, reads_bind_apply]
  refine checked_comes ?_
  refine ite_comes (fun _ => ?_) fun _ => ?_
  · exact throughAtc_comes _ _ (by exact hlast) (Mmu030.refills_read _ _ _ _)
      fun i => mmu030GetIAtc_comes _ i _ _
  · exact Comes.pure _ _

theorem mmu030PutGeneric_comes (h : ¬m.EarlyRoot addr fc) :
    mmu030PutGeneric addr fc flags m ≠ .diverge := by
  unfold mmu030PutGeneric
  rw [update_bind_apply, reads_bind_apply]
  refine checked_comes ?_
  refine ite_comes (fun _ => ?_) fun _ => ?_
  · exact throughAtc_comes _ _ (by exact hlast) (fun _ => ⟨rfl, by exact h⟩)
      fun i => mmu030PutAtcGeneric_comes _ i _ _
  · exact Comes.pure _ _

theorem mmu030GetGeneric_comes (h : flags &&& mmu030SswRm ≠ 0 → ¬m.EarlyRoot addr fc) :
    mmu030GetGeneric addr fc flags m ≠ .diverge := by
  unfold mmu030GetGeneric
  rw [update_bind_apply, reads_bind_apply]
  refine checked_comes ?_
  refine ite_comes (fun _ => ?_) fun _ => ?_
  · exact throughAtc_comes _ _ (by exact hlast) (fun hrm => ⟨hrm, by exact h (of_decide_eq_true hrm)⟩)
      fun i => mmu030GetAtcGeneric_comes _ i _ _ _
  · exact Comes.pure _ _

theorem mmu030Translate_comes (super data : Bool) :
    mmu030Translate addr super data false m ≠ .diverge := by
  unfold mmu030Translate
  refine ite_comes (fun _ => Comes.pure _ _) fun _ => ?_
  generalize (if super then 4 else 0 : Long) ||| (if data then 1 else 2) = fc
  obtain ⟨b, m₁, hmatch, hregs⟩ : ∃ b m₁, mmu030MatchTtr addr fc false m = .ret b m₁ ∧
      m₁.regs = m.regs := by
    refine ⟨_, _, rfl, ?_⟩
    dsimp only [id]
    split <;> rfl
  rw [bind_ret hmatch, reads_bind_apply]
  refine ite_comes (fun _ => Comes.pure _ _) fun _ => ?_
  exact throughAtc_comes _ _ (by rw [hregs]; exact hlast) (Mmu030.refills_read _ _ _ _)
      fun i => mmu030GetAddrAtc_comes _ i _ _ _

theorem uaeMmu030CheckFc_comes {write : Bool}
    (h : write = true → ¬m.EarlyRoot addr m.regs.fc030) :
    uaeMmu030CheckFc addr flags write m ≠ .diverge := by
  unfold uaeMmu030CheckFc
  rw [reads_bind_apply, update_bind_apply, reads_bind_apply]
  refine bind_comes ?_ fun _ => ?_
  · refine ite_comes (fun _ => ?_) fun _ => Comes.pure _ _
    exact refillAtc_comes addr m.regs.fc030 (by exact hlast) (fun hw => ⟨hw, by exact h hw⟩)
      (fun l => mmu030GetAtcGeneric addr l m.regs.fc030 flags write)
      (fun l => mmu030GetAtcGeneric addr l m.regs.fc030 flags false)
      (fun i => mmu030GetAtcGeneric_comes _ i _ _ _) fun i => mmu030GetAtcGeneric_comes _ i _ _ _
  · exact .reads_bind fun _ => .ite (fun _ => .pure _) fun _ => .pure _

theorem perform_comes {a : Access030} (h : a.Refills m) : a.perform m ≠ .diverge := by
  cases a with
  | put flags addr fc => exact mmu030Put_comes hlast h
  | get flags addr fc => exact mmu030Get_comes hlast
  | getI flags addr fc => exact mmu030GetI_comes hlast
  | putGeneric flags addr fc => exact mmu030PutGeneric_comes hlast h
  | getGeneric flags addr fc => exact mmu030GetGeneric_comes hlast h
  | translate addr super data write =>
    unfold Access030.Refills at h
    rw [h]
    exact mmu030Translate_comes hlast super data

end Perform

/-! ## Every run -/

/-- A page and a function code have one valid line at most. -/
def Mmu030.AtcUnique (m : Mmu030) : Prop :=
  ∀ page fc i j, (m.atc i).Matches m.regs.imask page fc →
    (m.atc j).Matches m.regs.imask page fc → i = j

/-- As long as no load of `TC` changes the page size under the lines there are, a page has one valid
line at most, and the lookup after the search for a missing line finds one. Hence no access has an
index of -1, except for a write by way of a root pointer that is a page descriptor, or
`mmu030_translate` for a write. -/
theorem refill_found {m : Mmu030} (h : Mmu030Run Mmu030Op.KeepsPages m) :
    m.AtcUnique ∧
    (∀ addr fc write searchWrite, m.Refills addr fc write searchWrite →
      ∀ m₁, mmu030LogicalIsInAtc addr fc write m = .ret none m₁ →
        ∃ m₂ i m₃, mmu030TableSearch addr fc searchWrite 0 m₁ = .ret 0 m₂ ∧
          mmu030LogicalIsInAtc addr fc write m₂ = .ret (some i) m₃) ∧
    (∀ a : Access030, a.Refills m → a.perform m ≠ .diverge) ∧
    ∀ addr flags write, (write = true → ¬m.EarlyRoot addr m.regs.fc030) →
      uaeMmu030CheckFc addr flags write m ≠ .diverge := by
  obtain ⟨hlast, hok⟩ := h.atcInv
  refine ⟨hok.unique, ?_, fun a ha => perform_comes hlast ha, ?_⟩
  · intro addr fc write searchWrite hrefills m₁ hmiss
    have hkept := (mmu030LogicalIsInAtc_kept addr fc write m).of_ret hmiss
    have hregs : m₁.regs = m.regs := hkept.1
    refine search_found (by rw [hregs]; exact hlast) addr fc ?_
    unfold Mmu030.EarlyRoot rootPointer
    rw [hregs]
    exact hrefills
  · exact fun addr flags write hroot => uaeMmu030CheckFc_comes hlast hroot

/-- A load of `TC` that is accepted, without `FD`, leaves no line. -/
theorem mmuOp30Pmove_flushes {opcode : Long} {next : Word} {extra : Long} {m m' : Mmu030}
    (hload : LoadsTc next) (hfd : next &&& 0x100 = 0)
    (h : mmuOp30Pmove operand030 mmu030DoFakePrefetch opcode next extra m = .ret 0 m') (i : Fin 22) :
    (m'.atc i).valid = false := by
  have hends : Ends (mmuOp30Pmove operand030 mmu030DoFakePrefetch opcode next extra) m
      (fun r m' => r = 0 → (m'.atc i).valid = false) fun _ => True := by
    rw [mmuOp30Pmove_loadsTc _ _ _ _ hload]
    refine .ite (fun _ => ends_pure.mpr fun h => nomatch h) fun _ => ?_
    refine Ends.bind (P := fun _ _ => True) (.of_forall (fun _ _ => trivial) fun _ => trivial) ?_
    intro v m₁ _
    refine Ends.bind (P := fun _ _ => True) trivial fun _ m₂ _ => ?_
    refine Ends.bind (P := fun _ _ => True) (.of_forall (fun _ _ => trivial) fun _ => trivial) ?_
    intro bad m₃ _
    refine .ite (fun _ => ends_pure.mpr fun h => nomatch h) fun _ => ?_
    rw [if_pos hfd]
    exact fun _ => rfl
  exact hends.of_ret h rfl

theorem Mmu030Op.next_pmove {opcode : Long} {next : Word} {extra : Long} {m m' : Mmu030} {r : Int}
    (h : mmuOp30Pmove operand030 mmu030DoFakePrefetch opcode next extra m = .ret r m') :
    (Mmu030Op.pmove opcode next extra).next m = some m' := by
  have hperform : (Mmu030Op.pmove opcode next extra).perform m = .ret () m' := bind_ret h
  unfold Mmu030Op.next
  rw [hperform]

/-- The first write after a reset and `PMOVE (0x100),TC`, to a page of 4K. -/
theorem refill_found_first :
    ∃ m m₁ m₂ i m₃, loadedTc 0x80C0AA00 = some m ∧ m.AtcUnique ∧
      mmu030LogicalIsInAtc 0x1000 1 true m = .ret none m₁ ∧
      mmu030TableSearch 0x1000 1 true 0 m₁ = .ret 0 m₂ ∧
      mmu030LogicalIsInAtc 0x1000 1 true m₂ = .ret (some i) m₃ := by
  obtain ⟨m, hpmove, hroot, m₁, hmiss⟩ : ∃ m, mmuOp30Pmove operand030 mmu030DoFakePrefetch 0xF010
      0x4000 0x100 (resetMmu030 fun x => if x = 0x100 then some 0x80C0AA00 else none) = .ret 0 m ∧
      (rootDesc (rootPointer m false)).type ≠ 1 ∧
      ∃ m₁, mmu030LogicalIsInAtc 0x1000 1 true m = .ret none m₁ :=
    ⟨_, rfl, by decide +kernel, _, rfl⟩
  have hload : loadedTc 0x80C0AA00 = some m := Mmu030Op.next_pmove hpmove
  have hrun : Mmu030Run Mmu030Op.KeepsPages m :=
    .step _ (.start rfl rfl fun _ => rfl) hload fun _ =>
      .inr (mmuOp30Pmove_flushes ⟨by decide, by decide⟩ (by decide) hpmove)
  obtain ⟨hunique, hfound, -⟩ := refill_found hrun
  obtain ⟨m₂, i, m₃, hsearch, hlookup⟩ :=
    hfound 0x1000 1 true true (fun _ => ⟨rfl, fun h => hroot h.1⟩) m₁ hmiss
  exact ⟨m, m₁, m₂, i, m₃, hload, hunique, hmiss, hsearch, hlookup⟩

/-- One operation after the other. -/
def Mmu030Op.runAll : List Mmu030Op → Mmu030 → Option Mmu030
  | [], m => some m
  | op :: ops, m => (op.next m).bind (runAll ops)

theorem Mmu030Op.run_of_runAll {ops : List Mmu030Op} {m m' : Mmu030}
    (h : Mmu030Run (fun _ _ _ => True) m) (hops : runAll ops m = some m') :
    Mmu030Run (fun _ _ _ => True) m' := by
  induction ops generalizing m with
  | nil => exact Option.some.inj hops ▸ h
  | cons op ops ih =>
    obtain ⟨m₁, hn, hrest⟩ := Option.bind_eq_some_iff.mp hops
    exact ih (.step op h hn trivial) hrest

instance (l : AtcLine030) (imask maddr fc : Long) : Decidable (l.Matches imask maddr fc) :=
  inferInstanceAs (Decidable (_ ∧ _ ∧ _))

/-- A root pointer that is a page descriptor, and two values of `TC` at `0x100`: for pages of 4K,
and for pages of 8K. -/
def pageRoot030 : Mmu030 :=
  let m := resetMmu030 fun x =>
    if x = 0x100 then some 0x80C0AA00
    else if x = 0x104 then some 0x80D0A900
    else none
  { m with regs := { m.regs with crp030 := 0x7FFF000100000000 } }

/-- `PMOVE` for the pages of 4K, reads of two of them, and `PMOVEFD` for the pages of 8K. -/
def doubledPages : List Mmu030Op :=
  [.pmove 0xF010 0x4000 0x100, .access (.get 0 0 1), .access (.get 0 0x1000 1),
    .pmove 0xF010 0x4100 0x104]

/-- `PMOVEFD` keeps the lines: two pages of 4K become one of 8K. -/
theorem refill_found_not_unique :
    ¬∀ m, Mmu030Run (fun _ _ _ => True) m → m.AtcUnique := by
  intro h
  have hdoubled : ((Mmu030Op.runAll doubledPages pageRoot030).any fun m =>
      (m.atc 0).Matches m.regs.imask 0 1 ∧ (m.atc 1).Matches m.regs.imask 0 1) = true := by
    decide +kernel
  obtain ⟨m, hm, hboth⟩ := (Option.any_eq_true _ _).mp hdoubled
  obtain ⟨hfirst, hsecond⟩ := of_decide_eq_true hboth
  have hrun := Mmu030Op.run_of_runAll (.start rfl rfl fun _ => rfl) hm
  exact absurd (h m hrun 0 1 0 1 hfirst hsecond) (by decide)

end UaeCpu
