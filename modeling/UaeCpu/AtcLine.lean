import UaeCpu.TableWalk

/-!
# UaeCpu.AtcLine

One line of the translation cache against the walk of its page.

* `MmuRegs.walk`, `MmuRegs.translate` — the reference: a fresh walk, and the address it gives.
* `samePage_iff`     — a set and a tag make up a page and a privilege level.
* `LineAgrees`       — a line holds what the walk of its page finds, and the walk has left its
                       marks in memory.
* `mmuFillAtc_fills` — `mmu_fill_atc` leaves such a line.
* `atcRetry_translates` — an access through such a line is the reference's.
-/

namespace UaeCpu

open Fault FaultM Marks

/-! ## Pages -/

namespace MmuRegs

variable (r : MmuRegs)

def walk (mem : PhysMem) (addr : Long) (super : Bool) : Walk :=
  tableWalk mem (r.root super) r.mmuPagesize8k addr

/-- The address a fresh walk gives: the page frame with the page offset. `none` is a bus error. -/
def translate (mem : PhysMem) (addr : Long) (super write : Bool) : Option Long :=
  match (r.walk mem addr super).last with
  | .resident a d wp =>
    if (WalkEnd.resident a d wp).allows super write then
      some ((d &&& r.mmuPagemaski) ||| (addr &&& r.mmuPagemask))
    else none
  | _ => none

def SamePage (addr addr' : Long) : Prop := addr &&& r.mmuPagemaski = addr' &&& r.mmuPagemaski

instance (addr addr' : Long) : Decidable (r.SamePage addr addr') := by
  unfold SamePage
  infer_instance

/-- The bit that the page number starts at. -/
def pageshift : Nat := if r.mmuPagesize8k then 13 else 12

end MmuRegs

section Pages

variable {r : MmuRegs} {addr addr' : Long}

theorem samePage_iff_bits :
    r.SamePage addr addr' ↔
      ∀ i, r.pageshift ≤ i → addr.getLsbD i = addr'.getLsbD i := by
  have hmask : ∀ i < 32, r.mmuPagemaski.getLsbD i = decide (r.pageshift ≤ i) := by
    unfold MmuRegs.mmuPagemaski MmuRegs.mmuPagemask MmuRegs.pageshift
    cases r.mmuPagesize8k <;> decide
  unfold MmuRegs.SamePage
  constructor
  · intro h i hi
    by_cases hlt : i < 32
    · have hb := congrArg (fun x => BitVec.getLsbD x i) h
      simpa [BitVec.getLsbD_and, hmask i hlt, hi] using hb
    · rw [BitVec.getLsbD_of_ge _ _ (by omega), BitVec.getLsbD_of_ge _ _ (by omega)]
  · intro h
    apply BitVec.eq_of_getLsbD_eq
    intro i hlt
    rw [BitVec.getLsbD_and, BitVec.getLsbD_and, hmask i hlt]
    by_cases hi : r.pageshift ≤ i
    · rw [h i hi]
    · simp [hi]

/-- A table index reads page number bits alone. -/
theorem index_congr (h : r.SamePage addr addr') {q : Long} {k : Nat}
    (hq : ∀ i < 32, q.getLsbD i = true → r.pageshift ≤ k + i) :
    (addr >>> k) &&& q = (addr' >>> k) &&& q := by
  rw [samePage_iff_bits] at h
  apply BitVec.eq_of_getLsbD_eq
  intro i hlt
  rw [BitVec.getLsbD_and, BitVec.getLsbD_and, BitVec.getLsbD_ushiftRight,
    BitVec.getLsbD_ushiftRight]
  cases hb : q.getLsbD i with
  | false => rw [Bool.and_false, Bool.and_false]
  | true => rw [h _ (hq i hlt hb)]

theorem rootDescAddr_congr (h : r.SamePage addr addr') (root : Long) :
    rootDescAddr root addr = rootDescAddr root addr' := by
  unfold rootDescAddr
  rw [index_congr h]
  unfold MmuRegs.pageshift
  cases r.mmuPagesize8k <;> decide

theorem ptrDescAddr_congr (h : r.SamePage addr addr') (desc : Long) :
    ptrDescAddr desc addr = ptrDescAddr desc addr' := by
  unfold ptrDescAddr
  rw [index_congr h]
  unfold MmuRegs.pageshift
  cases r.mmuPagesize8k <;> decide

theorem pageDescAddr_congr (h : r.SamePage addr addr') (desc : Long) :
    pageDescAddr r.mmuPagesize8k desc addr = pageDescAddr r.mmuPagesize8k desc addr' := by
  unfold pageDescAddr
  cases hp : r.mmuPagesize8k with
  | false =>
    rw [if_neg (by decide), if_neg (by decide), index_congr h]
    unfold MmuRegs.pageshift
    rw [hp]
    decide
  | true =>
    rw [if_pos rfl, if_pos rfl, index_congr h]
    unfold MmuRegs.pageshift
    rw [hp]
    decide

theorem walk_congr (h : r.SamePage addr addr') (mem : PhysMem) (super : Bool) :
    r.walk mem addr super = r.walk mem addr' super := by
  unfold MmuRegs.walk tableWalk ptrLevel
  rw [rootDescAddr_congr h]
  congr 1
  funext d
  rw [ptrDescAddr_congr h]
  congr 1
  funext d'
  rw [pageDescAddr_congr h]

theorem atcTag_getLsbD (super : Bool) {i : Nat} (hi : i < 32) :
    (r.atcTag addr super).getLsbD i =
      (decide (r.pageshift + 3 ≤ i) && ((decide (i = 31) && super) || addr.getLsbD (i + 1))) := by
  have hmask : ∀ i < 32, r.mmuTagmask.getLsbD i = decide (r.pageshift + 3 ≤ i) := by
    unfold MmuRegs.mmuTagmask MmuRegs.pageshift
    cases r.mmuPagesize8k <;> decide
  have hsuper : ∀ i < 32, (if super then (0x80000000 : Long) else 0).getLsbD i =
      (decide (i = 31) && super) := by
    cases super <;> decide
  unfold MmuRegs.atcTag
  rw [BitVec.getLsbD_and, BitVec.getLsbD_or, BitVec.getLsbD_ushiftRight, hmask i hi, hsuper i hi,
    Bool.and_comm, Nat.add_comm 1 i]

theorem atcIndex_getLsbD {i : Nat} (hi : i < 4) :
    (r.atcIndex addr).getLsbD i = addr.getLsbD (r.pageshift + i) := by
  unfold MmuRegs.atcIndex MmuRegs.pageshift
  cases r.mmuPagesize8k <;> simp [hi]

/-- The set and the tag of a line tell its page and privilege level, and nothing else. -/
theorem samePage_iff {super super' : Bool} :
    (r.atcIndex addr = r.atcIndex addr' ∧ r.atcTag addr super = r.atcTag addr' super') ↔
      r.SamePage addr addr' ∧ super = super' := by
  have hshift : r.pageshift = 12 ∨ r.pageshift = 13 := by
    unfold MmuRegs.pageshift
    cases r.mmuPagesize8k <;> decide
  rw [samePage_iff_bits]
  constructor
  · rintro ⟨hindex, htag⟩
    have htop : ∀ i < 32, (r.atcTag addr super).getLsbD i = (r.atcTag addr' super').getLsbD i :=
      fun i _ => congrArg (fun x => BitVec.getLsbD x i) htag
    refine ⟨?_, ?_⟩
    · intro i hi
      by_cases hset : i < r.pageshift + 4
      · have hb := congrArg (fun x => BitVec.getLsbD x (i - r.pageshift)) hindex
        rw [atcIndex_getLsbD (by omega), atcIndex_getLsbD (by omega),
          Nat.add_sub_cancel' hi] at hb
        exact hb
      · by_cases hlt : i < 32
        · have hb := htop (i - 1) (by omega)
          rw [atcTag_getLsbD super (by omega), atcTag_getLsbD super' (by omega),
            Nat.sub_add_cancel (by omega), decide_eq_true (by omega : r.pageshift + 3 ≤ i - 1),
            decide_eq_false (by omega : ¬i - 1 = 31)] at hb
          exact hb
        · rw [BitVec.getLsbD_of_ge _ _ (by omega), BitVec.getLsbD_of_ge _ _ (by omega)]
    · have hb := htop 31 (by omega)
      rw [atcTag_getLsbD super (by omega), atcTag_getLsbD super' (by omega),
        decide_eq_true (by omega : r.pageshift + 3 ≤ 31), BitVec.getLsbD_of_ge addr _ (by omega),
        BitVec.getLsbD_of_ge addr' _ (by omega)] at hb
      simpa using hb
  · rintro ⟨hbits, rfl⟩
    refine ⟨?_, ?_⟩
    · apply BitVec.eq_of_getLsbD_eq
      intro i hi
      rw [atcIndex_getLsbD hi, atcIndex_getLsbD hi, hbits _ (Nat.le_add_right _ _)]
    · apply BitVec.eq_of_getLsbD_eq
      intro i hi
      rw [atcTag_getLsbD super hi, atcTag_getLsbD super hi]
      by_cases hlow : r.pageshift + 3 ≤ i
      · rw [hbits (i + 1) (by omega)]
      · simp [hlow]

end Pages

/-! ## Lines -/

/-- A resident end has a resident descriptor, and its own `W` bit is among those that count. -/
def WalkEnd.Proper : WalkEnd → Prop
  | resident _ d p => d &&& mmuMmusrR ≠ 0 ∧ (d &&& mmuDesWp ≠ 0 → p = true)
  | _ => True

/-- What a walk says it has read is in memory. -/
structure Walk.Genuine (mem : PhysMem) (w : Walk) : Prop where
  proper : w.last.Proper
  page : ∀ a d p, w.last = .resident a d p → mem a = some d
  indirect : ∀ y, w.indirect = some y → ∃ d, mem y = some d ∧ d &&& 3 = 2

section Genuine

variable {mem : PhysMem}

theorem pageEnd_proper (x d wp : Long) : (pageEnd x d wp).Proper := by
  unfold pageEnd
  split
  · next hr =>
    refine ⟨?_, ?_⟩
    · rw [hr]
      decide
    · intro hd
      rw [decide_eq_true_iff, BitVec.and_or_distrib_right]
      intro h
      exact hd (BitVec.or_eq_zero_iff.mp h).2
  · trivial

theorem pageEnd_page {x d wp a d' : Long} {p : Bool} (h : pageEnd x d wp = .resident a d' p) :
    a = x ∧ d' = d := by
  unfold pageEnd at h
  split at h
  · cases h
    exact ⟨rfl, rfl⟩
  · cases h

theorem Walk.Genuine.of_none {w : Walk} (hi : w.indirect = none)
    (hl : ∀ a d p, w.last ≠ .resident a d p) : w.Genuine mem := by
  refine ⟨?_, fun a d p h => absurd h (hl a d p), ?_⟩
  · cases hw : w.last with
    | busError => trivial
    | invalid => trivial
    | resident a d p => exact absurd hw (hl a d p)
  · intro y hy
    rw [hi] at hy
    cases hy

theorem pageLevel_genuine (x wp : Long) : (pageLevel mem x wp).Genuine mem := by
  unfold pageLevel
  cases hx : mem x with
  | none => exact .of_none rfl (by simp)
  | some d =>
    dsimp only
    by_cases hi : d &&& 3 = 2
    · rw [if_pos hi]
      have hind : ∀ y, some x = some y → ∃ d, mem y = some d ∧ d &&& 3 = 2 := by
        rintro y ⟨⟩
        exact ⟨d, hx, hi⟩
      cases ht : mem (d &&& mmuPageIndirectMask) with
      | none => exact ⟨trivial, by simp, hind⟩
      | some d' =>
        refine ⟨pageEnd_proper _ _ _, ?_, hind⟩
        intro a d₁ p h
        obtain ⟨rfl, rfl⟩ := pageEnd_page h
        exact ht
    · rw [if_neg hi]
      refine ⟨pageEnd_proper _ _ _, ?_, by simp⟩
      intro a d₁ p h
      obtain ⟨rfl, rfl⟩ := pageEnd_page h
      exact hx

theorem descLevel_genuine {next : Long → Walk} (x : Long) (h : ∀ d, (next d).Genuine mem) :
    (descLevel mem x next).Genuine mem := by
  unfold descLevel
  split
  · exact .of_none rfl (by simp)
  · split
    · exact .of_none rfl (by simp)
    · exact ⟨(h _).proper, (h _).page, (h _).indirect⟩

theorem walk_genuine (r : MmuRegs) (mem : PhysMem) (addr : Long) (super : Bool) :
    (r.walk mem addr super).Genuine mem :=
  descLevel_genuine _ fun _ => descLevel_genuine _ fun _ => pageLevel_genuine _ _

end Genuine

namespace WalkEnd

variable {super write : Bool} {e : WalkEnd}

/-- What a search returns differs from the descriptor in `U`, `M` and `W`. -/
theorem found_and {a d q : Long} {p : Bool} (hq : (markBits ||| mmuDesWp) &&& q = 0) :
    (resident a d p).found super write &&& q = d &&& q := by
  have hsplit := BitVec.or_eq_zero_iff.mp ((BitVec.and_or_distrib_right).symm.trans hq)
  have hbits : (resident a d p).bits super write a &&& markBits =
      (resident a d p).bits super write a := by
    unfold bits only
    dsimp only
    rw [if_pos rfl]
    split <;> decide
  unfold found
  dsimp only
  rw [BitVec.and_or_distrib_right, or_and_of_disjoint hbits hsplit.1]
  cases p with
  | false => simp
  | true => rw [if_pos rfl, hsplit.2, BitVec.or_zero]

theorem found_resident (super write : Bool) (h : e.Proper) :
    (e.found super write &&& mmuMmusrR ≠ 0) ↔ e.isResident = true := by
  cases e with
  | busError => simp [found, isResident]
  | invalid => simp [found, isResident]
  | resident a d p =>
    rw [found_and (by decide)]
    exact ⟨fun _ => rfl, fun _ => h.1⟩

theorem found_wp {a d : Long} {p : Bool} (super write : Bool) (h : (resident a d p).Proper) :
    ((resident a d p).found super write &&& mmuDesWp ≠ 0) ↔ p = true := by
  have hbits : (resident a d p).bits super write a &&& mmuDesWp = 0 := by
    unfold bits only
    dsimp only
    rw [if_pos rfl]
    split <;> decide
  unfold found
  dsimp only
  rw [BitVec.and_or_distrib_right, BitVec.and_or_distrib_right, hbits]
  cases p with
  | false =>
    have hd : d &&& mmuDesWp = 0 := by
      by_contra hne
      cases h.2 hne
    rw [hd]
    decide
  | true =>
    refine ⟨fun _ => rfl, fun _ h => ?_⟩
    have hw := (BitVec.or_eq_zero_iff.mp h).2
    revert hw
    decide

end WalkEnd

/-- The line made of a descriptor. -/
def atcLine (r : MmuRegs) (tag desc : Long) : MmuAtcLine :=
  { tag := tag, valid := true, status := desc &&& atcStatusMask, phys := desc &&& r.mmuPagemaski }

section Fill

variable {s : Mmu} {addr tag : Long} {super write data : Bool} {index : BitVec 4} {way : Fin 4}
  {e : WalkEnd}

/-- The state with the line of what a walk found. The 68060 keeps none of a page that is not
resident. -/
def Mmu.withLine (s : Mmu) (data : Bool) (index : BitVec 4) (way : Fin 4) (tag : Long)
    (super write : Bool) (e : WalkEnd) : Mmu :=
  if s.regs.mmuModel = .mmu68040 ∨ e.isResident then
    s.setLine data index way (atcLine s.regs tag (e.found super write))
  else s

theorem withLine_regs : (s.withLine data index way tag super write e).regs = s.regs := by
  unfold Mmu.withLine
  split <;> rfl

theorem withLine_mem : (s.withLine data index way tag super write e).mem = s.mem := by
  unfold Mmu.withLine
  split <;> rfl

theorem withLine_congr {s' : Mmu} (hregs : s'.regs = s.regs)
    (hatc : s'.mmuAtcArray = s.mmuAtcArray) :
    (s'.withLine data index way tag super write e).mmuAtcArray =
      (s.withLine data index way tag super write e).mmuAtcArray := by
  unfold Mmu.withLine Mmu.setLine
  rw [hregs, hatc]
  split
  · rfl
  · exact hatc

theorem atcLine_zero (r : MmuRegs) (tag : Long) :
    atcLine r tag 0 = { tag := tag, valid := true, status := 0, phys := 0 } := by
  unfold atcLine
  rw [MmuAtcLine.mk.injEq]
  exact ⟨rfl, rfl, BitVec.zero_and, BitVec.zero_and⟩

theorem descStatus060_iff {status060 : Long} (super write : Bool) (hproper : e.Proper)
    (hst : status060 = 0 ↔ e.isResident = true) :
    descStatus060 super write (e.found super write) status060 = 0 ↔
      e.allows super write = true := by
  unfold descStatus060
  cases e with
  | busError =>
    rw [if_neg (by simp [WalkEnd.found]), if_neg (by simp [WalkEnd.found]), hst]
    rfl
  | invalid =>
    rw [if_neg (by simp [WalkEnd.found]), if_neg (by simp [WalkEnd.found]), hst]
    rfl
  | resident a d p =>
    have hzero : status060 = 0 := hst.mpr rfl
    subst hzero
    have hsuper : (WalkEnd.resident a d p).found super write &&& mmuDesSuper = d &&& mmuDesSuper :=
      WalkEnd.found_and (by decide)
    have hwp := WalkEnd.found_wp super write hproper
    rw [allows_iff, hsuper]
    by_cases hs : (!super) = true ∧ d &&& mmuDesSuper ≠ 0
    · rw [if_pos hs]
      constructor
      · intro h
        cases h
      · intro h
        exact absurd hs h.2
    · rw [if_neg hs]
      by_cases hw : write = true ∧ p = true
      · rw [if_pos ⟨hw.1, hwp.mpr hw.2⟩]
        constructor
        · intro h
          cases h
        · intro h
          exact absurd hw h.1
      · rw [if_neg fun h => hw ⟨h.1, hwp.mp h.2⟩]
        exact ⟨fun _ => ⟨hw, hs⟩, fun _ => rfl⟩

theorem fillLine_ret {status060 : Long} (s : Mmu) (super : Bool) (tag : Long) (write data : Bool)
    (index : BitVec 4) (way : Fin 4) (hproper : e.Proper)
    (hst : status060 = 0 ↔ e.isResident = true) :
    ∃ status status060', fillLine super tag write data index way (e.found super write) status060 s =
      .ret (status, status060') (s.withLine data index way tag super write e) ∧
      (status060' = 0 ↔ e.allows super write = true) := by
  have hkeep : (s.regs.mmuModel = .mmu68040 ∨ e.found super write &&& mmuMmusrR ≠ 0) ↔
      (s.regs.mmuModel = .mmu68040 ∨ e.isResident = true) := or_congr_right
    (WalkEnd.found_resident super write hproper)
  have hstatus := descStatus060_iff super write hproper hst
  unfold fillLine Mmu.withLine
  rw [reads_bind_apply]
  by_cases hk : s.regs.mmuModel = .mmu68040 ∨ e.isResident = true
  · rw [if_pos (hkeep.mpr hk), if_pos hk]
    exact ⟨_, _, rfl, hstatus⟩
  · rw [if_neg (mt hkeep.mp hk), if_neg hk]
    exact ⟨_, _, rfl, hstatus⟩

/-- What a fill leaves: the marks of the walk in memory and its line in the cache. -/
structure Filled (s s' : Mmu) (addr : Long) (super : Bool) (tag : Long) (write data : Bool)
    (index : BitVec 4) (way : Fin 4) : Prop where
  regs : s'.regs = s.regs
  supervisor : s'.s = s.s
  mem : s'.mem = addBits s.mem ((s.regs.walk s.mem addr super).bits super write)
  atc : s'.mmuAtcArray =
    (s.withLine data index way tag super write (s.regs.walk s.mem addr super).last).mmuAtcArray

/-- The `TRY` of `mmu_fill_atc`, with its `CATCH`: a bus error in the search leaves a line of no
page on the 68040. -/
theorem fillTry_ret {search : MmuM (Long × Long)} {w : Walk} (tag : Long) (data : Bool)
    (index : BitVec 4) (way : Fin 4) (hproper : w.last.Proper)
    (hsearch : Searches search w super write s) :
    ∃ status status060 s',
      tryCatch
        (do
          let found ← search
          fillLine super tag write data index way found.1 found.2)
        (fun _ => do
          if s.regs.mmuModel = .mmu68040 then
            update fun m =>
              m.setLine data index way { tag := tag, valid := true, status := 0, phys := 0 }
          pure (mmuMmusrB, mmuFslwLk ||| mmuFslwTwe)) s = .ret (status, status060) s' ∧
      s'.regs = s.regs ∧ s'.mem = addBits s.mem (w.bits super write) ∧
      s'.mmuAtcArray = (s.withLine data index way tag super write w.last).mmuAtcArray ∧
      (status060 = 0 ↔ w.last.allows super write = true) := by
  obtain ⟨c, ⟨hw, hs⟩ | ⟨hw, status060, hs, hst⟩⟩ := hsearch
  · rw [tryCatch_thrown (bind_thrown hs), hw]
    have hallows : (mmuFslwLk ||| mmuFslwTwe = 0 ↔
        WalkEnd.busError.allows super write = true) :=
      ⟨fun h => absurd h (by decide), fun h => absurd h (by simp [WalkEnd.allows])⟩
    have hkeep : (s.regs.mmuModel = .mmu68040 ∨ WalkEnd.busError.isResident = true) ↔
        s.regs.mmuModel = .mmu68040 := by simp [WalkEnd.isResident]
    unfold Mmu.withLine
    by_cases hm : s.regs.mmuModel = .mmu68040
    · rw [if_pos hm, if_pos (hkeep.mpr hm), ← atcLine_zero s.regs tag]
      exact ⟨_, _, _, rfl, rfl, rfl, rfl, hallows⟩
    · rw [if_neg hm, if_neg (mt hkeep.mp hm)]
      exact ⟨_, _, _, rfl, rfl, rfl, rfl, hallows⟩
  · obtain ⟨status, status060', hl, hiff⟩ := fillLine_ret (s.marked (w.bits super write) c)
      super tag write data index way hproper hst
    rw [tryCatch_ret ((bind_ret hs).trans hl)]
    exact ⟨status, status060', _, rfl, withLine_regs, withLine_mem, withLine_congr rfl rfl, hiff⟩

theorem flushShortcutCache_ret (s : Mmu) (addr : Long) (super : Bool) :
    ∃ s', flushShortcutCache addr super s = .ret () s' ∧ s'.regs = s.regs ∧ s'.s = s.s ∧
      s'.mem = s.mem ∧ s'.mmuAtcArray = s.mmuAtcArray :=
  ⟨_, rfl, rfl, rfl, rfl, rfl⟩

theorem mmuFillAtc_fills (tag : Long) (write data : Bool) (index : BitVec 4) (way : Fin 4)
    (hplain : (s.regs.walk s.mem addr super).Plain s.mem) :
    ∃ status status060 s', mmuFillAtc addr super tag write data index way s =
      .ret (status, status060) s' ∧ Filled s s' addr super tag write data index way ∧
      (status060 = 0 ↔ (s.regs.walk s.mem addr super).last.allows super write = true) := by
  obtain ⟨status, status060, s₁, h₁, hregs, hmem, hatc, hst⟩ :=
    fillTry_ret tag data index way (walk_genuine s.regs s.mem addr super).proper
      (searchTables_searches { s with s := true } super write hplain)
  obtain ⟨s₂, h₂, hregs₂, hs₂, hmem₂, hatc₂⟩ :=
    flushShortcutCache_ret { s₁ with s := s.s } addr super
  refine ⟨status, status060, s₂, ?_, ⟨hregs₂.trans hregs, hs₂, hmem₂.trans hmem, ?_⟩, hst⟩
  · unfold mmuFillAtc
    rw [reads_bind_apply, update_bind_apply, reads_bind_apply, bind_ret h₁, update_bind_apply,
      bind_ret h₂]
    rfl
  · rw [hatc₂]
    exact hatc.trans (withLine_congr rfl rfl)

end Fill

/-! ## Agreement -/

/-- The line holds what the walk of the page finds, but for an `M` that it may lack; and the walk
has left its marks, the `M` of the line among them. -/
structure LineAgrees (r : MmuRegs) (mem : PhysMem) (addr : Long) (super : Bool) (l : MmuAtcLine) :
    Prop where
  status : l.status ||| mmuDesModified =
    ((r.walk mem addr super).last.found super false &&& atcStatusMask) ||| mmuDesModified
  phys : l.phys = (r.walk mem addr super).last.found super false &&& r.mmuPagemaski
  settled : addBits mem ((r.walk mem addr super).bits super false) = mem
  modified : l.status &&& mmuDesModified ≠ 0 →
    ∀ a d p, (r.walk mem addr super).last = .resident a d p → d &&& mmuDesModified = mmuDesModified

section Agrees

variable {r : MmuRegs} {mem mem' : PhysMem} {addr : Long} {super write : Bool} {k : Long}

theorem status_mark {v b : Long} (hb : b &&& markBits = b) :
    ((v ||| b) &&& atcStatusMask) ||| mmuDesModified =
      (v &&& atcStatusMask) ||| mmuDesModified := by
  have hm : mmuDesModified &&& (b &&& atcStatusMask) = b &&& atcStatusMask := by
    rw [← hb, BitVec.and_assoc b, BitVec.and_comm mmuDesModified, BitVec.and_assoc b]
    congr 1
  rw [BitVec.and_or_distrib_right, BitVec.or_assoc, BitVec.or_comm (b &&& atcStatusMask),
    or_of_and_eq hm]

namespace WalkEnd

variable {e e' : WalkEnd}

theorem bits_mark (a d : Long) (p super write : Bool) :
    (resident a d p).bits super write a &&& markBits = (resident a d p).bits super write a := by
  unfold bits only
  dsimp only
  rw [if_pos rfl]
  split <;> decide

theorem status_found (a d : Long) (p super write : Bool) :
    ((resident a d p).found super write &&& atcStatusMask) ||| mmuDesModified =
      ((d ||| if p then mmuDesWp else 0) &&& atcStatusMask) ||| mmuDesModified := by
  unfold found
  dsimp only
  rw [BitVec.or_assoc d, BitVec.or_comm (bits super write _ a), ← BitVec.or_assoc,
    status_mark (bits_mark a d p super write)]

/-- What a line keeps of a page depends neither on the access nor on marks. -/
theorem Similar.status (hk : k &&& markBits = k) (h : e.Similar k e') (write write' : Bool) :
    (e'.found super write' &&& atcStatusMask) ||| mmuDesModified =
      (e.found super write &&& atcStatusMask) ||| mmuDesModified := by
  cases h with
  | busError => rfl
  | invalid => rfl
  | @resident a d b p hb =>
    have hb' : b &&& markBits = b := by
      rw [← hb, BitVec.and_assoc, hk]
    rw [status_found, status_found, BitVec.or_assoc d, BitVec.or_comm b, ← BitVec.or_assoc,
      status_mark hb']

theorem Similar.phys (hk : k &&& markBits = k) (h : e.Similar k e') (write write' : Bool) :
    e'.found super write' &&& r.mmuPagemaski = e.found super write &&& r.mmuPagemaski := by
  have hmask : (markBits ||| mmuDesWp) &&& r.mmuPagemaski = 0 := by
    unfold MmuRegs.mmuPagemaski MmuRegs.mmuPagemask
    cases r.mmuPagesize8k <;> decide
  cases h with
  | busError => rfl
  | invalid => rfl
  | @resident a d b p hb =>
    have hm := BitVec.or_eq_zero_iff.mp ((BitVec.and_or_distrib_right).symm.trans hmask)
    rw [found_and hmask, found_and hmask, mark_and _ hk hb hm.1]

end WalkEnd

/-! ### Marks of other walks -/

theorem Walk.bits_markBits (w : Walk) (super write : Bool) (x : Long) :
    w.bits super write x &&& markBits = w.bits super write x := by
  have htables : (if x ∈ w.tables then mmuDesUsed else 0#32) &&& markBits =
      if x ∈ w.tables then mmuDesUsed else 0#32 := by
    split <;> decide
  have hlast : w.last.bits super write x &&& markBits = w.last.bits super write x := by
    cases w.last with
    | busError => exact BitVec.zero_and
    | invalid => exact BitVec.zero_and
    | resident a d p =>
      unfold WalkEnd.bits only
      dsimp only
      split
      · split <;> decide
      · exact BitVec.zero_and
  unfold Walk.bits
  rw [BitVec.and_or_distrib_right, htables, hlast]

theorem Walk.marked (mem : PhysMem) (w : Walk) (super write : Bool) :
    Marked markBits mem (addBits mem (w.bits super write)) :=
  ⟨_, w.bits_markBits super write, rfl⟩

/-- The marks of a walk leave the indirect descriptor of a walk kept apart alone: it is neither a
table descriptor with `U` clear nor a resident page descriptor. -/
theorem Walk.Apart.bits_kept {w w' : Walk} {y : Long} (h : w.Apart mem w') (hw : w.Genuine mem)
    (hw' : w'.Genuine mem) (hy : w'.indirect = some y) :
    addBits mem (w.bits super write) y = mem y := by
  obtain ⟨d, hd, hd2⟩ := hw'.indirect y hy
  have hpage : w.last.bits super write y = 0#32 := by
    cases hl : w.last with
    | busError => rfl
    | invalid => rfl
    | resident a d₁ p =>
      unfold WalkEnd.bits only
      dsimp only
      refine if_neg ?_
      rintro rfl
      have hsame := hw.page _ d₁ p hl
      rw [hd, Option.some.injEq] at hsame
      subst hsame
      have hres : d &&& mmuMmusrR ≠ 0 := by
        have hproper := hw.proper
        rw [hl] at hproper
        exact hproper.1
      refine hres ?_
      have h1 : d &&& mmuMmusrR = (d &&& 3) &&& mmuMmusrR := by
        rw [BitVec.and_assoc]
        congr 1
      rw [h1, hd2]
      decide
  rw [addBits_some hd, hd, Walk.bits, hpage, BitVec.or_zero]
  split
  · next ht =>
    rw [or_of_and_eq]
    apply and_used_of_ne_zero
    intro hclear
    exact h y ht d hd hclear hy
  · rw [BitVec.or_zero]

theorem LineAgrees.mark {l : MmuAtcLine} (h : LineAgrees r mem addr super l)
    (hm : Marked markBits mem mem')
    (hind : ∀ y, (r.walk mem addr super).indirect = some y → mem' y = mem y) :
    LineAgrees r mem' addr super l := by
  have hk : markBits &&& markBits = markBits := by decide
  have hsim := tableWalk_marked hk hm hind
  refine ⟨?_, ?_, ?_, ?_⟩
  · exact h.status.trans (hsim.last.status hk false false).symm
  · exact h.phys.trans (hsim.last.phys hk false false).symm
  · unfold MmuRegs.walk
    rw [hsim.bits hk]
    apply addBits_eq_self
    intro x v' hx'
    cases hx : mem x with
    | none =>
      rw [hm.none_iff.mpr hx] at hx'
      cases hx'
    | some v => exact hm.keeps hx (set_of_addBits_eq_self h.settled hx) hx'
  · intro hM a d' p hl'
    have hlast := hsim.last
    unfold MmuRegs.walk at hl'
    rw [hl'] at hlast
    cases hl : (tableWalk mem (r.root super) r.mmuPagesize8k addr).last with
    | busError => rw [hl] at hlast; cases hlast
    | invalid => rw [hl] at hlast; cases hlast
    | resident a₀ d p₀ =>
      rw [hl] at hlast
      cases hlast
      rw [BitVec.and_or_distrib_right, h.modified hM _ _ _ hl]
      grind

/-! ### A new line -/

/-- A read sets no bit that another access would not set. -/
theorem Walk.bits_or_read (w : Walk) (super write : Bool) (x : Long) :
    w.bits super write x ||| w.bits super false x = w.bits super write x := by
  have hlast : w.last.bits super write x ||| w.last.bits super false x =
      w.last.bits super write x := by
    cases w.last with
    | busError => exact BitVec.or_zero
    | invalid => exact BitVec.or_zero
    | resident a d p =>
      unfold WalkEnd.bits only
      dsimp only
      rw [Bool.false_and, if_neg (by decide : ¬false = true)]
      split
      · split <;> decide
      · exact BitVec.or_zero
  unfold Walk.bits
  generalize (if x ∈ w.tables then mmuDesUsed else 0#32) = t
  calc t ||| w.last.bits super write x ||| (t ||| w.last.bits super false x)
      = (t ||| t) ||| (w.last.bits super write x ||| w.last.bits super false x) := by ac_rfl
    _ = t ||| w.last.bits super write x := by rw [BitVec.or_self, hlast]

theorem Walk.bits_of_denied {w : Walk} (h : w.last.allows super true = false) :
    w.bits super true = w.bits super false := by
  have hlast : w.last.bits super true = w.last.bits super false := by
    cases hl : w.last with
    | busError => rfl
    | invalid => rfl
    | resident a d p =>
      rw [hl] at h
      unfold WalkEnd.bits
      dsimp only
      rw [h]
      rfl
  unfold Walk.bits
  rw [hlast]

theorem Walk.bits_write {w : Walk} {a d : Long} {p : Bool} (hl : w.last = .resident a d p)
    (h : w.last.allows super true = true) (x : Long) :
    w.bits super true x = w.bits super false x ||| only a mmuDesModified x := by
  rw [hl] at h
  unfold Walk.bits
  rw [hl, BitVec.or_assoc]
  congr 1
  unfold WalkEnd.bits only
  dsimp only
  rw [h]
  by_cases hx : x = a
  · rw [if_pos hx, if_pos hx, if_pos hx, Bool.false_and]
    rfl
  · rw [if_neg hx, if_neg hx, if_neg hx]
    rfl

theorem or_keeps {v b c : Long} (h : v &&& c = c) : (v ||| b) &&& c = c := by
  rw [BitVec.and_or_distrib_right, h]
  grind

/-- A walk after the marks of its own. -/
theorem walk_own_marks (hplain : (r.walk mem addr super).Plain mem) (write : Bool) :
    (r.walk mem addr super).Similar markBits
      (r.walk (addBits mem ((r.walk mem addr super).bits super write)) addr super) := by
  have hg := walk_genuine r mem addr super
  exact tableWalk_marked (by decide) (Walk.marked mem _ super write) fun y hy =>
    hplain.bits_kept hg hg hy

theorem atcLine_agrees (hplain : (r.walk mem addr super).Plain mem) (tag : Long) :
    LineAgrees r (addBits mem ((r.walk mem addr super).bits super write)) addr super
      (atcLine r tag ((r.walk mem addr super).last.found super write)) := by
  have hk : markBits &&& markBits = markBits := by decide
  have hg := walk_genuine r mem addr super
  have hsim := walk_own_marks hplain write
  refine ⟨?_, ?_, ?_, ?_⟩
  · exact (hsim.last.status hk write false).symm
  · exact (hsim.last.phys hk write false).symm
  · rw [hsim.bits hk, addBits_addBits]
    simp only [Walk.bits_or_read]
  · intro hM a d' p hl'
    have hlast := hsim.last
    have hg' := (walk_genuine r _ addr super).page a d' p hl'
    rw [hl'] at hlast
    cases hl : (r.walk mem addr super).last with
    | busError => rw [hl] at hlast; cases hlast
    | invalid => rw [hl] at hlast; cases hlast
    | resident a₀ d p₀ =>
      rw [hl] at hlast hM
      cases hlast
      rw [addBits_some (hg.page a d p hl), Option.some.injEq] at hg'
      have hfound : (d ||| (WalkEnd.resident a d p).bits super write a) &&& mmuDesModified =
          mmuDesModified := by
        refine (and_bit _ 4).resolve_left ?_
        intro hclear
        refine hM ?_
        change (d ||| (WalkEnd.resident a d p).bits super write a) &&& mmuDesModified = 0 at hclear
        have hwp : (if p then mmuDesWp else 0) &&& mmuDesModified = 0 := by
          cases p <;> decide
        change (WalkEnd.resident a d p).found super write &&& atcStatusMask &&& mmuDesModified = 0
        rw [BitVec.and_assoc, BitVec.and_comm atcStatusMask, ← BitVec.and_assoc]
        unfold WalkEnd.found
        dsimp only
        rw [BitVec.and_or_distrib_right, hclear, hwp]
        exact BitVec.zero_and
      rw [← hg', Walk.bits, hl, BitVec.or_comm (if a ∈ _ then mmuDesUsed else 0#32),
        ← BitVec.or_assoc]
      exact or_keeps hfound

theorem atcLine_modified {e : WalkEnd} (h : e.allows super true = true) (tag : Long) :
    (atcLine r tag (e.found super true)).status &&& mmuDesModified ≠ 0 := by
  cases e with
  | busError => cases h
  | invalid => cases h
  | resident a d p =>
    have hbits : (WalkEnd.resident a d p).bits super true a = mmuDesUsed ||| mmuDesModified := by
      unfold WalkEnd.bits only
      dsimp only
      rw [h, if_pos rfl]
      rfl
    have hmask : atcStatusMask &&& mmuDesModified = mmuDesModified := by decide
    have hset : (mmuDesUsed ||| mmuDesModified) &&& mmuDesModified = mmuDesModified := by decide
    unfold atcLine WalkEnd.found
    dsimp only
    rw [BitVec.and_assoc, hmask, hbits, BitVec.or_assoc, BitVec.or_comm d, or_keeps]
    · decide
    · exact or_keeps hset

/-! ### Hits -/

section Hit

variable {l : MmuAtcLine} (h : LineAgrees r mem addr super l)

include h

theorem LineAgrees.and {q : Long} (hM : mmuDesModified &&& q = 0)
    (hmask : atcStatusMask &&& q = q) :
    l.status &&& q = (r.walk mem addr super).last.found super false &&& q := by
  have hs := congrArg (· &&& q) h.status
  rw [BitVec.and_or_distrib_right, BitVec.and_or_distrib_right, hM, BitVec.and_assoc, hmask] at hs
  simpa using hs

theorem LineAgrees.hitFaults (write : Bool) :
    hitFaults l.status super write = !(r.walk mem addr super).last.allows super write := by
  have hproper := (walk_genuine r mem addr super).proper
  unfold UaeCpu.hitFaults
  rw [h.and (q := mmuDesWp) (by decide) (by decide),
    h.and (q := mmuDesSuper) (by decide) (by decide),
    h.and (q := mmuMmusrR) (by decide) (by decide)]
  cases hl : (r.walk mem addr super).last with
  | busError => simp [WalkEnd.found, WalkEnd.allows]
  | invalid => simp [WalkEnd.found, WalkEnd.allows]
  | resident a d p =>
    rw [hl] at hproper
    have hwp := WalkEnd.found_wp super false hproper
    have hr := (WalkEnd.found_resident super false hproper).mpr rfl
    have hdeny : (!(WalkEnd.resident a d p).allows super write) = true ↔
        (write = true ∧ p = true) ∨ ((!super) = true ∧ d &&& mmuDesSuper ≠ 0) := by
      rw [Bool.not_eq_true', ← Bool.not_eq_true, allows_iff, not_and_or, not_not, not_not]
    rw [WalkEnd.found_and (q := mmuDesSuper) (by decide), decide_eq_false hr, Bool.or_false,
      Bool.eq_iff_iff, hdeny, Bool.or_eq_true, decide_eq_true_iff, decide_eq_true_iff, hwp,
      and_comm (a := p = true), and_comm (a := d &&& mmuDesSuper ≠ 0)]

theorem LineAgrees.translate (write : Bool) :
    r.translate mem addr super write =
      if (r.walk mem addr super).last.allows super write then
        some (l.phys ||| (addr &&& r.mmuPagemask))
      else none := by
  have hmask : (markBits ||| mmuDesWp) &&& r.mmuPagemaski = 0 := by
    unfold MmuRegs.mmuPagemaski MmuRegs.mmuPagemask
    cases r.mmuPagesize8k <;> decide
  have hphys := h.phys
  unfold MmuRegs.translate
  cases hl : (r.walk mem addr super).last with
  | busError => rfl
  | invalid => rfl
  | resident a d p =>
    rw [hl, WalkEnd.found_and hmask] at hphys
    rw [hphys]

/-- An access that needs no new `M` changes nothing in memory. -/
theorem LineAgrees.settled_of (write : Bool)
    (hM : (r.walk mem addr super).last.allows super write = true → write = true →
      l.status &&& mmuDesModified ≠ 0) :
    addBits mem ((r.walk mem addr super).bits super write) = mem := by
  cases write with
  | false => exact h.settled
  | true =>
    by_cases hallow : (r.walk mem addr super).last.allows super true = true
    · apply addBits_eq_self
      intro x v hx
      have hset := set_of_addBits_eq_self h.settled hx
      cases hl : (r.walk mem addr super).last with
      | busError => rw [hl] at hallow; cases hallow
      | invalid => rw [hl] at hallow; cases hallow
      | resident a d p =>
        have hd := (walk_genuine r mem addr super).page a d p hl
        rw [Walk.bits_write hl hallow, BitVec.and_or_distrib_left, hset]
        congr 1
        refine only_set hd (h.modified (hM hallow rfl) a d p hl) x v hx
    · rw [Walk.bits_of_denied (Bool.eq_false_of_not_eq_true hallow)]
      exact h.settled

end Hit

end Agrees

end UaeCpu
