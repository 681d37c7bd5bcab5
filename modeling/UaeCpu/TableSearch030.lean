import UaeCpu.Search030
import UaeCpu.TranslationControl

/-!
# UaeCpu.TableSearch030

A table search of the 68030 for an access: the line it makes, the bits it sets in memory, and the
levels of the tables for a value of `TC`.

* `walkFrom_mem`              — memory after a walk.
* `mmu030TableSearch_walk`    — the search with its line.
* `tableSearch_refines_walk`  — it is the walk over the fields of an address that `TC` describes.
-/

namespace UaeCpu

open Fault FaultM Marks Fields

/-! ## What a walk leaves behind -/

section Walk

variable {q : WalkAccess} {levels : List WalkLevel} {mem : PhysMem} {a : Option Long}
  {d : Desc030} {r : WalkRights}

theorem visitBits_append (vs vs' : List Visited030) (x : Long) :
    visitBits q (vs ++ vs') x = visitBits q vs x ||| visitBits q vs' x := by
  induction vs with
  | nil => exact BitVec.zero_or.symm
  | cons v vs ih =>
    change only v.addr (v.bits q) x ||| visitBits q (vs ++ vs') x = _
    rw [ih, ← BitVec.or_assoc]
    rfl

theorem fetchDesc_mapped {x : Long} {long : Bool} (h : fetchDesc mem x long = some d) :
    mem x ≠ none := by
  intro hx
  unfold fetchDesc at h
  rw [hx] at h
  cases long <;> cases h

/-- What holds of a walk that stops or comes to a page, and is kept by one more level, holds of
every walk. `H` is what is known of a descriptor and where it is. -/
theorem walkFrom_rule {P : PhysMem → Walk030 → Prop}
    {H : PhysMem → Option Long → Desc030 → Prop} (hstop : ∀ mem r, P mem (stopWalk mem r))
    (hpage : ∀ levels mem a d r, d.type = 1 → H mem a d → P mem (walkPage q levels mem a d r))
    (hfetch : ∀ mem x w, P mem w → P mem (w.fetching x))
    (hvisit : ∀ mem a d r w, H mem a d → P (addBits mem (visitBits q (visitOf a false r))) w →
      P mem (w.visiting (visitOf a false r)))
    (hhere : ∀ mem x d, mem x ≠ none → H mem (some x) d) (ha : H mem a d) :
    P mem (walkFrom q levels mem a d r) := by
  induction levels generalizing mem a d r with
  | nil =>
    unfold walkFrom
    split
    · exact hstop mem r
    · split
      · rename_i h1
        exact hpage [] mem a d r h1 ha
      · unfold walkIndirect
        refine hfetch _ _ _ ?_
        split
        · exact hstop mem r
        · rename_i d' hd'
          split
          · rename_i h1
            exact hpage [] mem _ d' r h1 (hhere _ _ _ (fetchDesc_mapped hd'))
          · exact hstop mem r
  | cons l levels ih =>
    unfold walkFrom
    split
    · exact hstop mem r
    · split
      · rename_i h1
        exact hpage (l :: levels) mem a d r h1 ha
      · refine hvisit mem a d _ _ ha ?_
        split
        · exact hstop _ _
        · refine hfetch _ _ _ ?_
          split
          · exact hstop _ _
          · rename_i d' hd'
            exact ih (hhere _ _ _ (fetchDesc_mapped hd'))

/-- Where a descriptor has come from there is memory. -/
abbrev AtMapped (mem : PhysMem) (a : Option Long) (_ : Desc030) : Prop :=
  ∀ x, a = some x → mem x ≠ none

theorem mapped_some (mem : PhysMem) (x : Long) (d : Desc030) (h : mem x ≠ none) :
    AtMapped mem (some x) d := by
  intro y hy
  rw [← Option.some.inj hy]
  exact h

/-- Memory after a walk is memory before it with the bits of its visits. -/
theorem walkFrom_mem (ha : AtMapped mem a d) :
    (walkFrom q levels mem a d r).mem =
      addBits mem (visitBits q (walkFrom q levels mem a d r).visited) := by
  refine walkFrom_rule (P := fun mem w => w.mem = addBits mem (visitBits q w.visited))
    (fun _ _ => addBits_zero.symm) (fun _ _ _ _ _ _ _ => rfl) (fun _ _ _ h => h)
    (fun mem a d r w _ hw => ?_) mapped_some ha
  refine Eq.trans hw ?_
  rw [addBits_addBits]
  congr 1
  funext x
  exact (visitBits_append _ _ x).symm

theorem visitOf_mapped {page : Bool} (ha : AtMapped mem a d) :
    ∀ v ∈ visitOf a page r, mem v.addr ≠ none := by
  intro v hv
  cases a with
  | none => cases hv
  | some x =>
    rw [List.mem_singleton.mp hv]
    exact ha x rfl

/-- Where a walk comes by there is memory. -/
theorem walkFrom_mapped (ha : AtMapped mem a d) :
    ∀ v ∈ (walkFrom q levels mem a d r).visited, mem v.addr ≠ none := by
  refine walkFrom_rule (P := fun mem w => ∀ v ∈ w.visited, mem v.addr ≠ none)
    (fun _ _ _ hv => by cases hv) (fun _ _ _ _ _ _ ha => visitOf_mapped ha) (fun _ _ _ h => h)
    (fun mem a d r w ha hw v hv => ?_) mapped_some ha
  rcases List.mem_append.mp hv with hv | hv
  · exact visitOf_mapped ha v hv
  · exact fun hnone => hw v hv (addBits_none hnone)

/-- The page that a walk comes to is its end: no descriptor has other rights after it. -/
theorem walkFrom_page (ha : AtMapped mem a d) :
    ∀ v ∈ (walkFrom q levels mem a d r).visited, v.page = true →
      v.rights = (walkFrom q levels mem a d r).rights := by
  refine walkFrom_rule (P := fun _ w => ∀ v ∈ w.visited, v.page = true → v.rights = w.rights)
    (fun _ _ _ hv => by cases hv) (fun levels mem a d r _ _ v hv _ => ?_) (fun _ _ _ h => h)
    (fun mem a d r w _ hw v hv hpage => ?_) mapped_some ha
  · cases a with
    | none => cases hv
    | some x =>
      rw [List.mem_singleton.mp hv]
      rfl
  · rcases List.mem_append.mp hv with hv | hv
    · cases a with
      | none => cases hv
      | some x =>
        rw [List.mem_singleton.mp hv] at hpage
        cases hpage
    · exact hw v hv hpage

theorem walkFrom_fetched : (walkFrom q levels mem a d r).fetched.length ≤ levels.length + 1 := by
  induction levels generalizing mem a d r with
  | nil =>
    unfold walkFrom
    split
    · exact Nat.zero_le _
    · split
      · exact Nat.zero_le _
      · unfold walkIndirect
        refine Nat.succ_le_succ ?_
        split
        · exact Nat.le_refl _
        · split <;> exact Nat.le_refl _
  | cons l levels ih =>
    unfold walkFrom
    split
    · exact Nat.zero_le _
    · split
      · exact Nat.zero_le _
      · dsimp only [Walk030.visiting]
        split
        · exact Nat.zero_le _
        · refine Nat.succ_le_succ ?_
          split
          · exact Nat.zero_le _
          · exact ih

/-! ### Bits -/

theorem visitBits_and (vs : List Visited030) (x : Long) :
    visitBits q vs x &&& 0x18 = visitBits q vs x := by
  induction vs with
  | nil => exact BitVec.zero_and
  | cons v vs ih =>
    change (only v.addr (v.bits q) x ||| visitBits q vs x) &&& 0x18 = _
    rw [BitVec.and_or_distrib_right, ih]
    congr 1
    unfold only
    split
    · exact bits_and v
    · exact BitVec.zero_and

/-- A bit of a word is set by a visit of its address. -/
theorem visitBits_ne_zero {vs : List Visited030} {x b : Long} :
    visitBits q vs x &&& b ≠ 0 ↔ ∃ v ∈ vs, v.addr = x ∧ v.bits q &&& b ≠ 0 := by
  induction vs with
  | nil => exact ⟨fun h => absurd BitVec.zero_and h, fun ⟨_, hv, _⟩ => by cases hv⟩
  | cons v vs ih =>
    have hhead : only v.addr (v.bits q) x &&& b ≠ 0 ↔ v.addr = x ∧ v.bits q &&& b ≠ 0 := by
      unfold only
      by_cases hx : x = v.addr
      · rw [if_pos hx]
        exact ⟨fun h => ⟨hx.symm, h⟩, And.right⟩
      · rw [if_neg hx]
        exact ⟨fun h => absurd BitVec.zero_and h, fun h => absurd h.1.symm hx⟩
    have hcons : visitBits q (v :: vs) x &&& b ≠ 0 ↔
        only v.addr (v.bits q) x &&& b ≠ 0 ∨ visitBits q vs x &&& b ≠ 0 := by
      change (only v.addr (v.bits q) x ||| visitBits q vs x) &&& b ≠ 0 ↔ _
      rw [BitVec.and_or_distrib_right]
      exact (not_congr BitVec.or_eq_zero_iff).trans not_and_or
    rw [hcons, hhead, ih, List.exists_mem_cons_iff]

theorem bits_used {v : Visited030} (h : v.rights.sv = false) : v.bits q &&& descrU ≠ 0 := by
  unfold Visited030.bits
  rw [h, if_neg (by decide)]
  split <;> decide

theorem bits_modified {v : Visited030} (h : v.bits q &&& descrM ≠ 0) :
    v.page = true ∧ v.rights.permitWrite q = true := by
  unfold Visited030.bits at h
  split at h
  · exact absurd BitVec.zero_and h
  · split at h
    · rename_i hpage
      exact Bool.and_eq_true_iff.mp hpage
    · exact absurd (by decide) h

/-- What a walk does to memory: it sets `U` where it comes by, until there is a violation of `S`,
and `M` in the page descriptor of a write that is permitted. -/
structure Walk030.Touches (w : Walk030) (mem : PhysMem) (write : Bool) : Prop where
  used : ∀ v ∈ w.visited, v.rights.sv = false → ∃ d, w.mem v.addr = some d ∧ d &&& descrU ≠ 0
  modified : ∀ x d d', mem x = some d → w.mem x = some d' → d &&& descrM = 0 →
    d' &&& descrM ≠ 0 → ∃ v ∈ w.visited, v.addr = x ∧ v.page = true ∧
      write = true ∧ w.rights.wp = false ∧ w.rights.sv = false
  marked : Marked 0x18 mem w.mem
  rest : ∀ x, (∀ v ∈ w.visited, v.addr ≠ x) → w.mem x = mem x

theorem walkFrom_touches (ha : AtMapped mem a d) :
    (walkFrom q levels mem a d r).Touches mem q.write := by
  obtain ⟨w, hw⟩ : ∃ w, w = walkFrom q levels mem a d r := ⟨_, rfl⟩
  have hmem : w.mem = addBits mem (visitBits q w.visited) := by rw [hw]; exact walkFrom_mem ha
  have hmapped : ∀ v ∈ w.visited, mem v.addr ≠ none := by rw [hw]; exact walkFrom_mapped ha
  have hpage : ∀ v ∈ w.visited, v.page = true → v.rights = w.rights := by
    rw [hw]
    exact walkFrom_page ha
  rw [← hw]
  refine ⟨?_, ?_, ?_, ?_⟩
  · intro v hv hsv
    obtain ⟨e, he⟩ := Option.ne_none_iff_exists'.mp (hmapped v hv)
    refine ⟨e ||| visitBits q w.visited v.addr, ?_, ?_⟩
    · rw [hmem, addBits_some he]
    · have hbit := (visitBits_ne_zero (q := q) (b := descrU)).mpr ⟨v, hv, rfl, bits_used hsv⟩
      rw [BitVec.and_or_distrib_right]
      exact fun hzero => hbit (BitVec.or_eq_zero_iff.mp hzero).2
  · intro x e e' hx hx' hclear hset
    rw [hmem, addBits_some hx, Option.some.injEq] at hx'
    rw [← hx', BitVec.and_or_distrib_right, hclear] at hset
    have hbit : visitBits q w.visited x &&& descrM ≠ 0 := fun hzero => hset (by rw [hzero]; rfl)
    obtain ⟨v, hv, hvx, hvbits⟩ := visitBits_ne_zero.mp hbit
    obtain ⟨hvpage, hpermit⟩ := bits_modified hvbits
    rw [hpage v hv hvpage] at hpermit
    unfold WalkRights.permitWrite at hpermit
    rw [Bool.and_eq_true, Bool.and_eq_true, Bool.not_eq_true', Bool.not_eq_true'] at hpermit
    exact ⟨v, hv, hvx, hvpage, hpermit.1.1, hpermit.1.2, hpermit.2⟩
  · exact ⟨_, visitBits_and w.visited, hmem⟩
  · intro x hx
    have hzero : visitBits q w.visited x = 0#32 := by
      by_contra hne
      rw [← BitVec.and_allOnes (x := visitBits q w.visited x)] at hne
      obtain ⟨v, hv, hvx, -⟩ := visitBits_ne_zero.mp hne
      exact hx v hv hvx
    rw [hmem]
    cases hm : mem x with
    | none => exact addBits_none hm
    | some e => rw [addBits_some hm, hzero, BitVec.or_zero]

end Walk

/-! ## The line -/

/-- The line made of a walk. -/
def Walk030.line (w : Walk030) (r : Mmu030Regs) (addr fc : Long) : AtcLine030 where
  physAddr := w.page.getD 0 &&& r.imask
  modified := w.modified
  writeProtect := w.rights.wp
  cacheInhibit := if w.inhibited then cacheDisableMmu else cacheEnableAll
  busError := w.page.isNone || w.rights.sv
  logAddr := addr &&& r.imask
  fc := fc
  valid := true
  mru := true

def markUsed (atc : Fin 22 → AtcLine030) (i : Fin 22) : Fin 22 → AtcLine030 :=
  fun j => if j = i then { atc j with mru := true } else atc j

/-- The lines once one of them has been used. -/
def usedAtc (atc : Fin 22 → AtcLine030) (i : Fin 22) : Fin 22 → AtcLine030 :=
  if ∀ j, (markUsed atc i j).mru then fun j => { markUsed atc i j with mru := decide (j = i) }
  else markUsed atc i

theorem usedAtc_self (atc : Fin 22 → AtcLine030) (i : Fin 22) :
    usedAtc atc i i = { atc i with mru := true } := by
  have hmarked : markUsed atc i i = { atc i with mru := true } := if_pos rfl
  unfold usedAtc
  split
  · dsimp only
    rw [hmarked, decide_eq_true rfl]
  · exact hmarked

/-- The history bits apart, the lines are as they were. -/
theorem usedAtc_mru (atc : Fin 22 → AtcLine030) (i j : Fin 22) :
    ∃ mru, usedAtc atc i j = { atc j with mru := mru } := by
  have hmarked : ∃ mru, markUsed atc i j = { atc j with mru := mru } := by
    by_cases hj : j = i
    · exact ⟨true, if_pos hj⟩
    · exact ⟨(atc j).mru, if_neg hj⟩
  obtain ⟨mru, hmarked⟩ := hmarked
  unfold usedAtc
  split
  · exact ⟨decide (j = i), by dsimp only; rw [hmarked]⟩
  · exact ⟨mru, hmarked⟩

/-- The line of a search that ends as a walk does. -/
theorem SearchEnd.line {m : Mmu030} {w : Walk030} {st : SearchState} (h : SearchEnd m w st)
    (addr fc : Long) : searchLine st.m st.v addr fc true = w.line m.regs addr fc := by
  obtain ⟨status, b, hbits, hst⟩ := h.state
  unfold searchLine Walk030.line
  rw [h.page, h.inhibit, hst]
  dsimp only
  rw [hbits.modified, hbits.wp, hbits.invalid, hbits.sv]

/-- The state once the line `l` has been made. -/
def Mmu030.withLine (m : Mmu030) (l : AtcLine030) : Mmu030 :=
  { m with atc := Function.update (usedAtc m.atc (atcVictim m)) (atcVictim m) l }

theorem createAtcEntry_apply (v : SearchVars) (addr fc : Long) (m : Mmu030) :
    createAtcEntry v addr fc m =
      mmu030FlushCache (addr &&& m.regs.imask) (m.withLine (searchLine m v addr fc true)) := by
  have hmru : (usedAtc m.atc (atcVictim m) (atcVictim m)).mru = true := by
    rw [usedAtc_self]
  have hline : createAtcEntry v addr fc m = mmu030FlushCache (addr &&& m.regs.imask)
      (m.withLine (searchLine m v addr fc (usedAtc m.atc (atcVictim m) (atcVictim m)).mru)) := rfl
  rw [hline, hmru]

/-- The search for an access: memory is that of the walk, and a line is made of it. -/
theorem mmu030TableSearch_walk (m : Mmu030) (addr fc : Long) (write : Bool)
    (hlast : m.regs.lastTable ≤ 3) :
    ∃ status b, mmu030TableSearch addr fc write 0 m =
      (mmu030FlushCache (addr &&& m.regs.imask) >>= fun _ => pure 0)
        ({ m with
            mem := (m.walk addr fc write).mem
            status := status
            busErrorReadWrite := b }.withLine
          ((m.walk addr fc write).line m.regs addr fc)) := by
  have hsettles := tableSearch_settles m addr fc write hlast
  have hend : ∀ st, SearchEnd m (m.walk addr fc write) st → ∃ status b,
      finishSearch addr fc 0 m.s st =
        (mmu030FlushCache (addr &&& m.regs.imask) >>= fun _ => pure 0)
        ({ m with
            mem := (m.walk addr fc write).mem
            status := status
            busErrorReadWrite := b }.withLine
          ((m.walk addr fc write).line m.regs addr fc)) := by
    intro st h
    have hline := h.line addr fc
    obtain ⟨status, b, -, hst⟩ := h.state
    refine ⟨status, b, ?_⟩
    unfold finishSearch
    rw [if_pos rfl, bind_apply, createAtcEntry_apply, bind_apply, ← hline, hst]
    rfl
  unfold mmu030TableSearch
  unfold Settles at hsettles
  cases hs : tableSearch addr fc write 0 (startSearch fc m) with
  | ret u st =>
    rw [hs] at hsettles
    exact hend _ hsettles
  | thrown c st =>
    rw [hs] at hsettles
    exact hend _ hsettles
  | diverge =>
    rw [hs] at hsettles
    exact hsettles.elim

/-! ## The levels that `TC` describes -/

/-- Levels of the widths `ws`, of the bits of `addr` from `top` down. -/
def levelFields (addr : Long) : Nat → List Nat → List WalkLevel
  | _, [] => []
  | top, n :: ws =>
    ⟨(addr >>> (top - n)) &&& field 32 0 n, field 32 (top - n) n, true⟩ ::
      levelFields addr (top - n) ws

/-- All levels for a value of `TC`. -/
def tcLevels (tc addr fc : Long) : List WalkLevel :=
  (if tc &&& tcEnableFcl ≠ 0 then [⟨fc, 0, false⟩] else []) ++
    levelFields addr (32 - tcInitShift tc) (tcWidths tc (List.finRange 4))

/-- The root pointer of an access. -/
def searchRoot (tc : Long) (srp crp : BitVec 64) (fc : Long) : BitVec 64 :=
  if tc &&& tcEnableSupervisor ≠ 0 ∧ fc &&& 4 ≠ 0 then srp else crp

/-- The walk for an access, from the registers. -/
def tcWalk (tc : Long) (srp crp : BitVec 64) (mem : PhysMem) (addr fc : Long) (write : Bool) :
    Walk030 :=
  walkFrom ⟨addr, decide (fc &&& 4 ≠ 0), write⟩ (tcLevels tc addr fc) mem none
    (rootDesc (searchRoot tc srp crp fc)) ⟨false, false⟩

theorem index_of_field (addr : Long) (lo n : Nat) :
    (addr &&& field 32 lo n) >>> lo = (addr >>> lo) &&& field 32 0 n := by
  apply BitVec.eq_of_getLsbD_eq
  intro i hi
  rw [BitVec.getLsbD_ushiftRight, BitVec.getLsbD_and, BitVec.getLsbD_and,
    BitVec.getLsbD_ushiftRight, getLsbD_field hi]
  by_cases hlt : lo + i < 32
  · rw [getLsbD_field hlt]
    congr 1
    rw [decide_eq_decide]
    omega
  · rw [BitVec.getLsbD_of_ge _ _ (Nat.le_of_not_lt hlt), Bool.false_and, Bool.false_and]

theorem levelFields_length (addr : Long) (top : Nat) (ws : List Nat) :
    (levelFields addr top ws).length = ws.length := by
  induction ws generalizing top with
  | nil => rfl
  | cons n ws ih => exact congrArg (· + 1) (ih (top - n))

theorem levelFields_get (addr : Long) (top : Nat) (ws : List Nat) (i : Nat) (hi : i < ws.length) :
    (levelFields addr top ws)[i]? =
      some ⟨(addr >>> (top - (ws.take (i + 1)).sum)) &&& field 32 0 (ws.get ⟨i, hi⟩),
        field 32 (top - (ws.take (i + 1)).sum) (ws.get ⟨i, hi⟩), true⟩ := by
  induction ws generalizing top i with
  | nil => exact absurd hi (Nat.not_lt_zero i)
  | cons n ws ih =>
    cases i with
    | zero => simp [levelFields]
    | succ i =>
      have h := ih (top - n) i (Nat.lt_of_succ_lt_succ hi)
      rw [levelFields, List.getElem?_cons_succ, h, List.take_succ_cons, List.sum_cons, Nat.sub_sub]
      rfl

theorem tableLevels_length {r : Mmu030Regs} (addr : Long) (hlast : r.lastTable ≤ 3) :
    (r.tableLevels addr).length = r.lastTable + 1 := by
  unfold Mmu030Regs.tableLevels
  rw [List.length_map, List.length_take, List.length_finRange]
  omega

/-- Valid parameters describe the fields that they have been decoded from. -/
theorem TranslationParams.ValidFor.tableLevels {r : Mmu030Regs} {ws : List Nat}
    (h : r.translation.ValidFor ws) (hlen : ws.length ≤ 4) (addr : Long) :
    r.tableLevels addr = levelFields addr (32 - r.translation.initShift.toNat) ws := by
  have hlast : r.lastTable + 1 = ws.length := h.lastTable
  have hlength : (r.tableLevels addr).length = _ := tableLevels_length addr (by omega)
  apply List.ext_getElem?
  intro i
  by_cases hi : i < ws.length
  · obtain ⟨hshift, hmask⟩ := h.used ⟨i, by omega⟩ hi
    have hget : (r.tableLevels addr)[i]? =
        some ((r.translation.table ⟨i, by omega⟩).level addr) := by
      have htaken : ((List.finRange 4).take (r.lastTable + 1))[i]? = some ⟨i, by omega⟩ := by
        rw [List.getElem?_take_of_lt (by omega), List.getElem?_eq_getElem (by simp; omega)]
        simp
      unfold Mmu030Regs.tableLevels
      rw [List.getElem?_map, htaken, Option.map_some]
    rw [levelFields_get addr _ ws i hi, hget]
    unfold TableIndex.level TableIndex.of
    rw [hmask, BitVec.ushiftRight_eq', index_of_field, hshift]
  · rw [List.getElem?_eq_none (by omega),
      List.getElem?_eq_none (by rw [levelFields_length]; omega)]

theorem walk_eq_tcWalk {m : Mmu030} {tc : Long} (h : m.regs.translation.DecodedFrom tc)
    (htc : m.regs.tc030 = tc) (addr fc : Long) (write : Bool) :
    m.walk addr fc write = tcWalk tc m.regs.srp030 m.regs.crp030 m.mem addr fc write := by
  have hlevels : m.regs.levels addr fc = tcLevels tc addr fc := by
    unfold Mmu030Regs.levels tcLevels
    rw [h.fields.tableLevels (tcWidths_length tc), h.initShift, htc]
  have hroot : rootPointer m (decide (fc &&& 4 ≠ 0)) =
      searchRoot tc m.regs.srp030 m.regs.crp030 fc := by
    unfold rootPointer searchRoot
    simp only [decide_eq_true_iff, htc]
  unfold Mmu030.walk tcWalk
  dsimp only
  rw [hlevels, hroot]

theorem levels_length {r : Mmu030Regs} (addr fc : Long) (hlast : r.lastTable ≤ 3) :
    (r.levels addr fc).length ≤ 5 := by
  unfold Mmu030Regs.levels
  rw [List.length_append, tableLevels_length addr hlast]
  split
  · rw [List.length_singleton]
    omega
  · rw [List.length_nil]
    omega

/-- However the search ends, `descr_num`, which every fetch counts up, is at most 6. -/
theorem tableSearch_fetches (m : Mmu030) (addr fc : Long) (write : Bool) (hlast : m.regs.lastTable ≤ 3) :
    Settles (tableSearch addr fc write 0) (startSearch fc m) (fun _ st => st.v.descrNum ≤ 6)
      fun st => st.v.descrNum ≤ 6 := by
  have hkept := tableSearch_kept addr fc write 0 (startSearch fc m)
  have hbound {st : SearchState} (h : SearchKept (startSearch fc m) st) : st.v.descrNum ≤ 6 :=
    Nat.le_of_lt_succ (h.num (Nat.zero_lt_succ 6))
  exact ((tableSearch_settles m addr fc write hlast).and_ends hkept).mono (fun _ _ h => hbound h.2) fun _ h => hbound h.2

/-- What a search for an access does, where `w` is the walk. -/
structure TableSearched (m m' : Mmu030) (addr fc : Long) (write : Bool) (w : Walk030) : Prop where
  fetches : Settles (tableSearch addr fc write 0) (startSearch fc m) (fun _ st => st.v.descrNum ≤ 6)
    fun st => st.v.descrNum ≤ 6
  walkFetches : w.fetched.length ≤ 6
  line : m'.atc (atcVictim m) = w.line m.regs addr fc
  others : ∀ i, i ≠ atcVictim m → ∃ mru, m'.atc i = { m.atc i with mru := mru }
  level : m'.s = m.s
  mem : m'.mem = w.mem
  touches : w.Touches m.mem write

theorem mmu030TableSearch_searched (m : Mmu030) (addr fc : Long) (write : Bool)
    (hlast : m.regs.lastTable ≤ 3) :
    ∃ m', mmu030TableSearch addr fc write 0 m = .ret 0 m' ∧ m'.regs = m.regs ∧
      TableSearched m m' addr fc write (m.walk addr fc write) := by
  obtain ⟨status, b, hsearch⟩ := mmu030TableSearch_walk m addr fc write hlast
  refine ⟨_, hsearch, rfl, tableSearch_fetches m addr fc write hlast, ?_, ?_, ?_, rfl, rfl,
    walkFrom_touches (by rintro _ ⟨⟩)⟩
  · have hlen := levels_length addr fc hlast
    exact Nat.le_trans walkFrom_fetched (by omega)
  · exact Function.update_self ..
  · intro i hi
    obtain ⟨mru, hmru⟩ := usedAtc_mru m.atc (atcVictim m) i
    exact ⟨mru, (Function.update_of_ne hi ..).trans hmru⟩

theorem TranslationParams.DecodedFrom.lastTable_le {tr : TranslationParams} {tc : Long}
    (h : tr.DecodedFrom tc) : tr.lastTable.toNat ≤ 3 := by
  have hlen := tcWidths_length tc
  have hlast : tr.lastTable.toNat + 1 = _ := h.fields.lastTable
  omega

/-- A search for an access, with a value of `TC` that has been accepted, is the walk over the fields
of the address that `TC` describes: one line is made of its outcome, and memory is touched as it
says. No array is left on the way, and the privilege level is as before. -/
theorem tableSearch_refines_walk {m₀ m₁ m : Mmu030} {tc : Long} {check : Bool}
    (hdec : mmu030DecodeTc mmu030DoFakePrefetch tc check m₀ = .ret false m₁)
    (hon : m₁.regs.enabled = true) (htr : m.regs.translation = m₁.regs.translation)
    (htc : m.regs.tc030 = tc) (addr fc : Long) (write : Bool) :
    ∃ m', mmu030TableSearch addr fc write 0 m = .ret 0 m' ∧
      TableSearched m m' addr fc write
        (tcWalk tc m.regs.srp030 m.regs.crp030 m.mem addr fc write) := by
  have hdecoded : m.regs.translation.DecodedFrom tc := by
    rw [htr]
    exact (mmu030DecodeTc_accepts m₀ tc check).of_ret hdec rfl hon
  have hlast : m.regs.lastTable ≤ 3 := hdecoded.lastTable_le
  obtain ⟨m', hsearch, -, hsearched⟩ := mmu030TableSearch_searched m addr fc write hlast
  rw [walk_eq_tcWalk hdecoded htc] at hsearched
  exact ⟨m', hsearch, hsearched⟩

/-- After a reset, `TC` set up for pages of 4K and two tables of 10 bits each. -/
def twoTables030 : Outcome Mmu030 Bool :=
  mmu030DecodeTc mmu030DoFakePrefetch 0x80C0AA00 true (resetMmu030 fun _ => none)

/-- The same with tables in memory. -/
def Mmu030.withTables (m : Mmu030) (rp : BitVec 64) (mem : PhysMem) : Mmu030 :=
  { m with mem := mem, regs := { m.regs with tc030 := 0x80C0AA00, srp030 := rp, crp030 := rp } }

theorem twoTables030_accepted :
    ∃ m, twoTables030 = .ret false m ∧ m.regs.enabled = true := ⟨_, rfl, rfl⟩

/-- The page at `0x1000`, under tables of short descriptors. -/
def shortTables : PhysMem := fun x =>
  if x = 0x200 then some 0x402
  else if x = 0x404 then some 0x10001
  else none

/-- A write to a page. -/
theorem tableSearch_one_page :
    ∃ m₁ m', twoTables030 = .ret false m₁ ∧
      mmu030TableSearch 0x1000 1 true 0 (m₁.withTables 0x7FFF000200000200 shortTables) = .ret 0 m' ∧
      TableSearched (m₁.withTables 0x7FFF000200000200 shortTables) m' 0x1000 1 true
        (tcWalk 0x80C0AA00 0x7FFF000200000200 0x7FFF000200000200 shortTables 0x1000 1 true) ∧
      (tcWalk 0x80C0AA00 0x7FFF000200000200 0x7FFF000200000200 shortTables 0x1000 1 true).page =
        some 0x10000 := by
  obtain ⟨m₁, hdec, hon⟩ := twoTables030_accepted
  obtain ⟨m', hsearch, hsearched⟩ := tableSearch_refines_walk
    (m := m₁.withTables 0x7FFF000200000200 shortTables) hdec hon rfl rfl 0x1000 1 true
  exact ⟨m₁, m', hdec, hsearch, hsearched, by decide +kernel⟩

/-- The same page under a table that is only for the supervisor. -/
def superTables : PhysMem := fun x =>
  if x = 0x200 then some 0x7FFF0102
  else if x = 0x204 then some 0x400
  else if x = 0x404 then some 0x10001
  else none

/-- An access of the user through that table does not set `U` in it. -/
theorem tableSearch_super_unused :
    ¬∀ (m₀ m₁ m : Mmu030) (tc : Long) (check : Bool),
      mmu030DecodeTc mmu030DoFakePrefetch tc check m₀ = .ret false m₁ → m₁.regs.enabled = true →
        m.regs.translation = m₁.regs.translation → m.regs.tc030 = tc →
          ∀ (addr fc : Long) (write : Bool) (m' : Mmu030),
            mmu030TableSearch addr fc write 0 m = .ret 0 m' →
              ∀ v ∈ (tcWalk tc m.regs.srp030 m.regs.crp030 m.mem addr fc write).visited,
                ∃ d, m'.mem v.addr = some d ∧ d &&& descrU ≠ 0 := by
  intro h
  obtain ⟨m₁, hdec, hon⟩ := twoTables030_accepted
  have hdecoded := (mmu030DecodeTc_accepts _ _ _).of_ret hdec rfl hon
  have hlast : m₁.regs.lastTable ≤ 3 := hdecoded.lastTable_le
  obtain ⟨m, hm⟩ : ∃ m, m = m₁.withTables 0x7FFF000300000200 superTables := ⟨_, rfl⟩
  have htr : m.regs.translation = m₁.regs.translation := by
    rw [hm]
    rfl
  have htc : m.regs.tc030 = 0x80C0AA00 := by
    rw [hm]
    rfl
  have hwalk : tcWalk 0x80C0AA00 m.regs.srp030 m.regs.crp030 m.mem 0x1000 1 false =
      tcWalk 0x80C0AA00 0x7FFF000300000200 0x7FFF000300000200 superTables 0x1000 1 false := by
    rw [hm]
    rfl
  obtain ⟨status, b, hsearch⟩ := mmu030TableSearch_walk m 0x1000 1 false (by
    rw [Mmu030Regs.lastTable, htr]
    exact hlast)
  rw [walk_eq_tcWalk (htr ▸ hdecoded) htc, hwalk] at hsearch
  have hused := h _ m₁ m 0x80C0AA00 true hdec hon htr htc 0x1000 1 false _ hsearch
  rw [hwalk] at hused
  have hvisited : (tcWalk 0x80C0AA00 0x7FFF000300000200 0x7FFF000300000200 superTables 0x1000 1
      false).visited.map Visited030.addr = [0x200, 0x404] := by decide +kernel
  have hmem : (tcWalk 0x80C0AA00 0x7FFF000300000200 0x7FFF000300000200 superTables 0x1000 1
      false).mem 0x200 = some 0x7FFF0102 := by decide +kernel
  obtain ⟨v, hv, haddr⟩ := List.mem_map.mp (hvisited ▸ List.mem_cons_self (a := 0x200))
  obtain ⟨d, hd, hu⟩ := hused v hv
  rw [haddr] at hd
  rw [← Option.some.inj (hmem.symm.trans hd)] at hu
  exact hu (by decide)

end UaeCpu
