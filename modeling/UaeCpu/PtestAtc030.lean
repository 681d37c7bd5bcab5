import Mathlib.Data.Fintype.Pigeonhole
import UaeCpu.Ptest030

/-!
# UaeCpu.PtestAtc030

`PTEST` on the 68030 as an instruction, and the translation cache that it looks at with level 0. That
lookup compares the address with a line's as it stands, offset and all.

* `PageSizes`         — what is known of the page size and the tables in every state reached.
* `accessReport`      — what an access would take without a table search.
* `ptestObserves_iff` — where `PTEST` reports that, for every address of the page alike.
-/

namespace UaeCpu

open Fault FaultM Marks Fields

/-! ## Page sizes -/

/-- A page is 256 bytes or more, and there are no more than four tables. -/
structure Mmu030Regs.PageSizes (r : Mmu030Regs) : Prop where
  page : r.imask &&& 0xFF = 0
  lastTable : r.lastTable ≤ 3

theorem pageMask_offset {size : Long} (h8 : 8 ≤ size.toNat) (h31 : size.toNat ≤ 31) :
    ~~~((1 : Long) <<< size - 1) &&& 0xFF = 0 := by
  rw [pageMask_eq size h31]
  apply BitVec.eq_of_getLsbD_eq
  intro i hi
  have hlow : (0xFF : Long) = field 32 0 8 := by decide
  rw [hlow, BitVec.getLsbD_and, BitVec.getLsbD_not, getLsbD_field hi, getLsbD_field hi]
  simp
  omega

/-- A value of `TC` with a smaller page leaves the page size as it was. -/
theorem decodeTranslation_pageSizes {m : Mmu030} (h : m.regs.PageSizes) (tc : Long) :
    Ends (decodeTranslation tc) m (fun _ m' => m'.regs.PageSizes) fun _ => False := by
  unfold decodeTranslation updateRegs raiseException
  rw [ends_bind, ends_update, ends_bind, ends_reads]
  dsimp only [id]
  refine .ite (fun _ => ?_) fun hsize => ?_
  · rw [ends_bind, ends_update, ends_pure]
    exact ⟨h.page, h.lastTable⟩
  · obtain ⟨tr, htr⟩ : ∃ tr, tr = pageTranslation (resetTranslation tc m.regs.translation) := ⟨_, rfl⟩
    have hpage : tr.page.imask &&& 0xFF = 0 := by
      have hps : (resetTranslation tc m.regs.translation).page.size.toNat ≤ 15 := by
        change ((tc &&& tcPsMask) >>> (20 : Nat)).toNat ≤ 15
        have hle : (tc &&& tcPsMask).toNat ≤ tcPsMask.toNat := by
          rw [BitVec.toNat_and]
          exact Nat.and_le_right
        have hmask : tcPsMask.toNat = 15728640 := rfl
        rw [BitVec.toNat_ushiftRight, Nat.shiftRight_eq_div_pow]
        omega
      rw [htr]
      exact pageMask_offset (not_not.mp fun h8 => hsize (lt_eight_iff.mpr h8)) (by omega)
    have hlast : (decodeTables tc (List.finRange 4) (32 - tr.initShift) tr).2.lastTable.toNat ≤ 3 := by
      rcases decodeTables_last tc (List.finRange 4) (32 - tr.initShift) tr with
        ⟨hstop, -⟩ | ⟨i, hi, -⟩
      · rw [hstop, htr]
        exact Nat.zero_le 3
      · rw [hi, BitVec.toNat_ofNat]
        omega
    have hsizes : ({ m.regs with translation :=
        (decodeTables tc (List.finRange 4) (32 - tr.initShift) tr).2 } : Mmu030Regs).PageSizes := by
      refine ⟨?_, hlast⟩
      change (decodeTables tc (List.finRange 4) (32 - tr.initShift) tr).2.page.imask &&& 0xFF = 0
      rw [(decodeTables_page tc _ _ tr).1]
      exact hpage
    rw [ends_bind, ends_update, ← htr]
    refine .ite (fun _ => ?_) fun _ => ?_
    · rw [ends_bind, ends_update, ends_pure]
      exact ⟨hsizes.page, hsizes.lastTable⟩
    · rw [ends_pure]
      exact ⟨hsizes.page, hsizes.lastTable⟩

abbrev EndsPageSizes {α : Type} (c : Mmu030M α) (m : Mmu030) : Prop :=
  Ends c m (fun _ m' => m'.regs.PageSizes) fun m' => m'.regs.PageSizes

theorem Mmu030Regs.PageSizes.of_translation {r r' : Mmu030Regs} (h : r.PageSizes)
    (htr : r'.translation = r.translation) : r'.PageSizes := by
  refine ⟨?_, ?_⟩
  · rw [Mmu030Regs.imask, htr]
    exact h.page
  · rw [Mmu030Regs.lastTable, htr]
    exact h.lastTable

theorem Mmu030Regs.PageSizes.within {α : Type} {c : Mmu030M α} {m : Mmu030} (h : m.regs.PageSizes)
    (hc : Within TcKept c) : EndsPageSizes c m :=
  (hc m).mono (fun _ _ hk => h.of_translation hk.2.2.2) fun _ hk => h.of_translation hk.2.2.2

theorem mmu030DecodeTc_pageSizes {m : Mmu030} (h : m.regs.PageSizes) (tc : Long) (check : Bool) :
    Ends (mmu030DecodeTc mmu030DoFakePrefetch tc check) m (fun _ m' => m'.regs.PageSizes)
      fun _ => False := by
  unfold mmu030DecodeTc updateRegs
  rw [ends_bind, ends_update, ends_bind, ends_reads]
  dsimp only [id]
  refine .ite (fun _ => ?_) fun _ => ?_
  · rw [ends_bind]
    refine (fakePrefetchIf_ends tcKept_opRel.toAccessRel _ _).mono (fun _ m₁ h₁ => ?_) fun _ h => h
    rw [ends_bind, ends_update]
    refine decodeTranslation_pageSizes ?_ _
    exact h.of_translation h₁.2.2.2
  · rw [ends_bind]
    refine (fakePrefetchIf_ends tcKept_opRel.toAccessRel _ _).mono (fun _ m₁ h₁ => ?_) fun _ h => h
    rw [ends_bind, ends_update, ends_pure]
    exact h.of_translation h₁.2.2.2

theorem mmuOp30Pmove_pageSizes {m : Mmu030} (h : m.regs.PageSizes) (opcode : Long) (next : Word)
    (extra : Long) :
    EndsPageSizes (mmuOp30Pmove operand030 mmu030DoFakePrefetch opcode next extra) m := by
  by_cases hload : LoadsTc next
  · rw [mmuOp30Pmove_loadsTc _ _ _ _ hload]
    refine .ite (fun _ => h.within (.pure _)) fun _ => ?_
    refine (h.within ((operand_within tcKept_opRel.toAccessRel).getLong extra)).bind ?_
    intro v m₁ h₁
    unfold updateRegs
    rw [ends_bind, ends_update]
    refine Ends.bind (P := fun _ m' => m'.regs.PageSizes) ?_ fun bad m₂ h₂ => ?_
    · refine (mmu030DecodeTc_pageSizes ?_ v true).mono (fun _ _ h' => h') fun _ h' => h'.elim
      exact h₁.of_translation rfl
    · refine .ite (fun _ => h₂.within (.pure _)) fun _ => h₂.within ?_
      refine .bind (.ite (fun _ => mmu030FlushAtcAll_within tcKept_opRel) fun _ => .pure _) ?_
      exact fun _ => .bind (.update fun _ => ⟨rfl, rfl, rfl, rfl⟩) fun _ => .pure _
  · exact h.within (mmuOp30Pmove_within tcKept_opRel _ _ _ _ hload)

theorem mmu030Reset_pageSizes {m : Mmu030} (h : m.regs.PageSizes) (hardreset : Int) :
    EndsPageSizes (mmu030Reset hardreset) m := by
  have hsame : ∀ {m₁ : Mmu030}, m₁.regs.translation = m.regs.translation → m₁.regs.PageSizes :=
    fun htr => h.of_translation htr
  unfold mmu030Reset updateRegs
  rw [EndsPageSizes, ends_bind, ends_update, ends_bind, ends_update, ends_bind]
  refine .ite (fun _ => ?_) fun _ => ?_
  · rw [ends_update]
    refine .ite (fun _ => ?_) fun _ => ends_pure.mpr (hsame rfl)
    rw [ends_bind, ends_update, ends_bind, ends_update]
    exact Mmu030Regs.PageSizes.within (hsame rfl) (mmu030FlushAtcAll_within tcKept_opRel)
  · rw [ends_pure]
    refine .ite (fun _ => ?_) fun _ => ends_pure.mpr (hsame rfl)
    rw [ends_bind, ends_update, ends_bind, ends_update]
    exact Mmu030Regs.PageSizes.within (hsame rfl) (mmu030FlushAtcAll_within tcKept_opRel)

theorem Mmu030Op.perform_pageSizes {m : Mmu030} (h : m.regs.PageSizes) (op : Mmu030Op) :
    EndsPageSizes op.perform m := by
  cases op with
  | access a =>
    exact h.within (.bind (access_within tcKept_opRel.toAccessRel a) fun _ => .pure _)
  | checkFc flags addr write =>
    refine h.within (.bind ?_ fun _ => .pure _)
    exact uaeMmu030CheckFc_within tcKept_opRel.toAccessRel _ _ _
  | pmove opcode next extra =>
    refine (mmuOp30Pmove_pageSizes h opcode next extra).bind fun _ m' h' => ?_
    exact h'
  | pflush opcode next extra =>
    exact h.within (.bind (mmuOp30Pflush_within tcKept_opRel _ _ _) fun _ => .pure _)
  | ptest opcode next extra =>
    exact h.within (.bind (mmuOp30Ptest_within tcKept_opRel _ _ _) fun _ => .pure _)
  | reset hardreset => exact mmu030Reset_pageSizes h _
  | edit mem => exact h
  | cpu pc sfc dfc fc030 dregs aregs s => exact h.within (.update fun _ => ⟨rfl, rfl, rfl, rfl⟩)

/-- No operation makes pages smaller than 256 bytes. -/
theorem Mmu030Op.next_pageSizes {op : Mmu030Op} {m m' : Mmu030} (h : m.regs.PageSizes)
    (hn : op.next m = some m') : m'.regs.PageSizes :=
  op.next_ends (op.perform_pageSizes h) hn

/-! ## The lines of a page -/

/-- The transparent translation registers match, as `PTEST` looks at them. -/
def Mmu030.ttrMatches (m : Mmu030) (addr fc : Long) (write : Bool) : Bool :=
  mmu030DoMatchTtr m.regs.tt0030 m.regs.tt0 addr fc write ||
    mmu030DoMatchTtr m.regs.tt1030 m.regs.tt1 addr fc write

/-- What MMUSR has of a line. -/
def AtcLine030.mmusr (l : AtcLine030) : Word :=
  (if l.busError then mmusrBusError ||| mmusrInvalid else 0) |||
    (if l.writeProtect then mmusrWriteProtected else 0) |||
    (if l.modified then mmusrModified else 0)

theorem AtcLine030.mmusr_ne (l : AtcLine030) : l.mmusr ≠ mmusrInvalid ∧ l.mmusr ≠ mmusrTranspAccess := by
  unfold AtcLine030.mmusr
  cases l.busError <;> cases l.writeProtect <;> cases l.modified <;> decide

/-- What an access would take without a table search: a match of the transparent translation, a line,
or nothing. An access of the CPU space is not translated. -/
def Mmu030.accessReport (m : Mmu030) (addr fc : Long) (write : Bool) : Word :=
  if fc = 7 then mmusrInvalid
  else if mmu030MatchTtrAccess m addr fc write then mmusrTranspAccess
  else if m.regs.enabled then
    match mmu030LogicalIsInAtc addr fc write m with
    | .ret (some i) m' => (m'.atc i).mmusr
    | _ => mmusrInvalid
  else mmusrInvalid

/-- The lines of the address itself. -/
def Mmu030.exactLine (m : Mmu030) (addr fc : Long) : Option (Fin 22) :=
  (List.finRange 22).find? fun i =>
    decide ((m.atc i).fc = fc ∧ (m.atc i).logAddr = addr) && (m.atc i).valid

/-- What `PTEST` with level 0 reports. -/
def Mmu030.ptestReport (m : Mmu030) (addr fc : Long) (write : Bool) : Word :=
  if m.ttrMatches addr fc write then mmusrTranspAccess
  else
    match m.exactLine addr fc with
    | none => mmusrInvalid
    | some i => (m.atc i).mmusr

section Lines

variable {m : Mmu030} {addr fc : Long} {write : Bool}

theorem atcLookup_none {maddr : Long} (offset : BitVec 5)
    (h : ∀ i, ¬(m.atc i).Matches m.regs.imask maddr fc) (n : Nat) (index : Fin 22) :
    atcLookup maddr fc write offset n index m = .ret none m := by
  induction n generalizing index with
  | zero => rfl
  | succ n ih =>
    unfold atcLookup
    rw [reads_bind_apply]
    dsimp only [id]
    exact (congrFun (if_neg (h index)) m).trans (ih (index + 1))

theorem exactLine_some {i : Fin 22} (h : m.exactLine addr fc = some i) :
    (m.atc i).fc = fc ∧ (m.atc i).logAddr = addr ∧ (m.atc i).valid = true := by
  have hi := List.find?_some h
  rw [Bool.and_eq_true, decide_eq_true_iff] at hi
  exact ⟨hi.1.1, hi.1.2, hi.2⟩

/-- Without a line of the page there is none of the address. -/
theorem exactLine_none (h : ∀ i, ¬(m.atc i).Matches m.regs.imask (addr &&& m.regs.imask) fc) :
    m.exactLine addr fc = none := by
  cases hline : m.exactLine addr fc with
  | none => rfl
  | some i =>
    obtain ⟨hfc, haddr, hvalid⟩ := exactLine_some hline
    exact absurd ⟨by rw [haddr], hfc, hvalid⟩ (h i)

theorem exactLine_isSome {i : Fin 22} (hfc : (m.atc i).fc = fc) (hvalid : (m.atc i).valid = true) :
    (m.exactLine (m.atc i).logAddr fc).isSome = true := by
  unfold Mmu030.exactLine
  rw [List.find?_isSome]
  refine ⟨i, List.mem_finRange i, ?_⟩
  rw [Bool.and_eq_true, decide_eq_true_iff]
  exact ⟨⟨hfc, rfl⟩, hvalid⟩

/-- There are fewer lines than addresses of a page. -/
theorem page_without_line (h : m.regs.PageSizes) (addr fc : Long) :
    ∃ x, x &&& m.regs.imask = addr &&& m.regs.imask ∧ m.exactLine x fc = none := by
  let g : Fin 23 → Long := fun k => (addr &&& m.regs.imask) ||| BitVec.ofNat 32 k.val
  have hlow : ∀ k : Fin 23, BitVec.ofNat 32 k.val &&& (0xFF : Long) = BitVec.ofNat 32 k.val := by decide
  have hpage : ∀ k, g k &&& m.regs.imask = addr &&& m.regs.imask := by
    intro k
    have hzero : BitVec.ofNat 32 k.val &&& m.regs.imask = 0 := by
      rw [← hlow k, BitVec.and_assoc, BitVec.and_comm 0xFF, h.page]
      exact BitVec.and_zero
    dsimp only [g]
    rw [BitVec.and_or_distrib_right, BitVec.and_assoc, BitVec.and_self, hzero]
    exact BitVec.or_zero
  have hoffset : ∀ k, g k &&& 0xFF = BitVec.ofNat 32 k.val := by
    intro k
    dsimp only [g]
    rw [BitVec.and_or_distrib_right, BitVec.and_assoc, h.page, hlow k]
    exact (congrArg (· ||| BitVec.ofNat 32 k.val) BitVec.and_zero).trans BitVec.zero_or
  by_contra hall
  have hline : ∀ k, ∃ i, m.exactLine (g k) fc = some i := fun k =>
    Option.ne_none_iff_exists'.mp fun hnone => hall ⟨g k, hpage k, hnone⟩
  choose line hline using hline
  obtain ⟨k, k', hne, heq⟩ := Fintype.exists_ne_map_eq_of_card_lt line (by decide)
  have hg : g k = g k' := by
    rw [← (exactLine_some (hline k)).2.1, ← (exactLine_some (hline k')).2.1, heq]
  have hnat : BitVec.ofNat 32 k.val = BitVec.ofNat 32 k'.val := by
    rw [← hoffset k, ← hoffset k', hg]
  have hval := congrArg BitVec.toNat hnat
  rw [BitVec.toNat_ofNat, BitVec.toNat_ofNat, Nat.mod_eq_of_lt (by omega), Nat.mod_eq_of_lt (by omega)] at hval
  exact hne (Fin.ext hval)

/-- The report of a state without a line of the page. -/
theorem accessReport_none (h : ∀ i, ¬(m.atc i).Matches m.regs.imask (addr &&& m.regs.imask) fc)
    (httr : mmu030MatchTtrAccess m addr fc write = false) : m.accessReport addr fc write = mmusrInvalid := by
  have hlookup : mmu030LogicalIsInAtc addr fc write m = .ret none m := by
    unfold mmu030LogicalIsInAtc
    rw [reads_bind_apply]
    exact atcLookup_none _ h 22 _
  unfold Mmu030.accessReport
  rw [httr, hlookup]
  split
  · rfl
  · split
    · contradiction
    · split <;> rfl

/-- A transparent translation is reported only where an access takes it. -/
theorem accessReport_transparent (h : m.accessReport addr fc write = mmusrTranspAccess) :
    fc ≠ 7 ∧ mmu030MatchTtrAccess m addr fc write = true := by
  have hinvalid : mmusrInvalid ≠ mmusrTranspAccess := by decide
  unfold Mmu030.accessReport at h
  split at h
  · exact absurd h hinvalid
  · rename_i hfc
    split at h
    · exact ⟨hfc, by assumption⟩
    · split at h
      · split at h
        · exact absurd h (AtcLine030.mmusr_ne _).2
        · exact absurd h hinvalid
      · exact absurd h hinvalid

/-- Where the report is that of an access, and that of every address of the page. -/
def Mmu030.ReportsPage (m : Mmu030) (addr fc : Long) (write : Bool) : Prop :=
  m.ptestReport addr fc write = m.accessReport addr fc write ∧
    ∀ x, x &&& m.regs.imask = addr &&& m.regs.imask → m.ptestReport x fc write = m.ptestReport addr fc write

/-- The transparent translation registers match the whole page or nothing of it. Where they match, an
access looks at them; where they do not, no line is of the page. -/
structure Mmu030.NoLineReported (m : Mmu030) (addr fc : Long) (write : Bool) : Prop where
  alike : ∀ x, x &&& m.regs.imask = addr &&& m.regs.imask → m.ttrMatches x fc write = m.ttrMatches addr fc write
  transparent : m.ttrMatches addr fc write = true → m.regs.ttEnabled = true ∧ fc ≠ 7
  lines : m.ttrMatches addr fc write = false →
    ∀ i, ¬(m.atc i).Matches m.regs.imask (addr &&& m.regs.imask) fc

theorem ptestReport_transparent :
    m.ptestReport addr fc write = mmusrTranspAccess ↔ m.ttrMatches addr fc write = true := by
  unfold Mmu030.ptestReport
  refine ⟨fun h => ?_, fun h => if_pos h⟩
  split at h
  · assumption
  · split at h
    · exact absurd h (by decide)
    · exact absurd h (AtcLine030.mmusr_ne _).2

theorem matchTtrAccess_eq : mmu030MatchTtrAccess m addr fc write =
    (m.regs.ttEnabled && m.ttrMatches addr fc write) := rfl

theorem Mmu030.NoLineReported.reports (h : m.NoLineReported addr fc write) : m.ReportsPage addr fc write := by
  cases htt : m.ttrMatches addr fc write with
  | true =>
    obtain ⟨hen, hfc⟩ := h.transparent htt
    have hreport : m.ptestReport addr fc write = mmusrTranspAccess := ptestReport_transparent.mpr htt
    refine ⟨?_, fun x hx => ?_⟩
    · rw [hreport, Mmu030.accessReport, if_neg hfc, matchTtrAccess_eq, hen, htt]
      rfl
    · rw [hreport, ptestReport_transparent, h.alike x hx, htt]
  | false =>
    have hnone := h.lines htt
    have hreport : ∀ x, x &&& m.regs.imask = addr &&& m.regs.imask →
        m.ptestReport x fc write = mmusrInvalid := by
      intro x hx
      have hx' : m.exactLine x fc = none := exactLine_none (by rw [hx]; exact hnone)
      unfold Mmu030.ptestReport
      rw [h.alike x hx, htt, hx']
      rfl
    refine ⟨?_, fun x hx => (hreport x hx).trans (hreport addr rfl).symm⟩
    rw [hreport addr rfl, accessReport_none hnone]
    rw [matchTtrAccess_eq, htt, Bool.and_false]

theorem Mmu030.ReportsPage.noLine (hsizes : m.regs.PageSizes) (h : m.ReportsPage addr fc write) :
    m.NoLineReported addr fc write := by
  have halike : ∀ x, x &&& m.regs.imask = addr &&& m.regs.imask →
      m.ttrMatches x fc write = m.ttrMatches addr fc write := by
    intro x hx
    rw [Bool.eq_iff_iff, ← ptestReport_transparent, ← ptestReport_transparent, h.2 x hx]
  refine ⟨halike, fun htt => ?_, fun htt i hi => ?_⟩
  · have hreport := h.1.symm.trans (ptestReport_transparent.mpr htt)
    obtain ⟨hfc, haccess⟩ := accessReport_transparent hreport
    rw [matchTtrAccess_eq, Bool.and_eq_true] at haccess
    exact ⟨haccess.1, hfc⟩
  · obtain ⟨haddr, hfc, hvalid⟩ := hi
    obtain ⟨x, hx, hnone⟩ := page_without_line hsizes addr fc
    obtain ⟨j, hj⟩ := Option.isSome_iff_exists.mp (exactLine_isSome hfc hvalid)
    have hmiss : m.ptestReport x fc write = mmusrInvalid := by
      unfold Mmu030.ptestReport
      rw [halike x hx, htt, hnone]
      rfl
    have hhit : m.ptestReport (m.atc i).logAddr fc write = (m.atc j).mmusr := by
      unfold Mmu030.ptestReport
      rw [halike _ haddr.symm, htt, hj]
      rfl
    refine (m.atc j).mmusr_ne.1 ?_
    rw [← hhit, h.2 _ haddr.symm, ← h.2 x hx, hmiss]

end Lines

/-! ## The instruction -/

section Ptest

variable {m : Mmu030} {opcode extra fc : Long} {next : Word}

/-- The level of a `PTEST`. -/
def ptestLevel (next : Word) : Nat := ((next &&& 0x1C00) >>> 10).toNat

def ptestWrite (next : Word) : Bool := decide (next &&& 0x200 = 0)

/-- The instruction is an F-line exception. -/
def ptestFline (m : Mmu030) (opcode : Long) (next : Word) : Bool :=
  mmuOp30Invea opcode || (mmuOp30HelperGetFc m next).isNone ||
    decide (ptestLevel next = 0 ∧ next &&& 0x100 ≠ 0)

/-- What a `PTEST` that is no F-line exception leaves as it is. -/
structure PtestLeaves (m : Mmu030) (report : Word) (m' : Mmu030) : Prop where
  mem : m'.mem = m.mem
  atc : m'.atc = m.atc
  mmusr : m'.mmusr030 = report

/-- What `PTEST` reports. -/
def Mmu030.ptestMmusr (m : Mmu030) (addr fc : Long) (next : Word) : Word :=
  if ptestLevel next = 0 then m.ptestReport addr fc (ptestWrite next)
  else (m.ptestWalk addr fc (ptestWrite next) (ptestLevel next)).mmusr

theorem mmu030MatchTtr_apply (m : Mmu030) (addr fc : Long) (write : Bool) :
    ∃ c, mmu030MatchTtr addr fc write m =
      .ret (m.ttrMatches addr fc write) { m with mmu030CacheState := c } := by
  unfold mmu030MatchTtr
  rw [reads_bind_apply, update_bind_apply]
  dsimp only [id]
  split
  · exact ⟨cacheDisableMmu, rfl⟩
  · exact ⟨m.mmu030CacheState, rfl⟩

theorem mmu030PtestAtcSearch_apply (m : Mmu030) (addr fc : Long) (write : Bool) :
    ∃ c, mmu030PtestAtcSearch addr fc write m =
      .ret () { m with status := m.ptestReport addr fc write, mmu030CacheState := c } := by
  obtain ⟨c, hc⟩ := mmu030MatchTtr_apply { m with status := 0 } addr fc write
  have htt : ({ m with status := 0 } : Mmu030).ttrMatches addr fc write = m.ttrMatches addr fc write := rfl
  have hstatus : ∀ x : Word, Outcome.ret () { m with status := 0 ||| x, mmu030CacheState := c } =
      Outcome.ret () { m with status := x, mmu030CacheState := c } := fun x =>
    congrArg (fun s => Outcome.ret () { m with status := s, mmu030CacheState := c }) BitVec.zero_or
  refine ⟨c, ?_⟩
  unfold mmu030PtestAtcSearch Mmu030.ptestReport
  rw [update_bind_apply, bind_ret hc, htt]
  cases m.ttrMatches addr fc write with
  | true => exact hstatus mmusrTranspAccess
  | false =>
    simp only [Bool.false_eq_true, if_false, reads_bind_apply, id, Mmu030.exactLine]
    cases (List.finRange 22).find? fun i =>
        decide ((m.atc i).fc = fc ∧ (m.atc i).logAddr = addr) && (m.atc i).valid with
    | none => exact hstatus mmusrInvalid
    | some i => exact hstatus (m.atc i).mmusr

theorem mmuOp30Ptest_fline (h : ptestFline m opcode next = true) :
    ∃ m', mmuOp30Ptest opcode next extra m = .ret true m' ∧ m'.mem = m.mem ∧ m'.atc = m.atc := by
  refine ⟨{ m with status := 0, mmusr030 := 0 }, ?_, rfl, rfl⟩
  have hfc : mmuOp30HelperGetFc { m with status := 0, mmusr030 := 0 } next = mmuOp30HelperGetFc m next := rfl
  unfold mmuOp30Ptest
  rw [update_bind_apply, reads_bind_apply]
  dsimp only [id]
  rw [hfc]
  unfold ptestFline ptestLevel at h
  by_cases hea : mmuOp30Invea opcode
  · rw [if_pos hea]
    rfl
  · rw [if_neg hea]
    cases hget : mmuOp30HelperGetFc m next with
    | none => rfl
    | some fc =>
      rw [hget, Bool.eq_false_of_not_eq_true hea] at h
      have hbad := of_decide_eq_true h
      dsimp only
      rw [if_pos hbad]
      rfl

theorem mmuOp30Ptest_leaves (hlast : m.regs.lastTable ≤ 3) (hea : mmuOp30Invea opcode = false)
    (hfc : mmuOp30HelperGetFc m next = some fc) (ha : ¬(ptestLevel next = 0 ∧ next &&& 0x100 ≠ 0)) :
    ∃ m', mmuOp30Ptest opcode next extra m = .ret false m' ∧
      PtestLeaves m (m.ptestMmusr extra fc next) m' := by
  obtain ⟨m₀, hm₀⟩ : ∃ m₀ : Mmu030, m₀ = { m with status := 0, mmusr030 := 0 } := ⟨_, rfl⟩
  have hfc₀ : mmuOp30HelperGetFc m₀ next = some fc := by rw [hm₀]; exact hfc
  unfold ptestLevel at ha
  unfold mmuOp30Ptest
  rw [update_bind_apply, ← hm₀, reads_bind_apply]
  dsimp only [id]
  rw [hea, if_neg Bool.false_ne_true, hfc₀]
  dsimp only
  rw [if_neg ha]
  unfold Mmu030.ptestMmusr ptestLevel ptestWrite
  by_cases hl : ((next &&& 0x1C00) >>> 10).toNat = 0
  · obtain ⟨c, hc⟩ := mmu030PtestAtcSearch_apply m₀ extra fc (decide (next &&& 0x200 = 0))
    rw [if_pos hl, if_pos hl, bind_ret hc, hm₀]
    exact ⟨_, rfl, rfl, rfl, rfl⟩
  · obtain ⟨ret, b, hsearch⟩ := mmu030TableSearch_ptest m₀ extra fc (decide (next &&& 0x200 = 0)) hl
      (by rw [hm₀]; exact hlast)
    rw [if_neg hl, if_neg hl, bind_apply, bind_ret hsearch, hm₀]
    refine ⟨_, rfl, ?_, ?_, ?_⟩
    · dsimp only
      split <;> rfl
    · dsimp only
      split <;> rfl
    · dsimp only
      split <;> rfl

/-- `PTEST` only observes. With a level it reports the walk that is cut there; without one, what an
access would take, and the same for every address of the page. -/
def PtestObserves (m : Mmu030) (opcode : Long) (next : Word) (extra : Long) : Prop :=
  ∃ fline m', mmuOp30Ptest opcode next extra m = .ret fline m' ∧ m'.mem = m.mem ∧ m'.atc = m.atc ∧
    (fline = false → ∃ fc, mmuOp30HelperGetFc m next = some fc ∧
      (ptestLevel next ≠ 0 → m'.mmusr030 = (m.ptestWalk extra fc (ptestWrite next) (ptestLevel next)).mmusr) ∧
      (ptestLevel next = 0 → m'.mmusr030 = m.accessReport extra fc (ptestWrite next) ∧
        ∀ x, x &&& m.regs.imask = extra &&& m.regs.imask → ∀ m'',
          mmuOp30Ptest opcode next x m = .ret false m'' → m''.mmusr030 = m'.mmusr030))

/-- Where it does. -/
def PtestMeets (m : Mmu030) (opcode : Long) (next : Word) (extra : Long) : Prop :=
  ptestLevel next = 0 → ptestFline m opcode next = false →
    ∀ fc, mmuOp30HelperGetFc m next = some fc → m.NoLineReported extra fc (ptestWrite next)

theorem ptestFline_false (h : ptestFline m opcode next = false) :
    mmuOp30Invea opcode = false ∧ (∃ fc, mmuOp30HelperGetFc m next = some fc) ∧
      ¬(ptestLevel next = 0 ∧ next &&& 0x100 ≠ 0) := by
  unfold ptestFline at h
  rw [Bool.or_eq_false_iff, Bool.or_eq_false_iff, decide_eq_false_iff_not] at h
  obtain ⟨⟨hea, hget⟩, ha⟩ := h
  refine ⟨hea, ?_, ha⟩
  rw [Option.isNone_eq_false_iff] at hget
  exact Option.isSome_iff_exists.mp hget

/-- `PTEST` only observes exactly where no line of the page would have to be reported: with level 0 it
finds a line for the first address of a page only. -/
theorem ptestObserves_iff (m : Mmu030) (opcode : Long) (next : Word) (extra : Long)
    (h : m.regs.PageSizes) : PtestObserves m opcode next extra ↔ PtestMeets m opcode next extra := by
  cases hf : ptestFline m opcode next with
  | true =>
    refine iff_of_true ?_ fun _ hf' => ?_
    · obtain ⟨m', hrun, hmem, hatc⟩ : ∃ m', mmuOp30Ptest opcode next extra m = .ret true m' ∧
          m'.mem = m.mem ∧ m'.atc = m.atc := mmuOp30Ptest_fline hf
      exact ⟨true, m', hrun, hmem, hatc, fun hc => absurd hc (by decide)⟩
    · rw [hf] at hf'
      cases hf'
  | false =>
    obtain ⟨hea, ⟨fc, hfc⟩, ha⟩ := ptestFline_false hf
    have hrun : ∀ x, ∃ m', mmuOp30Ptest opcode next x m = .ret false m' ∧
        PtestLeaves m (m.ptestMmusr x fc next) m' := fun x => mmuOp30Ptest_leaves h.lastTable hea hfc ha
    obtain ⟨m', hextra, hleaves⟩ := hrun extra
    by_cases hl : ptestLevel next = 0
    · have hmmusr : ∀ x, m.ptestMmusr x fc next = m.ptestReport x fc (ptestWrite next) := fun _ => if_pos hl
      constructor
      · rintro ⟨fline, m₁, hrun₁, -, -, hobserves⟩ - - fc' hfc'
        rw [hextra] at hrun₁
        obtain ⟨rfl, rfl⟩ := Outcome.ret.inj hrun₁
        obtain ⟨fc₁, hfc₁, -, hzero⟩ := hobserves rfl
        rw [hfc] at hfc₁ hfc'
        obtain rfl := Option.some.inj hfc₁
        obtain rfl := Option.some.inj hfc'
        obtain ⟨haccess, hpage⟩ := hzero hl
        rw [hleaves.mmusr, hmmusr] at haccess hpage
        refine Mmu030.ReportsPage.noLine h ⟨haccess, fun x hx => ?_⟩
        obtain ⟨m'', hx', hleaves'⟩ := hrun x
        rw [← hmmusr x, ← hleaves'.mmusr]
        exact hpage x hx m'' hx'
      · intro hmeets
        obtain ⟨haccess, hpage⟩ := (hmeets hl hf fc hfc).reports
        refine ⟨false, m', hextra, hleaves.mem, hleaves.atc, fun _ => ⟨fc, hfc, absurd hl, fun _ => ?_⟩⟩
        rw [hleaves.mmusr, hmmusr]
        refine ⟨haccess, fun x hx m'' hx' => ?_⟩
        obtain ⟨m₁, hx₁, hleaves₁⟩ := hrun x
        rw [hx₁] at hx'
        obtain ⟨-, rfl⟩ := Outcome.ret.inj hx'
        rw [hleaves₁.mmusr, hmmusr]
        exact hpage x hx
    · refine iff_of_true ?_ fun hzero => absurd hzero hl
      refine ⟨false, m', hextra, hleaves.mem, hleaves.atc, fun _ => ⟨fc, hfc, fun _ => ?_, fun hzero => absurd hzero hl⟩⟩
      rw [hleaves.mmusr, Mmu030.ptestMmusr, if_neg hl]

/-- A line for the page of 4K at `0x1000`, of the user data space. -/
def ptestLine : Mmu030 :=
  let m := resetMmu030 fun _ => none
  { m with
    regs := { m.regs with
      enabled := true
      translation := { m.regs.translation with page := ⟨0xFFF, 0xFFFFF000, 12, 9⟩ } }
    atc := Function.update m.atc 0 ⟨0, false, false, 0, false, 0x1000, 1, true, true⟩ }

/-- `PTESTR #1,(0x1000),#7` and, for a page that has no line, `PTESTR #1,(0x2004),#0`. -/
theorem ptestObserves_page :
    PtestObserves ptestLine 0xF010 0x9E11 0x1000 ∧ PtestObserves ptestLine 0xF010 0x8211 0x2004 := by
  have hsizes : ptestLine.regs.PageSizes := ⟨by decide, by decide⟩
  have hnone : ∀ fc i, ¬(ptestLine.atc i).Matches ptestLine.regs.imask (0x2004 &&& ptestLine.regs.imask) fc := by
    rintro fc i ⟨haddr, -, -⟩
    revert i
    decide
  refine ⟨(ptestObserves_iff _ _ _ _ hsizes).mpr fun hzero => absurd hzero (by decide),
    (ptestObserves_iff _ _ _ _ hsizes).mpr fun _ _ fc hfc => ⟨fun x _ => rfl, fun htt => ?_, fun _ i => hnone fc i⟩⟩
  cases htt

/-- The report of `PTESTR #1,(x),#0`. -/
def ptestLineMmusr (x : Long) : Option Word :=
  match mmuOp30Ptest 0xF010 0x8211 x ptestLine with
  | .ret false m => some m.mmusr030
  | _ => none

/-- The line is found for `0x1000`, and not for `0x1004`. -/
theorem ptestObserves_not_alike :
    ¬∀ m opcode next extra, m.regs.PageSizes → PtestObserves m opcode next extra := by
  intro h
  obtain ⟨fline, m', hrun, -, -, hobserves⟩ := h ptestLine 0xF010 0x8211 0x1000 ⟨by decide, by decide⟩
  have hhit : ptestLineMmusr 0x1000 = some 0 := by decide +kernel
  have hmiss : ptestLineMmusr 0x1004 = some mmusrInvalid := by decide +kernel
  unfold ptestLineMmusr at hhit hmiss
  rw [hrun] at hhit
  cases fline with
  | true => cases hhit
  | false =>
    obtain ⟨fc, -, -, hzero⟩ := hobserves rfl
    obtain ⟨-, halike⟩ := hzero (by decide)
    cases hother : mmuOp30Ptest 0xF010 0x8211 0x1004 ptestLine with
    | ret fline'' m'' =>
      rw [hother] at hmiss
      cases fline'' with
      | true => cases hmiss
      | false =>
        have heq := halike 0x1004 (by decide) m'' hother
        rw [Option.some.inj hhit, Option.some.inj hmiss] at heq
        exact absurd heq (by decide)
    | thrown c m'' =>
      rw [hother] at hmiss
      cases hmiss
    | diverge =>
      rw [hother] at hmiss
      cases hmiss

end Ptest

end UaeCpu
