import UaeCpu.AtcLine

/-!
# UaeCpu.Translation

One `mmu_translate` against the reference.

* `Served` — the outcome is the address a fresh walk gives or a bus error, and memory has the
             marks of that walk.
* `atcRetry_hit`         — through a line that agrees.
* `mmuTranslate_serves`  — with any line of the page agreeing.
-/

namespace UaeCpu

open Fault FaultM Marks

/-- The outcome of an access from `s`: what the reference says, in the state `s'`. -/
structure Served (o : Outcome Mmu Long) (s s' : Mmu) (addr : Long) (super write : Bool) : Prop where
  outcome : o =
    match s.regs.translate s.mem addr super write with
    | some pa => .ret pa s'
    | none => .thrown 2 s'
  regs : s'.regs = s.regs
  supervisor : s'.s = s.s
  mem : s'.mem = addBits s.mem ((s.regs.walk s.mem addr super).bits super write)

section Serve

variable {s : Mmu} {addr val : Long} {super data write : Bool} {size fuel : Nat} {way : Fin 4}
  {status060 : Long}

theorem translate_similar {r : MmuRegs} {mem mem' : PhysMem} {k : Long}
    (hk : k &&& markBits = k)
    (h : (r.walk mem addr super).Similar k (r.walk mem' addr super)) (write : Bool) :
    r.translate mem' addr super write = r.translate mem addr super write := by
  have hmask : markBits &&& r.mmuPagemaski = 0 := by
    unfold MmuRegs.mmuPagemaski MmuRegs.mmuPagemask
    cases r.mmuPagesize8k <;> decide
  have hallows := h.last.allows hk super write
  have hlast := h.last
  unfold MmuRegs.translate
  cases hl : (r.walk mem addr super).last with
  | busError =>
    rw [hl] at hlast
    rw [hlast.busError_iff.mpr rfl]
  | invalid =>
    rw [hl] at hlast
    cases hl' : (r.walk mem' addr super).last with
    | busError => rfl
    | invalid => rfl
    | resident a d p => rw [hl'] at hlast; cases hlast
  | resident a d p =>
    rw [hl] at hlast hallows
    cases hl' : (r.walk mem' addr super).last with
    | busError => rw [hl'] at hlast; cases hlast
    | invalid => rw [hl'] at hlast; cases hlast
    | resident a' d' p' =>
      rw [hl'] at hlast hallows
      dsimp only
      rw [hallows]
      cases hlast with
      | resident hb => rw [mark_and _ hk hb hmask]

theorem translate_of_denied {r : MmuRegs} {mem : PhysMem}
    (h : (r.walk mem addr super).last.allows super write = false) :
    r.translate mem addr super write = none := by
  unfold MmuRegs.translate
  cases hl : (r.walk mem addr super).last with
  | busError => rfl
  | invalid => rfl
  | resident a d p =>
    rw [hl] at h
    dsimp only
    rw [h]
    rfl

theorem resident_of_allows {e : WalkEnd} (h : e.allows super write = true) :
    e.isResident = true := by
  cases e with
  | busError => cases h
  | invalid => cases h
  | resident a d p => rfl

theorem mmuAddCache_ret (s : Mmu) (addr phys : Long) (super data write : Bool) :
    ∃ s', mmuAddCache addr phys super data write s = .ret () s' ∧ s'.regs = s.regs ∧
      s'.s = s.s ∧ s'.mem = s.mem ∧ s'.mmuAtcArray = s.mmuAtcArray := by
  refine ⟨_, rfl, ?_⟩
  dsimp only
  cases data with
  | false => exact ⟨rfl, rfl, rfl, rfl⟩
  | true =>
    rw [if_pos rfl]
    split
    · split <;> exact ⟨rfl, rfl, rfl, rfl⟩
    · exact ⟨rfl, rfl, rfl, rfl⟩

theorem mmuBusError_thrown {α : Type} (s : Mmu) (addr val : Long) (fc : Nat) (write : Bool)
    (size : Nat) (status060 : Long) :
    ∃ s', (mmuBusError addr val fc write size status060 : MmuM α) s = .thrown 2 s' ∧
      s'.regs = s.regs ∧ s'.s = s.s ∧ s'.mem = s.mem ∧ s'.mmuAtcArray = s.mmuAtcArray :=
  ⟨_, rfl, rfl, rfl, rfl, rfl⟩

/-- An access through a line that agrees and has the `M` that the access needs. -/
theorem atcRetry_hit (val : Long) (size fuel : Nat) (status060 : Long)
    (h : LineAgrees s.regs s.mem addr super (s.mmuAtcArray data (s.regs.atcIndex addr) way))
    (hM : (s.regs.walk s.mem addr super).last.allows super write = true → write = true →
      (s.mmuAtcArray data (s.regs.atcIndex addr) way).status &&& mmuDesModified ≠ 0) :
    ∃ s', Served (atcRetry addr val super data write size (fuel + 1) way status060 s) s s' addr
      super write ∧ s'.mmuAtcArray = s.mmuAtcArray := by
  have hfaults := h.hitFaults write
  have htrans := h.translate write
  have hsettled := h.settled_of write hM
  unfold atcRetry
  rw [reads_bind_apply]
  dsimp only [id]
  by_cases hallow : (s.regs.walk s.mem addr super).last.allows super write = true
  · rw [hallow] at htrans hfaults
    rw [if_neg (Bool.eq_false_iff.mp hfaults), if_neg fun hc => hM hallow hc.2 hc.1,
      update_bind_apply]
    obtain ⟨s', hs', hregs, hsup, hmem, hatc⟩ := mmuAddCache_ret
      { s with
        mmuAtcWays := Function.update s.mmuAtcWays data way
        mmuCacheState :=
          hitCacheState (s.mmuAtcArray data (s.regs.atcIndex addr) way).status }
      addr (s.mmuAtcArray data (s.regs.atcIndex addr) way).phys super data write
    rw [bind_ret hs']
    refine ⟨s', ⟨?_, hregs, hsup, hmem.trans hsettled.symm⟩, hatc⟩
    rw [htrans]
    rfl
  · have hdeny := Bool.eq_false_of_not_eq_true hallow
    rw [hdeny] at htrans
    rw [hdeny, Bool.not_false] at hfaults
    rw [if_pos hfaults]
    obtain ⟨s', hs', hregs, hsup, hmem, hatc⟩ := mmuBusError_thrown (α := Long) s addr val
      (mmuGetFc super data) write size (status060 |||
        hitStatus060 (s.mmuAtcArray data (s.regs.atcIndex addr) way).status super write)
    refine ⟨s', ⟨?_, hregs, hsup, hmem.trans hsettled.symm⟩, hatc⟩
    rw [htrans]
    exact hs'

/-- What is served after the marks of the walk is what the walk itself serves. -/
theorem Served.of_marks {o : Outcome Mmu Long} {s₁ s' : Mmu} (h : Served o s₁ s' addr super write)
    (hregs : s₁.regs = s.regs) (hsup : s₁.s = s.s)
    (hmem : s₁.mem = addBits s.mem ((s.regs.walk s.mem addr super).bits super write))
    (hplain : (s.regs.walk s.mem addr super).Plain s.mem) : Served o s s' addr super write := by
  have hk : markBits &&& markBits = markBits := by decide
  have hsim := walk_own_marks hplain write
  obtain ⟨hout, hregs', hsup', hmem'⟩ := h
  rw [hregs, hmem, translate_similar hk hsim] at hout
  rw [hregs, hmem, hsim.bits hk, addBits_self] at hmem'
  exact ⟨hout, hregs'.trans hregs, hsup'.trans hsup, hmem'⟩

/-- A search of the tables, and the retry through the line it has filled. -/
theorem fillAndRetry_serves (s : Mmu) (val : Long) (data : Bool) (size fuel : Nat) (way : Fin 4)
    (hplain : (s.regs.walk s.mem addr super).Plain s.mem) :
    ∃ s', Served (fillAndRetry addr val super data write size
        (atcRetry addr val super data write size (fuel + 1) way) way 0 s) s s' addr super write ∧
      s'.mmuAtcArray = (s.withLine data (s.regs.atcIndex addr) way (s.regs.atcTag addr super) super
        write (s.regs.walk s.mem addr super).last).mmuAtcArray := by
  obtain ⟨status, st, s₁, h₁, hf, hst⟩ := mmuFillAtc_fills
    (s := { s with wayRandom := s.wayRandom % 4 }) (s.regs.atcTag addr super) write data
    (s.regs.atcIndex addr) way hplain
  have hatc : s₁.mmuAtcArray = (s.withLine data (s.regs.atcIndex addr) way
      (s.regs.atcTag addr super) super write (s.regs.walk s.mem addr super).last).mmuAtcArray :=
    hf.atc.trans (withLine_congr rfl rfl)
  have hmem : s₁.mem = addBits s.mem ((s.regs.walk s.mem addr super).bits super write) := hf.mem
  have hst' : (0 : Long) ||| st = 0 ↔
      (s.regs.walk s.mem addr super).last.allows super write = true := by
    rw [show (0 : Long) ||| st = st from BitVec.zero_or]
    exact hst
  unfold fillAndRetry
  rw [update_bind_apply, reads_bind_apply, bind_ret h₁]
  dsimp only
  by_cases hb : (0 : Long) ||| st ≠ 0 ∧ s.regs.mmuModel = .mmu68060
  · rw [if_pos hb]
    have hdeny : s.regs.translate s.mem addr super write = none :=
      translate_of_denied (Bool.eq_false_of_not_eq_true (mt hst'.mpr hb.1))
    obtain ⟨s', hs', hregs, hsup, hmem', hatc'⟩ := mmuBusError_thrown (α := Long) s₁ addr val
      (mmuGetFc super data) write size (0 ||| st)
    refine ⟨s', ⟨?_, hregs.trans hf.regs, hsup.trans hf.supervisor, hmem'.trans hmem⟩,
      hatc'.trans hatc⟩
    rw [hdeny]
    exact hs'
  · rw [if_neg hb, update_bind_apply]
    have hkeep : s.regs.mmuModel = .mmu68040 ∨
        (s.regs.walk s.mem addr super).last.isResident = true := by
      cases hm : s.regs.mmuModel with
      | mmu68040 => exact .inl rfl
      | mmu68060 =>
        have hzero := Decidable.of_not_not fun hne => hb ⟨hne, hm⟩
        exact .inr (resident_of_allows (hst'.mp hzero))
    have hsim := walk_own_marks hplain write
    have hline : s₁.mmuAtcArray data (s.regs.atcIndex addr) way =
        atcLine s.regs (s.regs.atcTag addr super)
          ((s.regs.walk s.mem addr super).last.found super write) := by
      rw [hatc, Mmu.withLine, if_pos hkeep]
      exact if_pos ⟨rfl, rfl, rfl⟩
    have hagrees : LineAgrees s₁.regs s₁.mem addr super
        (s₁.mmuAtcArray data (s₁.regs.atcIndex addr) way) := by
      rw [hf.regs, hmem, hline]
      exact atcLine_agrees hplain _
    have hM : (s₁.regs.walk s₁.mem addr super).last.allows super write = true → write = true →
        (s₁.mmuAtcArray data (s₁.regs.atcIndex addr) way).status &&& mmuDesModified ≠ 0 := by
      rintro hallow rfl
      rw [hf.regs, hmem, hsim.last.allows (by decide)] at hallow
      rw [hf.regs, hline]
      exact atcLine_modified hallow _
    obtain ⟨s', hserved, hatc'⟩ := atcRetry_hit
      (s := { s₁ with wayRandom := s₁.wayRandom + 1 }) val size fuel (0 ||| st) hagrees hM
    have hserved' : Served _ s₁ s' addr super write :=
      ⟨hserved.outcome, hserved.regs, hserved.supervisor, hserved.mem⟩
    exact ⟨s', hserved'.of_marks hf.regs hf.supervisor hmem hplain, hatc'.trans hatc⟩

/-- A way that the search finds holds the tag and is valid. -/
theorem findWay_hit {tag : Long} {lines : Fin 4 → MmuAtcLine} {n : Nat} {way w : Fin 4}
    {wayInvalid : Option (Fin 4)} (h : findWay tag lines n way wayInvalid = .inl w) :
    (lines w).valid = true ∧ (lines w).tag = tag := by
  induction n generalizing way wayInvalid with
  | zero => cases h
  | succ n ih =>
    unfold findWay at h
    split at h
    · next hv =>
      split at h
      · next ht =>
        cases h
        exact ⟨hv, ht.symm⟩
      · exact ih h
    · exact ih h

/-- A first write through a line that agrees fills the line again. -/
theorem atcRetry_refill
    (h : LineAgrees s.regs s.mem addr super (s.mmuAtcArray data (s.regs.atcIndex addr) way))
    (hallow : (s.regs.walk s.mem addr super).last.allows super true = true)
    (hM : (s.mmuAtcArray data (s.regs.atcIndex addr) way).status &&& mmuDesModified = 0) :
    atcRetry addr val super data true size (fuel + 1) way 0 s =
      fillAndRetry addr val super data true size
        (atcRetry addr val super data true size fuel way) way 0 s := by
  have hfaults := h.hitFaults true
  rw [hallow] at hfaults
  rw [atcRetry, reads_bind_apply]
  dsimp only [id]
  rw [if_neg (Bool.eq_false_iff.mp hfaults), if_pos ⟨hM, rfl⟩]

/-- `mmu_translate` on a page of which every line agrees: what it serves, and the one line it may
have filled. -/
theorem mmuTranslate_serves (val : Long) (write : Bool) (size fuel : Nat)
    (hplain : (s.regs.walk s.mem addr super).Plain s.mem)
    (hagrees : ∀ way, (s.mmuAtcArray data (s.regs.atcIndex addr) way).valid = true →
      (s.mmuAtcArray data (s.regs.atcIndex addr) way).tag = s.regs.atcTag addr super →
        LineAgrees s.regs s.mem addr super (s.mmuAtcArray data (s.regs.atcIndex addr) way)) :
    ∃ s', Served (mmuTranslate addr val super data write size (fuel + 2) s) s s' addr super write ∧
      (s'.mmuAtcArray = s.mmuAtcArray ∨
        ∃ way, s'.mmuAtcArray = (s.withLine data (s.regs.atcIndex addr) way
          (s.regs.atcTag addr super) super write
          (s.regs.walk s.mem addr super).last).mmuAtcArray) := by
  let s₀ : Mmu := { s with wayRandom := s.wayRandom + 1 }
  have hserve : ∀ {o s'}, Served o s₀ s' addr super write → Served o s s' addr super write :=
    fun h => ⟨h.outcome, h.regs, h.supervisor, h.mem⟩
  have hfill : ∀ (fuel : Nat) (way : Fin 4), ∃ s',
      Served (fillAndRetry addr val super data write size
        (atcRetry addr val super data write size (fuel + 1) way) way 0 s₀) s s' addr super write ∧
      s'.mmuAtcArray = (s.withLine data (s.regs.atcIndex addr) way (s.regs.atcTag addr super) super
        write (s.regs.walk s.mem addr super).last).mmuAtcArray := by
    intro fuel way
    obtain ⟨s', hs', hatc⟩ := fillAndRetry_serves s₀ val data size fuel way hplain
    exact ⟨s', hserve hs', hatc.trans (withLine_congr rfl rfl)⟩
  unfold mmuTranslate
  rw [update_bind_apply, reads_bind_apply]
  dsimp only [id]
  cases hfind : findWay (s.regs.atcTag addr super) (s.mmuAtcArray data (s.regs.atcIndex addr)) 4
    (s.mmuAtcWays data) none with
  | inl way =>
    dsimp only
    obtain ⟨hvalid, htag⟩ := findWay_hit hfind
    have hline := hagrees way hvalid htag
    by_cases hM : (s.regs.walk s.mem addr super).last.allows super write = true → write = true →
        (s.mmuAtcArray data (s.regs.atcIndex addr) way).status &&& mmuDesModified ≠ 0
    · obtain ⟨s', hs', hatc⟩ := atcRetry_hit (s := s₀) val size (fuel + 1) 0 hline hM
      exact ⟨s', hserve hs', .inl hatc⟩
    · obtain ⟨hallow, rfl, hclear⟩ : (s.regs.walk s.mem addr super).last.allows super write = true ∧
          write = true ∧
          (s.mmuAtcArray data (s.regs.atcIndex addr) way).status &&& mmuDesModified = 0 := by
        simpa only [Classical.not_imp, not_not, ne_eq] using hM
      obtain ⟨s', hs', hatc⟩ := hfill fuel way
      refine ⟨s', ?_, .inr ⟨way, hatc⟩⟩
      rw [← atcRetry_refill (s := s₀) hline hallow hclear] at hs'
      exact hs'
  | inr wayInvalid =>
    dsimp only
    obtain ⟨s', hs', hatc⟩ := hfill (fuel + 1) (wayInvalid.getD (Fin.ofNat 4 s₀.wayRandom))
    exact ⟨s', hs', .inr ⟨_, hatc⟩⟩

end Serve

end UaeCpu
