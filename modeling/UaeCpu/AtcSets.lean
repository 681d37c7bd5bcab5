import UaeCpu.Coherence

/-!
# UaeCpu.AtcSets

The sets of the translation cache: which ways hold which tags over any sequence of translations,
tests, flushes and page sizes, how often a translation searches the tables, and what it replaces.

* `Mmu.WaysDiffer`  — no two valid ways of a set hold one tag.
* `translateWalks`  — the table searches of one `mmu_translate`: never more than one.
* `Mmu.SparesValid` — a line with another tag goes only where all four ways were valid, which the
                      way that `mmu_translate` chooses does not keep to.
-/

namespace UaeCpu

open Fault FaultM

/-! ## Sets -/

def Mmu.WaysDiffer (s : Mmu) : Prop :=
  ∀ data index w w', (s.mmuAtcArray data index w).valid = true →
    (s.mmuAtcArray data index w').valid = true →
      (s.mmuAtcArray data index w).tag = (s.mmuAtcArray data index w').tag → w = w'

/-- A valid line of `s` has made room for one with another tag. -/
def Mmu.Overwrites (s s' : Mmu) (data : Bool) (index : BitVec 4) (w : Fin 4) : Prop :=
  (s.mmuAtcArray data index w).valid = true ∧ (s'.mmuAtcArray data index w).valid = true ∧
    (s'.mmuAtcArray data index w).tag ≠ (s.mmuAtcArray data index w).tag

def Mmu.SparesValid (s s' : Mmu) : Prop :=
  ∀ data index w, s.Overwrites s' data index w →
    ∀ w', (s.mmuAtcArray data index w').valid = true

/-- A valid line of the page. -/
def LineOf (s : Mmu) (addr : Long) (super : Bool) (l : MmuAtcLine) : Prop :=
  l.valid = true ∧ l.tag = s.regs.atcTag addr super

/-- One way of the set holds the page, or all four ways are valid, or none is. -/
def Mmu.SetWhole (s : Mmu) (addr : Long) (super data : Bool) : Prop :=
  (∃ w, LineOf s addr super (s.mmuAtcArray data (s.regs.atcIndex addr) w)) ∨
    (∀ w, (s.mmuAtcArray data (s.regs.atcIndex addr) w).valid = true) ∨
    ∀ w, (s.mmuAtcArray data (s.regs.atcIndex addr) w).valid = false

def MmuOp.Whole (s : Mmu) : MmuOp → Prop
  | .translate addr _ super data _ _ => s.SetWhole addr super data
  | _ => True

/-! ## Searches counted -/

section Walks

variable (addr val : Long) (super data write : Bool) (size : Nat)

/-- A search, and then the retry. -/
theorem fillAndRetry_eq (retry : Long → MmuM Long) (way : Fin 4) (status060 : Long) (s : Mmu) :
    fillAndRetry addr val super data write size retry way status060 s =
      (fillAndRetry addr val super data write size pure way status060 >>= retry) s := by
  unfold fillAndRetry
  simp only [bind_apply, update_apply, reads_apply]
  cases mmuFillAtc addr super (s.regs.atcTag addr super) write data (s.regs.atcIndex addr) way
    { s with wayRandom := s.wayRandom % 4 } with
  | ret found s₁ =>
    dsimp only
    by_cases hb : status060 ||| found.2 ≠ 0 ∧ s.regs.mmuModel = .mmu68060
    · rw [if_pos hb, if_pos hb]
      rfl
    · rw [if_neg hb, if_neg hb]
      rfl
  | thrown c s₁ => rfl
  | diverge => rfl

/-- The table searches from the label `atc_retry` on. -/
def retryWalks : Nat → Fin 4 → Long → Mmu → Nat
  | 0, _, _, _ => 0
  | fuel + 1, way, status060, s =>
    let l := s.mmuAtcArray data (s.regs.atcIndex addr) way
    if hitFaults l.status super write then 0
    else if l.status &&& mmuDesModified = 0 ∧ write then
      match fillAndRetry addr val super data write size pure way status060 s with
      | .ret status060 s => 1 + retryWalks fuel way status060 s
      | _ => 1
    else 0

/-- The table searches of `mmu_translate`. -/
def translateWalks (fuel : Nat) (s : Mmu) : Nat :=
  let s := { s with wayRandom := s.wayRandom + 1 }
  match findWay (s.regs.atcTag addr super) (s.mmuAtcArray data (s.regs.atcIndex addr)) 4
    (s.mmuAtcWays data) none with
  | .inl way => retryWalks addr val super data write size fuel way 0 s
  | .inr wayInvalid =>
    let way := wayInvalid.getD (Fin.ofNat 4 s.wayRandom)
    match fillAndRetry addr val super data write size pure way 0 s with
    | .ret status060 s => 1 + retryWalks addr val super data write size fuel way status060 s
    | _ => 1

end Walks

def MmuOp.walks (fuel : Nat) (s : Mmu) : MmuOp → Nat
  | .translate addr val super data write size =>
    translateWalks addr val super data write size fuel s
  | _ => 0

/-! ## What a search leaves -/

/-- The cache and the registers are as they were. -/
def AtcSame (s s' : Mmu) : Prop := s'.regs = s.regs ∧ s'.mmuAtcArray = s.mmuAtcArray

instance : Std.Refl AtcSame := ⟨fun _ => ⟨rfl, rfl⟩⟩

instance : IsTrans Mmu AtcSame := ⟨fun _ _ _ h h' => ⟨h'.1.trans h.1, h'.2.trans h.2⟩⟩

/-- A line of this status needs no search before the access: it faults, or has the `M` it needs. -/
def StatusSettled (super write : Bool) (status : Long) : Prop :=
  hitFaults status super write = true ∨ (write = true → status &&& mmuDesModified ≠ 0)

/-- What the search can find: nothing, or a descriptor whose line is settled. -/
def FoundSettled (super write : Bool) (found : Long × Long) : Prop :=
  (found.1 = 0 ∧ found.2 ≠ 0) ∨ (found.1 &&& mmuMmusrR ≠ 0 ∧ StatusSettled super write found.1)

theorem descGetLong_same (x : Long) : Stays AtcSame (descGetLong x) := by
  intro s
  unfold Settles descGetLong
  cases hx : s.mem x <;> simp only [hx] <;> exact ⟨rfl, rfl⟩

theorem descPutLong_same (x v : Long) : Stays AtcSame (descPutLong x v) := by
  intro s
  unfold Settles descPutLong
  cases hx : s.mem x <;> simp only [hx] <;> exact ⟨rfl, rfl⟩

theorem useTableDesc_same (x d : Long) : Stays AtcSame (useTableDesc x d) :=
  .ite (fun _ => descPutLong_same _ _) fun _ => .pure _

theorem or_and_ne_zero {v b c : Long} (h : v &&& c ≠ 0) : (v ||| b) &&& c ≠ 0 := by
  rw [BitVec.and_comm, BitVec.and_or_distrib_left, BitVec.and_comm c v]
  exact fun h' => h (BitVec.or_eq_zero_iff.mp h').1

theorem StatusSettled.of_read {super : Bool} (status : Long) : StatusSettled super false status :=
  .inr nofun

theorem StatusSettled.of_denied {super : Bool} {d wp : Long}
    (hdeny : wp &&& mmuDesWp ≠ 0 ∨ d &&& mmuDesSuper ≠ 0 ∧ (!super) = true) :
    StatusSettled super true (d ||| wp &&& mmuDesWp) := by
  left
  rw [hitFaults, Bool.or_eq_true, Bool.or_eq_true]
  rcases hdeny with hwp | ⟨hsup, huser⟩
  · have hbit : (d ||| wp &&& mmuDesWp) &&& mmuDesWp ≠ 0 := by
      rw [BitVec.or_comm]
      refine or_and_ne_zero ?_
      rw [BitVec.and_assoc, BitVec.and_self]
      exact hwp
    exact .inl (.inl (decide_eq_true ⟨hbit, rfl⟩))
  · exact .inl (.inr (decide_eq_true ⟨or_and_ne_zero hsup, huser⟩))

/-- A write that is let through has set `M`. -/
theorem touchPageDesc_settles (x d wp : Long) (super write : Bool) (hd : d &&& mmuMmusrR ≠ 0) (s : Mmu) :
    Settles (touchPageDesc x d wp super write) s
      (fun d' s' => AtcSame s s' ∧ d' &&& mmuMmusrR ≠ 0 ∧
        StatusSettled super write (d' ||| wp &&& mmuDesWp)) (AtcSame s) := by
  have hkeep : ∀ {d' : Long}, d' &&& mmuMmusrR ≠ 0 → StatusSettled super write (d' ||| wp &&& mmuDesWp) →
      ∀ s', Settles (pure d' : MmuM Long) s' (fun d' s'' => AtcSame s' s'' ∧ d' &&& mmuMmusrR ≠ 0 ∧
        StatusSettled super write (d' ||| wp &&& mmuDesWp)) (AtcSame s') :=
    fun hR hst s' => settles_pure.mpr ⟨Std.Refl.refl s', hR, hst⟩
  unfold touchPageDesc
  cases write with
  | false =>
    rw [if_neg Bool.false_ne_true]
    refine .ite (fun _ => ?_) fun _ => hkeep hd (.of_read _) s
    exact (descPutLong_same _ _).bind_settles fun _ => hkeep (or_and_ne_zero hd) (.of_read _)
  | true =>
    rw [if_pos rfl]
    refine .ite (fun hdeny => ?_) fun hallow => ?_
    · refine .ite (fun _ => ?_) fun _ => hkeep hd (.of_denied hdeny) s
      refine (descPutLong_same _ _).bind_settles fun _ => hkeep (or_and_ne_zero hd) (.of_denied ?_)
      exact hdeny.imp_right fun h => ⟨or_and_ne_zero h.1, h.2⟩
    · refine .ite (fun _ => ?_) fun hset => hkeep hd (.inr fun _ => ?_) s
      · refine (descPutLong_same _ _).bind_settles fun _ => hkeep (or_and_ne_zero hd) (.inr fun _ => ?_)
        refine or_and_ne_zero ?_
        rw [BitVec.or_comm]
        refine or_and_ne_zero ?_
        decide
      · rw [ne_eq, not_not] at hset
        refine or_and_ne_zero fun hM => ?_
        have hboth := congrArg (· &&& mmuDesModified) hset
        rw [BitVec.and_assoc, show (mmuDesUsed ||| mmuDesModified) &&& mmuDesModified = mmuDesModified by decide,
          hM] at hboth
        exact absurd hboth (by decide)

/-- The search leaves the cache alone, and finds what it says. -/
theorem searchPageDesc_settles (x d wp : Long) (super write : Bool) (s : Mmu) :
    Settles (searchPageDesc x d wp super write) s
      (fun found s' => AtcSame s s' ∧ FoundSettled super write found) (AtcSame s) := by
  unfold searchPageDesc
  refine .ite (fun hres => ?_) fun _ => .ite (fun _ => ?_) fun _ => ?_
  · have hd : d &&& mmuMmusrR ≠ 0 := by rw [hres]; decide
    refine (touchPageDesc_settles x d (wp ||| d) super write hd s).bind fun d' s' h => ?_
    exact settles_pure.mpr ⟨h.1, .inr ⟨or_and_ne_zero h.2.1, h.2.2⟩⟩
  · exact settles_pure.mpr ⟨Std.Refl.refl s, .inl ⟨rfl, by decide⟩⟩
  · exact settles_pure.mpr ⟨Std.Refl.refl s, .inl ⟨rfl, by decide⟩⟩

theorem searchPageTable_settles (x wp : Long) (super write : Bool) (s : Mmu) :
    Settles (searchPageTable x wp super write) s
      (fun found s' => AtcSame s s' ∧ FoundSettled super write found) (AtcSame s) := by
  unfold searchPageTable
  refine (descGetLong_same x).bind_settles fun d s₁ => ?_
  refine .ite (fun _ => ?_) fun _ => searchPageDesc_settles x d wp super write s₁
  exact (descGetLong_same _).bind_settles fun d' s₂ => searchPageDesc_settles _ d' wp super write s₂

theorem searchTables_settles (root : Long) (pagesize8k : Bool) (addr : Long) (super write : Bool) (s : Mmu) :
    Settles (searchTables root pagesize8k addr super write) s
      (fun found s' => AtcSame s s' ∧ FoundSettled super write found) (AtcSame s) := by
  have hnone : ∀ (st : Long) (s' : Mmu), st ≠ 0 →
      Settles (pure ((0, st) : Long × Long) : MmuM _) s'
        (fun found s'' => AtcSame s' s'' ∧ FoundSettled super write found) (AtcSame s') :=
    fun st s' hst => settles_pure.mpr ⟨Std.Refl.refl s', .inl ⟨rfl, hst⟩⟩
  unfold searchTables
  refine (descGetLong_same _).bind_settles fun d s₁ => .ite (fun _ => hnone _ s₁ (by decide)) fun _ => ?_
  refine (useTableDesc_same _ _).bind_settles fun _ s₂ => (descGetLong_same _).bind_settles fun d' s₃ => ?_
  refine .ite (fun _ => hnone _ s₃ (by decide)) fun _ => ?_
  exact (useTableDesc_same _ _).bind_settles fun _ s₄ => searchPageTable_settles _ _ super write s₄

/-! ## What a fill leaves -/

/-- A line of the page, with the `M` an access to it needs. -/
structure LineFilled (super write : Bool) (tag : Long) (l : MmuAtcLine) : Prop where
  valid : l.valid = true
  tag : l.tag = tag
  settled : StatusSettled super write l.status

/-- A search has filled one line, or on the 68060 has left it. -/
structure Refilled (s s' : Mmu) (super write : Bool) (data : Bool) (index : BitVec 4) (way : Fin 4) (tag : Long) :
    Prop where
  regs : s'.regs = s.regs
  other : ∀ d i w, ¬(d = data ∧ i = index ∧ w = way) → s'.mmuAtcArray d i w = s.mmuAtcArray d i w
  line : LineFilled super write tag (s'.mmuAtcArray data index way) ∨
    s.regs.mmuModel = .mmu68060 ∧ s'.mmuAtcArray data index way = s.mmuAtcArray data index way

section Fill

variable {s s' : Mmu} {addr val tag : Long} {super write data : Bool} {size : Nat} {index : BitVec 4}
  {way : Fin 4}

theorem Refilled.of_same (h : AtcSame s s') (h060 : s.regs.mmuModel = .mmu68060) :
    Refilled s s' super write data index way tag :=
  ⟨h.1, fun d i w _ => by rw [h.2], .inr ⟨h060, by rw [h.2]⟩⟩

theorem Refilled.of_line {l : MmuAtcLine} (h : AtcSame s s') (hl : LineFilled super write tag l) :
    Refilled s (s'.setLine data index way l) super write data index way tag ∧
      LineFilled super write tag ((s'.setLine data index way l).mmuAtcArray data index way) := by
  have hline : (s'.setLine data index way l).mmuAtcArray data index way = l := if_pos ⟨rfl, rfl, rfl⟩
  refine ⟨⟨h.1, fun d i w hne => ?_, .inl (by rw [hline]; exact hl)⟩, by rw [hline]; exact hl⟩
  rw [← h.2]
  exact if_neg hne

theorem Refilled.trans_same {s'' : Mmu} (h : Refilled s s' super write data index way tag) (h' : AtcSame s' s'') :
    Refilled s s'' super write data index way tag := by
  refine ⟨h'.1.trans h.regs, fun d i w hne => ?_, ?_⟩
  · rw [h'.2]
    exact h.other d i w hne
  · rw [h'.2]
    exact h.line

/-- The status a line keeps of a descriptor. -/
theorem StatusSettled.masked {d : Long} (h : StatusSettled super write d) :
    StatusSettled super write (d &&& atcStatusMask) := by
  have hmask : ∀ b : Long, atcStatusMask &&& b = b → d &&& atcStatusMask &&& b = d &&& b := fun b hb => by
    rw [BitVec.and_assoc, hb]
  unfold StatusSettled hitFaults at *
  rw [hmask _ (by decide), hmask _ (by decide), hmask _ (by decide), hmask _ (by decide)]
  exact h

theorem fillLine_settles {found : Long × Long} (hfound : FoundSettled super write found)
    (h : AtcSame s s') :
    Settles (fillLine super tag write data index way found.1 found.2) s'
      (fun r s'' => Refilled s s'' super write data index way tag ∧
        (s.regs.mmuModel = .mmu68040 ∨ r.2 = 0 → LineFilled super write tag (s''.mmuAtcArray data index way)))
      fun _ => False := by
  unfold fillLine
  rw [settles_reads_bind, h.1]
  refine .ite (fun hkeep => ?_) fun hkeep => settles_pure.mpr ?_
  · have hline : LineFilled super write tag
        ⟨tag, true, found.1 &&& atcStatusMask, found.1 &&& s.regs.mmuPagemaski⟩ := by
      refine ⟨rfl, rfl, ?_⟩
      rcases hfound with ⟨hzero, -⟩ | ⟨-, hst⟩
      · rw [hzero]
        exact .inl (by unfold hitFaults; simp)
      · exact hst.masked
    obtain ⟨hre, hl⟩ := Refilled.of_line h hline
    exact ⟨hre, fun _ => hl⟩
  · obtain ⟨h040, hR⟩ := not_or.mp hkeep
    have h060 : s.regs.mmuModel = .mmu68060 := by
      cases hm : s.regs.mmuModel with
      | mmu68040 => exact absurd hm h040
      | mmu68060 => rfl
    refine ⟨.of_same h h060, fun hk => ?_⟩
    rcases hfound with ⟨hzero, hst⟩ | ⟨hres, -⟩
    · rw [hzero] at hk
      rcases hk with hk | hk
      · exact absurd hk h040
      · exact absurd (show found.2 = 0 by simpa [descStatus060] using hk) hst
    · exact absurd hres hR

/-- `mmu_fill_atc` returns, with the line of the page where it reports no failure. -/
theorem mmuFillAtc_settles (s : Mmu) (addr tag : Long) (super write data : Bool) (index : BitVec 4)
    (way : Fin 4) :
    Settles (mmuFillAtc addr super tag write data index way) s
      (fun r s' => Refilled s s' super write data index way tag ∧
        (s.regs.mmuModel = .mmu68040 ∨ r.2 = 0 → LineFilled super write tag (s'.mmuAtcArray data index way)))
      fun _ => False := by
  have hsame : AtcSame s { s with s := true } := ⟨rfl, rfl⟩
  unfold mmuFillAtc
  rw [settles_reads_bind, settles_update_bind, settles_reads_bind]
  refine .bind (P := fun r s' => Refilled s s' super write data index way tag ∧
    (s.regs.mmuModel = .mmu68040 ∨ r.2 = 0 → LineFilled super write tag (s'.mmuAtcArray data index way))) ?_
    fun r s' hr => ?_
  · refine .tryCatch (P := AtcSame s) ?_ fun c s' hs' => ?_
    · refine ((searchTables_settles _ _ addr super write _).mono (fun _ _ h => h) fun s' h =>
        Trans.trans hsame h).bind fun found s' h => ?_
      exact (fillLine_settles h.2 (Trans.trans hsame h.1)).mono (fun _ _ h => h) fun _ h => h.elim
    · refine .ite (fun h040 => ?_) fun h040 => settles_pure.mpr ?_
      · have hline : LineFilled super write tag ⟨tag, true, 0, 0⟩ := ⟨rfl, rfl, .inl (by simp [hitFaults])⟩
        obtain ⟨hre, hl⟩ := Refilled.of_line hs' hline
        exact ⟨hre, fun _ => hl⟩
      · have h060 : s.regs.mmuModel = .mmu68060 := by
          cases hm : s.regs.mmuModel with
          | mmu68040 => exact absurd hm h040
          | mmu68060 => rfl
        refine ⟨.of_same hs' h060, fun hk => ?_⟩
        rcases hk with hk | hk
        · exact absurd hk h040
        · exact absurd hk (by decide)
  · rw [settles_update_bind]
    obtain ⟨s₂, h₂, hregs, -, -, hatc⟩ := flushShortcutCache_ret { s' with s := s.s } addr super
    rw [Settles, bind_ret h₂]
    have hs₂ : AtcSame s' s₂ := ⟨hregs, hatc⟩
    exact ⟨hr.1.trans_same hs₂, fun hk => by rw [hatc]; exact hr.2 hk⟩

/-- What a search in `mmu_translate` leaves: one line filled where it returns. -/
theorem fillAndRetry_settles (s : Mmu) (addr val : Long) (super data write : Bool) (size : Nat)
    (way : Fin 4) (status060 : Long) :
    Settles (fillAndRetry addr val super data write size pure way status060) s
      (fun _ s' => Refilled s s' super write data (s.regs.atcIndex addr) way (s.regs.atcTag addr super) ∧
        LineFilled super write (s.regs.atcTag addr super)
          (s'.mmuAtcArray data (s.regs.atcIndex addr) way))
      fun s' => Refilled s s' super write data (s.regs.atcIndex addr) way (s.regs.atcTag addr super) := by
  unfold fillAndRetry
  rw [settles_update_bind, settles_reads_bind]
  refine ((mmuFillAtc_settles _ addr _ super write data _ way).mono (fun _ _ h => h) fun _ h => h.elim).bind
    fun r s' h => ?_
  obtain ⟨⟨hregs, hother, hline⟩, hfilled⟩ := h
  have hre : Refilled s s' super write data (s.regs.atcIndex addr) way (s.regs.atcTag addr super) :=
    ⟨hregs, hother, hline⟩
  refine .ite (fun _ => ?_) fun hok => ?_
  · exact hre.trans_same ⟨rfl, rfl⟩
  · refine ⟨hre.trans_same ⟨rfl, rfl⟩, hfilled ?_⟩
    cases hm : s.regs.mmuModel with
    | mmu68040 => exact .inl rfl
    | mmu68060 =>
      refine .inr (Decidable.byContradiction fun hne => hok ⟨fun hor => hne ?_, hm⟩)
      exact (BitVec.or_eq_zero_iff.mp hor).2

end Fill

/-! ## At most one search -/

section Once

variable (addr val : Long) (super data write : Bool) (size : Nat)

/-- A settled line is searched for no more. -/
theorem retryWalks_settled (fuel : Nat) (way : Fin 4) (status060 : Long) (s : Mmu)
    (h : StatusSettled super write (s.mmuAtcArray data (s.regs.atcIndex addr) way).status) :
    retryWalks addr val super data write size fuel way status060 s = 0 := by
  cases fuel with
  | zero => rfl
  | succ fuel =>
    rw [retryWalks]
    rcases h with h | h
    · rw [if_pos h]
    · by_cases hf : hitFaults (s.mmuAtcArray data (s.regs.atcIndex addr) way).status super write = true
      · rw [if_pos hf]
      · rw [if_neg hf, if_neg fun hc => h hc.2 hc.1]

/-- A search, and none behind it. -/
theorem fillWalks_le (fuel : Nat) (way : Fin 4) (status060 : Long) (s : Mmu) :
    (match fillAndRetry addr val super data write size pure way status060 s with
      | .ret status060 s => 1 + retryWalks addr val super data write size fuel way status060 s
      | _ => 1) ≤ 1 := by
  have h := fillAndRetry_settles s addr val super data write size way status060
  unfold Settles at h
  cases hf : fillAndRetry addr val super data write size pure way status060 s with
  | ret st s' =>
    rw [hf] at h
    dsimp only at h ⊢
    have hsettled := h.2.settled
    rw [← h.1.regs] at hsettled
    rw [retryWalks_settled addr val super data write size fuel way st s' hsettled]
  | thrown c s' => exact Nat.le_refl 1
  | diverge => exact Nat.le_refl 1

theorem retryWalks_le (fuel : Nat) (way : Fin 4) (status060 : Long) (s : Mmu) :
    retryWalks addr val super data write size fuel way status060 s ≤ 1 := by
  cases fuel with
  | zero => exact Nat.zero_le 1
  | succ fuel =>
    rw [retryWalks]
    split
    · exact Nat.zero_le 1
    · split
      · exact fillWalks_le addr val super data write size fuel way status060 s
      · exact Nat.zero_le 1

theorem translateWalks_le (fuel : Nat) (s : Mmu) :
    translateWalks addr val super data write size fuel s ≤ 1 := by
  unfold translateWalks
  dsimp only
  split
  · exact retryWalks_le addr val super data write size fuel _ 0 _
  · exact fillWalks_le addr val super data write size fuel _ 0 _

/-- A translation that counts no search does not look at the tables. -/
theorem mmuTranslate_noWalk {fuel : Nat} {s : Mmu}
    (h : translateWalks addr val super data write size fuel s = 0) (mem : PhysMem) :
    mmuTranslate addr val super data write size fuel { s with mem := mem } =
      (mmuTranslate addr val super data write size fuel s).mapState fun t => { t with mem := mem } := by
  unfold translateWalks at h
  simp only [mmuTranslate, update_bind_apply, reads_bind_apply, id_eq]
  dsimp only at h
  split at h
  · rename_i way hway
    rw [hway]
    dsimp only
    cases fuel with
    | zero => rfl
    | succ fuel =>
      rw [retryWalks] at h
      simp only [atcRetry, reads_bind_apply, id_eq]
      dsimp only at h
      split at h
      · rename_i hfault
        simp only [hfault, if_true, mmuBusError, update_bind_apply]
        rfl
      · rename_i hfault
        split at h
        · split at h
          · exact absurd h (by omega)
          · exact absurd h (by omega)
        · rename_i hwalk
          simp only [hfault, hwalk, Bool.false_eq_true, if_false, update_bind_apply, mmuAddCache]
          cases data with
          | false => rfl
          | true =>
            by_cases hidx : shortcutIdx s.regs addr super &&& 0xFF < 0xFF
            · simp only [if_true, if_pos hidx]
              cases write <;> rfl
            · simp only [if_true, if_neg hidx]
              rfl
  · split at h
    · exact absurd h (by omega)
    · exact absurd h (by omega)

/-- One that counts a search makes it, and what it goes on with counts none. -/
theorem mmuTranslate_walk {fuel : Nat} {s : Mmu}
    (h : translateWalks addr val super data write size fuel s ≠ 0) :
    ∃ fuel' way, mmuTranslate addr val super data write size fuel s =
        (fillAndRetry addr val super data write size pure way 0 >>=
          atcRetry addr val super data write size fuel' way) { s with wayRandom := s.wayRandom + 1 } ∧
      ∀ st s', fillAndRetry addr val super data write size pure way 0 { s with wayRandom := s.wayRandom + 1 } =
          .ret st s' → retryWalks addr val super data write size fuel' way st s' = 0 := by
  have hnone : ∀ fuel' way st s' t, fillAndRetry addr val super data write size pure way 0 t = .ret st s' →
      retryWalks addr val super data write size fuel' way st s' = 0 := by
    intro fuel' way st s' t hret
    have hle := fillWalks_le addr val super data write size fuel' way 0 t
    rw [hret] at hle
    exact Nat.le_zero.mp (Nat.le_of_add_le_add_left hle)
  let t : Mmu := { s with wayRandom := s.wayRandom + 1 }
  unfold translateWalks at h
  simp only [mmuTranslate, update_bind_apply, reads_bind_apply, id_eq]
  dsimp only at h
  split at h
  · rename_i way hway
    rw [hway]
    cases fuel with
    | zero => exact absurd rfl h
    | succ fuel =>
      refine ⟨fuel, way, ?_, fun st s' => hnone fuel way st s' t⟩
      rw [← fillAndRetry_eq]
      rw [retryWalks] at h
      dsimp only at h
      by_cases hfault : hitFaults (s.mmuAtcArray data (s.regs.atcIndex addr) way).status super write = true
      · rw [if_pos hfault] at h
        exact absurd rfl h
      · rw [if_neg hfault] at h
        by_cases hwalk : (s.mmuAtcArray data (s.regs.atcIndex addr) way).status &&& mmuDesModified = 0 ∧ write = true
        · dsimp only
          rw [atcRetry, reads_bind_apply]
          exact (congrFun (if_neg hfault) t).trans (congrFun (if_pos hwalk) t)
        · rw [if_neg hwalk] at h
          exact absurd rfl h
  · rename_i wayInvalid hway
    rw [hway]
    exact ⟨fuel, _, fillAndRetry_eq addr val super data write size _ _ 0 t, fun st s' => hnone fuel _ st s' t⟩

end Once

/-! ## What a translation leaves -/

section Translate

variable {s s' : Mmu} {addr val : Long} {super write data : Bool} {size fuel : Nat} {way : Fin 4}
  {status060 : Long}

theorem mmuAddCache_same (addr phys : Long) (super data write : Bool) :
    Stays AtcSame (mmuAddCache addr phys super data write) := by
  intro s
  obtain ⟨s', hs', hregs, -, -, hatc⟩ := mmuAddCache_ret s addr phys super data write
  exact .ret hs' ⟨hregs, hatc⟩

theorem atcRetry_settles (hl : StatusSettled super write (s.mmuAtcArray data (s.regs.atcIndex addr) way).status) :
    Settles (atcRetry addr val super data write size (fuel + 1) way status060) s (fun _ => AtcSame s) (AtcSame s) := by
  unfold atcRetry
  rw [settles_reads_bind]
  refine .ite (fun _ => ⟨rfl, rfl⟩) fun hf => ?_
  have hM := hl.resolve_left hf
  refine .ite (fun hc => absurd hc.1 (hM hc.2)) fun _ => ?_
  exact (Stays.bind (.update fun _ => ⟨rfl, rfl⟩) fun _ =>
    (mmuAddCache_same addr _ super data write).bind fun _ => .pure _) s

theorem fillAndRetry_refills :
    Settles (fillAndRetry addr val super data write size
        (atcRetry addr val super data write size (fuel + 1) way) way status060) s
      (fun _ s' => Refilled s s' super write data (s.regs.atcIndex addr) way (s.regs.atcTag addr super))
      fun s' => Refilled s s' super write data (s.regs.atcIndex addr) way (s.regs.atcTag addr super) := by
  have h : Settles (fillAndRetry addr val super data write size pure way status060 >>=
      atcRetry addr val super data write size (fuel + 1) way) s
      (fun _ s' => Refilled s s' super write data (s.regs.atcIndex addr) way (s.regs.atcTag addr super))
      fun s' => Refilled s s' super write data (s.regs.atcIndex addr) way (s.regs.atcTag addr super) := by
    refine (fillAndRetry_settles s addr val super data write size way status060).bind fun st s' h => ?_
    have hsettled := h.2.settled
    rw [← h.1.regs] at hsettled
    exact (atcRetry_settles hsettled).mono (fun _ _ h' => h.1.trans_same h') fun _ h' => h.1.trans_same h'
  unfold Settles at h ⊢
  rw [fillAndRetry_eq]
  exact h

theorem atcRetry_leaves :
    Settles (atcRetry addr val super data write size (fuel + 2) way status060) s
      (fun _ s' => AtcSame s s' ∨
        Refilled s s' super write data (s.regs.atcIndex addr) way (s.regs.atcTag addr super))
      fun s' => AtcSame s s' ∨
        Refilled s s' super write data (s.regs.atcIndex addr) way (s.regs.atcTag addr super) := by
  by_cases hl : StatusSettled super write (s.mmuAtcArray data (s.regs.atcIndex addr) way).status
  · exact (atcRetry_settles hl).mono (fun _ _ => .inl) fun _ => .inl
  · unfold atcRetry
    rw [settles_reads_bind]
    refine .ite (fun hf => absurd (.inl hf) hl) fun _ => .ite (fun _ => ?_) fun hc => ?_
    · exact fillAndRetry_refills.mono (fun _ _ => .inr) fun _ => .inr
    · exact absurd (.inr fun hw hM => hc ⟨hM, hw⟩) hl

/-- The way that `mmu_translate` uses: the one that holds the page, or else the one it refills. -/
def translateWay (s : Mmu) (addr : Long) (super data : Bool) : Fin 4 :=
  match findWay (s.regs.atcTag addr super) (s.mmuAtcArray data (s.regs.atcIndex addr)) 4
    (s.mmuAtcWays data) none with
  | .inl way => way
  | .inr wayInvalid => wayInvalid.getD (Fin.ofNat 4 (s.wayRandom + 1))

/-- The search has seen every way. -/
theorem findWay_miss {tag : Long} {lines : Fin 4 → MmuAtcLine} {n : Nat} {way : Fin 4}
    {wayInvalid wayInvalid' : Option (Fin 4)} (h : findWay tag lines n way wayInvalid = .inr wayInvalid') :
    (∀ k < n, (lines (way + Fin.ofNat 4 k)).valid = true → (lines (way + Fin.ofNat 4 k)).tag ≠ tag) ∧
      ((wayInvalid' = wayInvalid ∧ ∀ k < n, (lines (way + Fin.ofNat 4 k)).valid = false) ∨
        ∃ w, wayInvalid' = some w ∧ (lines w).valid = true ∧ (lines w).tag ≠ tag) := by
  have hnext : ∀ (way : Fin 4) (k : Nat), way + 1 + Fin.ofNat 4 k = way + Fin.ofNat 4 (k + 1) := by
    intro way k
    apply Fin.ext
    simp only [Fin.val_add, Fin.ofNat]
    omega
  have hfirst : way + Fin.ofNat 4 0 = way := by simp
  induction n generalizing way wayInvalid with
  | zero => exact ⟨nofun, .inl ⟨(Sum.inr.inj h).symm, nofun⟩⟩
  | succ n ih =>
    rw [findWay] at h
    by_cases hv : (lines way).valid = true
    · rw [if_pos hv] at h
      by_cases ht : tag = (lines way).tag
      · rw [if_pos ht] at h
        cases h
      · rw [if_neg ht] at h
        obtain ⟨hseen, hlast⟩ := ih h (by simp)
        refine ⟨fun k hk => ?_, .inr ?_⟩
        · cases k with
          | zero => rw [hfirst]; exact fun _ h' => ht h'.symm
          | succ k => rw [← hnext]; exact hseen k (by omega)
        · rcases hlast with ⟨hsame, -⟩ | hw
          · exact ⟨way, hsame, hv, fun h' => ht h'.symm⟩
          · exact hw
    · rw [if_neg hv] at h
      obtain ⟨hseen, hlast⟩ := ih h (by simp)
      refine ⟨fun k hk => ?_, hlast.imp_left fun ⟨hsame, hnone⟩ => ⟨hsame, fun k hk => ?_⟩⟩
      · cases k with
        | zero => rw [hfirst]; exact fun h' => absurd h' hv
        | succ k => rw [← hnext]; exact hseen k (by omega)
      · cases k with
        | zero => rw [hfirst]; exact Bool.eq_false_of_not_eq_true hv
        | succ k => rw [← hnext]; exact hnone k (by omega)

/-- What the search of a set leaves to `mmu_translate`: a hit, or a miss and then a valid way of
another page if there is any. -/
theorem translateWay_cases (s : Mmu) (addr : Long) (super data : Bool) :
    ((∃ way, findWay (s.regs.atcTag addr super) (s.mmuAtcArray data (s.regs.atcIndex addr)) 4
        (s.mmuAtcWays data) none = .inl way) ∧
      LineOf s addr super (s.mmuAtcArray data (s.regs.atcIndex addr) (translateWay s addr super data))) ∨
    (∃ wayInvalid, findWay (s.regs.atcTag addr super) (s.mmuAtcArray data (s.regs.atcIndex addr)) 4
        (s.mmuAtcWays data) none = .inr wayInvalid) ∧
      (∀ w, ¬ LineOf s addr super (s.mmuAtcArray data (s.regs.atcIndex addr) w)) ∧
      ((s.mmuAtcArray data (s.regs.atcIndex addr) (translateWay s addr super data)).valid = true ∨
        ∀ w, (s.mmuAtcArray data (s.regs.atcIndex addr) w).valid = false) := by
  have hall : ∀ start w : Fin 4, ∃ k < 4, w = start + Fin.ofNat 4 k := by decide
  unfold translateWay
  cases hf : findWay (s.regs.atcTag addr super) (s.mmuAtcArray data (s.regs.atcIndex addr)) 4
    (s.mmuAtcWays data) none with
  | inl way => exact .inl ⟨⟨way, rfl⟩, findWay_hit hf⟩
  | inr wayInvalid =>
    obtain ⟨hseen, hlast⟩ := findWay_miss hf
    refine .inr ⟨⟨wayInvalid, rfl⟩, fun w hw => ?_, ?_⟩
    · obtain ⟨k, hk, rfl⟩ := hall (s.mmuAtcWays data) w
      exact hseen k hk hw.1 hw.2
    · rcases hlast with ⟨-, hnone⟩ | ⟨w, hw, hvalid, -⟩
      · refine .inr fun w => ?_
        obtain ⟨k, hk, rfl⟩ := hall (s.mmuAtcWays data) w
        exact hnone k hk
      · rw [hw]
        exact .inl hvalid

/-- A hit that needs no search, or one line filled again. -/
def TranslateLeaves (s s' : Mmu) (addr : Long) (super data write : Bool) : Prop :=
  AtcSame s s' ∧
      LineOf s addr super (s.mmuAtcArray data (s.regs.atcIndex addr) (translateWay s addr super data)) ∨
    Refilled s s' super write data (s.regs.atcIndex addr) (translateWay s addr super data)
      (s.regs.atcTag addr super)

theorem mmuTranslate_leaves (s : Mmu) (addr val : Long) (super data write : Bool) (size fuel : Nat) :
    Settles (mmuTranslate addr val super data write size (fuel + 2)) s
      (fun _ s' => TranslateLeaves s s' addr super data write)
      fun s' => TranslateLeaves s s' addr super data write := by
  have hre : ∀ {way s'}, Refilled { s with wayRandom := s.wayRandom + 1 } s' super write data
      (s.regs.atcIndex addr) way (s.regs.atcTag addr super) →
        Refilled s s' super write data (s.regs.atcIndex addr) way (s.regs.atcTag addr super) :=
    fun h => ⟨h.regs, h.other, h.line⟩
  unfold mmuTranslate TranslateLeaves translateWay
  rw [settles_update_bind, settles_reads_bind]
  dsimp only [id]
  cases hf : findWay (s.regs.atcTag addr super) (s.mmuAtcArray data (s.regs.atcIndex addr)) 4
    (s.mmuAtcWays data) none with
  | inl way =>
    have hline : LineOf s addr super (s.mmuAtcArray data (s.regs.atcIndex addr) way) := findWay_hit hf
    exact atcRetry_leaves.mono (fun _ _ h => h.imp (fun h' => ⟨⟨h'.1, h'.2⟩, hline⟩) hre)
      fun _ h => h.imp (fun h' => ⟨⟨h'.1, h'.2⟩, hline⟩) hre
  | inr wayInvalid =>
    exact fillAndRetry_refills.mono (fun _ _ h => .inr (hre h)) fun _ h => .inr (hre h)

end Translate

/-! ## Steps -/

section Steps

variable {s s' : Mmu} {addr : Long} {super data write : Bool}

/-- Lines that are dropped, or stay. -/
def Drops (s s' : Mmu) : Prop := ∀ data index w, (s'.mmuAtcArray data index w).valid = true →
  s'.mmuAtcArray data index w = s.mmuAtcArray data index w

theorem Drops.waysDiffer (hd : Drops s s') (h : s.WaysDiffer) : s'.WaysDiffer := by
  intro data index w w' hw hw' htag
  have hold := hd data index w hw
  have hold' := hd data index w' hw'
  rw [hold] at hw htag
  rw [hold'] at hw' htag
  exact h data index w w' hw hw' htag

theorem Drops.sparesValid (hd : Drops s s') : s.SparesValid s' := by
  rintro data index w ⟨-, hvalid, htag⟩
  exact absurd (by rw [hd data index w hvalid]) htag

theorem Drops.of_same (h : AtcSame s s') : Drops s s' := fun data index w _ => by rw [h.2]

section Fill

variable {index : BitVec 4} {way : Fin 4} {tag : Long}

/-- A line filled where no other way holds its tag. -/
theorem Refilled.waysDiffer (hre : Refilled s s' super write data index way tag) (h : s.WaysDiffer)
    (hfree : ∀ w, w ≠ way → (s.mmuAtcArray data index w).valid = true → (s.mmuAtcArray data index w).tag ≠ tag) :
    s'.WaysDiffer := by
  rcases hre.line with hl | ⟨-, hsame⟩
  · intro d i w w' hw hw' htag
    by_cases hset : d = data ∧ i = index
    · obtain ⟨rfl, rfl⟩ := hset
      have hold : ∀ v, v ≠ way → s'.mmuAtcArray d i v = s.mmuAtcArray d i v :=
        fun v hv => hre.other d i v fun hc => hv hc.2.2
      by_cases h1 : w = way
      · by_cases h2 : w' = way
        · rw [h1, h2]
        · rw [hold w' h2] at hw' htag
          rw [h1, hl.tag] at htag
          exact absurd htag.symm (hfree w' h2 hw')
      · rw [hold w h1] at hw htag
        by_cases h2 : w' = way
        · rw [h2, hl.tag] at htag
          exact absurd htag (hfree w h1 hw)
        · rw [hold w' h2] at hw' htag
          exact h d i w w' hw hw' htag
    · have hold : ∀ v, s'.mmuAtcArray d i v = s.mmuAtcArray d i v :=
        fun v => hre.other d i v fun hc => hset ⟨hc.1, hc.2.1⟩
      rw [hold w] at hw htag
      rw [hold w'] at hw' htag
      exact h d i w w' hw hw' htag
  · refine Drops.waysDiffer (fun d i w _ => ?_) h
    by_cases hc : d = data ∧ i = index ∧ w = way
    · obtain ⟨rfl, rfl, rfl⟩ := hc
      exact hsame
    · exact hre.other d i w hc

/-- Only the line filled can be overwritten, and not by its own tag. -/
theorem Refilled.overwrites (hre : Refilled s s' super write data index way tag) {d : Bool} {i : BitVec 4}
    {w : Fin 4} (ho : s.Overwrites s' d i w) :
    (d = data ∧ i = index ∧ w = way) ∧ (s.mmuAtcArray data index way).valid = true ∧
      (s.mmuAtcArray data index way).tag ≠ tag := by
  obtain ⟨hvalid, hvalid', htag⟩ := ho
  by_cases hc : d = data ∧ i = index ∧ w = way
  · obtain ⟨rfl, rfl, rfl⟩ := hc
    refine ⟨⟨rfl, rfl, rfl⟩, hvalid, fun hown => ?_⟩
    rcases hre.line with hl | ⟨-, hsame⟩
    · exact htag (hl.tag.trans hown.symm)
    · exact htag (by rw [hsame])
  · exact absurd (by rw [hre.other d i w hc]) htag

end Fill

theorem TranslateLeaves.waysDiffer (hl : TranslateLeaves s s' addr super data write) (h : s.WaysDiffer) :
    s'.WaysDiffer := by
  rcases hl with ⟨hsame, -⟩ | hre
  · exact (Drops.of_same hsame).waysDiffer h
  · refine hre.waysDiffer h fun w hne hvalid htag => ?_
    rcases translateWay_cases s addr super data with ⟨-, hline⟩ | ⟨-, hmiss, -⟩
    · exact hne (h data _ w _ hvalid hline.1 (htag.trans hline.2.symm))
    · exact hmiss w ⟨hvalid, htag⟩

theorem TranslateLeaves.sparesValid (hl : TranslateLeaves s s' addr super data write)
    (hwhole : s.SetWhole addr super data) : s.SparesValid s' := by
  rcases hl with ⟨hsame, -⟩ | hre
  · exact (Drops.of_same hsame).sparesValid
  · intro d i w ho
    obtain ⟨⟨rfl, rfl, -⟩, hvalid, htag⟩ := hre.overwrites ho
    rcases translateWay_cases s addr super d with ⟨-, hline⟩ | ⟨-, hmiss, -⟩
    · exact absurd hline.2 htag
    · rcases hwhole with ⟨v, hv⟩ | hall | hnone
      · exact absurd hv (hmiss v)
      · exact hall
      · rw [hnone] at hvalid
        cases hvalid

/-- On the 68040, where every search fills a line. -/
theorem TranslateLeaves.whole (hl : TranslateLeaves s s' addr super data write)
    (h040 : s.regs.mmuModel = .mmu68040) (hspares : s.SparesValid s') : s.SetWhole addr super data := by
  rcases hl with ⟨-, hline⟩ | hre
  · exact .inl ⟨_, hline⟩
  · rcases translateWay_cases s addr super data with ⟨-, hline⟩ | ⟨-, hmiss, hvalid | hnone⟩
    · exact .inl ⟨_, hline⟩
    · rcases hre.line with hfilled | ⟨h060, -⟩
      · refine .inr (.inl (hspares data _ _ ⟨hvalid, hfilled.valid, fun htag => ?_⟩))
        exact hmiss _ ⟨hvalid, htag.symm.trans hfilled.tag⟩
      · rw [h040] at h060
        cases h060
    · exact .inr (.inr hnone)

/-- A flush drops lines of the page only, and with `global` all of them. -/
theorem mmuFlushAtc_drops (s : Mmu) (addr : Long) (super global : Bool) :
    ∃ s', mmuFlushAtc addr super global s = .ret () s' ∧ s'.regs = s.regs ∧ Drops s s' ∧
      (∀ d i w, (s.mmuAtcArray d i w).valid = true → (s'.mmuAtcArray d i w).valid = false →
        i = s.regs.atcIndex addr ∧ (s.mmuAtcArray d i w).tag = s.regs.atcTag addr super) ∧
      (global = true → ∀ d w, ¬ LineOf s addr super (s'.mmuAtcArray d (s.regs.atcIndex addr) w)) := by
  refine ⟨_, rfl, rfl, ?_, ?_, ?_⟩
  · intro d i w
    dsimp only
    split
    · nofun
    · exact fun _ => rfl
  · intro d i w hvalid
    dsimp only
    split
    · next hc => exact fun _ => ⟨hc.1, hc.2.2.symm⟩
    · next hc => exact fun hinv => absurd (hvalid.symm.trans hinv) nofun
  · rintro rfl d w ⟨hvalid, htag⟩
    dsimp only at hvalid htag
    split at hvalid
    · cases hvalid
    · next hc =>
      rw [if_neg hc] at htag
      exact hc ⟨rfl, by simp, htag.symm⟩

theorem mmuFlushAtcAll_drops (s : Mmu) (global : Bool) :
    ∃ s', mmuFlushAtcAll global s = .ret () s' ∧ s'.regs = s.regs ∧ Drops s s' := by
  refine ⟨_, rfl, rfl, fun d i w => ?_⟩
  dsimp only
  split
  · exact fun _ => rfl
  · nofun

theorem mmuSetTc_drops (s : Mmu) (tc : Word) :
    ∃ tc' s', mmuSetTc tc s = .ret tc' s' ∧ s'.regs.mmuModel = s.regs.mmuModel ∧ Drops s s' :=
  ⟨_, _, rfl, rfl, fun _ _ _ hv => nomatch hv⟩

/-- `PTEST` fills an invalid way if there is one. -/
theorem ptestWay_cases (lines : Fin 4 → MmuAtcLine) (wayRandom : Nat) :
    (lines (ptestWay lines wayRandom)).valid = false ∨ ∀ w, (lines w).valid = true := by
  unfold ptestWay
  cases h0 : (lines 0).valid
  · exact .inl h0
  cases h1 : (lines 1).valid
  · exact .inl h1
  cases h2 : (lines 2).valid
  · exact .inl h2
  cases h3 : (lines 3).valid
  · exact .inl h3
  refine .inr fun w => ?_
  match w with
  | 0 => exact h0
  | 1 => exact h1
  | 2 => exact h2
  | 3 => exact h3

/-- What an operation makes of the sets. -/
structure SetsKept (s s' : Mmu) : Prop where
  model : s'.regs.mmuModel = s.regs.mmuModel
  waysDiffer : s'.WaysDiffer
  sparesValid : s.SparesValid s'

theorem SetsKept.of_drops (hmodel : s'.regs.mmuModel = s.regs.mmuModel) (hd : Drops s s') (h : s.WaysDiffer) :
    SetsKept s s' := ⟨hmodel, hd.waysDiffer h, hd.sparesValid⟩

theorem ptest_setsKept (h : s.WaysDiffer) (dfc : BitVec 3) (addr : Long) (write : Bool) :
    Settles (ptest dfc addr write) s (fun _ => SetsKept s) (SetsKept s) := by
  obtain ⟨s₁, h₁, hregs, hdrops, hdropped, hgone⟩ := mmuFlushAtc_drops s addr (decide (dfc &&& 4 ≠ 0)) true
  obtain ⟨m, c, h₂⟩ := mmuMatchTtr_ret s₁ addr (decide (dfc &&& 4 ≠ 0)) (decide (dfc &&& 3 ≠ 2))
  have hplain : SetsKept s s₁ := .of_drops (by rw [hregs]) hdrops h
  unfold Settles ptest
  dsimp only
  rw [bind_ret h₁, bind_ret h₂, reads_bind_apply]
  dsimp only [id]
  refine Settles.ite (fun _ => ?_) fun _ => .ite (fun _ => ?_) fun _ => ?_
  · exact ⟨hplain.model, hplain.waysDiffer, hplain.sparesValid⟩
  · exact ⟨hplain.model, hplain.waysDiffer, hplain.sparesValid⟩
  · refine ((mmuFillAtc_settles (s₁.cached c) addr _ _ write _ _ _).mono (fun _ _ h => h) fun _ h => h.elim).bind
      fun r s₃ hr => settles_update.mpr ?_
    have hre : Refilled s₁ s₃ (decide (dfc &&& 4 ≠ 0)) write (decide (dfc &&& 3 ≠ 2)) (s₁.regs.atcIndex addr)
        (ptestWay (s₁.mmuAtcArray (decide (dfc &&& 3 ≠ 2)) (s₁.regs.atcIndex addr)) s₁.wayRandom)
        (s₁.regs.atcTag addr (decide (dfc &&& 4 ≠ 0))) := ⟨hr.1.regs, hr.1.other, hr.1.line⟩
    refine ⟨by rw [hre.regs, hregs], ?_, ?_⟩
    · refine hre.waysDiffer hplain.waysDiffer fun w _ hvalid htag => ?_
      rw [hregs] at hvalid htag
      exact hgone rfl _ w ⟨hvalid, htag⟩
    · rintro d i w ⟨hvalid, hvalid', htag⟩
      cases hstill : (s₁.mmuAtcArray d i w).valid with
      | true =>
        have hsame := hdrops d i w hstill
        obtain ⟨⟨rfl, rfl, -⟩, hway, -⟩ := hre.overwrites ⟨hstill, hvalid', by rw [hsame]; exact htag⟩
        rcases ptestWay_cases (s₁.mmuAtcArray (decide (dfc &&& 3 ≠ 2)) (s₁.regs.atcIndex addr)) s₁.wayRandom with
          hinv | hall
        · rw [hinv] at hway
          cases hway
        · intro w'
          rw [← hdrops _ _ w' (hall w')]
          exact hall w'
      | false =>
        obtain ⟨-, hown⟩ := hdropped d i w hvalid hstill
        by_cases hc : d = decide (dfc &&& 3 ≠ 2) ∧ i = s₁.regs.atcIndex addr ∧
            w = ptestWay (s₁.mmuAtcArray (decide (dfc &&& 3 ≠ 2)) (s₁.regs.atcIndex addr)) s₁.wayRandom
        · obtain ⟨rfl, rfl, rfl⟩ := hc
          rcases hre.line with hl | ⟨-, hsame⟩
          · have hnew := hl.tag
            rw [hregs, ← hown, ← hregs] at hnew
            exact absurd hnew htag
          · rw [← hsame] at hstill
            exact absurd (hvalid'.symm.trans hstill) nofun
        · rw [← hre.other d i w hc] at hstill
          exact absurd (hvalid'.symm.trans hstill) nofun

/-- What an operation does to the sets: ways stay different, and a valid line is spared where the
set was whole; on the 68040 only there. -/
structure OpLeaves (op : MmuOp) (s s' : Mmu) : Prop where
  model : s'.regs.mmuModel = s.regs.mmuModel
  waysDiffer : s'.WaysDiffer
  spares : op.Whole s → s.SparesValid s'
  whole : s.regs.mmuModel = .mmu68040 → s.SparesValid s' → op.Whole s

theorem SetsKept.leaves {op : MmuOp} (hk : SetsKept s s') (hop : op.Whole s) : OpLeaves op s s' :=
  ⟨hk.model, hk.waysDiffer, fun _ => hk.sparesValid, fun _ _ => hop⟩

theorem TranslateLeaves.leaves (hl : TranslateLeaves s s' addr super data write) (h : s.WaysDiffer) (val : Long)
    (size : Nat) : OpLeaves (.translate addr val super data write size) s s' := by
  have hregs : s'.regs = s.regs := hl.elim (·.1.1) (·.regs)
  exact ⟨by rw [hregs], hl.waysDiffer h, hl.sparesValid, hl.whole⟩

/-- One operation, from any state whose ways differ. -/
theorem perform_leaves (h : s.WaysDiffer) (fuel : Nat) (op : MmuOp) :
    Settles (op.perform (fuel + 2)) s (fun _ => OpLeaves op s) (OpLeaves op s) := by
  cases op with
  | translate addr val super data write size =>
    refine Settles.bind ((mmuTranslate_leaves s addr val super data write size fuel).mono (fun _ _ h' => h')
      fun _ h' => h'.leaves h val size) fun _ s' h' => ?_
    exact settles_pure.mpr (h'.leaves h val size)
  | flushAtc addr super global =>
    obtain ⟨s', hret, hregs, hd, -⟩ := mmuFlushAtc_drops s addr super global
    exact .ret hret ((SetsKept.of_drops (by rw [hregs]) hd h).leaves trivial)
  | flushAtcAll global =>
    obtain ⟨s', hret, hregs, hd⟩ := mmuFlushAtcAll_drops s global
    exact .ret hret ((SetsKept.of_drops (by rw [hregs]) hd h).leaves trivial)
  | ptest dfc addr write =>
    exact (ptest_setsKept h dfc addr write).mono (fun _ _ hk => hk.leaves trivial) fun _ hk => hk.leaves trivial
  | setTc tc =>
    obtain ⟨tc', s', hret, hmodel, hempty⟩ := mmuSetTc_drops s tc
    exact .ret (bind_ret hret) ((SetsKept.of_drops hmodel hempty h).leaves trivial)
  | edit mem =>
    have hk : SetsKept s { s with mem := mem } := .of_drops rfl (fun _ _ _ _ => rfl) h
    exact hk.leaves trivial

theorem next_settles {fuel : Nat} {op : MmuOp} {P : Mmu → Prop}
    (h : Settles (op.perform fuel) s (fun _ => P) P) : P (op.next fuel s) := by
  unfold Settles at h
  unfold MmuOp.next
  cases hm : op.perform fuel s with
  | diverge => rw [hm] at h; exact h.elim
  | _ => rw [hm] at h; exact h

theorem next_leaves (h : s.WaysDiffer) (fuel : Nat) (op : MmuOp) : OpLeaves op s (op.next (fuel + 2) s) :=
  next_settles (perform_leaves h fuel op)

theorem mmuPerform_comes (h : s.WaysDiffer) (fuel : Nat) (op : MmuOp) : op.perform (fuel + 2) s ≠ .diverge := by
  intro hd
  have hl := perform_leaves h fuel op
  unfold Settles at hl
  rw [hd] at hl
  exact hl

end Steps

/-! ## Runs -/

/-- `P` holds of every operation in the state it is made in. -/
def MmuOp.Along (fuel : Nat) (P : MmuOp → Mmu → Prop) : List MmuOp → Mmu → Prop
  | [], _ => True
  | op :: ops, s => P op s ∧ Along fuel P ops (op.next fuel s)

theorem MmuOp.Along.congr {fuel : Nat} {P Q : MmuOp → Mmu → Prop} {I : Mmu → Prop}
    (hI : ∀ (op : MmuOp) s, I s → I (op.next fuel s)) (hPQ : ∀ op s, I s → (P op s → Q op s)) :
    ∀ {ops : List MmuOp} {s : Mmu}, I s → Along fuel P ops s → Along fuel Q ops s := by
  intro ops
  induction ops with
  | nil => intro s _ _; trivial
  | cons op ops ih =>
    intro s hs h
    exact ⟨hPQ op s hs h.1, ih (hI op s hs) h.2⟩

theorem MmuOp.Along.of_forall {fuel : Nat} {P : MmuOp → Mmu → Prop} {I : Mmu → Prop}
    (hI : ∀ (op : MmuOp) s, I s → I (op.next fuel s)) (hP : ∀ op s, I s → P op s) (ops : List MmuOp) {s : Mmu}
    (hs : I s) : Along fuel P ops s := by
  induction ops generalizing s with
  | nil => trivial
  | cons op ops ih => exact ⟨hP op s hs, ih (hI op s hs)⟩

theorem Mmu.AtcEmpty.waysDiffer {s : Mmu} (h : s.AtcEmpty) : s.WaysDiffer := by
  intro data index w w' hw
  rw [h] at hw
  cases hw

theorem MmuOp.walks_le (fuel : Nat) (s : Mmu) (op : MmuOp) : op.walks fuel s ≤ 1 := by
  cases op with
  | translate addr val super data write size =>
    exact translateWalks_le addr val super data write size fuel s
  | _ => exact Nat.zero_le 1

/-- Any sequence of operations on an empty cache: before each of them the ways of every set differ,
and it comes back after one search at most. Where every translation finds its set whole, no valid
line is overwritten while another way of its set is free; and on the 68040, where every search
fills a line, only there. -/
theorem mmuRun_sets {s : Mmu} (h : s.AtcEmpty) (fuel : Nat) (ops : List MmuOp) :
    MmuOp.Along (fuel + 2)
        (fun op s => s.WaysDiffer ∧ op.walks (fuel + 2) s ≤ 1 ∧ op.perform (fuel + 2) s ≠ .diverge) ops s ∧
      (MmuOp.Along (fuel + 2) (fun op s => op.Whole s) ops s →
        MmuOp.Along (fuel + 2) (fun op s => s.SparesValid (op.next (fuel + 2) s)) ops s) ∧
      (s.regs.mmuModel = .mmu68040 →
        MmuOp.Along (fuel + 2) (fun op s => s.SparesValid (op.next (fuel + 2) s)) ops s →
          MmuOp.Along (fuel + 2) (fun op s => op.Whole s) ops s) := by
  have hdiffer := h.waysDiffer
  have hnext : ∀ (op : MmuOp) (s : Mmu), s.WaysDiffer → (op.next (fuel + 2) s).WaysDiffer :=
    fun op s hs => (next_leaves hs fuel op).waysDiffer
  refine ⟨?_, ?_, fun h040 => ?_⟩
  · exact .of_forall hnext (fun op s hs => ⟨hs, op.walks_le _ s, mmuPerform_comes hs fuel op⟩) ops hdiffer
  · exact .congr hnext (fun op s hs => (next_leaves hs fuel op).spares) hdiffer
  · refine .congr (I := fun s => s.WaysDiffer ∧ s.regs.mmuModel = .mmu68040) ?_ ?_ ⟨hdiffer, h040⟩
    · exact fun (op : MmuOp) s hs => ⟨hnext op s hs.1, (next_leaves hs.1 fuel op).model.trans hs.2⟩
    · exact fun op s hs => (next_leaves hs.1 fuel op).whole hs.2

theorem mmuRun_sets_onePage :
    let ops : List MmuOp := [.translate 0x1000 0 false true false 4, .ptest 1 0x1000 true, .flushAtcAll true]
    let s := emptyMmu (onePage 0x10001)
    MmuOp.Along 2 (fun op s => s.WaysDiffer ∧ op.walks 2 s ≤ 1 ∧ op.perform 2 s ≠ .diverge) ops s ∧
      (MmuOp.Along 2 (fun op s => op.Whole s) ops s → MmuOp.Along 2 (fun op s => s.SparesValid (op.next 2 s)) ops s) ∧
      (MmuOp.Along 2 (fun op s => s.SparesValid (op.next 2 s)) ops s → MmuOp.Along 2 (fun op s => op.Whole s) ops s) := by
  intro ops s
  obtain ⟨hall, hspares, hwhole⟩ := mmuRun_sets (emptyMmu_atcEmpty (onePage 0x10001)) 0 ops
  exact ⟨hall, hspares, hwhole rfl⟩

/-- Two pages, at `0x1000` and `0x11000`, of one set. -/
def twoPages : PhysMem := fun x =>
  if x = 0 then some 0x202
  else if x = 0x200 then some 0x402
  else if x = 0x404 then some 0x10001
  else if x = 0x444 then some 0x20001
  else none

/-- The second page takes the way of the first, with three ways free. -/
theorem mmuTranslate_evicts :
    ¬ ∀ s : Mmu, s.AtcEmpty → ∀ ops : List MmuOp,
      MmuOp.Along 2 (fun op s => s.SparesValid (op.next 2 s)) ops s := by
  intro h
  let ops : List MmuOp := [.translate 0x1000 0 false true false 4, .translate 0x11000 0 false true false 4]
  obtain ⟨-, hspares, -⟩ := h (emptyMmu twoPages) (emptyMmu_atcEmpty _) ops
  have hall := hspares true 1 1 (by unfold Mmu.Overwrites; decide +kernel) 0
  exact absurd hall (by decide +kernel)

end UaeCpu
