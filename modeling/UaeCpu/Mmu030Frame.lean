import UaeCpu.Mmu030Ops

/-!
# UaeCpu.Mmu030Frame

What the operations of the 68030 MMU leave alone, whether they return or throw.

* `mmu030TableSearch_kept` — a search, with its change of level undone, keeps the registers.
* `AccessRel`, `OpRel`     — what makes every access, and every operation that does not load `TC`,
  stay within a relation: what they do to the translation cache, and what they do besides.
* `access_within`, `operand_within`, `mmuOp30Pmove_within` — that they do.
-/

namespace UaeCpu

open Fault FaultM

/-- The registers of the MMU and the privilege level are as before. -/
def Kept030 (m m' : Mmu030) : Prop := m'.regs = m.regs ∧ m'.s = m.s

instance : Std.Refl Kept030 := ⟨fun _ => ⟨rfl, rfl⟩⟩

instance : IsTrans Mmu030 Kept030 := ⟨fun _ _ _ h h' => ⟨h'.1.trans h.1, h'.2.trans h.2⟩⟩

/-- Only what is around the tables and the translation cache has changed. -/
def Aside030 (m m' : Mmu030) : Prop :=
  m'.regs = m.regs ∧ m'.s = m.s ∧ m'.mem = m.mem ∧ m'.atc = m.atc

/-- A search leaves the translation cache alone until its end, and `descr_num` stays under the
length of `descr_addr`. -/
structure SearchKept (st st' : SearchState) : Prop where
  kept : Kept030 st.m st'.m
  atc : st'.m.atc = st.m.atc
  num : st.v.descrNum < 7 → st'.v.descrNum < 7

instance : Std.Refl SearchKept := ⟨fun _ => ⟨⟨rfl, rfl⟩, rfl, id⟩⟩

instance : IsTrans SearchState SearchKept :=
  ⟨fun _ _ _ h h' => ⟨Trans.trans h.kept h'.kept, h'.atc.trans h.atc, h'.num ∘ h.num⟩⟩

/-! ## The search -/

section Search

theorem setVars_kept {f : SearchVars → SearchVars} (h : ∀ v, (f v).descrNum = v.descrNum) :
    Within SearchKept (setVars f) :=
  .update fun st => ⟨⟨rfl, rfl⟩, rfl, fun hn => (h st.v).symm ▸ hn⟩

theorem orStatus_kept (b : Word) : Within SearchKept (orStatus b) :=
  .update fun _ => ⟨⟨rfl, rfl⟩, rfl, id⟩

theorem descGetLong030_kept (addr : Long) : Within SearchKept (descGetLong030 addr) := by
  intro st
  unfold Ends descGetLong030
  cases st.m.mem addr with
  | none => exact ⟨⟨rfl, rfl⟩, rfl, id⟩
  | some d => exact ⟨⟨rfl, rfl⟩, rfl, id⟩

theorem descPutLong030_kept (addr d : Long) : Within SearchKept (descPutLong030 addr d) := by
  intro st
  unfold Ends descPutLong030
  cases st.m.mem addr with
  | none => exact ⟨⟨rfl, rfl⟩, rfl, id⟩
  | some d => exact ⟨⟨rfl, rfl⟩, rfl, id⟩

theorem tableAt_kept (t : Nat) : Within SearchKept (tableAt t) :=
  .guarded fun _ _ => ⟨⟨rfl, rfl⟩, rfl, id⟩

theorem descrAddrAt_kept (n : Nat) : Within SearchKept (descrAddrAt n) :=
  .guarded fun _ _ => ⟨⟨rfl, rfl⟩, rfl, id⟩

theorem pushDescrAddr_kept (addr : Long) : Within SearchKept (pushDescrAddr addr) :=
  .guarded fun _ hroom => ⟨⟨rfl, rfl⟩, rfl, fun _ => hroom⟩

theorem fetchDescr_kept (addr : Long) : Within SearchKept (fetchDescr addr) := by
  unfold fetchDescr
  refine .bind (pushDescrAddr_kept addr) fun _ => .reads_bind fun st => .bind ?_ fun _ => ?_
  · refine .ite (fun _ => ?_) fun _ => ?_
    · exact .bind (descGetLong030_kept addr) fun _ => setVars_kept fun _ => rfl
    · refine .bind (descGetLong030_kept addr) fun _ => .bind (setVars_kept fun _ => rfl) fun _ => ?_
      exact .bind (descGetLong030_kept _) fun _ => setVars_kept fun _ => rfl
  · exact setVars_kept fun _ => rfl

theorem protectStatus_kept : Within SearchKept protectStatus :=
  .reads_bind fun _ => .bind (orStatus_kept _) fun _ => orStatus_kept _

theorem handleTableDescr_kept (super : Bool) (level : Nat) :
    Within SearchKept (handleTableDescr super level) := by
  unfold handleTableDescr
  refine .reads_bind fun st => .ite (fun _ => .pure _) fun _ => ?_
  refine .bind (setVars_kept fun _ => rfl) fun _ => .reads_bind fun st' => ?_
  refine .bind (.ite (fun _ => ?_) fun _ => .pure _) fun _ => ?_
  · refine .bind (setVars_kept fun _ => rfl) fun _ => .bind (descrAddrAt_kept _) fun _ => ?_
    exact descPutLong030_kept _ _
  · exact .bind protectStatus_kept fun _ => .pure _

theorem descrLabel_kept (last : Bool) : Within SearchKept (descrLabel last) := by
  unfold descrLabel
  refine .reads_bind fun st => .ite (fun _ => ?_) fun _ => .ite (fun _ => ?_) fun _ => ?_
  · exact .bind (orStatus_kept _) fun _ => .pure _
  · exact .bind (setVars_kept fun _ => rfl) fun _ => .pure _
  · exact .bind (setVars_kept fun _ => rfl) fun _ => .pure _

theorem fclTable_kept (fc : Long) : Within SearchKept (fclTable fc) :=
  .reads_bind fun _ => .bind (fetchDescr_kept _) fun _ => descrLabel_kept _

theorem tableRound_kept (addr : Long) (super : Bool) (level : Nat) :
    Within SearchKept (tableRound addr super level) := by
  unfold tableRound
  refine .bind (handleTableDescr_kept super level) fun _ => .ite (fun _ => .pure _) fun _ => ?_
  refine .reads_bind fun st => .bind (tableAt_kept _) fun _ => .bind (setVars_kept fun _ => rfl) fun _ => ?_
  refine .ite (fun _ => ?_) fun _ => ?_
  · exact .bind (orStatus_kept _) fun _ => .pure _
  · exact .bind (fetchDescr_kept _) fun _ => .reads_bind fun _ => descrLabel_kept _

theorem diverge_kept {α : Type} : Within SearchKept (fun _ => .diverge : SearchM α) :=
  fun _ => trivial

theorem tableRounds_kept (addr : Long) (super : Bool) (level n : Nat) :
    Within SearchKept (tableRounds addr super level n) := by
  induction n with
  | zero => exact diverge_kept
  | succ n ih =>
    unfold tableRounds
    refine .bind (tableRound_kept addr super level) fun _ => .ite (fun _ => ?_) fun _ => .pure _
    exact .reads_bind fun _ => .ite (fun _ => ih) fun _ => .pure _

theorem indirectDescr_kept (level : Nat) : Within SearchKept (indirectDescr level) := by
  unfold indirectDescr
  refine .reads_bind fun st => .ite (fun _ => .pure _) fun _ => ?_
  refine .bind (fetchDescr_kept _) fun _ => .reads_bind fun _ => .ite (fun _ => ?_) fun _ => .pure _
  exact .bind (orStatus_kept _) fun _ => .pure _

theorem touchPageDescr_kept (write : Bool) : Within SearchKept (touchPageDescr write) := by
  unfold touchPageDescr
  refine .reads_bind fun st => .ite (fun _ => ?_) fun _ => .pure _
  refine .bind (setVars_kept fun _ => rfl) fun _ => .bind (descrAddrAt_kept _) fun _ => ?_
  exact descPutLong030_kept _ _

theorem unusedFieldsMask_kept (n : Nat) (mask : Long) :
    Within SearchKept (unusedFieldsMask n mask) := by
  induction n generalizing mask with
  | zero => exact diverge_kept
  | succ n ih =>
    unfold unusedFieldsMask
    refine .reads_bind fun st => .bind (tableAt_kept _) fun _ => .bind (setVars_kept fun _ => rfl) fun _ => ?_
    exact .ite (fun _ => ih _) fun _ => .pure _

theorem pageDescr_kept (super write : Bool) (level : Nat) :
    Within SearchKept (pageDescr super write level) := by
  unfold pageDescr
  refine .reads_bind fun st => .ite (fun _ => .pure _) fun _ => ?_
  refine .bind (setVars_kept fun _ => rfl) fun _ => .reads_bind fun st' => ?_
  refine .bind (.ite (fun _ => touchPageDescr_kept write) fun _ => .pure _) fun _ => ?_
  refine .bind protectStatus_kept fun _ => .bind (setVars_kept fun _ => rfl) fun _ => ?_
  exact .reads_bind fun _ => orStatus_kept _

theorem earlyLimitViolated_kept (addr : Long) : Within SearchKept (earlyLimitViolated addr) := by
  unfold earlyLimitViolated
  refine .reads_bind fun st => .ite (fun _ => ?_) fun _ => .pure _
  exact .bind (tableAt_kept _) fun _ => .pure _

theorem handlePageDescr_kept (addr : Long) (super write : Bool) (level : Nat) :
    Within SearchKept (handlePageDescr addr super write level) := by
  unfold handlePageDescr
  refine .bind (pageDescr_kept super write level) fun _ => .reads_bind fun st => ?_
  refine .ite (fun _ => ?_) fun _ => setVars_kept fun _ => rfl
  refine .bind (earlyLimitViolated_kept addr) fun _ => .ite (fun _ => orStatus_kept _) fun _ => ?_
  exact .bind (unusedFieldsMask_kept 4 0) fun _ => setVars_kept fun _ => rfl

theorem tableSearch_kept (addr fc : Long) (write : Bool) (level : Nat) :
    Within SearchKept (tableSearch addr fc write level) := by
  unfold tableSearch
  refine .reads_bind fun st => .bind (descrLabel_kept false) fun _ => ?_
  refine .bind (.ite (fun _ => fclTable_kept fc) fun _ => .pure _) fun _ => ?_
  refine .bind (.ite (fun _ => tableRounds_kept _ _ _ _) fun _ => .pure _) fun _ => ?_
  refine .bind (.ite (fun _ => indirectDescr_kept _) fun _ => .pure _) fun _ => ?_
  exact .ite (fun _ => handlePageDescr_kept _ _ _ _) fun _ => .pure _

end Search

/-! ## The translation cache -/

theorem mmu030FlushCache_kept (addr : Long) : Within Kept030 (mmu030FlushCache addr) :=
  .update fun _ => ⟨rfl, rfl⟩

theorem invalidateAtc_kept (drop : Mmu030 → AtcLine030 → Bool) :
    Within Kept030 (invalidateAtc drop) := .update fun _ => ⟨rfl, rfl⟩

theorem handleHistoryBit_kept (entryNum : Fin 22) : Within Kept030 (handleHistoryBit entryNum) :=
  .update fun _ => ⟨rfl, rfl⟩

theorem createAtcEntry_kept (v : SearchVars) (addr fc : Long) :
    Within Kept030 (createAtcEntry v addr fc) := by
  unfold createAtcEntry
  refine .reads_bind fun m => .bind (handleHistoryBit_kept _) fun _ => ?_
  exact .bind (.update fun _ => ⟨rfl, rfl⟩) fun _ => mmu030FlushCache_kept _

theorem finishSearch_kept {m : Mmu030} {st : SearchState} (addr fc : Long) (level : Nat)
    (h : st.m.regs = m.regs) :
    Ends (fun _ => finishSearch addr fc level m.s st) m (fun _ => Kept030 m) (Kept030 m) := by
  have hbase : Kept030 m { st.m with s := m.s } := ⟨h, rfl⟩
  unfold Ends finishSearch
  by_cases hl : level = 0
  · simp only [if_pos hl]
    have hline : Within Kept030 (createAtcEntry st.v addr fc >>= fun _ => pure (0 : Long)) :=
      .bind (createAtcEntry_kept st.v addr fc) fun _ => .pure _
    exact (hline { st.m with s := m.s }).mono (fun _ _ h' => Trans.trans hbase h')
      fun _ h' => Trans.trans hbase h'
  · simp only [if_neg hl]
    by_cases hn : st.v.descrNum = 0
    · simp only [if_pos hn]
      exact ⟨h, rfl⟩
    · simp only [if_neg hn]
      by_cases hlt : st.v.descrNum < 7
      · simp only [dif_pos hlt]
        exact ⟨h, rfl⟩
      · simp only [dif_neg hlt]

/-- A search for `PTEST` makes no line. -/
theorem finishSearch_atc (addr fc : Long) {level : Nat} (s : Bool) (st : SearchState)
    (hl : level ≠ 0) (m : Mmu030) :
    Ends (fun _ => finishSearch addr fc level s st) m (fun _ m' => m'.atc = st.m.atc)
      fun m' => m'.atc = st.m.atc := by
  unfold Ends finishSearch
  simp only [if_neg hl]
  by_cases hn : st.v.descrNum = 0
  · simp only [if_pos hn]
  · simp only [if_neg hn]
    by_cases hlt : st.v.descrNum < 7
    · simp only [dif_pos hlt]
    · simp only [dif_neg hlt]

theorem searchCatch_kept (st : SearchState) : SearchKept st (searchCatch st) := by
  refine ⟨⟨rfl, rfl⟩, rfl, fun hn => ?_⟩
  unfold searchCatch
  dsimp only
  split
  · exact Nat.lt_of_le_of_lt (Nat.sub_le _ _) hn
  · exact hn

/-- What holds of the end of a search, from the states that its `TRY` can leave. -/
theorem mmu030TableSearch_ends {P : Mmu030 → Prop} {m : Mmu030} {addr fc : Long} {write : Bool}
    {level : Nat}
    (h : ∀ st, SearchKept (startSearch fc m) st →
      Ends (fun _ => finishSearch addr fc level m.s st) m (fun _ => P) P) :
    Ends (mmu030TableSearch addr fc write level) m (fun _ => P) P := by
  have hrun := tableSearch_kept addr fc write level (startSearch fc m)
  unfold Ends at hrun ⊢
  unfold mmu030TableSearch
  cases hs : tableSearch addr fc write level (startSearch fc m) with
  | diverge => trivial
  | thrown prb st =>
    rw [hs] at hrun
    exact h (searchCatch st) (Trans.trans hrun (searchCatch_kept st))
  | ret u st =>
    rw [hs] at hrun
    exact h st hrun

theorem mmu030TableSearch_kept (addr fc : Long) (write : Bool) (level : Nat) :
    Within Kept030 (mmu030TableSearch addr fc write level) :=
  fun _ => mmu030TableSearch_ends fun _ h => finishSearch_kept addr fc level h.kept.1

theorem mmu030TableSearch_atc (addr fc : Long) (write : Bool) {level : Nat} (hl : level ≠ 0) :
    Within (fun m m' => m'.atc = m.atc) (mmu030TableSearch addr fc write level) := fun m =>
  mmu030TableSearch_ends fun _ h => (finishSearch_atc addr fc m.s _ hl m).mono
    (fun _ _ h' => h'.trans h.atc) fun _ h' => h'.trans h.atc

theorem atcLookup_kept (maddr fc : Long) (write : Bool) (offset : BitVec 5) (n : Nat)
    (index : Fin 22) : Within Kept030 (atcLookup maddr fc write offset n index) := by
  induction n generalizing index with
  | zero => exact .pure _
  | succ n ih =>
    unfold atcLookup
    refine .reads_bind fun m => .ite (fun _ => .ite (fun _ => ?_) fun _ => ?_) fun _ => ih _
    · refine .bind (handleHistoryBit_kept index) fun _ => ?_
      exact .bind (.update fun _ => ⟨rfl, rfl⟩) fun _ => .pure _
    · exact .bind (.update fun _ => ⟨rfl, rfl⟩) fun _ => ih _

theorem mmu030LogicalIsInAtc_kept (addr fc : Long) (write : Bool) :
    Within Kept030 (mmu030LogicalIsInAtc addr fc write) :=
  .reads_bind fun _ => atcLookup_kept _ _ _ _ _ _

/-! ## Accesses -/

/-- An access by way of the translation cache: `hit` goes through a line found at once, `miss`
through the line found after a search. -/
def refillAtc {α : Type} (addr fc : Long) (write searchWrite : Bool)
    (hit miss : Option (Fin 22) → Mmu030M α) : Mmu030M α := do
  let l ← mmu030LogicalIsInAtc addr fc write
  if l.isSome then hit l
  else do
    let _ ← mmu030TableSearch addr fc searchWrite 0
    let l ← mmu030LogicalIsInAtc addr fc write
    miss l

/-- What keeps an access within `R`. -/
structure AccessRel (R : Mmu030 → Mmu030 → Prop) : Prop where
  aside : ∀ {m m'}, Aside030 m m' → R m m'
  refill : ∀ {α : Type} (addr fc : Long) (write searchWrite : Bool)
    {hit miss : Option (Fin 22) → Mmu030M α}, (∀ l, Within R (hit l)) →
      (∀ l, Within R (miss l)) → Within R (refillAtc addr fc write searchWrite hit miss)

theorem kept_accessRel : AccessRel Kept030 where
  aside h := ⟨h.1, h.2.1⟩
  refill addr fc write searchWrite _ _ hhit hmiss := by
    unfold refillAtc
    refine .bind (mmu030LogicalIsInAtc_kept _ _ _) fun l => .ite (fun _ => hhit l) fun _ => ?_
    refine .bind (mmu030TableSearch_kept _ _ _ _) fun _ => ?_
    exact .bind (mmu030LogicalIsInAtc_kept _ _ _) fun l' => hmiss l'

section Access

variable {R : Mmu030 → Mmu030 → Prop} [Std.Refl R] [IsTrans Mmu030 R] (h : AccessRel R)
  (addr : Long) (l : Option (Fin 22)) (fc : Long) (flags : Word)

include h

omit [Std.Refl R] [IsTrans Mmu030 R] in
theorem update_aside {f : Mmu030 → Mmu030} (hf : ∀ m, Aside030 m (f m)) : Within R (update f) :=
  .update fun m => h.aside (hf m)

theorem mmu030PageFault_within {α : Type} (read : Bool) :
    Within R (mmu030PageFault addr read flags fc : Mmu030M α) :=
  .bind (update_aside h fun _ => ⟨rfl, rfl, rfl, rfl⟩) fun _ => fun m => Std.Refl.refl m

theorem mmu030MatchTtr_within (write : Bool) : Within R (mmu030MatchTtr addr fc write) := by
  unfold mmu030MatchTtr
  refine .reads_bind fun m => .bind (update_aside h fun m' => ?_) fun _ => .pure _
  split <;> exact ⟨rfl, rfl, rfl, rfl⟩

omit h [IsTrans Mmu030 R] in
theorem atcAt_within : Within R (atcAt l) := by
  intro m
  cases l with
  | none => trivial
  | some i => exact Std.Refl.refl m

omit [Std.Refl R] [IsTrans Mmu030 R] in
theorem mmu030AddDataCache_within (write : Bool) (phys : Long) :
    Within R (mmu030AddDataCache write addr phys fc) := by
  refine update_aside h fun m => ?_
  dsimp only
  split
  · split <;> exact ⟨rfl, rfl, rfl, rfl⟩
  · exact ⟨rfl, rfl, rfl, rfl⟩

theorem mmu030PutAtc_within : Within R (mmu030PutAtc addr l fc flags) := by
  unfold mmu030PutAtc
  refine .bind (atcAt_within l) fun _ => .ite (fun _ => mmu030PageFault_within h _ _ _ _) fun _ => ?_
  refine .bind (update_aside h fun _ => ⟨rfl, rfl, rfl, rfl⟩) fun _ => .reads_bind fun _ => ?_
  exact .bind (mmu030AddDataCache_within h _ _ _ _) fun _ => .pure _

theorem mmu030GetAtc_within : Within R (mmu030GetAtc addr l fc flags) := by
  unfold mmu030GetAtc
  refine .bind (atcAt_within l) fun _ => .ite (fun _ => mmu030PageFault_within h _ _ _ _) fun _ => ?_
  refine .bind (update_aside h fun _ => ⟨rfl, rfl, rfl, rfl⟩) fun _ => .reads_bind fun _ => ?_
  exact .bind (mmu030AddDataCache_within h _ _ _ _) fun _ => .pure _

theorem mmu030GetIAtc_within : Within R (mmu030GetIAtc addr l fc flags) := by
  unfold mmu030GetIAtc
  refine .bind (atcAt_within l) fun _ => .ite (fun _ => mmu030PageFault_within h _ _ _ _) fun _ => ?_
  exact .bind (update_aside h fun _ => ⟨rfl, rfl, rfl, rfl⟩) fun _ => .reads_bind fun _ => .pure _

theorem mmu030PutAtcGeneric_within : Within R (mmu030PutAtcGeneric addr l fc flags) := by
  unfold mmu030PutAtcGeneric
  refine .bind (atcAt_within l) fun _ => .ite (fun _ => mmu030PageFault_within h _ _ _ _) fun _ => ?_
  exact .reads_bind fun _ => .bind (mmu030AddDataCache_within h _ _ _ _) fun _ => .pure _

theorem mmu030GetAtcGeneric_within (checkwrite : Bool) :
    Within R (mmu030GetAtcGeneric addr l fc flags checkwrite) := by
  unfold mmu030GetAtcGeneric
  refine .bind (atcAt_within l) fun _ => .ite (fun _ => mmu030PageFault_within h _ _ _ _) fun _ => ?_
  exact .reads_bind fun _ => .bind (mmu030AddDataCache_within h _ _ _ _) fun _ => .pure _

theorem mmu030GetAddrAtc_within (write : Bool) :
    Within R (mmu030GetAddrAtc addr l fc flags write) := by
  unfold mmu030GetAddrAtc
  refine .bind (atcAt_within l) fun _ => .ite (fun _ => mmu030PageFault_within h _ _ _ _) fun _ => ?_
  exact .reads_bind fun _ => .pure _

omit [Std.Refl R] [IsTrans Mmu030 R] in
theorem cacheablecheck_within : Within R (cacheablecheck addr) := by
  refine update_aside h fun m => ?_
  split <;> exact ⟨rfl, rfl, rfl, rfl⟩

theorem mmu030Put_within : Within R (mmu030Put addr fc flags) := by
  unfold mmu030Put
  refine .bind (update_aside h fun _ => ⟨rfl, rfl, rfl, rfl⟩) fun _ => .reads_bind fun m => ?_
  refine .bind (.ite (fun _ => .ite (fun _ => ?_) fun _ => ?_) fun _ => .pure _) fun _ => ?_
  · exact .bind (update_aside h fun _ => ⟨rfl, rfl, rfl, rfl⟩) fun _ => .pure _
  · exact h.refill _ _ _ _ (fun l => mmu030PutAtc_within h _ _ _ _) fun l =>
      mmu030PutAtc_within h _ _ _ _
  · exact .bind (cacheablecheck_within h _) fun _ => .pure _

theorem mmu030Get_within : Within R (mmu030Get addr fc flags) := by
  unfold mmu030Get
  refine .bind (update_aside h fun _ => ⟨rfl, rfl, rfl, rfl⟩) fun _ => .reads_bind fun m => ?_
  refine .bind (.ite (fun _ => .ite (fun _ => ?_) fun _ => ?_) fun _ => .pure _) fun _ => ?_
  · exact .bind (update_aside h fun _ => ⟨rfl, rfl, rfl, rfl⟩) fun _ => .pure _
  · exact h.refill _ _ _ _ (fun l => mmu030GetAtc_within h _ _ _ _) fun l =>
      mmu030GetAtc_within h _ _ _ _
  · exact .bind (cacheablecheck_within h _) fun _ => .pure _

theorem mmu030GetI_within : Within R (mmu030GetI addr fc flags) := by
  unfold mmu030GetI
  refine .reads_bind fun m => .ite (fun _ => ?_) fun _ => ?_
  · exact .bind (update_aside h fun _ => ⟨rfl, rfl, rfl, rfl⟩) fun _ => .pure _
  · refine .bind (update_aside h fun _ => ⟨rfl, rfl, rfl, rfl⟩) fun _ => .reads_bind fun m' => ?_
    refine .bind (.ite (fun _ => ?_) fun _ => .pure _) fun _ => ?_
    · exact h.refill _ _ _ _ (fun l => mmu030GetIAtc_within h _ _ _ _) fun l =>
        mmu030GetIAtc_within h _ _ _ _
    · exact .bind (cacheablecheck_within h _) fun _ => .pure _

theorem mmu030PutGeneric_within : Within R (mmu030PutGeneric addr fc flags) := by
  unfold mmu030PutGeneric
  refine .bind (update_aside h fun _ => ⟨rfl, rfl, rfl, rfl⟩) fun _ => .reads_bind fun m => ?_
  refine .bind (.ite (fun _ => ?_) fun _ => .pure _) fun _ => ?_
  · exact h.refill _ _ _ _ (fun l => mmu030PutAtcGeneric_within h _ _ _ _) fun l =>
      mmu030PutAtcGeneric_within h _ _ _ _
  · exact .bind (cacheablecheck_within h _) fun _ => .pure _

theorem mmu030GetGeneric_within : Within R (mmu030GetGeneric addr fc flags) := by
  unfold mmu030GetGeneric
  refine .bind (update_aside h fun _ => ⟨rfl, rfl, rfl, rfl⟩) fun _ => .reads_bind fun m => ?_
  refine .bind (.ite (fun _ => ?_) fun _ => .pure _) fun _ => ?_
  · exact h.refill _ _ _ _ (fun l => mmu030GetAtcGeneric_within h _ _ _ _ _) fun l =>
      mmu030GetAtcGeneric_within h _ _ _ _ _
  · exact .bind (cacheablecheck_within h _) fun _ => .pure _

theorem uaeMmu030CheckFc_within (write : Bool) :
    Within R (uaeMmu030CheckFc addr flags write) := by
  unfold uaeMmu030CheckFc
  refine .reads_bind fun fc => .bind (update_aside h fun _ => ⟨rfl, rfl, rfl, rfl⟩) fun _ => ?_
  refine .reads_bind fun m => .bind (.ite (fun _ => ?_) fun _ => .pure _) fun _ => ?_
  · exact h.refill _ _ _ _ (fun l => mmu030GetAtcGeneric_within h _ _ _ _ _) fun l =>
      mmu030GetAtcGeneric_within h _ _ _ _ _
  · exact .reads_bind fun _ => .ite (fun _ => .pure _) fun _ => .pure _

theorem mmu030Translate_within (super data write : Bool) :
    Within R (mmu030Translate addr super data write) := by
  unfold mmu030Translate
  refine .ite (fun _ => .pure _) fun _ => .bind (mmu030MatchTtr_within h _ _ _) fun _ => ?_
  refine .reads_bind fun m => .ite (fun _ => .pure _) fun _ => ?_
  exact h.refill _ _ _ _ (fun l => mmu030GetAddrAtc_within h _ _ _ _ _) fun l =>
    mmu030GetAddrAtc_within h _ _ _ _ _

theorem access_within (a : Access030) : Within R a.perform := by
  cases a with
  | put flags addr fc => exact mmu030Put_within h _ _ _
  | get flags addr fc => exact mmu030Get_within h _ _ _
  | getI flags addr fc => exact mmu030GetI_within h _ _ _
  | putGeneric flags addr fc => exact mmu030PutGeneric_within h _ _ _
  | getGeneric flags addr fc => exact mmu030GetGeneric_within h _ _ _
  | translate addr super data write => exact mmu030Translate_within h _ _ _ _

theorem physGetWord_within : Within R (physGetWord addr) := by
  intro m
  unfold Ends physGetWord
  cases m.mem (addr &&& 0xFFFFFFFC) with
  | none => exact mmu030PageFault_within h (α := Word) addr _ _ true m
  | some d => exact Std.Refl.refl m

theorem physGetLong_within : Within R (physGetLong addr) := by
  intro m
  unfold Ends physGetLong
  cases m.mem addr with
  | none => exact mmu030PageFault_within h (α := Long) addr _ _ true m
  | some d => exact Std.Refl.refl m

theorem physGetByte_within : Within R (physGetByte addr) :=
  .bind (physGetWord_within h _) fun _ => .pure _

theorem fakePrefetchTry_within : Within R fakePrefetchTry := by
  unfold fakePrefetchTry
  refine .reads_bind fun m => .bind (mmu030Translate_within h _ _ _ _) fun _ => ?_
  refine .bind (mmu030GetI_within h _ _ _) fun _ => ?_
  refine .bind (physGetWord_within h _) fun _ => .ite (fun _ => ?_) fun _ => .pure _
  refine .bind (mmu030GetI_within h _ _ _) fun _ => ?_
  exact .bind (physGetWord_within h _) fun _ => .pure _

/-- The fetch before a change of `TC` comes back, whatever it meets. -/
theorem mmu030DoFakePrefetch_ends (m : Mmu030) :
    Ends mmu030DoFakePrefetch m (fun _ => R m) fun _ => False := by
  unfold mmu030DoFakePrefetch
  rw [ends_bind, ends_reads]
  refine .ite (fun _ => ?_) fun _ => ?_
  · rw [ends_pure]
    exact Std.Refl.refl m
  · exact Ends.tryCatch (fakePrefetchTry_within h m) fun _ _ h => h

theorem fakePrefetchIf_ends (m : Mmu030) (p : Prop) [Decidable p] :
    Ends (if p then mmu030DoFakePrefetch else pure ()) m (fun _ => R m) fun _ => False :=
  .ite (fun _ => mmu030DoFakePrefetch_ends h m) fun _ => ends_pure.mpr (Std.Refl.refl m)

end Access

/-! ## Operands -/

/-- The operand accesses are within `R`. -/
structure Operand030.Within (R : Mmu030 → Mmu030 → Prop) (x : Operand030) : Prop where
  getLong : ∀ addr, Fault.FaultM.Within R (x.getLong addr)
  getWord : ∀ addr, Fault.FaultM.Within R (x.getWord addr)
  putLong : ∀ addr v, Fault.FaultM.Within R (x.putLong addr v)
  putWord : ∀ addr v, Fault.FaultM.Within R (x.putWord addr v)

section Operands

variable {R : Mmu030 → Mmu030 → Prop} [Std.Refl R] [IsTrans Mmu030 R] (h : AccessRel R)

include h

theorem getGeneric_bind_within {α : Type} {addr fc : Long} {flags : Word} {f : Long → Mmu030M α}
    (hf : ∀ a, Within R (f a)) : Within R (mmu030GetGeneric addr fc flags >>= f) :=
  .bind (mmu030GetGeneric_within h _ _ _) hf

theorem operand_within : operand030.Within R := by
  have hbyte : ∀ a, Within R (physGetByte a) := physGetByte_within h
  have hword : ∀ a, Within R (physGetWord a) := physGetWord_within h
  have hput : ∀ addr fc flags, Within R (mmu030PutGeneric addr fc flags) :=
    mmu030PutGeneric_within h
  refine ⟨?_, ?_, ?_, ?_⟩
  · intro addr
    refine .reads_bind fun fc => .ite (fun _ => .ite (fun _ => ?_) fun _ => ?_) fun _ => ?_
    · refine .bind (getGeneric_bind_within h hword) fun _ => ?_
      exact .bind (getGeneric_bind_within h hword) fun _ => .pure _
    · refine .bind (getGeneric_bind_within h hbyte) fun _ => ?_
      refine .bind (getGeneric_bind_within h hword) fun _ => ?_
      exact .bind (getGeneric_bind_within h hbyte) fun _ => .pure _
    · exact .bind (mmu030Get_within h _ _ _) (physGetLong_within h)
  · intro addr
    refine .reads_bind fun fc => .ite (fun _ => ?_) fun _ => ?_
    · refine .bind (getGeneric_bind_within h hbyte) fun _ => ?_
      exact .bind (getGeneric_bind_within h hbyte) fun _ => .pure _
    · exact .bind (mmu030Get_within h _ _ _) hword
  · intro addr v
    refine .reads_bind fun fc => .ite (fun _ => .ite (fun _ => ?_) fun _ => ?_) fun _ => ?_
    · exact .bind (hput _ _ _) fun _ => .bind (hput _ _ _) fun _ => .pure _
    · refine .bind (hput _ _ _) fun _ => .bind (hput _ _ _) fun _ => ?_
      exact .bind (hput _ _ _) fun _ => .pure _
    · exact .bind (mmu030Put_within h _ _ _) fun _ => .pure _
  · intro addr v
    refine .reads_bind fun fc => .ite (fun _ => ?_) fun _ => ?_
    · exact .bind (hput _ _ _) fun _ => .bind (hput _ _ _) fun _ => .pure _
    · exact .bind (mmu030Put_within h _ _ _) fun _ => .pure _

end Operands

/-! ## Instructions -/

/-- What `TC` and its decoding consist of is as before. -/
def TcKept (m m' : Mmu030) : Prop :=
  m'.regs.mmuEc = m.regs.mmuEc ∧ m'.regs.tc030 = m.regs.tc030 ∧ m'.regs.enabled = m.regs.enabled ∧
    m'.regs.translation = m.regs.translation

instance : Std.Refl TcKept := ⟨fun _ => ⟨rfl, rfl, rfl, rfl⟩⟩

instance : IsTrans Mmu030 TcKept :=
  ⟨fun _ _ _ h h' => ⟨h'.1.trans h.1, h'.2.1.trans h.2.1, h'.2.2.1.trans h.2.2.1,
    h'.2.2.2.trans h.2.2.2⟩⟩

theorem tcKept_of_regs {m m' : Mmu030} (h : m'.regs = m.regs) : TcKept m m' := by
  unfold TcKept
  rw [h]
  exact ⟨rfl, rfl, rfl, rfl⟩

theorem tcKept_within {α : Type} {c : Mmu030M α} (h : Within Kept030 c) : Within TcKept c :=
  h.mono fun _ _ h => tcKept_of_regs h.1

/-- What keeps an operation that does not load `TC` within `R`. -/
structure OpRel (R : Mmu030 → Mmu030 → Prop) : Prop extends AccessRel R where
  registers : ∀ {m m'}, TcKept m m' → m'.atc = m.atc → R m m'
  invalidate : ∀ drop, Within R (invalidateAtc drop)
  load : ∀ addr fc write, Within R (do
    mmu030FlushAtcPage addr
    mmu030TableSearch addr fc write 0)
  search : ∀ addr fc write level, level ≠ 0 → Within R (mmu030TableSearch addr fc write level)

theorem mmu030FlushAtcPage_kept (addr : Long) : Within Kept030 (mmu030FlushAtcPage addr) :=
  .reads_bind fun _ => .bind (invalidateAtc_kept _) fun _ => mmu030FlushCache_kept _

theorem tcKept_opRel : OpRel TcKept where
  aside h := tcKept_of_regs h.1
  refill addr fc write searchWrite _ _ hhit hmiss := by
    have hlookup : Within TcKept (mmu030LogicalIsInAtc addr fc write) :=
      tcKept_within (mmu030LogicalIsInAtc_kept _ _ _)
    unfold refillAtc
    refine .bind hlookup fun l => .ite (fun _ => hhit l) fun _ => ?_
    refine .bind (tcKept_within (mmu030TableSearch_kept _ _ _ _)) fun _ => ?_
    exact .bind hlookup fun l' => hmiss l'
  registers h _ := h
  invalidate drop := tcKept_within (invalidateAtc_kept drop)
  load addr fc write := tcKept_within
    (.bind (mmu030FlushAtcPage_kept addr) fun _ => mmu030TableSearch_kept _ _ _ _)
  search addr fc write level _ := tcKept_within (mmu030TableSearch_kept _ _ _ _)

/-- `PMOVE` to `TC`. -/
def LoadsTc (next : Word) : Prop := (next >>> 10) &&& 31 = 0x10 ∧ next &&& 0x200 = 0

section Instructions

variable {R : Mmu030 → Mmu030 → Prop} [Std.Refl R] [IsTrans Mmu030 R] (h : OpRel R)
  (opcode : Long) (next : Word) (extra : Long)

include h

omit [Std.Refl R] [IsTrans Mmu030 R] in
theorem mmu030FlushCache_within (addr : Long) : Within R (mmu030FlushCache addr) :=
  update_aside h.toAccessRel fun _ => ⟨rfl, rfl, rfl, rfl⟩

theorem mmu030FlushAtcAll_within : Within R mmu030FlushAtcAll :=
  .bind (h.invalidate _) fun _ => mmu030FlushCache_within h _

omit [Std.Refl R] [IsTrans Mmu030 R] in
theorem updateRegs_within {f : Mmu030Regs → Mmu030Regs}
    (hf : ∀ m : Mmu030, TcKept m { m with regs := f m.regs }) : Within R (updateRegs f) :=
  .update fun m => h.registers (hf m) rfl

theorem mmu030PtestAtcSearch_within (addr fc : Long) (write : Bool) :
    Within R (mmu030PtestAtcSearch addr fc write) := by
  have hstatus : ∀ f : Mmu030 → Word, Within R (update fun m => { m with status := f m }) :=
    fun f => update_aside h.toAccessRel fun _ => ⟨rfl, rfl, rfl, rfl⟩
  unfold mmu030PtestAtcSearch
  refine .bind (hstatus _) fun _ => .bind (mmu030MatchTtr_within h.toAccessRel _ _ _) fun _ => ?_
  refine .ite (fun _ => hstatus _) fun _ => .reads_bind fun m => ?_
  split
  · exact hstatus _
  · exact hstatus _

theorem mmuOp30Ptest_within : Within R (mmuOp30Ptest opcode next extra) := by
  unfold mmuOp30Ptest
  refine .bind (update_aside h.toAccessRel fun _ => ⟨rfl, rfl, rfl, rfl⟩) fun _ => ?_
  refine .reads_bind fun m => .ite (fun _ => .pure _) fun _ => ?_
  split
  · exact .pure _
  · refine .ite (fun _ => .pure _) fun _ => .bind (.ite (fun _ => ?_) fun hlevel => ?_) fun _ => ?_
    · exact mmu030PtestAtcSearch_within h _ _ _
    · refine .bind (h.search _ _ _ _ hlevel) fun ret => update_aside h.toAccessRel fun m' => ?_
      split <;> exact ⟨rfl, rfl, rfl, rfl⟩
    · exact .bind (update_aside h.toAccessRel fun _ => ⟨rfl, rfl, rfl, rfl⟩) fun _ => .pure _

theorem mmuOp30Pload_within : Within R (mmuOp30Pload opcode next extra) := by
  unfold mmuOp30Pload
  refine .reads_bind fun m => .ite (fun _ => .pure _) fun _ => ?_
  split
  · exact .pure _
  · rename_i fc _
    intro m'
    have hload := h.load extra fc (decide (next &&& 0x200 = 0)) m'
    rw [ends_bind] at hload ⊢
    refine hload.mono (fun _ m₁ h₁ => ?_) fun _ h₁ => h₁
    exact ends_bind.mpr (h₁.mono (fun _ _ h₂ => h₂) fun _ h₂ => h₂)

theorem mmuOp30Pflush_within : Within R (mmuOp30Pflush opcode next extra) := by
  have hflush : ∀ drop addr, Within R (do
      invalidateAtc drop
      mmu030FlushCache addr) := fun drop addr =>
    .bind (h.invalidate drop) fun _ => mmu030FlushCache_within h addr
  unfold mmuOp30Pflush
  refine .reads_bind fun m => .ite (fun _ => mmuOp30Pload_within h _ _ _) fun _ => ?_
  refine .ite (fun _ => .ite (fun _ => .pure _) fun _ => ?_) fun _ => ?_
  · exact .bind (hflush _ _) fun _ => .pure _
  refine .ite (fun _ => ?_) fun _ => .ite (fun _ => .ite (fun _ => .pure _) fun _ => ?_) fun _ =>
    .pure _
  · split
    · exact .pure _
    · exact .bind (hflush _ _) fun _ => .pure _
  · split
    · exact .pure _
    · exact .bind (.reads_bind fun _ => hflush _ _) fun _ => .pure _

theorem mmu030DecodeRp_within (rp : BitVec 64) : Within R (mmu030DecodeRp rp) := by
  have hraise : Within R (raiseException 56) :=
    update_aside h.toAccessRel fun _ => ⟨rfl, rfl, rfl, rfl⟩
  exact .ite (fun _ => .bind hraise fun _ => .pure _) fun _ => .pure _

/-- A `PMOVE` that is no load of `TC`. -/
theorem mmuOp30Pmove_within (fakePrefetch : Mmu030M Unit) (hload : ¬LoadsTc next) :
    Within R (mmuOp30Pmove operand030 fakePrefetch opcode next extra) := by
  have hoperand : operand030.Within R := operand_within h.toAccessRel
  unfold mmuOp30Pmove
  extract_lets preg rw fd done
  have hdone : Within R done := by
    refine .bind (.ite (fun _ => mmu030FlushAtcAll_within h) fun _ => .pure _) fun _ => ?_
    exact .bind (updateRegs_within h fun _ => ⟨rfl, rfl, rfl, rfl⟩) fun _ => .pure _
  -- the two longwords of a root pointer
  have hstore : ∀ f : Mmu030 → BitVec 64, Within R (do
      let m ← reads id
      operand030.putLong extra ((f m).extractLsb' 32 32)
      let m ← reads id
      operand030.putLong (extra + 4) ((f m).extractLsb' 0 32)
      done) := fun f =>
    .reads_bind fun _ => .bind (hoperand.putLong _ _) fun _ => .reads_bind fun _ =>
      .bind (hoperand.putLong _ _) fun _ => hdone
  have hroot : ∀ (f : Long → Mmu030Regs → Mmu030Regs) (g : Long → Mmu030Regs → Mmu030Regs)
      (rp : Mmu030 → BitVec 64), (∀ v (m : Mmu030), TcKept m { m with regs := f v m.regs }) →
      (∀ v (m : Mmu030), TcKept m { m with regs := g v m.regs }) → Within R (do
        let hi ← operand030.getLong extra
        updateRegs (f hi)
        let lo ← operand030.getLong (extra + 4)
        updateRegs (g lo)
        let m ← reads id
        let bad ← mmu030DecodeRp (rp m)
        if bad then pure (-1) else done) := by
    intro f g rp hf hg
    refine .bind (hoperand.getLong _) fun _ => .bind (updateRegs_within h (hf _)) fun _ => ?_
    refine .bind (hoperand.getLong _) fun _ => .bind (updateRegs_within h (hg _)) fun _ => ?_
    refine .reads_bind fun _ => .bind (mmu030DecodeRp_within h _) fun _ => ?_
    exact .ite (fun _ => .pure _) fun _ => hdone
  have hlong : ∀ f : Long → Mmu030Regs → Mmu030Regs,
      (∀ v (m : Mmu030), TcKept m { m with regs := f v m.regs }) → Within R (do
        let v ← operand030.getLong extra
        updateRegs (f v)
        done) := fun f hf =>
    .bind (hoperand.getLong _) fun _ => .bind (updateRegs_within h (hf _)) fun _ => hdone
  have hput : ∀ f : Mmu030 → Long, Within R (do
      let m ← reads id
      operand030.putLong extra (f m)
      done) := fun f => .reads_bind fun _ => .bind (hoperand.putLong _ _) fun _ => hdone
  refine .ite (fun _ => .pure _) fun _ => .ite (fun htc => ?_) fun _ => ?_
  · refine .ite (fun _ => hput fun m => m.regs.tc030) fun hrw => ?_
    exact absurd ⟨htc, not_not.mp hrw⟩ hload
  refine .ite (fun _ => .ite (fun _ => hstore fun m => m.regs.srp030) fun _ => ?_) fun _ => ?_
  · exact hroot (fun hi r => { r with srp030 := hi ++ (0 : Long) })
      (fun lo r => { r with srp030 := r.srp030 ||| lo.setWidth 64 }) (fun m => m.regs.srp030)
      (fun _ _ => ⟨rfl, rfl, rfl, rfl⟩) fun _ _ => ⟨rfl, rfl, rfl, rfl⟩
  refine .ite (fun _ => .ite (fun _ => hstore fun m => m.regs.crp030) fun _ => ?_) fun _ => ?_
  · exact hroot (fun hi r => { r with crp030 := hi ++ (0 : Long) })
      (fun lo r => { r with crp030 := r.crp030 ||| lo.setWidth 64 }) (fun m => m.regs.crp030)
      (fun _ _ => ⟨rfl, rfl, rfl, rfl⟩) fun _ _ => ⟨rfl, rfl, rfl, rfl⟩
  refine .ite (fun _ => .ite (fun _ => .pure _) fun _ => .ite (fun _ => ?_) fun _ => ?_) fun _ => ?_
  · exact .reads_bind fun _ => .bind (hoperand.putWord _ _) fun _ => hdone
  · refine .bind (hoperand.getWord _) fun _ => ?_
    exact .bind (update_aside h.toAccessRel fun _ => ⟨rfl, rfl, rfl, rfl⟩) fun _ => hdone
  refine .ite (fun _ => .ite (fun _ => hput fun m => m.regs.tt0030) fun _ => ?_) fun _ => ?_
  · exact hlong (fun v r => { r with tt0030 := v, tt0 := mmu030DecodeTt v }) fun _ _ =>
      ⟨rfl, rfl, rfl, rfl⟩
  refine .ite (fun _ => .ite (fun _ => hput fun m => m.regs.tt1030) fun _ => ?_) fun _ => .pure _
  · exact hlong (fun v r => { r with tt1030 := v, tt1 := mmu030DecodeTt v }) fun _ _ =>
      ⟨rfl, rfl, rfl, rfl⟩

end Instructions

/-- A load of `TC`. -/
theorem mmuOp30Pmove_loadsTc (x : Operand030) (fakePrefetch : Mmu030M Unit) (opcode : Long)
    {next : Word} (extra : Long) (hload : LoadsTc next) :
    mmuOp30Pmove x fakePrefetch opcode next extra =
      (if mmuOp30Invea opcode ∨ next &&& 0xFF ≠ 0 then pure 1
      else do
        let v ← x.getLong extra
        updateRegs fun r => { r with tc030 := v }
        let bad ← mmu030DecodeTc fakePrefetch v true
        if bad then pure (-1)
        else do
          (if next &&& 0x100 = 0 then mmu030FlushAtcAll else pure ())
          updateRegs fun r => { r with
            ttEnabled := decide (r.tt0030 &&& ttEnable ≠ 0) || decide (r.tt1030 &&& ttEnable ≠ 0) }
          pure 0) := by
  obtain ⟨hpreg, hrw⟩ := hload
  unfold mmuOp30Pmove
  have hmmusr : ((0x10 : Word) = 0x18) = False := by decide
  simp only [hpreg, hrw, hmmusr, ne_eq, not_true_eq_false, false_and, or_false, not_not,
    if_true, if_false, and_true, not_false_eq_true]

end UaeCpu
