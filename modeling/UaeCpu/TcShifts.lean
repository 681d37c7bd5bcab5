import UaeCpu.AtcRefill

/-!
# UaeCpu.TcShifts

`mmu030_decode_tc` for every value of `TC`: which values it accepts, what it makes of them, and the
amounts it shifts by on the way.

* `decodeTranslation_exact` — accepted are the values that are no configuration error.
* `decodeShifts_lt_iff`     — the masks are shifted in range while the table indices fit below `IS`;
                              that they do is checked after the masks are made.
-/

namespace UaeCpu

open Fault FaultM Fields

/-! ## Shift amounts -/

/-- The amounts of `1 << (table[i].shift + j)`: an unsigned byte and an index, so never negative. -/
def tableShifts (shift : BitVec 8) (n : Nat) : List Nat := (List.range n).map fun j => shift.toNat + j

/-- The amounts of the loop over the tables, up to a zero field. -/
def decodeShifts (tc : Long) : List (Fin 4) → BitVec 8 → List Nat
  | [], _ => []
  | i :: is, shift =>
    if tiBits tc i = 0 then []
    else tableShifts (shift - tiBits tc i) (tiBits tc i).toNat ++ decodeShifts tc is (shift - tiBits tc i)

/-- The amounts that `mmu030_decode_tc` shifts by, in its order. -/
def decodeTcShifts (mmuEc : Bool) (tc : Long) : List Nat :=
  if effectiveTc mmuEc tc &&& tcEnableTranslation = 0 then []
  else
    let size := ((tc &&& tcPsMask) >>> 20).toNat
    let initShift : BitVec 8 := ((tc &&& tcIsMask) >>> 16).setWidth 8
    [20, 16, size] ++
      if size < 8 then [size] else [12, 8, 4, 0] ++ decodeShifts tc (List.finRange 4) (32 - initShift)

section Shifts

variable {tc : Long}

theorem tableShifts_lt_iff {shift : BitVec 8} {n : Nat} (hn : 0 < n) :
    (∀ k ∈ tableShifts shift n, k < 32) ↔ shift.toNat + n ≤ 32 := by
  unfold tableShifts
  constructor
  · intro h
    have hlast := h (shift.toNat + (n - 1)) (List.mem_map.mpr ⟨n - 1, List.mem_range.mpr (by omega), rfl⟩)
    omega
  · intro h k hk
    obtain ⟨j, hj, rfl⟩ := List.mem_map.mp hk
    have hlt := List.mem_range.mp hj
    omega

/-- The amounts are in range exactly if the table indices take no more bits than there are. -/
theorem decodeShifts_lt_iff (is : List (Fin 4)) {shift : BitVec 8} (hs : shift.toNat ≤ 32) :
    (∀ n ∈ decodeShifts tc is shift, n < 32) ↔ (tcWidths tc is).sum ≤ shift.toNat := by
  induction is generalizing shift with
  | nil => exact iff_of_true (by unfold decodeShifts; nofun) (Nat.zero_le _)
  | cons i is ih =>
    rw [tcWidths_cons]
    unfold decodeShifts
    by_cases hz : tiBits tc i = 0
    · rw [if_pos hz, if_pos hz]
      exact iff_of_true nofun (Nat.zero_le _)
    · have hpos : 0 < (tiBits tc i).toNat := Nat.pos_of_ne_zero fun h => hz (BitVec.eq_of_toNat_eq h)
      have hbits : (tiBits tc i).toNat ≤ 15 := by
        unfold tiBits
        rw [BitVec.toNat_and]
        exact Nat.and_le_right
      rw [if_neg hz, if_neg hz, List.forall_mem_append, tableShifts_lt_iff hpos, List.sum_cons]
      by_cases hle : (tiBits tc i).toNat ≤ shift.toNat
      · have hsub : (shift - tiBits tc i).toNat = shift.toNat - (tiBits tc i).toNat :=
          BitVec.toNat_sub_of_le (BitVec.le_def.mpr hle)
        rw [ih (by omega), hsub]
        omega
      · -- the byte has wrapped, and is past 32
        have hwrap : (shift - tiBits tc i).toNat = 256 + shift.toNat - (tiBits tc i).toNat := by
          rw [BitVec.toNat_sub]
          omega
        exact iff_of_false (fun h => by have := h.1; omega) (by omega)

end Shifts

/-! ## Values accepted -/

/-- `TC` enables translation, on a part that can. -/
def TcOn (mmuEc : Bool) (tc : Long) : Prop := mmuEc = false ∧ tc &&& tcEnableTranslation ≠ 0

/-- The values that should be accepted. -/
def TcAcceptable (mmuEc : Bool) (tc : Long) : Prop :=
  ¬ TcOn mmuEc tc ∨ 8 ≤ tcPageSize tc ∧ 0 < (tiBits tc 0).toNat ∧
    tcInitShift tc + tcPageSize tc + (tcWidths tc (List.finRange 4)).sum = 32

theorem tcAcceptable_iff {mmuEc : Bool} {tc : Long} (hon : TcOn mmuEc tc) :
    TcAcceptable mmuEc tc ↔ TcValid tc := by
  constructor
  · rintro (h | ⟨hsize, -, hsum⟩)
    · exact absurd hon h
    · exact ⟨hsize, by omega⟩
  · rintro ⟨hsize, hsum⟩
    refine .inr ⟨hsize, Nat.pos_of_ne_zero fun hz => ?_, by omega⟩
    have hnone : tcWidths tc (List.finRange 4) = [] := by
      rw [List.finRange_succ, tcWidths_cons, if_pos (BitVec.eq_of_toNat_eq hz)]
    have hs := tcInitShift_lt tc
    have hp := tcPageSize_lt tc
    rw [hnone, List.sum_nil] at hsum
    omega

/-- The check of the sum lets every value through that is no error. -/
theorem decodeTables_passes {tc : Long} (tr : TranslationParams) (h : TcValid tc) :
    (decodeTables tc (List.finRange 4) (32 - (startTranslation tc tr).initShift)
        (startTranslation tc tr)).1.setWidth 32 -
      (decodeTables tc (List.finRange 4) (32 - (startTranslation tc tr).initShift)
        (startTranslation tc tr)).2.page.size = 0 := by
  have hshift := (decodeTables_shift_eq_iff tc tr).mpr h.2
  rw [← decodeTables_pageSize tc tr] at hshift
  generalize decodeTables tc (List.finRange 4) (32 - (startTranslation tc tr).initShift)
    (startTranslation tc tr) = r at hshift ⊢
  have heq : r.1.setWidth 32 = r.2.page.size := by
    apply BitVec.eq_of_toNat_eq
    rw [BitVec.toNat_setWidth, Nat.mod_eq_of_lt (by have := r.1.isLt; omega), hshift]
  rw [heq]
  exact BitVec.sub_self _

/-- The rest of `mmu030_decode_tc` accepts the values that are no error. -/
theorem decodeTranslation_exact (m : Mmu030) (tc : Long) :
    Ends (decodeTranslation tc) m
      (fun bad m' => m'.regs.enabled = m.regs.enabled ∧ (bad = false ↔ TcValid tc) ∧
        (bad = false → m'.regs.translation.DecodedFrom tc)) fun _ => False := by
  have haccepts := decodeTranslation_accepts m tc
  have hexact : Ends (decodeTranslation tc) m (fun bad _ => TcValid tc → bad = false) fun _ => False := by
    unfold decodeTranslation updateRegs raiseException
    rw [ends_bind, ends_update, ends_bind, ends_reads]
    dsimp only [id]
    refine .ite (fun hsize => ?_) fun _ => ?_
    · rw [ends_bind, ends_update, ends_pure]
      exact fun h => absurd h.1 (lt_eight_iff.mp hsize)
    · rw [ends_bind, ends_update]
      refine .ite (fun hsum => ?_) fun _ => ends_pure.mpr fun _ => rfl
      rw [ends_bind, ends_update, ends_pure]
      exact fun h => absurd (decodeTables_passes m.regs.translation h) hsum
  unfold Ends at *
  cases hm : decodeTranslation tc m with
  | ret bad m' =>
    rw [hm] at haccepts hexact
    exact ⟨haccepts.1, ⟨fun hbad => (haccepts.2 hbad).valid, hexact⟩, haccepts.2⟩
  | thrown c m' => rw [hm] at hexact; exact hexact
  | diverge => trivial

/-- What `mmu030_decode_tc` reports, and for a value accepted what it has made of it. -/
structure TcExact (mmuEc : Bool) (tc : Long) (bad : Bool) (m' : Mmu030) : Prop where
  accepts : bad = false ↔ TcAcceptable mmuEc tc
  enabled : m'.regs.enabled = true ↔ TcOn mmuEc tc
  decoded : bad = false → TcOn mmuEc tc → m'.regs.translation.DecodedFrom tc

theorem mmu030DecodeTc_tcExact (m : Mmu030) (tc : Long) (check : Bool) :
    Ends (mmu030DecodeTc mmu030DoFakePrefetch tc check) m (TcExact m.regs.mmuEc tc) fun _ => False := by
  unfold mmu030DecodeTc updateRegs
  rw [ends_bind, ends_update, ends_bind, ends_reads]
  dsimp only [id]
  refine .ite (fun htc => ?_) fun htc => ?_
  · have hon : TcOn m.regs.mmuEc tc := effectiveTc_on.mp htc
    have heff : effectiveTc m.regs.mmuEc tc = tc := by
      rw [effectiveTc, hon.1, if_neg Bool.false_ne_true]
    rw [ends_bind]
    refine (fakePrefetchIf_ends kept_accessRel _ _).mono (fun _ m₁ _ => ?_) fun _ h => h
    rw [ends_bind, ends_update, heff]
    refine (decodeTranslation_exact _ tc).mono (fun bad m' h => ?_) fun _ h => h
    exact ⟨h.2.1.trans (tcAcceptable_iff hon).symm, iff_of_true h.1 hon, fun hbad _ => h.2.2 hbad⟩
  · have hoff : ¬ TcOn m.regs.mmuEc tc := fun h => htc (effectiveTc_on.mpr h)
    rw [ends_bind]
    refine (fakePrefetchIf_ends kept_accessRel _ _).mono (fun _ m₁ _ => ?_) fun _ h => h
    rw [ends_bind, ends_update, ends_pure]
    exact ⟨iff_of_true rfl (.inl hoff), iff_of_false Bool.false_ne_true hoff, fun _ h => absurd h hoff⟩

/-! ## Coming back -/

section Comes

variable {m : Mmu030}

/-- A computation that keeps the tables, and then one that comes back with such tables. -/
theorem bind_lastTable_comes {α β : Type} {c : Mmu030M α} {f : α → Mmu030M β} (hc : c m ≠ .diverge)
    (hw : Within Kept030 c) (hlast : m.regs.lastTable ≤ 3)
    (hf : ∀ a m', m'.regs.lastTable ≤ 3 → f a m' ≠ .diverge) : (c >>= f) m ≠ .diverge := by
  rw [bind_apply]
  have hkept := hw m
  unfold Ends at hkept
  cases hm : c m with
  | ret a m' =>
    rw [hm] at hkept
    exact hf a m' (by rw [hkept.1]; exact hlast)
  | thrown code m' => nofun
  | diverge => exact absurd hm hc

theorem physGetWord_comes (addr : Long) : physGetWord addr m ≠ .diverge := by
  unfold physGetWord
  cases m.mem (addr &&& 0xFFFFFFFC) with
  | none => exact mmu030PageFault_comes _ _ _ _ m
  | some d => nofun

theorem fakePrefetchTry_comes (hlast : m.regs.lastTable ≤ 3) : fakePrefetchTry m ≠ .diverge := by
  have hk := kept_accessRel
  unfold fakePrefetchTry
  rw [reads_bind_apply]
  refine bind_lastTable_comes (mmu030Translate_comes hlast _ _) (mmu030Translate_within hk _ _ _ _) hlast
    fun _ m₁ h₁ => ?_
  refine bind_lastTable_comes (mmu030GetI_comes h₁) (mmu030GetI_within hk _ _ _) h₁ fun _ m₂ h₂ => ?_
  refine bind_lastTable_comes (physGetWord_comes _) (physGetWord_within hk _) h₂ fun op m₃ h₃ => ?_
  refine ite_comes (fun _ => ?_) fun _ => nofun
  refine bind_lastTable_comes (mmu030GetI_comes h₃) (mmu030GetI_within hk _ _ _) h₃ fun _ m₄ h₄ => ?_
  exact bind_lastTable_comes (physGetWord_comes _) (physGetWord_within hk _) h₄ fun _ _ _ => nofun

theorem fakePrefetchIf_comes (hlast : m.regs.lastTable ≤ 3) (p : Prop) [Decidable p] :
    (if p then mmu030DoFakePrefetch else pure ()) m ≠ .diverge := by
  refine ite_comes (fun _ => ?_) fun _ => nofun
  unfold mmu030DoFakePrefetch FaultM.tryCatch
  rw [reads_bind_apply]
  refine ite_comes (fun _ => nofun) fun _ => ?_
  cases hm : fakePrefetchTry m with
  | ret a m' => simp
  | thrown c m' => simp
  | diverge => exact absurd hm (fakePrefetchTry_comes hlast)

theorem decodeTranslation_comes (tc : Long) : Comes (decodeTranslation tc) :=
  .bind (.update _) fun _ => .reads_bind fun _ =>
    .ite (fun _ => .bind (.update _) fun _ => .pure _) fun _ =>
      .bind (.update _) fun _ => .ite (fun _ => .bind (.update _) fun _ => .pure _) fun _ => .pure _

theorem mmu030DecodeTc_comes (hlast : m.regs.lastTable ≤ 3) (tc : Long) (check : Bool) :
    mmu030DecodeTc mmu030DoFakePrefetch tc check m ≠ .diverge := by
  unfold mmu030DecodeTc
  rw [update_bind_apply, reads_bind_apply]
  refine ite_comes (fun _ => ?_) fun _ => ?_
  · exact bind_comes (fakePrefetchIf_comes (by exact hlast) _) fun _ => .bind (.update _) fun _ => decodeTranslation_comes _
  · exact bind_comes (fakePrefetchIf_comes (by exact hlast) _) fun _ => .bind (.update _) fun _ => .pure _

end Comes

/-! ## The law -/

/-- `mmu030_decode_tc` on a value in a state: it returns, accepts what it should, and has shifted
nothing by 32 bits or more. -/
structure TcDecodes (m : Mmu030) (tc : Long) (check : Bool) : Prop where
  settles : m.regs.lastTable ≤ 3 →
    Returns (mmu030DecodeTc mmu030DoFakePrefetch tc check) m (TcExact m.regs.mmuEc tc)
  shifts : ∀ n ∈ decodeTcShifts m.regs.mmuEc tc, n < 32

/-- The table indices and `IS` fit in an address, if it comes to the tables. -/
def TcFits (mmuEc : Bool) (tc : Long) : Prop :=
  TcOn mmuEc tc → 8 ≤ tcPageSize tc → tcInitShift tc + (tcWidths tc (List.finRange 4)).sum ≤ 32

theorem decodeTcShifts_lt_iff (mmuEc : Bool) (tc : Long) :
    (∀ n ∈ decodeTcShifts mmuEc tc, n < 32) ↔ TcFits mmuEc tc := by
  unfold decodeTcShifts TcFits
  by_cases hon : TcOn mmuEc tc
  · have hne : ¬ effectiveTc mmuEc tc &&& tcEnableTranslation = 0 := effectiveTc_on.mpr hon
    have hsize := tcPageSize_lt tc
    have his := tcInitShift_lt tc
    rw [if_neg hne]
    change (∀ n ∈ [20, 16, tcPageSize tc] ++ if tcPageSize tc < 8 then [tcPageSize tc] else _, n < 32) ↔ _
    have hhead : ∀ n ∈ [20, 16, tcPageSize tc], n < 32 := by
      simp only [List.forall_mem_cons]
      exact ⟨by omega, by omega, by omega, nofun⟩
    rw [List.forall_mem_append, and_iff_right hhead]
    by_cases hp : tcPageSize tc < 8
    · rw [if_pos hp]
      refine iff_of_true (fun n hn => ?_) fun _ h => by omega
      rw [List.mem_singleton.mp hn]
      omega
    · have hfixed : ∀ n ∈ [12, 8, 4, 0], n < 32 := by decide
      have hstart : ((tc &&& tcIsMask) >>> 16).setWidth 8 = BitVec.ofNat 8 (tcInitShift tc) := by
        unfold tcInitShift
        rw [BitVec.ofNat_toNat]
      have hshift : (32 - BitVec.ofNat 8 (tcInitShift tc)).toNat = 32 - tcInitShift tc := by
        rw [BitVec.toNat_sub, BitVec.toNat_ofNat]
        have h32 : (32 : BitVec 8).toNat = 32 := rfl
        omega
      rw [if_neg hp, List.forall_mem_append, and_iff_right hfixed, hstart, decodeShifts_lt_iff _ (by omega),
        hshift]
      exact ⟨fun h _ _ => by omega, fun h => by have := h hon (by omega); omega⟩
  · have heq : effectiveTc mmuEc tc &&& tcEnableTranslation = 0 := not_not.mp (mt effectiveTc_on.mp hon)
    rw [if_pos heq]
    exact iff_of_true nofun fun h => absurd h hon

theorem mmu030DecodeTc_iff (m : Mmu030) (tc : Long) (check : Bool) :
    TcDecodes m tc check ↔ TcFits m.regs.mmuEc tc := by
  refine ⟨fun h => (decodeTcShifts_lt_iff _ tc).mp h.shifts, fun h => ⟨fun hlast => ?_,
    (decodeTcShifts_lt_iff _ tc).mpr h⟩⟩
  have hends := mmu030DecodeTc_tcExact m tc check
  have hcomes := mmu030DecodeTc_comes hlast tc check
  unfold Ends at hends
  cases hm : mmu030DecodeTc mmu030DoFakePrefetch tc check m with
  | ret bad m' => rw [hm] at hends; exact ⟨bad, m', hm, hends⟩
  | thrown c m' => rw [hm] at hends; exact hends.elim
  | diverge => exact absurd hm hcomes

/-- `IS` of 15 and three table indices of 15 bits: the first mask begins at bit 2 and the second
would at bit -13, which the byte holds as 243. -/
theorem decodeTc_overshift : ¬ ∀ (m : Mmu030) (tc : Long) (check : Bool), TcDecodes m tc check := by
  intro h
  have hshift := (h (resetMmu030 fun _ => none) 0x808FFFF0 true).shifts 243 (by decide +kernel)
  exact absurd hshift (by decide)

end UaeCpu
