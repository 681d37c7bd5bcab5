import UaeCpu.Regions

/-!
# UaeCpu.Coverage

Which banks a range of guest addresses touches, and which the calls on it cover. The calls count
`(size + 0xFFFF) >> 16` banks from the bank of the start address: too few by one when the range
does not start at a bank and runs into one bank more, and none when the sum wraps.

* `intersects_iff`        — the banks of a range, by their distance from the first.
* `covered_iff_intersects`— when the count is right.
* `mapping_covers_iff`    — when the calls redirect exactly the banks of their range.
-/

namespace UaeCpu

variable {δ : Type}

/-- Bank `j` holds an address of `[startAddr, startAddr + size)`, modulo `2 ^ 32`. -/
def Intersects (startAddr size : Long) (j : BankIdx) : Prop :=
  ∃ k < size.toNat, startBank (startAddr + BitVec.ofNat 32 k) = j

/-- The range is not so long that the count of its banks wraps, and ends in its last bank counted
from the first. -/
def WholeBanks (startAddr size : Long) : Prop :=
  size.toNat ≤ 0xFFFF0000 ∧ startAddr.toNat % 0x10000 + (size.toNat - 1) % 0x10000 < 0x10000

instance (startAddr size : Long) : Decidable (WholeBanks startAddr size) := by
  unfold WholeBanks; infer_instance

/-- Exactly the entries of the range were redirected to `ref`. -/
def MapsExactly (startAddr size : Long) (ref : BankRef) (st st' : MemState δ) : Prop :=
  ∀ j, (Intersects startAddr size j → st'.banks j = ref) ∧
    (¬ Intersects startAddr size j → st'.banks j = st.banks j)

/-! ## Banks of a range -/

theorem toNat_startBank (a : Long) : (startBank a).toNat = a.toNat / 0x10000 := by
  unfold startBank
  rw [BitVec.toNat_setWidth, BitVec.toNat_ushiftRight, Nat.shiftRight_eq_div_pow]
  have := a.isLt
  omega

theorem intersects_iff {startAddr size : Long} (hsize : 0 < size.toNat) (j : BankIdx) :
    Intersects startAddr size j ↔
      (j - startBank startAddr).toNat * 0x10000 < startAddr.toNat % 0x10000 + size.toNat := by
  have hs := startAddr.isLt
  have hz := size.isLt
  have hj := j.isLt
  have hd : (j - startBank startAddr).toNat =
      (0x10000 - startAddr.toNat / 0x10000 + j.toNat) % 0x10000 := by
    rw [BitVec.toNat_sub, toNat_startBank]
  constructor
  · rintro ⟨k, hk, he⟩
    have hjk : j.toNat = (startAddr.toNat + k) % 2 ^ 32 / 0x10000 := by
      rw [← he, toNat_startBank, BitVec.toNat_add, BitVec.toNat_ofNat]
      omega
    rw [hd]
    omega
  · intro hlt
    -- the first address of the bank, or the start address itself
    let d := (j - startBank startAddr).toNat
    refine ⟨if d = 0 then 0 else d * 0x10000 - startAddr.toNat % 0x10000, ?_, ?_⟩
    · split <;> omega
    · apply BitVec.eq_of_toNat_eq
      rw [toNat_startBank, BitVec.toNat_add, BitVec.toNat_ofNat]
      have hdd : d = (0x10000 - startAddr.toNat / 0x10000 + j.toNat) % 0x10000 := hd
      split <;> omega

theorem bank_at_distance (start : BankIdx) {d : Nat} (hd : d < 0x10000) :
    (start + BitVec.ofNat 16 d - start).toNat = d := by
  rw [BitVec.add_comm, BitVec.add_sub_cancel, BitVec.toNat_ofNat, Nat.mod_eq_of_lt hd]

/-- No bank outside the range is covered. -/
theorem intersects_of_covered {startAddr size : Long} {j : BankIdx}
    (h : Covered startAddr size j) : Intersects startAddr size j := by
  unfold Covered Loop.Arc at h
  rw [numBanks_eq] at h
  have hz := size.isLt
  have hsize : 0 < size.toNat := by
    by_contra h0
    omega
  rw [intersects_iff hsize]
  omega

/-- The count of the banks is that of the range exactly when `WholeBanks` says so. -/
theorem covered_iff_intersects {startAddr size : Long} (hsize : 0 < size.toNat) :
    (∀ j, Intersects startAddr size j → Covered startAddr size j) ↔
      WholeBanks startAddr size := by
  have hz := size.isLt
  constructor
  · intro h
    -- the first bank that is not counted, when there is one
    have hlt := numBanks_lt size
    have hmiss := h (startBank startAddr + BitVec.ofNat 16 (numBanks size))
    rw [intersects_iff hsize, bank_at_distance _ (by omega)] at hmiss
    unfold Covered Loop.Arc at hmiss
    rw [bank_at_distance _ (by omega)] at hmiss
    have hn := numBanks_eq size
    unfold WholeBanks
    omega
  · rintro ⟨hle, hoff⟩ j hj
    rw [intersects_iff hsize] at hj
    unfold Covered Loop.Arc
    rw [numBanks_eq]
    omega

/-! ## The calls -/

/-- A redirection to a pointer no entry had is exact when its banks are. -/
theorem mapsExactly_fresh_iff {startAddr size : Long} {ref : BankRef} {st t st' : MemState δ}
    (hsize : 0 < size.toNat) (hfresh : ∀ j, st.banks j ≠ ref)
    (hp : Painted (Covered startAddr size) ref t st') (ht : t.banks = st.banks) :
    MapsExactly startAddr size ref st st' ↔ WholeBanks startAddr size := by
  rw [← covered_iff_intersects hsize]
  constructor
  · intro h j hj
    by_contra hc
    have he := (h j).1 hj
    rw [hp.outside j hc, ht] at he
    exact hfresh j he
  · intro h j
    constructor
    · intro hj
      exact hp.inside j (h j hj)
    · intro hj
      rw [hp.outside j (fun hc => hj (intersects_of_covered hc)), ht]

/-- A reset of entries is exact when the banks it misses are dummy banks already. -/
theorem mapsExactly_unmap_iff {startAddr size : Long} (st : MemState δ) :
    MapsExactly startAddr size .dummy st (memoryUnmap startAddr size st) ↔
      ∀ j, Intersects startAddr size j → ¬ Covered startAddr size j → st.banks j = .dummy := by
  obtain ⟨t, hp, hcases⟩ := memoryUnmap_cases startAddr size st
  have hb : (memoryUnmap startAddr size st).banks = t.banks := by
    rcases hcases with ⟨id, -, -, -, hs⟩ | ⟨-, hs⟩
    · exact hs.banks
    · exact hs.banks
  constructor
  · intro h j hj hc
    have he := (h j).1 hj
    rwa [hb, hp.outside j hc] at he
  · intro h j
    rw [hb]
    constructor
    · intro hj
      by_cases hc : Covered startAddr size j
      · exact hp.inside j hc
      · rw [hp.outside j hc]
        exact h j hj hc
    · intro hj
      exact hp.outside j fun hc => hj (intersects_of_covered hc)

/-- A map call that succeeds redirects exactly the banks of its range when the range is
`WholeBanks`; an unmap call also when the banks it misses are unmapped already. -/
theorem mapping_covers_iff (ops : List (MemOp δ)) (startAddr size : Long) (hsize : 0 < size) :
    let st := runOps ops (MemState.initial : MemState δ)
    (∀ callocOk hostPtr flags, (memoryMapPtr callocOk startAddr size hostPtr flags st).1 = 0 →
      (MapsExactly startAddr size (.region st.next) st
        (memoryMapPtr callocOk startAddr size hostPtr flags st).2 ↔
        WholeBanks startAddr size)) ∧
    (∀ callocOk device, (memoryMapCustom callocOk startAddr size device st).1 = 0 →
      (MapsExactly startAddr size (.region st.next) st
        (memoryMapCustom callocOk startAddr size device st).2 ↔ WholeBanks startAddr size)) ∧
    (MapsExactly startAddr size .dummy st (memoryUnmap startAddr size st) ↔
      WholeBanks startAddr size ∨
        ∀ j, Intersects startAddr size j → ¬ Covered startAddr size j → st.banks j = .dummy) := by
  intro st
  have hst : Sound st := Sound.initial.runOps ops
  have hpos : 0 < size.toNat := hsize
  refine ⟨?_, ?_, ?_⟩
  · intro callocOk hostPtr flags hret
    cases callocOk with
    | false => cases hret
    | true =>
      exact mapsExactly_fresh_iff hpos hst.fresh
        (memoryMapPtr_painted startAddr size hostPtr flags st) rfl
  · intro callocOk device hret
    cases callocOk with
    | false => cases hret
    | true =>
      exact mapsExactly_fresh_iff hpos hst.fresh
        (memoryMapCustom_painted startAddr size device st) rfl
  · rw [mapsExactly_unmap_iff]
    constructor
    · exact .inr
    · rintro (hw | h)
      · intro j hj hc
        exact absurd ((covered_iff_intersects hpos).mpr hw j hj) hc
      · exact h

theorem mapping_covers_128k :
    (0 : Long) < 0x20000 ∧
    let st := runOps [.init] (MemState.initial : MemState Unit)
    MapsExactly 0x10000 0x20000 (.region st.next) st
      (memoryMapPtr true 0x10000 0x20000 0x100000 0 st).2 := by
  refine ⟨by decide, ?_⟩
  exact ((mapping_covers_iff [.init] 0x10000 0x20000 (by decide)).1 true 0x100000 0
    (memoryMapPtr_ret _ _ _ _ _ true)).mpr (by decide)

/-- 64 KB at `0x8000` reach into bank 1, which neither map call redirects. -/
theorem unaligned_range_misses_bank :
    let st := runOps [.init] (MemState.initial : MemState Unit)
    (memoryMapPtr true 0x8000 0x10000 0x100000 0 st).1 = 0 ∧
    ¬ MapsExactly 0x8000 0x10000 (.region st.next) st
      (memoryMapPtr true 0x8000 0x10000 0x100000 0 st).2 ∧
    ¬ MapsExactly 0x8000 0x10000 (.region st.next) st
      (memoryMapCustom true 0x8000 0x10000 () st).2 := by
  intro st
  have hst : Sound st := Sound.initial.runOps [.init]
  have hbad : ¬ WholeBanks 0x8000 0x10000 := by decide
  refine ⟨memoryMapPtr_ret _ _ _ _ _ true, ?_, ?_⟩
  · rw [mapsExactly_fresh_iff (by decide) hst.fresh (memoryMapPtr_painted _ _ _ _ st) rfl]
    exact hbad
  · rw [mapsExactly_fresh_iff (by decide) hst.fresh (memoryMapCustom_painted _ _ _ st) rfl]
    exact hbad

end UaeCpu
