import UaeCpu.Misaligned
import UaeCpu.RteBounds

/-!
# UaeCpu.Misaligned030

The accesses the 68030 makes in parts, and what all three accessors have in common.

* `At030`               — where an access is between two of its parts.
* `misaligned_accesses` — a read gives the bytes of its addresses, a write stores them, and what a
  fault leaves.
-/

namespace UaeCpu.Restart.Misaligned

open Fault FaultM Mem Paged BusError UaeCpu.Misaligned

/-! ## One part -/

variable {M α : Type} {q : Port030 M} {p : Prefs} {write : Bool} {fc : Long} {rm : Word} {n : Nat}
  {frame : Nat → Option Long} {I : M → Prop} {c c' : Cpu030 M} {addr val v a : Long} {part : AccessSize}
  {flags : Word} {mem mem' : Long → Byte} {sub : Bool} {buf : Long} {k total : Nat}

/-- The MMU of the 68030 keeps to a page mapping. -/
def Follows030 (q : Port030 M) (write : Bool) (rm : Word) (fc : Long) (n : Nat) (frame : Nat → Option Long)
    (I : M → Prop) : Prop :=
  ∀ addr m, I m → (q.translate write (rm &&& mmu030SswRm ≠ 0) fc addr m).1 = physical n frame addr ∧
    I (q.translate write (rm &&& mmu030SswRm ≠ 0) fc addr m).2

/-- What a fault of a part at `addr` reports: its address, and in the internal state of the frame
whether it is not the first part. -/
structure Reported030 (addr : Long) (sub : Bool) (c : Cpu030 M) : Prop where
  addr : c.latch.mmu.faultAddr = addr
  sub : c.latch.mmu.wb2Address.getLsbD 3 = sub

structure At030 (I : M → Prop) (mem : Long → Byte) (sub : Bool) (buf : Long) (c : Cpu030 M) : Prop where
  inv : I c.world.mmu
  mem : c.world.mem = mem
  sub : c.latch.log.state1.getLsbD 3 = sub
  buf : c.latch.log.dataBufferOut = buf

theorem notePageFault_reported (p : Prefs) (addr : Long) (read : Bool) (flags : Word) (fc : Long) (c : Cpu030 M) :
    Reported030 addr (c.latch.log.state1.getLsbD 3) (notePageFault p addr read flags fc c) := by
  unfold notePageFault
  extract_lets data c₁ c₂ ssw
  have hlog : c₂.latch.log = c.latch.log := by
    simp only [c₂, noteFixups, mmu030fixupmod]
    split
    · split <;> split <;> rfl
    · rfl
  refine ⟨rfl, ?_⟩
  change (c₂.latch.log.state1.setWidth 32 : Long).getLsbD 3 = _
  rw [hlog]
  simp

theorem rm_flags (hfl : flags &&& mmu030SswRm = 0) : (rm ||| flags) &&& mmu030SswRm = rm &&& mmu030SswRm := by
  rw [BitVec.and_comm, BitVec.and_or_distrib_left, BitVec.and_comm, BitVec.and_comm mmu030SswRm flags, hfl]
  exact BitVec.or_zero

theorem getGeneric_settles (hf : Follows030 q false rm fc n frame I) (hfl : flags &&& mmu030SswRm = 0)
    (hc : At030 I mem sub buf c) : Settles (mmu030GetGeneric q p addr fc part (rm ||| flags)) c
      (fun v c' => At030 I mem sub buf c' ∧ c'.regs = c.regs ∧
        ∃ a, physical n frame addr = some a ∧ v = readMem part mem a)
      fun c' => physical n frame addr = none ∧ c'.world.mem = mem ∧ Reported030 addr sub c' := by
  obtain ⟨hmap, hinv⟩ := hf addr c.world.mmu hc.inv
  cases ht : q.translate false (rm &&& mmu030SswRm ≠ 0) fc addr c.world.mmu with
  | mk phys mmu =>
    rw [ht] at hmap hinv
    rw [← rm_flags hfl] at ht
    cases phys with
    | some a =>
      exact .ret (getGeneric_some ht) ⟨⟨hinv, hc.mem, hc.sub, hc.buf⟩, rfl, a, hmap.symm, by rw [hc.mem]⟩
    | none =>
      refine .thrown (getGeneric_none ht) ⟨hmap.symm, (notePageFault_mem ..).trans hc.mem, ?_⟩
      have hrep := notePageFault_reported p addr true (rm ||| flags) fc (setMmu mmu c)
      rwa [show (setMmu mmu c).latch.log.state1.getLsbD 3 = sub from hc.sub] at hrep

theorem putGeneric_settles (hf : Follows030 q true rm fc n frame I) (hfl : flags &&& mmu030SswRm = 0)
    (hc : At030 I mem sub buf c) : Settles (mmu030PutGeneric q p addr val fc part (rm ||| flags)) c
      (fun _ c' => ∃ a, physical n frame addr = some a ∧ At030 I (writeMem part mem a val) sub buf c')
      fun c' => physical n frame addr = none ∧ c'.world.mem = mem ∧ Reported030 addr sub c' := by
  obtain ⟨hmap, hinv⟩ := hf addr c.world.mmu hc.inv
  cases ht : q.translate true (rm &&& mmu030SswRm ≠ 0) fc addr c.world.mmu with
  | mk phys mmu =>
    rw [ht] at hmap hinv
    rw [← rm_flags hfl] at ht
    cases phys with
    | some a =>
      refine .ret (putGeneric_some ht) ⟨a, hmap.symm, hinv, ?_, hc.sub, hc.buf⟩
      rw [← hc.mem]
      rfl
    | none =>
      refine .thrown (putGeneric_none ht) ⟨hmap.symm, (notePageFault_mem ..).trans hc.mem, ?_⟩
      have hrep := notePageFault_reported p addr false (rm ||| flags) fc (setMmu mmu c)
      rwa [show (setMmu mmu c).latch.log.state1.getLsbD 3 = sub from hc.sub] at hrep

/-! ## Between two parts -/

section Between

variable {Q : α → Cpu030 M → Prop} {E : Cpu030 M → Prop} {f : Unit → Run030 M α}

theorem settles_setState1_bind {g : Word → Word} {sub' : Bool} (hc : At030 I mem sub buf c)
    (hbit : ∀ s : Word, s.getLsbD 3 = sub → (g s).getLsbD 3 = sub')
    (hk : ∀ c', At030 I mem sub' buf c' → Settles (f ()) c' Q E) : Settles (setState1 g >>= f) c Q E :=
  hk _ ⟨hc.inv, hc.mem, hbit _ hc.sub, hc.buf⟩

theorem settles_unalignInit_bind {l l2 : Bool} (hc : At030 I mem sub buf c)
    (hk : ∀ c', At030 I mem sub buf c' → Settles (f ()) c' Q E) : Settles (unalignInit l l2 >>= f) c Q E := by
  refine settles_setState1_bind hc (fun s hs => ?_) hk
  rw [← hs]
  cases l <;> cases l2 <;> simp

theorem settles_unalignSet_bind (i : Nat) (hi : i = 0 ∨ sub = true) (hc : At030 I mem sub buf c)
    (hk : ∀ c', At030 I mem true buf c' → Settles (f ()) c' Q E) : Settles (unalignSet i >>= f) c Q E := by
  refine settles_setState1_bind hc (fun s hs => ?_) hk
  rw [BitVec.getLsbD_or, hs]
  rcases hi with rfl | rfl
  · simp
  · rfl

theorem settles_setDataBufferOut_bind {g : Long → Long} (hc : At030 I mem sub buf c)
    (hk : ∀ c', At030 I mem sub (g buf) c' → Settles (f ()) c' Q E) : Settles (setDataBufferOut g >>= f) c Q E :=
  hk _ ⟨hc.inv, hc.mem, hc.sub, congrArg g hc.buf⟩

end Between

/-! ## Where the parts lie -/

/-- The word behind an odd byte is aligned. -/
theorem inPage_odd (hn : 1 ≤ n) (hn' : n ≤ 32) (hodd : ¬ addr &&& 1 = 0) :
    InPage n (addr + BitVec.ofNat 32 1) 1 := by
  have hone : addr.toNat % 2 = 1 := by
    rw [← BitVec.toNat_inj, toNat_and_one] at hodd
    have hne : addr.toNat % 2 ≠ 0 := hodd
    omega
  refine inPage_even hn hn' (BitVec.eq_of_toNat_eq ?_)
  rw [toNat_and_one, BitVec.toNat_add, BitVec.toNat_ofNat]
  change _ = 0
  omega

theorem inPage_quad (hn : 2 ≤ n) (hquad : addr &&& 3 = 0) : InPage n addr 3 :=
  inPage_of_dvd (d := 2 ^ 2) (by decide) (Nat.pow_dvd_pow 2 hn) (dvd_of_and 2 (by decide) hquad)

/-! ## Loads -/

/-- What a read of `total` bytes leaves that faults: the address of the part that is not mapped, and
the flag if it is not the first. -/
def ReadFault030 (tr : Long → Option Long) (addr : Long) (total : Nat) (mem : Long → Byte) (sub : Bool)
    (c : Cpu030 M) : Prop :=
  ∃ j, j < total ∧ tr (addr + BitVec.ofNat 32 j) = none ∧ (∀ i < j, tr (addr + BitVec.ofNat 32 i) ≠ none) ∧
    c.world.mem = mem ∧ Reported030 (addr + BitVec.ofNat 32 j) (sub || decide (j ≠ 0)) c

/-- The next part of a read. -/
theorem get_next (part : AccessSize) (hf : Follows030 q false rm fc n frame I) (hn : n ≤ 32) (hfl : flags &&& mmu030SswRm = 0)
    (ha : a = addr + BitVec.ofNat 32 k) (hk : k < total) (hc : At030 I mem (sub || decide (k ≠ 0)) buf c)
    (hpre : Loads (physical n frame) mem addr k v) (hin : InPage n a (sizeBytes part - 1)) :
    Settles (mmu030GetGeneric q p a fc part (rm ||| flags)) c
      (fun w c' => At030 I mem (sub || decide (k ≠ 0)) buf c' ∧
        Loads (physical n frame) mem addr (k + sizeBytes part) (v <<< (8 * sizeBytes part) ||| w))
      (ReadFault030 (physical n frame) addr total mem sub) := by
  subst ha
  refine (getGeneric_settles hf hfl hc).mono (fun w c' h => ?_) fun c' h => ?_
  · obtain ⟨hc', -, a, ha, rfl⟩ := h
    exact ⟨hc', hpre.append (readMem_loads hn hin ha)⟩
  · exact ⟨k, hk, h.1, fun _ hi => hpre.mapped hi, h.2.1, h.2.2⟩

/-- The first part. -/
theorem get_first (part : AccessSize) (hf : Follows030 q false rm fc n frame I) (hn : n ≤ 32) (hfl : flags &&& mmu030SswRm = 0)
    (htotal : 0 < total) (hc : At030 I mem sub buf c) (hin : InPage n addr (sizeBytes part - 1)) :
    Settles (mmu030GetGeneric q p addr fc part (rm ||| flags)) c
      (fun w c' => At030 I mem sub buf c' ∧ Loads (physical n frame) mem addr (sizeBytes part) w)
      (ReadFault030 (physical n frame) addr total mem sub) := by
  have hsub : (sub || decide ((0 : Nat) ≠ 0)) = sub := Bool.or_false sub
  have h := get_next (p := p) part hf hn hfl (BitVec.add_zero addr).symm htotal (hsub.symm ▸ hc) .nil hin
  refine h.mono (fun w c' h => ?_) fun _ h => h
  rw [hsub] at h
  refine ⟨h.1, ?_⟩
  have hreads := h.2
  rw [Nat.zero_add, show (0 : Long) = 0#32 from rfl, BitVec.zero_shiftLeft, BitVec.zero_or] at hreads
  exact hreads

/-- The buffer at the end of a read. -/
theorem settles_getEnd {Q : Long → Cpu030 M → Prop} {E : Cpu030 M → Prop} (hc : At030 I mem sub buf c)
    (hQ : ∀ c', c'.world.mem = mem → Q buf c') :
    Settles (do unalignClear; reads (·.latch.log.dataBufferOut) : Run030 M Long) c Q E := by
  obtain ⟨-, hmem, -, rfl⟩ := hc
  exact hQ _ hmem

theorem getWordUnaligned_settles (hf : Follows030 q false rm fc n frame I) (hn : n ≤ 32)
    (hc : At030 I mem sub buf c) : Settles (mmu030GetWordUnaligned q p addr fc rm) c
      (fun v c' => c'.world.mem = mem ∧ Loads (physical n frame) mem addr 2 v)
      (ReadFault030 (physical n frame) addr 2 mem sub) := by
  refine settles_unalignInit_bind hc fun c₁ h₁ => ?_
  refine (get_first .byte hf hn rfl (by decide) h₁ (inPage_zero n addr)).bind fun v c₂ h₂ => ?_
  refine settles_setDataBufferOut_bind h₂.1 fun c₃ h₃ => settles_unalignSet_bind 0 (.inl rfl) h₃ fun c₄ h₄ => ?_
  rw [← Bool.or_true sub] at h₄
  refine (get_next .byte hf hn rfl (show addr + 1 = addr + BitVec.ofNat 32 1 from rfl) (by decide) h₄ h₂.2
    (inPage_zero n _)).bind fun w c₅ h₅ => ?_
  exact settles_setDataBufferOut_bind h₅.1 fun c₆ h₆ => settles_getEnd h₆ fun c' hmem => ⟨hmem, h₅.2⟩

theorem odd_long (v w₁ w₂ : Long) : v <<< 24 ||| w₁ <<< 8 ||| w₂ = (v <<< 16 ||| w₁) <<< 8 ||| w₂ := by
  rw [BitVec.shiftLeft_or_distrib, ← BitVec.shiftLeft_add]

theorem getLongUnaligned_settles (hf : Follows030 q false rm fc n frame I) (hn : 1 ≤ n) (hn' : n ≤ 32)
    (hc : At030 I mem sub buf c) : Settles (mmu030GetLongUnaligned q p addr fc rm) c
      (fun v c' => c'.world.mem = mem ∧ Loads (physical n frame) mem addr 4 v)
      (ReadFault030 (physical n frame) addr 4 mem sub) := by
  refine Settles.ite (fun heven => ?_) fun hodd => ?_
  · refine settles_unalignInit_bind hc fun c₁ h₁ => ?_
    refine (get_first .word hf hn' rfl (by decide) h₁ (inPage_even hn hn' heven)).bind fun v c₂ h₂ => ?_
    refine settles_setDataBufferOut_bind h₂.1 fun c₃ h₃ => settles_unalignSet_bind 0 (.inl rfl) h₃ fun c₄ h₄ => ?_
    rw [← Bool.or_true sub] at h₄
    refine (get_next .word hf hn' rfl (show addr + 2 = addr + BitVec.ofNat 32 2 from rfl) (by decide) h₄ h₂.2
      (inPage_word hn hn' heven (Nat.dvd_refl 2))).bind fun w c₅ h₅ => ?_
    exact settles_setDataBufferOut_bind h₅.1 fun c₆ h₆ => settles_getEnd h₆ fun c' hmem => ⟨hmem, h₅.2⟩
  · refine settles_unalignInit_bind hc fun c₁ h₁ => ?_
    refine (get_first .byte hf hn' rfl (by decide) h₁ (inPage_zero n addr)).bind fun v c₂ h₂ => ?_
    refine settles_setDataBufferOut_bind h₂.1 fun c₃ h₃ => settles_unalignSet_bind 0 (.inl rfl) h₃ fun c₄ h₄ => ?_
    rw [← Bool.or_true sub] at h₄
    refine (get_next .word hf hn' rfl (show addr + 1 = addr + BitVec.ofNat 32 1 from rfl) (by decide) h₄ h₂.2
      (inPage_odd hn hn' hodd)).bind fun w₁ c₅ h₅ => ?_
    refine settles_setDataBufferOut_bind h₅.1 fun c₆ h₆ =>
      settles_unalignSet_bind 1 (.inr (Bool.or_true sub)) h₆ fun c₇ h₇ => ?_
    rw [← Bool.or_true sub] at h₇
    refine (get_next .byte hf hn' rfl (show addr + 3 = addr + BitVec.ofNat 32 3 from rfl) (by decide) h₇ h₅.2
      (inPage_zero n _)).bind fun w₂ c₈ h₈ => ?_
    refine settles_setDataBufferOut_bind h₈.1 fun c₉ h₉ => settles_getEnd h₉ fun c' hmem => ⟨hmem, ?_⟩
    rw [odd_long]
    exact h₈.2

theorem getFcx_settles {size : AccessSize} (hf : Follows030 q false rm fc n frame I) (hn : 2 ≤ n) (hn' : n ≤ 32)
    (hc : At030 I mem sub buf c) : Settles (mmu030GetFcx q p size addr fc rm) c
      (fun v c' => c'.world.mem = mem ∧ Loads (physical n frame) mem addr (sizeBytes size) v)
      (ReadFault030 (physical n frame) addr (sizeBytes size) mem sub) := by
  unfold mmu030GetFcx
  cases size with
  | byte =>
    exact (get_first .byte hf hn' rfl (by decide) hc (inPage_zero n addr)).mono (fun _ _ h => ⟨h.1.mem, h.2⟩)
      fun _ h => h
  | word =>
    refine Settles.ite (fun _ => getWordUnaligned_settles hf hn' hc) fun haligned => ?_
    have heven : addr &&& 1 = 0 := by simpa [isUnalignedBus] using haligned
    exact (get_first .word hf hn' rfl (by decide) hc (inPage_even (by omega) hn' heven)).mono
      (fun _ _ h => ⟨h.1.mem, h.2⟩) fun _ h => h
  | long =>
    refine Settles.ite (fun _ => getLongUnaligned_settles hf (by omega) hn' hc) fun haligned => ?_
    have hquad : addr &&& 3 = 0 := by simpa [isUnalignedBus] using haligned
    exact (get_first .long hf hn' rfl (by decide) hc (inPage_quad hn hquad)).mono
      (fun _ _ h => ⟨h.1.mem, h.2⟩) fun _ h => h

/-! ## Fetches -/

/-- What a fetch of `total` bytes leaves that faults: the address of the word that is not mapped. The
flag of a later part is only raised for data. -/
def FetchFault030 (tr : Long → Option Long) (addr : Long) (total : Nat) (mem : Long → Byte) (sub : Bool)
    (c : Cpu030 M) : Prop :=
  ∃ j, j < total ∧ tr (addr + BitVec.ofNat 32 j) = none ∧ (∀ i < j, tr (addr + BitVec.ofNat 32 i) ≠ none) ∧
    c.world.mem = mem ∧ Reported030 (addr + BitVec.ofNat 32 j) sub c

theorem fetchFault_first {tr : Long → Option Long} (htotal : 0 < total) (h : tr addr = none)
    (hmem : c.world.mem = mem) (hrep : Reported030 addr sub c) : FetchFault030 tr addr total mem sub c := by
  rw [← show addr + BitVec.ofNat 32 0 = addr from BitVec.add_zero addr] at h hrep
  exact ⟨0, htotal, h, fun i hi => absurd hi (Nat.not_lt_zero i), hmem, hrep⟩

/-- One word or long of the instruction, in one page. -/
theorem fetch_settles (part : AccessSize) (hf : Follows030 q false 0 fc n frame I) (hn : n ≤ 32)
    (hfl : flags &&& mmu030SswRm = 0) (hin : InPage n addr (sizeBytes part - 1)) (hc : At030 I mem sub buf c) :
    Settles (mmu030GetGeneric q p addr fc part flags) c
      (fun v c' => At030 I mem sub buf c' ∧ c'.regs = c.regs ∧ Loads (physical n frame) mem addr (sizeBytes part) v)
      fun c' => physical n frame addr = none ∧ c'.world.mem = mem ∧ Reported030 addr sub c' := by
  rw [← BitVec.zero_or (x := flags)]
  refine (getGeneric_settles hf hfl hc).mono (fun v c' h => ?_) fun _ h => h
  obtain ⟨hc', hregs, a, ha, rfl⟩ := h
  exact ⟨hc', hregs, readMem_loads hn hin ha⟩

theorem getIword_settles (hf : Follows030 q false 0 ((if c.regs.s then 4 else 0) ||| 2) n frame I) (hn : n ≤ 32)
    (hin : InPage n addr 1) (hc : At030 I mem sub buf c) : Settles (uaeMmu030GetIword q p addr) c
      (fun v c' => At030 I mem sub buf c' ∧ c'.regs = c.regs ∧ Loads (physical n frame) mem addr 2 v)
      fun c' => physical n frame addr = none ∧ c'.world.mem = mem ∧ Reported030 addr sub c' := by
  rw [uaeMmu030GetIword, settles_reads_bind]
  exact fetch_settles .word hf hn rfl hin hc

theorem getIlong_settles (hf : Follows030 q false 0 ((if c.regs.s then 4 else 0) ||| 2) n frame I) (hn : 2 ≤ n)
    (hn' : n ≤ 32) (hwhole : addr &&& 1 = 0 ∨ InPage n addr 3) (hc : At030 I mem sub buf c) :
    Settles (uaeMmu030GetIlong q p addr) c
      (fun v c' => At030 I mem sub buf c' ∧ Loads (physical n frame) mem addr 4 v)
      (FetchFault030 (physical n frame) addr 4 mem sub) := by
  refine Settles.ite (fun _ => ?_) fun haligned => ?_
  · have hin : InPage n addr 1 := hwhole.elim (inPage_even (by omega) hn') fun h => h.mono (by decide)
    have hin' : InPage n (addr + BitVec.ofNat 32 2) 1 :=
      hwhole.elim (fun heven => inPage_word (by omega) hn' heven (Nat.dvd_refl 2)) fun h => h.shift hn'
    refine Settles.bind ((getIword_settles hf hn' hin hc).mono (fun _ _ h => h) fun _ h =>
      fetchFault_first (by decide) h.1 h.2.1 h.2.2) fun hi c₁ h₁ => ?_
    obtain ⟨hc₁, hregs, hhi⟩ := h₁
    rw [← hregs] at hf
    refine Settles.bind ((getIword_settles hf hn' hin' hc₁).mono (fun _ _ h => h) fun c' h => ?_) fun lo c₂ h₂ => ?_
    · exact ⟨2, by decide, h.1, fun i hi => hhi.mapped hi, h.2.1, h.2.2⟩
    · exact ⟨h₂.1, hhi.append h₂.2.2⟩
  · rw [settles_reads_bind]
    exact (fetch_settles .long hf hn' rfl (inPage_quad hn (not_not.mp haligned)) hc).mono
      (fun _ _ h => ⟨h.1, h.2.2⟩) fun _ h => fetchFault_first (by decide) h.1 h.2.1 h.2.2

/-! ## Stores -/

/-- What a write of `total` bytes leaves that faults: the bytes before the part that is not mapped are
stored, and they are in the first page. -/
def WriteFault030 (n : Nat) (frame : Nat → Option Long) (addr val : Long) (total : Nat) (mem : Long → Byte)
    (sub : Bool) (c : Cpu030 M) : Prop :=
  ∃ j, j < total ∧ physical n frame (addr + BitVec.ofNat 32 j) = none ∧ (∀ i < j, InPage n addr i) ∧
    Stores (physical n frame) mem addr ((bytes total val).take j) c.world.mem ∧
    Reported030 (addr + BitVec.ofNat 32 j) (sub || decide (j ≠ 0)) c

/-- `k` bytes of a value are stored. -/
def Stored (tr : Long → Option Long) (mem : Long → Byte) (addr val : Long) (total k : Nat) (mem' : Long → Byte) : Prop :=
  Stores tr mem addr ((bytes total val).take k) mem'

/-- The next part of a write. -/
theorem put_next (part : AccessSize) (hf : Follows030 q true rm fc n frame I) (hn : 2 ≤ n) (hn' : n ≤ 32)
    (hfl : flags &&& mmu030SswRm = 0) (ha : a = addr + BitVec.ofNat 32 k) (hk : k < total) (htotal : total ≤ 4)
    (hc : At030 I mem' (sub || decide (k ≠ 0)) buf c) (hpre : Stored (physical n frame) mem addr val total k mem')
    (hv : (bytes total val).take (k + sizeBytes part) = (bytes total val).take k ++ bytes (sizeBytes part) v)
    (hin : InPage n a (sizeBytes part - 1)) :
    Settles (mmu030PutGeneric q p a v fc part (rm ||| flags)) c
      (fun _ c' => ∃ mem'', At030 I mem'' (sub || decide (k ≠ 0)) buf c' ∧
        Stored (physical n frame) mem addr val total (k + sizeBytes part) mem'')
      (WriteFault030 n frame addr val total mem sub) := by
  subst ha
  have hlen : ((bytes total val).take k).length = k := by
    rw [List.length_take, bytes_length]
    omega
  refine (putGeneric_settles hf hfl hc).mono (fun w c' h => ?_) fun c' h => ?_
  · obtain ⟨a, ha, hc'⟩ := h
    refine ⟨_, hc', ?_⟩
    rw [Stored, hv]
    refine Stores.append hpre ?_
    rw [hlen]
    exact writeMem_stores hn' hin ha
  · rw [← h.2.1] at hpre
    exact ⟨k, hk, h.1, inPage_of_stores hn hn' htotal hk h.1 hpre, hpre, h.2.2⟩

/-- The first part. -/
theorem put_first (part : AccessSize) (hf : Follows030 q true rm fc n frame I) (hn : 2 ≤ n) (hn' : n ≤ 32)
    (hfl : flags &&& mmu030SswRm = 0) (hpos : 0 < total) (htotal : total ≤ 4) (hc : At030 I mem sub buf c)
    (hv : (bytes total val).take (sizeBytes part) = bytes (sizeBytes part) v)
    (hin : InPage n addr (sizeBytes part - 1)) :
    Settles (mmu030PutGeneric q p addr v fc part (rm ||| flags)) c
      (fun _ c' => ∃ mem'', At030 I mem'' sub buf c' ∧
        Stored (physical n frame) mem addr val total (sizeBytes part) mem'')
      (WriteFault030 n frame addr val total mem sub) := by
  have hsub : (sub || decide ((0 : Nat) ≠ 0)) = sub := Bool.or_false sub
  have hnext := put_next (p := p) part hf hn hn' hfl (BitVec.add_zero addr).symm hpos htotal (hsub.symm ▸ hc)
    (show Stored (physical n frame) mem addr val total 0 mem from .nil) (by rw [Nat.zero_add, hv]; rfl) hin
  refine hnext.mono (fun _ c' h => ?_) fun _ h => h
  rw [hsub, Nat.zero_add] at h
  exact h

theorem stored_all {tr : Long → Option Long} {total : Nat} (h : Stored tr mem addr val total total mem') :
    Stores tr mem addr (bytes total val) mem' := by
  rw [Stored, List.take_of_length_le (by rw [bytes_length])] at h
  exact h

theorem putWordUnaligned_settles (hf : Follows030 q true rm fc n frame I) (hn : 2 ≤ n) (hn' : n ≤ 32)
    (hc : At030 I mem sub buf c) : Settles (mmu030PutWordUnaligned q p addr val fc rm) c
      (fun _ c' => Stores (physical n frame) mem addr (bytes 2 val) c'.world.mem)
      (WriteFault030 n frame addr val 2 mem sub) := by
  refine settles_unalignInit_bind hc fun c₁ h₁ => ?_
  refine (put_first .byte hf hn hn' rfl (by decide) (by decide) h₁ (by rw [bytes_two]; rfl)
    (inPage_zero n addr)).bind fun _ c₂ ⟨mem₂, h₂, hs₂⟩ => ?_
  refine settles_unalignSet_bind 0 (.inl rfl) h₂ fun c₃ h₃ => ?_
  rw [← Bool.or_true sub] at h₃
  refine (put_next .byte hf hn hn' rfl (show addr + 1 = addr + BitVec.ofNat 32 1 from rfl) (by decide) (by decide) h₃ hs₂
    (by rw [bytes_two]; rfl) (inPage_zero n _)).bind fun _ c₄ ⟨mem₄, h₄, hs₄⟩ => ?_
  change Stores _ _ _ _ c₄.world.mem
  rw [h₄.mem]
  exact stored_all hs₄

theorem bytes_odd (v : Long) : bytes 4 v = bytes 1 (v >>> 24) ++ bytes 2 (v >>> 8) ++ bytes 1 v := by
  have hsum : v >>> 8 >>> 8 = v >>> 16 := (BitVec.shiftRight_add v 8 8).symm
  simp [bytes, List.range_succ, hsum]

theorem putLongUnaligned_settles (hf : Follows030 q true rm fc n frame I) (hn : 2 ≤ n) (hn' : n ≤ 32)
    (hc : At030 I mem sub buf c) : Settles (mmu030PutLongUnaligned q p addr val fc rm) c
      (fun _ c' => Stores (physical n frame) mem addr (bytes 4 val) c'.world.mem)
      (WriteFault030 n frame addr val 4 mem sub) := by
  refine Settles.ite (fun heven => ?_) fun hodd => ?_
  · refine settles_unalignInit_bind hc fun c₁ h₁ => ?_
    refine (put_first .word hf hn hn' rfl (by decide) (by decide) h₁ (by rw [bytes_four]; rfl)
      (inPage_even (by omega) hn' heven)).bind fun _ c₂ ⟨mem₂, h₂, hs₂⟩ => ?_
    refine settles_unalignSet_bind 0 (.inl rfl) h₂ fun c₃ h₃ => ?_
    rw [← Bool.or_true sub] at h₃
    refine (put_next .word hf hn hn' rfl (show addr + 2 = addr + BitVec.ofNat 32 2 from rfl) (by decide) (by decide) h₃
      hs₂ (by rw [bytes_four]; rfl) (inPage_word (by omega) hn' heven (Nat.dvd_refl 2))).bind
      fun _ c₄ ⟨mem₄, h₄, hs₄⟩ => ?_
    change Stores _ _ _ _ c₄.world.mem
    rw [h₄.mem]
    exact stored_all hs₄
  · refine settles_unalignInit_bind hc fun c₁ h₁ => ?_
    refine (put_first .byte hf hn hn' rfl (by decide) (by decide) h₁ (by rw [bytes_odd]; rfl)
      (inPage_zero n addr)).bind fun _ c₂ ⟨mem₂, h₂, hs₂⟩ => ?_
    refine settles_unalignSet_bind 0 (.inl rfl) h₂ fun c₃ h₃ => ?_
    rw [← Bool.or_true sub] at h₃
    refine (put_next .word hf hn hn' rfl (show addr + 1 = addr + BitVec.ofNat 32 1 from rfl) (by decide) (by decide) h₃
      hs₂ (by rw [bytes_odd]; rfl) (inPage_odd (by omega) hn' hodd)).bind fun _ c₄ ⟨mem₄, h₄, hs₄⟩ => ?_
    refine settles_unalignSet_bind 1 (.inr (Bool.or_true sub)) h₄ fun c₅ h₅ => ?_
    rw [← Bool.or_true sub] at h₅
    refine (put_next .byte hf hn hn' rfl (show addr + 3 = addr + BitVec.ofNat 32 3 from rfl) (by decide) (by decide) h₅
      hs₄ (by rw [bytes_odd]; rfl) (inPage_zero n _)).bind fun _ c₆ ⟨mem₆, h₆, hs₆⟩ => ?_
    change Stores _ _ _ _ c₆.world.mem
    rw [h₆.mem]
    exact stored_all hs₆

theorem putFcx_settles {size : AccessSize} (hf : Follows030 q true rm fc n frame I) (hn : 2 ≤ n) (hn' : n ≤ 32)
    (hc : At030 I mem sub buf c) : Settles (mmu030PutFcx q p size addr val fc rm) c
      (fun _ c' => Stores (physical n frame) mem addr (bytes (sizeBytes size) val) c'.world.mem)
      (WriteFault030 n frame addr val (sizeBytes size) mem sub) := by
  have hwhole : InPage n addr (sizeBytes size - 1) → Settles (mmu030PutGeneric q p addr val fc size (rm ||| size.flags)) c
      (fun _ c' => Stores (physical n frame) mem addr (bytes (sizeBytes size) val) c'.world.mem)
      (WriteFault030 n frame addr val (sizeBytes size) mem sub) := by
    intro hin
    refine (put_first size hf hn hn' (by cases size <;> rfl) (by cases size <;> decide) (by cases size <;> decide) hc
      (List.take_of_length_le (by rw [bytes_length])) hin).mono (fun _ c' h => ?_) fun _ h => h
    obtain ⟨mem₁, h₁, hs₁⟩ := h
    rw [h₁.mem]
    exact stored_all hs₁
  unfold mmu030PutFcx
  cases size with
  | byte => exact hwhole (inPage_zero n addr)
  | word =>
    refine Settles.ite (fun _ => putWordUnaligned_settles hf hn hn' hc) fun haligned => hwhole ?_
    have heven : addr &&& 1 = 0 := by simpa [isUnalignedBus] using haligned
    exact inPage_even (by omega) hn' heven
  | long =>
    refine Settles.ite (fun _ => putLongUnaligned_settles hf hn hn' hc) fun haligned => hwhole ?_
    have hquad : addr &&& 3 = 0 := by simpa [isUnalignedBus] using haligned
    exact inPage_quad hn hquad

/-! ## All accesses -/

/-- Every access is that of its bytes, each at its own physical address. A fault behind the first part
is reported at the address of the access with the misaligned bit by the 68040 and the 68060, and at the
part that is not mapped with the flag of a later part by the 68030; of a write that faults, the bytes
before that part are stored, all in the first page. Fetches, which only split longs and only in words,
are at even addresses or do not leave their page. -/
theorem misaligned_accesses :
    (∀ (M : Type) (q : Port040 M) (p : Prefs) (x : AccessStatics) (sp : Space) (pagesize8k : Bool)
      (frame : Nat → Option Long) (I : M → Prop) (size : AccessSize) (addr : Long) (c : Cpu040 M),
      Follows q sp (pageBits pagesize8k) frame I → I c.world.mmu →
      Settles (uaeMmu040Get q p x pagesize8k sp size addr) c
        (fun v c' => c'.world.mem = c.world.mem ∧
          Loads (physical (pageBits pagesize8k) frame) c.world.mem addr (sizeBytes size) v)
        (ReadFault p sp (physical (pageBits pagesize8k) frame) addr (sizeBytes size) c)) ∧
    (∀ (M : Type) (q : Port040 M) (p : Prefs) (x : AccessStatics) (sp : Space) (pagesize8k : Bool)
      (frame : Nat → Option Long) (I : M → Prop) (size : AccessSize) (addr val : Long) (c : Cpu040 M),
      Follows q sp (pageBits pagesize8k) frame I → sp.data = true → I c.world.mmu →
      Settles (uaeMmu040Put q p x pagesize8k sp size addr val) c
        (fun _ c' => Stores (physical (pageBits pagesize8k) frame) c.world.mem addr (bytes (sizeBytes size) val)
          c'.world.mem)
        (WriteFault p (pageBits pagesize8k) frame addr val (sizeBytes size) c)) ∧
    (∀ (M : Type) (q : Port030 M) (p : Prefs) (rm : Word) (fc : Long) (n : Nat) (frame : Nat → Option Long)
      (I : M → Prop) (size : AccessSize) (addr : Long) (c : Cpu030 M),
      Follows030 q false rm fc n frame I → 2 ≤ n → n ≤ 32 → I c.world.mmu →
      Settles (mmu030GetFcx q p size addr fc rm) c
        (fun v c' => c'.world.mem = c.world.mem ∧ Loads (physical n frame) c.world.mem addr (sizeBytes size) v)
        (ReadFault030 (physical n frame) addr (sizeBytes size) c.world.mem (c.latch.log.state1.getLsbD 3))) ∧
    (∀ (M : Type) (q : Port030 M) (p : Prefs) (rm : Word) (fc : Long) (n : Nat) (frame : Nat → Option Long)
      (I : M → Prop) (size : AccessSize) (addr val : Long) (c : Cpu030 M),
      Follows030 q true rm fc n frame I → 2 ≤ n → n ≤ 32 → I c.world.mmu →
      Settles (mmu030PutFcx q p size addr val fc rm) c
        (fun _ c' => Stores (physical n frame) c.world.mem addr (bytes (sizeBytes size) val) c'.world.mem)
        (WriteFault030 n frame addr val (sizeBytes size) c.world.mem (c.latch.log.state1.getLsbD 3))) ∧
    (∀ (M : Type) (q : Port040 M) (p : Prefs) (x : AccessStatics) (super pagesize8k : Bool)
      (frame : Nat → Option Long) (I : M → Prop) (size : AccessSize) (addr : Long) (c : Cpu040 M),
      Follows q ⟨super, false, false⟩ (pageBits pagesize8k) frame I → I c.world.mmu →
      addr &&& 1 = 0 ∨ isUnalignedPage pagesize8k addr size = false →
      Settles (uaeMmu040GetI q p x pagesize8k super size addr) c
        (fun v c' => c'.world.mem = c.world.mem ∧
          Loads (physical (pageBits pagesize8k) frame) c.world.mem addr (sizeBytes size) v)
        (ReadFault p ⟨super, false, false⟩ (physical (pageBits pagesize8k) frame) addr (sizeBytes size) c)) ∧
    ∀ (M : Type) (q : Port030 M) (p : Prefs) (n : Nat) (frame : Nat → Option Long) (I : M → Prop) (addr : Long)
      (c : Cpu030 M), Follows030 q false 0 ((if c.regs.s then 4 else 0) ||| 2) n frame I → 2 ≤ n → n ≤ 32 →
      I c.world.mmu →
      (addr &&& 1 = 0 ∨ InPage n addr 1 → Settles (uaeMmu030GetIword q p addr) c
        (fun v c' => c'.world.mem = c.world.mem ∧ Loads (physical n frame) c.world.mem addr 2 v)
        (FetchFault030 (physical n frame) addr 2 c.world.mem (c.latch.log.state1.getLsbD 3))) ∧
      (addr &&& 1 = 0 ∨ InPage n addr 3 → Settles (uaeMmu030GetIlong q p addr) c
        (fun v c' => c'.world.mem = c.world.mem ∧ Loads (physical n frame) c.world.mem addr 4 v)
        (FetchFault030 (physical n frame) addr 4 c.world.mem (c.latch.log.state1.getLsbD 3))) := by
  refine ⟨?_, ?_, ?_, ?_, ?_, ?_⟩
  · intro M q p x sp pagesize8k frame I size addr c hf hI
    exact (uaeMmu040Get_settles hf hI).mono (fun _ _ h => ⟨h.1.mem, h.2⟩) fun _ h => h
  · intro M q p x sp pagesize8k frame I size addr val c hf hd hI
    exact uaeMmu040Put_settles hf hd hI
  · intro M q p rm fc n frame I size addr c hf hn hn' hI
    exact getFcx_settles hf hn hn' ⟨hI, rfl, rfl, rfl⟩
  · intro M q p rm fc n frame I size addr val c hf hn hn' hI
    exact putFcx_settles hf hn hn' ⟨hI, rfl, rfl, rfl⟩
  · intro M q p x super pagesize8k frame I size addr c hf hI hwhole
    rw [uaeMmu040GetI_eq hwhole]
    exact (uaeMmu040Get_settles hf hI).mono (fun _ _ h => ⟨h.1.mem, h.2⟩) fun _ h => h
  · intro M q p n frame I addr c hf hn hn' hI
    refine ⟨fun hwhole => ?_, fun hwhole => ?_⟩
    · have hin : InPage n addr 1 := hwhole.elim (inPage_even (by omega) hn') id
      exact (getIword_settles hf hn' hin ⟨hI, rfl, rfl, rfl⟩).mono (fun _ _ h => ⟨h.1.mem, h.2.2⟩)
        fun _ h => fetchFault_first (by decide) h.1 h.2.1 h.2.2
    · exact (getIlong_settles hf hn hn' hwhole ⟨hI, rfl, rfl, rfl⟩).mono (fun _ _ h => ⟨h.1.mem, h.2⟩) fun _ h => h

/-! ## Two pages -/

/-- The MMUs that do nothing but look up a page. -/
def pagedPort040 (n : Nat) (frame : Nat → Option Long) : Port040 Unit where
  translate _ _ addr _ m := (physical n frame addr, m)
  status060 _ := 0
  status060_ma _ := rfl

def pagedPort030 (n : Nat) (frame : Nat → Option Long) : Port030 Unit :=
  { openPort with translate := fun _ _ _ addr m => (physical n frame addr, m) }

def twoPages (page : Nat) : Option Long :=
  if page = 0 then some 0x5000 else if page = 1 then some 0x2000 else none

def countingMem (a : Long) : Byte := a.setWidth 8

def paged040 : Cpu040 Unit := .reset (.plain .m68040) 0x1000 0x400 ⟨countingMem, ()⟩

def paged030 : Cpu030 Unit :=
  .reset (.plain .m68030) 0x1000 0x400
    { mem := countingMem, mmu := (), fixup0 := ⟨-1, 0⟩, fixup1 := ⟨-1, 0⟩, retry := false
      opcodeStageb := -1, overrun := false }

def superData : Space := ⟨true, true, false⟩

theorem misaligned_accesses_two_pages :
    (uaeMmu040Get (pagedPort040 12 twoPages) (.plain .m68040) .rest false superData .long 0xFFE paged040).result =
      some (.ok 0xFEFF0001) ∧
    Settles (uaeMmu040Get (pagedPort040 12 twoPages) (.plain .m68040) .rest false superData .long 0xFFE) paged040
      (fun v c' => c'.world.mem = countingMem ∧ Loads (physical 12 twoPages) countingMem 0xFFE 4 v)
      (ReadFault (.plain .m68040) superData (physical 12 twoPages) 0xFFE 4 paged040) ∧
    Settles (uaeMmu040Put (pagedPort040 12 twoPages) (.plain .m68040) .rest false superData .word 0xFFF 0x1234) paged040
      (fun _ c' => Stores (physical 12 twoPages) countingMem 0xFFF (bytes 2 0x1234) c'.world.mem)
      (WriteFault (.plain .m68040) 12 twoPages 0xFFF 0x1234 2 paged040) ∧
    Settles (mmu030GetFcx (pagedPort030 12 twoPages) (.plain .m68030) .long 0x1FFF 5 0) paged030
      (fun v c' => c'.world.mem = countingMem ∧ Loads (physical 12 twoPages) countingMem 0x1FFF 4 v)
      (ReadFault030 (physical 12 twoPages) 0x1FFF 4 countingMem false) ∧
    Settles (mmu030PutFcx (pagedPort030 12 twoPages) (.plain .m68030) .long 0xFFD 0x12345678 5 0) paged030
      (fun _ c' => Stores (physical 12 twoPages) countingMem 0xFFD (bytes 4 0x12345678) c'.world.mem)
      (WriteFault030 12 twoPages 0xFFD 0x12345678 4 countingMem false) ∧
    Settles (uaeMmu040GetI (pagedPort040 12 twoPages) (.plain .m68040) .rest false true .long 0xFFE) paged040
      (fun v c' => c'.world.mem = countingMem ∧ Loads (physical 12 twoPages) countingMem 0xFFE 4 v)
      (ReadFault (.plain .m68040) ⟨true, false, false⟩ (physical 12 twoPages) 0xFFE 4 paged040) ∧
    Settles (uaeMmu030GetIlong (pagedPort030 12 twoPages) (.plain .m68030) 0x1FFE) paged030
      (fun v c' => c'.world.mem = countingMem ∧ Loads (physical 12 twoPages) countingMem 0x1FFE 4 v)
      (FetchFault030 (physical 12 twoPages) 0x1FFE 4 countingMem false) := by
  obtain ⟨hget, hput, hget030, hput030, hfetch, hfetch030⟩ := misaligned_accesses
  have hf : Follows (pagedPort040 12 twoPages) superData (pageBits false) twoPages fun _ => True :=
    fun _ _ _ _ _ => ⟨rfl, trivial⟩
  have hf030 : ∀ write, Follows030 (pagedPort030 12 twoPages) write 0 5 12 twoPages fun _ => True :=
    fun _ _ _ _ => ⟨rfl, trivial⟩
  have hcode : Follows (pagedPort040 12 twoPages) ⟨true, false, false⟩ (pageBits false) twoPages fun _ => True :=
    fun _ _ _ _ _ => ⟨rfl, trivial⟩
  have hcode030 : Follows030 (pagedPort030 12 twoPages) false 0 6 12 twoPages fun _ => True :=
    fun _ _ _ => ⟨rfl, trivial⟩
  exact ⟨rfl, hget Unit _ _ _ _ _ _ _ _ _ paged040 hf trivial, hput Unit _ _ _ _ _ _ _ _ _ _ paged040 hf rfl trivial,
    hget030 Unit _ _ _ _ _ _ _ _ _ paged030 (hf030 false) (by decide) (by decide) trivial,
    hput030 Unit _ _ _ _ _ _ _ _ _ _ paged030 (hf030 true) (by decide) (by decide) trivial,
    hfetch Unit _ _ _ _ _ _ _ _ _ paged040 hcode trivial (.inl (by decide)),
    (hfetch030 Unit _ _ _ _ _ _ paged030 hcode030 (by decide) (by decide) trivial).2 (.inl (by decide))⟩

/-- The fault is reported at the part that is not mapped. -/
inductive AtPart (tr : Long → Option Long) (addr : Long) (k : Nat) (c : Cpu040 Unit) : Prop
  | mk (j : Nat) (hj : j < k) (hnone : tr (addr + BitVec.ofNat 32 j) = none)
      (hbefore : ∀ i < j, tr (addr + BitVec.ofNat 32 i) ≠ none)
      (haddr : c.latch.mmu.faultAddr = addr + BitVec.ofNat 32 j)

/-- The 68040 reports a long at `0x1FFE` whose page is mapped, where only the next is not. -/
theorem fault_not_at_part :
    ¬ Settles (uaeMmu040Get (pagedPort040 12 twoPages) (.plain .m68040) .rest false superData .long 0x1FFE) paged040
      (fun _ _ => True) (AtPart (physical 12 twoPages) 0x1FFE 4) := by
  intro h
  have hrun : (uaeMmu040Get (pagedPort040 12 twoPages) (.plain .m68040) .rest false superData .long 0x1FFE
      paged040).result = some (.error 2) := rfl
  have hf : Follows (pagedPort040 12 twoPages) superData (pageBits false) twoPages fun _ => True :=
    fun _ _ _ _ _ => ⟨rfl, trivial⟩
  have hread : Settles (uaeMmu040Get (pagedPort040 12 twoPages) (.plain .m68040) .rest false superData .long 0x1FFE)
      paged040 _ (ReadFault (.plain .m68040) superData (physical 12 twoPages) 0x1FFE 4 paged040) :=
    uaeMmu040Get_settles hf trivial
  unfold Settles at h hread
  cases ho : uaeMmu040Get (pagedPort040 12 twoPages) (.plain .m68040) .rest false superData .long 0x1FFE paged040 with
  | diverge => rw [ho] at h; exact h
  | ret v c' => rw [ho] at hrun; cases hrun
  | thrown code c' =>
    rw [ho] at h hread
    obtain ⟨j, hj, hnone, -, haddr⟩ := h
    have hfirst : physical 12 twoPages 0x1FFE ≠ none := by decide
    rcases hread.2 with ⟨hno, -⟩ | ⟨-, hrep⟩
    · exact hfirst hno
    · rw [hrep.addr] at haddr
      have hzero : j = 0 := by bv_omega
      rw [hzero] at hnone
      exact hfirst hnone

end UaeCpu.Restart.Misaligned
