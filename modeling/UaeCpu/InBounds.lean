import UaeCpu.Regions
import UaeCpu.MemoryAccess

/-!
# UaeCpu.InBounds

Which host bytes a guest access touches, and when they all belong to the buffer given for the
guest byte. The bank of the first byte decides for the whole access, and its offset is not
compared with the size of the region.

* `Mapped`               — every RAM bank is a region of some `memory_map_ptr` of the run.
* `Touches`              — the host bytes an access logs.
* `access_in_bounds_iff` — when every byte lies in the buffer of its own region.
-/

namespace UaeCpu

open Fault FaultM

/-! ## Where RAM banks come from -/

section Origin

variable {δ : Type}

/-- The banks of `st'` are among those of `st`. -/
def Shrinks (st st' : MemState δ) : Prop :=
  ∀ ref b, st'.view ref = some b → st.view ref = some b

theorem Shrinks.trans {st st' st'' : MemState δ} (h : Shrinks st st') (h' : Shrinks st' st'') :
    Shrinks st st'' := fun ref b hb => h ref b (h' ref b hb)

theorem shrinks_of_view {st st' : MemState δ} (h : ∀ ref, st'.view ref = st.view ref) :
    Shrinks st st' := fun ref b hb => by rwa [h] at hb

theorem shrinks_free (st : MemState δ) (id : Nat) : Shrinks st (st.free id) := by
  intro ref b hb
  rw [view_free] at hb
  split at hb
  · cases hb
  · exact hb

theorem memoryUnmap_shrinks (startAddr size : Long) (st : MemState δ) :
    Shrinks st (memoryUnmap startAddr size st) := by
  obtain ⟨t, hp, hcases⟩ := memoryUnmap_cases startAddr size st
  have ht : Shrinks st t := shrinks_of_view hp.view
  rcases hcases with ⟨id, -, -, -, hs⟩ | ⟨-, hs⟩
  · exact ht.trans ((shrinks_free t id).trans (shrinks_of_view hs.view))
  · exact ht.trans (shrinks_of_view hs.view)

theorem uninitPass_shrinks {i : Nat} (hi : i < memoryBanks) (st : MemState δ) :
    Shrinks st (uninitPass i st) := by
  by_cases hb : ∃ id, st.banks (BitVec.ofNat 16 i) = .region id
  · obtain ⟨id, hb⟩ := hb
    obtain ⟨t, hp, hs⟩ := uninitPass_region hi hb
    have ht : Shrinks st t := shrinks_of_view hp.view
    exact ht.trans ((shrinks_free t id).trans (shrinks_of_view hs.view))
  · rw [uninitPass_static fun id he => hb ⟨id, he⟩]
    exact shrinks_of_view (setEntry_others _ _ st).1

theorem memoryUninit_shrinks (st : MemState δ) : Shrinks st (memoryUninit st) :=
  Loop.inv (fun t => Shrinks st t) (fun _ _ h => h)
    fun _ t hi ht => ht.trans (uninitPass_shrinks hi t)

/-- `memory_init` keeps the regions, and none of its three banks is RAM. -/
theorem memoryInit_view (st : MemState δ) {ref : BankRef} {b : Addrbank δ}
    (hb : (memoryInit st).view ref = some b) : b.handlers ≠ .ram ∨ st.view ref = some b := by
  rw [(memoryInit_resets st).view] at hb
  cases ref with
  | null => cases hb
  | region id => exact .inr hb
  | dummy | musashi | testdev =>
    cases hb
    exact .inl fun h => nomatch h

/-- A RAM bank is the region of one of the calls, with its host pointer and size. -/
def Mapped (ops : List (MemOp δ)) (st : MemState δ) : Prop :=
  ∀ ref b, st.view ref = some b → b.handlers = .ram →
    ∃ id startAddr size hostPtr flags, ref = .region id ∧
      MemOp.mapPtr true startAddr size hostPtr flags ∈ ops ∧
      b = (ramBank startAddr size hostPtr flags).shape

theorem Mapped.shrinks {ops : List (MemOp δ)} {st st' : MemState δ} (h : Mapped ops st)
    (hs : Shrinks st st') : Mapped ops st' := fun ref b hb => h ref b (hs ref b hb)

theorem view_alloc (st : MemState δ) (b : Addrbank δ) (ref : BankRef) :
    (st.alloc b).view ref = if ref = .region st.next then some b.shape else st.view ref := by
  cases ref with
  | region id =>
    simp only [MemState.view, MemState.alloc, MemState.deref, Function.update_apply,
      BankRef.region.injEq]
    split <;> rfl
  | _ => rfl

theorem Mapped.op {ops : List (MemOp δ)} {st : MemState δ} {op : MemOp δ} (h : Mapped ops st)
    (hop : op ∈ ops) : Mapped ops (op.run st) := by
  cases op with
  | init =>
    intro ref b hb hram
    rcases memoryInit_view st hb with hne | hb
    · exact absurd hram hne
    · exact h ref b hb hram
  | mapPtr ok startAddr size hostPtr flags =>
    cases ok with
    | false => exact h
    | true =>
      intro ref b hb hram
      rw [MemOp.run, (memoryMapPtr_painted startAddr size hostPtr flags st).view,
        view_alloc] at hb
      split at hb
      · next he =>
        cases hb
        exact ⟨_, _, _, _, _, he, hop, rfl⟩
      · exact h ref b hb hram
  | mapCustom ok startAddr size device =>
    cases ok with
    | false => exact h
    | true =>
      intro ref b hb hram
      rw [MemOp.run, (memoryMapCustom_painted startAddr size device st).view, view_alloc] at hb
      split at hb
      · cases hb
        cases hram
      · exact h ref b hb hram
  | unmap startAddr size => exact h.shrinks (memoryUnmap_shrinks startAddr size st)
  | uninit => exact h.shrinks (memoryUninit_shrinks st)

theorem mapped_run (ops : List (MemOp δ)) : Mapped ops (runOps ops .initial) := by
  suffices h : ∀ rest (st : MemState δ), (∀ op ∈ rest, op ∈ ops) → Mapped ops st →
      Mapped ops (runOps rest st) by
    refine h ops .initial (fun _ => id) fun ref b hb hram => ?_
    cases ref with
    | null | region id => cases hb
    | _ => cases hb; cases hram
  intro rest
  induction rest with
  | nil => exact fun st _ h => h
  | cons op rest ih =>
    intro st hmem h
    exact ih _ (fun o ho => hmem o (.tail _ ho)) (h.op (hmem op (.head _)))

end Origin

/-! ## The bytes of an access -/

variable {ω : Type}

/-- The computation comes back, and logs the host bytes `ps`. -/
def Touches {α : Type} (m : Acc ω α) (ps : List HostPtr) : Prop :=
  ∀ w, ∃ r w', m w = .ret r w' ∧ w'.touched = w.touched ++ ps

namespace Touches

variable {α β : Type}

theorem none (a : α) : Touches (pure a : Acc ω α) [] := fun w => ⟨a, w, rfl, by simp⟩

theorem bind {m : Acc ω α} {f : α → Acc ω β} {ps qs : List HostPtr} (h : Touches m ps)
    (hf : ∀ a, Touches (f a) qs) : Touches (m >>= f) (ps ++ qs) := by
  intro w
  obtain ⟨a, w₁, hm, h₁⟩ := h w
  obtain ⟨r, w₂, hr, h₂⟩ := hf a w₁
  refine ⟨r, w₂, ?_, ?_⟩
  · rw [bind_ret hm, hr]
  · rw [h₂, h₁, List.append_assoc]

/-- A last step that touches nothing. -/
theorem map {m : Acc ω α} {ps : List HostPtr} (h : Touches m ps) (f : α → β) :
    Touches (m >>= fun a => pure (f a)) ps := by
  have hb := h.bind fun a => none (f a)
  rwa [List.append_nil] at hb

end Touches

theorem touches_hostRead (p : HostPtr) : Touches (hostRead p : Acc ω Byte) [p] := fun _ =>
  ⟨_, _, rfl, rfl⟩

theorem touches_hostWrite (p : HostPtr) (b : Byte) : Touches (hostWrite p b : Acc ω Unit) [p] :=
  fun _ => ⟨_, _, rfl, rfl⟩

/-- The host bytes of `n` guest bytes from `addr` on. -/
def Addrbank.hostBytes (b : Addrbank (Callbacks ω)) (addr : Long) (n : Nat) : List HostPtr :=
  (List.range n).map (b.hostAddr addr + ·)

theorem touches_doGetMemLong (p : HostPtr) :
    Touches (doGetMemLong p : Acc ω Long) [p, p + 1, p + 2, p + 3] :=
  (touches_hostRead p).bind fun _ => (touches_hostRead (p + 1)).bind fun _ =>
    (touches_hostRead (p + 2)).bind fun _ => (touches_hostRead (p + 3)).map _

theorem touches_doGetMemWord (p : HostPtr) : Touches (doGetMemWord p : Acc ω Word) [p, p + 1] :=
  (touches_hostRead p).bind fun _ => (touches_hostRead (p + 1)).map _

theorem touches_doPutMemLong (p : HostPtr) (v : Long) :
    Touches (doPutMemLong p v : Acc ω Unit) [p, p + 1, p + 2, p + 3] :=
  (touches_hostWrite p _).bind fun _ => (touches_hostWrite (p + 1) _).bind fun _ =>
    (touches_hostWrite (p + 2) _).bind fun _ => touches_hostWrite (p + 3) _

theorem touches_doPutMemWord (p : HostPtr) (v : Word) :
    Touches (doPutMemWord p v : Acc ω Unit) [p, p + 1] :=
  (touches_hostWrite p _).bind fun _ => touches_hostWrite (p + 1) _

/-- A put to ROM touches nothing, every other access one byte after the other. -/
theorem access_touches {env : MemEnv ω} {addr : Long} {b : Addrbank (Callbacks ω)}
    (hb : env.map.bankAt addr = some b) (hram : b.handlers = .ram) (x : Access) :
    Touches (x.run env addr)
      (if x.isPut && b.isRom then [] else b.hostBytes addr x.size) := by
  cases x with
  | lget =>
    simp only [Access.run, getLong, hb, hram]
    exact touches_doGetMemLong _
  | wget =>
    simp only [Access.run, getWord, hb, hram]
    exact (touches_doGetMemWord _).map _
  | bget =>
    simp only [Access.run, getByte, hb, hram]
    exact (touches_hostRead _).map _
  | lput v =>
    simp only [Access.run, putLong, hb, hram, ramLput]
    cases b.isRom with
    | true => exact (Touches.none ()).map _
    | false => exact (touches_doPutMemLong _ v).map _
  | wput v =>
    simp only [Access.run, putWord, hb, hram, ramWput]
    cases b.isRom with
    | true => exact (Touches.none ()).map _
    | false => exact (touches_doPutMemWord _ v).map _
  | bput v =>
    simp only [Access.run, putByte, hb, hram, ramBput]
    cases b.isRom with
    | true => exact (Touches.none ()).map _
    | false => exact (touches_hostWrite _ v).map _

/-! ## Buffers -/

/-- The `n` bytes at `p` lie in the buffer of `size` bytes at `base`. -/
def InSpan (base size p n : Nat) : Prop := base ≤ p ∧ p + n ≤ base + size

/-- After the calls, the guest byte at `a` is mapped by the region of a `memory_map_ptr`, and the
host byte `p` lies in the buffer given to that call. -/
def InBuffer (ops : List (MemOp (Callbacks ω))) (a : Long) (p : HostPtr) : Prop :=
  ∃ id startAddr size hostPtr flags,
    (runOps ops .initial).banks (bankIndex a) = .region id ∧
    MemOp.mapPtr true startAddr size hostPtr flags ∈ ops ∧
    (runOps ops .initial).view (.region id) =
      some (ramBank startAddr size hostPtr flags).shape ∧
    InSpan hostPtr size.toNat p 1

/-- The access comes back, and every host byte it touches lies in the buffer of the region that
maps its guest byte. -/
def InBounds (ops : List (MemOp (Callbacks ω))) (env : MemEnv ω) (addr : Long) (x : Access)
    (w : MemWorld ω) : Prop :=
  ∃ r w' ps, x.run env addr w = .ret r w' ∧ w'.touched = w.touched ++ ps ∧
    ∀ k p, ps[k]? = some p → InBuffer ops (addr + BitVec.ofNat 32 k) p

/-- The bytes left in the bank of `addr`. -/
def leftInBank (addr : Long) : Nat := 0x10000 - addr.toNat % 0x10000

/-- `n` bytes at `addr` fit the buffer of its bank `b` up to the end of the bank, and what is
left of them fits the buffer of the next bank. -/
def Fits (st : MemState (Callbacks ω)) (b : Addrbank (Callbacks ω)) (addr : Long)
    (n : Nat) : Prop :=
  let off := (addr - b.start).toNat
  let left := leftInBank addr
  off + min n left ≤ b.allocatedSize.toNat ∧
    (left < n → ∃ c, st.bankAt (addr + BitVec.ofNat 32 left) = some c ∧ c.handlers = .ram ∧
      InSpan c.baseaddr c.allocatedSize.toNat (b.baseaddr + off + left) (n - left))

theorem inBuffer_iff (ops : List (MemOp (Callbacks ω))) (a : Long) (p : HostPtr) :
    InBuffer ops a p ↔ ∃ c, (runOps ops .initial).bankAt a = some c ∧ c.handlers = .ram ∧
      InSpan c.baseaddr c.allocatedSize.toNat p 1 := by
  constructor
  · rintro ⟨id, startAddr, size, hostPtr, flags, hbank, -, hview, hspan⟩
    obtain ⟨c, hc, hshape⟩ := Option.map_eq_some_iff.mp hview
    refine ⟨c, ?_, congrArg Addrbank.handlers hshape, ?_⟩
    · rw [MemState.bankAt, hbank]
      exact hc
    · rw [show c.baseaddr = hostPtr from congrArg Addrbank.baseaddr hshape,
        show c.allocatedSize = size from congrArg Addrbank.allocatedSize hshape]
      exact hspan
  · rintro ⟨c, hc, hram, hspan⟩
    have hview : (runOps ops .initial).view ((runOps ops .initial).banks (bankIndex a)) =
        some c.shape := congrArg (Option.map Addrbank.shape) hc
    obtain ⟨id, startAddr, size, hostPtr, flags, href, hop, hshape⟩ :=
      mapped_run ops _ _ hview hram
    refine ⟨id, startAddr, size, hostPtr, flags, href, hop, ?_, ?_⟩
    · rw [← href, hview, hshape]
    · rw [← show c.baseaddr = hostPtr from congrArg Addrbank.baseaddr hshape,
        ← show c.allocatedSize = size from congrArg Addrbank.allocatedSize hshape]
      exact hspan

theorem bankIndex_add {addr : Long} {k : Nat} (hk : k < leftInBank addr) :
    bankIndex (addr + BitVec.ofNat 32 k) = bankIndex addr := by
  apply BitVec.eq_of_toNat_eq
  have ha := addr.isLt
  unfold leftInBank at hk
  simp only [bankIndex, BitVec.toNat_setWidth, BitVec.toNat_ushiftRight, BitVec.toNat_add,
    BitVec.toNat_ofNat, Nat.shiftRight_eq_div_pow]
  omega

theorem leftInBank_pos (addr : Long) : 0 < leftInBank addr := by
  unfold leftInBank
  omega

/-- Beyond the bank of `addr` a short access stays in the next one. -/
theorem bankIndex_next {addr : Long} {k : Nat} (hle : leftInBank addr ≤ k) (hk : k < 4) :
    bankIndex (addr + BitVec.ofNat 32 k) =
      bankIndex (addr + BitVec.ofNat 32 (leftInBank addr)) := by
  apply BitVec.eq_of_toNat_eq
  have ha := addr.isLt
  unfold leftInBank at hle ⊢
  simp only [bankIndex, BitVec.toNat_setWidth, BitVec.toNat_ushiftRight, BitVec.toNat_add,
    BitVec.toNat_ofNat, Nat.shiftRight_eq_div_pow]
  omega

theorem inBuffer_near_iff {ops : List (MemOp (Callbacks ω))} {addr : Long}
    {b : Addrbank (Callbacks ω)} (hb : (runOps ops .initial).bankAt addr = some b)
    (hram : b.handlers = .ram) {k : Nat} (hk : k < leftInBank addr) :
    InBuffer ops (addr + BitVec.ofNat 32 k) (b.hostAddr addr + k) ↔
      (addr - b.start).toNat + k < b.allocatedSize.toNat := by
  rw [inBuffer_iff, MemState.bankAt, bankIndex_add hk]
  unfold Addrbank.hostAddr InSpan
  constructor
  · rintro ⟨c, hc, -, -, hend⟩
    cases hc.symm.trans hb
    omega
  · intro hlt
    exact ⟨b, hb, hram, by omega, by omega⟩

theorem inBuffer_bytes_iff {ops : List (MemOp (Callbacks ω))} {addr : Long}
    {b : Addrbank (Callbacks ω)} (hb : (runOps ops .initial).bankAt addr = some b)
    (hram : b.handlers = .ram) {n : Nat} (hn : 0 < n) (hn4 : n ≤ 4) :
    (∀ k < n, InBuffer ops (addr + BitVec.ofNat 32 k) (b.hostAddr addr + k)) ↔
      Fits (runOps ops .initial) b addr n := by
  have hpos := leftInBank_pos addr
  unfold Fits
  constructor
  · intro h
    constructor
    · have hlast := h (min n (leftInBank addr) - 1) (by omega)
      rw [inBuffer_near_iff hb hram (by omega)] at hlast
      omega
    · intro hlt
      -- the first and the last byte of the next bank
      have hfirst := h (leftInBank addr) hlt
      have hlast := h (n - 1) (by omega)
      rw [inBuffer_iff] at hfirst hlast
      rw [MemState.bankAt, bankIndex_next (by omega) (by omega)] at hlast
      obtain ⟨c, hc, hcram, hfirst⟩ := hfirst
      obtain ⟨c', hc', -, hlast⟩ := hlast
      cases hc'.symm.trans hc
      unfold InSpan Addrbank.hostAddr at *
      exact ⟨c, hc, hcram, by omega, by omega⟩
  · rintro ⟨hnear, hfar⟩ k hk
    by_cases hkl : k < leftInBank addr
    · rw [inBuffer_near_iff hb hram hkl]
      omega
    · obtain ⟨c, hc, hcram, hspan⟩ := hfar (by omega)
      rw [inBuffer_iff, MemState.bankAt, bankIndex_next (by omega) (by omega)]
      refine ⟨c, hc, hcram, ?_⟩
      unfold InSpan Addrbank.hostAddr at *
      omega

/-! ## Accesses -/

theorem inBounds_iff_bytes {ops : List (MemOp (Callbacks ω))} {env : MemEnv ω}
    {addr : Long} {b : Addrbank (Callbacks ω)} (hb : env.map.bankAt addr = some b)
    (hram : b.handlers = .ram) {x : Access} (w : MemWorld ω) :
    InBounds ops env addr x w ↔ (x.isPut && b.isRom) = true ∨
      ∀ k < x.size, InBuffer ops (addr + BitVec.ofNat 32 k) (b.hostAddr addr + k) := by
  obtain ⟨r, w', hrun, htouched⟩ := access_touches hb hram x w
  cases hrom : x.isPut && b.isRom with
  | true =>
    rw [hrom, if_pos rfl] at htouched
    exact iff_of_true ⟨r, w', [], hrun, htouched, fun k p hp => by cases hp⟩ (.inl rfl)
  | false =>
    rw [hrom, if_neg Bool.false_ne_true] at htouched
    constructor
    · rintro ⟨r₁, w₁, ps, hrun₁, htouched₁, hps⟩
      cases hrun₁.symm.trans hrun
      have hlist : ps = b.hostBytes addr x.size :=
        List.append_cancel_left (htouched₁.symm.trans htouched)
      refine .inr fun k hk => hps k _ ?_
      rw [hlist, Addrbank.hostBytes, List.getElem?_map, List.getElem?_range hk, Option.map_some]
    · rintro (h | h)
      · cases h
      refine ⟨r, w', _, hrun, htouched, fun k p hp => ?_⟩
      rw [Addrbank.hostBytes, List.getElem?_map] at hp
      obtain ⟨i, hi, rfl⟩ := Option.map_eq_some_iff.mp hp
      obtain ⟨hk, rfl⟩ := List.getElem?_eq_some_iff.mp hi
      rw [List.length_range] at hk
      rw [List.getElem_range]
      exact h k hk

/-- An access to a RAM or ROM bank stays in the buffers exactly when it is a put to ROM, which
does nothing, or its bytes fit. -/
theorem access_in_bounds_iff (ops : List (MemOp (Callbacks ω))) (env : MemEnv ω)
    (hmap : env.map = runOps ops .initial) (addr : Long) (b : Addrbank (Callbacks ω))
    (hb : env.map.bankAt addr = some b) (hram : b.handlers = .ram) (x : Access)
    (w : MemWorld ω) :
    InBounds ops env addr x w ↔
      (x.isPut = true ∧ b.isRom = true) ∨ Fits env.map b addr x.size := by
  have hsize : 0 < x.size ∧ x.size ≤ 4 := by cases x <;> simp [Access.size]
  rw [inBounds_iff_bytes hb hram, Bool.and_eq_true]
  rw [hmap] at hb ⊢
  rw [inBuffer_bytes_iff hb hram hsize.1 hsize.2]

/-- After `memory_init` every address has a bank. -/
theorem bankAt_run {δ : Type} (calls : List (MemOp δ)) (a : Long) :
    ∃ b, (runOps (.init :: calls) .initial).bankAt a = some b := by
  have hinit : Sound (MemState.initial : MemState δ) := Sound.initial
  have hs := hinit.runOps (.init :: calls)
  have hnull : (runOps (.init :: calls) .initial).banks (bankIndex a) ≠ .null :=
    runOps_ne_null hinit (.inr (.inl (.head _)))
  have hv := hs.entries (bankIndex a)
  unfold MemState.bankAt
  revert hv hnull
  cases (runOps (.init :: calls) (MemState.initial : MemState δ)).banks (bankIndex a) with
  | null => exact fun hn => absurd rfl hn
  | region id => exact fun _ hl => Option.isSome_iff_exists.mp hl
  | dummy | musashi | testdev => exact fun _ _ => ⟨_, rfl⟩

/-- An address in a covered bank is served by the region of the call. -/
theorem bankAt_mapPtr {δ : Type} {startAddr size addr : Long} (hostPtr : HostPtr) (flags : Long)
    (st : MemState δ) (h : Covered startAddr size (bankIndex addr)) :
    ∃ b, (memoryMapPtr true startAddr size hostPtr flags st).2.bankAt addr = some b ∧
      b.shape = (ramBank startAddr size hostPtr flags).shape := by
  have hp := memoryMapPtr_painted startAddr size hostPtr flags st
  have hview := hp.view (.region st.next)
  rw [view_alloc, if_pos rfl, ← hp.inside _ h] at hview
  exact Option.map_eq_some_iff.mp hview

theorem bankAt_mapCustom {δ : Type} {startAddr size addr : Long} (device : δ) (st : MemState δ)
    (h : Covered startAddr size (bankIndex addr)) :
    ∃ b, (memoryMapCustom true startAddr size device st).2.bankAt addr = some b ∧
      b.shape = (customBank startAddr device).shape := by
  have hp := memoryMapCustom_painted startAddr size device st
  have hview := hp.view (.region st.next)
  rw [view_alloc, if_pos rfl, ← hp.inside _ h] at hview
  exact Option.map_eq_some_iff.mp hview

/-- An address in any other bank is served as before. -/
theorem bankAt_mapPtr_other {δ : Type} {startAddr size addr : Long} (hostPtr : HostPtr) (flags : Long)
    {st : MemState δ} (hs : Sound st) (h : ¬ Covered startAddr size (bankIndex addr)) :
    ((memoryMapPtr true startAddr size hostPtr flags st).2.bankAt addr).map Addrbank.shape =
      (st.bankAt addr).map Addrbank.shape := by
  have hp := memoryMapPtr_painted startAddr size hostPtr flags st
  have hview := hp.view (st.banks (bankIndex addr))
  rw [view_alloc, if_neg (hs.fresh _)] at hview
  unfold MemState.bankAt
  rw [hp.outside _ h]
  exact hview

theorem hostAddr_congr {δ : Type} {b b' : Addrbank δ} (h : b.shape = b'.shape) {addr : Long} :
    b.hostAddr addr = b'.hostAddr addr := by
  show b.shape.hostAddr addr = b'.shape.hostAddr addr
  rw [h]

/-- Of two regions the first serves what the second leaves to it. -/
theorem bankAt_first_of_two {δ : Type} {start₁ size₁ start₂ size₂ addr : Long} (host₁ host₂ : HostPtr)
    (flags₁ flags₂ : Long) (hin : Covered start₁ size₁ (bankIndex addr))
    (hout : ¬ Covered start₂ size₂ (bankIndex addr)) :
    ∃ b, (runOps [.init, .mapPtr true start₁ size₁ host₁ flags₁,
        .mapPtr true start₂ size₂ host₂ flags₂]
        (.initial : MemState δ)).bankAt addr = some b ∧
      b.shape = (ramBank start₁ size₁ host₁ flags₁).shape := by
  let st : MemState δ :=
    runOps [.init, .mapPtr true start₁ size₁ host₁ flags₁] .initial
  have hst : Sound st := Sound.initial.runOps _
  obtain ⟨a, ha, has⟩ : ∃ a, st.bankAt addr = some a ∧
      a.shape = (ramBank start₁ size₁ host₁ flags₁).shape := bankAt_mapPtr _ _ _ hin
  have hkept := bankAt_mapPtr_other host₂ flags₂ hst hout
  rw [ha] at hkept
  obtain ⟨b, hb, hbs⟩ := Option.map_eq_some_iff.mp hkept
  exact ⟨b, hb, hbs.trans has⟩

theorem long_read_in_bounds :
    let ops := [.init, .mapPtr true 0 0x10000 0x100000 0]
    InBounds ops (.bare (runOps ops .initial)) 0x1000 .lget (.holding fun _ => 0) := by
  intro ops
  have hc : Covered 0 0x10000 (bankIndex 0x1000) := by unfold Covered Loop.Arc; decide
  obtain ⟨b, hb, hs⟩ : ∃ b, (runOps ops (.initial : MemState (Callbacks Unit))).bankAt 0x1000 =
      some b ∧ b.shape = (ramBank 0 0x10000 0x100000 0).shape := bankAt_mapPtr _ _ _ hc
  have hstart : b.start = 0 := congrArg Addrbank.start hs
  have hsize : b.allocatedSize = 0x10000 := congrArg Addrbank.allocatedSize hs
  refine (access_in_bounds_iff ops (.bare (runOps ops .initial)) rfl 0x1000 b hb
    (congrArg Addrbank.handlers hs) .lget _).mpr (.inr ?_)
  unfold Fits
  rw [hstart, hsize]
  exact ⟨by decide, fun h => absurd h (by decide)⟩

/-- The bank of a 32 KB region reaches to `0xFFFF`: a byte read at `0x9000` is out of the
buffer. -/
theorem byte_read_past_region :
    let ops := [.init, .mapPtr true 0 0x8000 0x100000 0]
    let env := MemEnv.bare (runOps ops .initial)
    (∃ b, env.map.bankAt 0x9000 = some b ∧ b.handlers = .ram) ∧
      ¬ InBounds ops env 0x9000 .bget (.holding fun _ => 0) := by
  intro ops env
  have hc : Covered 0 0x8000 (bankIndex 0x9000) := by unfold Covered Loop.Arc; decide
  obtain ⟨b, hb, hs⟩ : ∃ b, (runOps ops (.initial : MemState (Callbacks Unit))).bankAt 0x9000 =
      some b ∧ b.shape = (ramBank 0 0x8000 0x100000 0).shape := bankAt_mapPtr _ _ _ hc
  have hstart : b.start = 0 := congrArg Addrbank.start hs
  have hsize : b.allocatedSize = 0x8000 := congrArg Addrbank.allocatedSize hs
  have hram : b.handlers = .ram := congrArg Addrbank.handlers hs
  refine ⟨⟨b, hb, hram⟩, ?_⟩
  rw [inBounds_iff_bytes hb hram]
  rintro (h | h)
  · cases h
  · have hbyte := h 0 Nat.one_pos
    rw [inBuffer_near_iff hb hram (leftInBank_pos _), hstart, hsize] at hbyte
    exact absurd hbyte (by decide)

end UaeCpu
