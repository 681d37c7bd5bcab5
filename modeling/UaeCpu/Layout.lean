import UaeCpu.InBounds

/-!
# UaeCpu.Layout

The memory map without what its devices do. A custom region is known by the callbacks it has, and
no call on the map looks at them, so the layout says what answers an access: a host byte, nothing,
or a device.

* `Renamed`        — two maps that differ in the devices of their regions only.
* `Renamed.runOps` — the calls on the map keep it so.
* `Layout.reach`   — what an access at an address reaches.
-/

namespace UaeCpu

open Fault FaultM

/-! ## Other devices -/

section Rename

variable {δ ε : Type}

def Addrbank.withDevice (f : δ → ε) (b : Addrbank δ) : Addrbank ε :=
  { handlers := b.handlers, baseaddr := b.baseaddr, flags := b.flags, start := b.start,
    allocatedSize := b.allocatedSize, hostFlags := b.hostFlags, jitReadFlag := b.jitReadFlag,
    jitWriteFlag := b.jitWriteFlag, device := b.device.map f }

def MemOp.withDevice (f : δ → ε) : MemOp δ → MemOp ε
  | .init => .init
  | .mapPtr ok startAddr size hostPtr flags => .mapPtr ok startAddr size hostPtr flags
  | .mapCustom ok startAddr size device => .mapCustom ok startAddr size (f device)
  | .unmap startAddr size => .unmap startAddr size
  | .uninit => .uninit

/-- What `memory_uninit` leaves is as it was. -/
theorem memoryUninit_kept (st : MemState δ) {ref : BankRef}
    (hb : ((memoryUninit st).view ref).isSome) : (memoryUninit st).view ref = st.view ref := by
  obtain ⟨b, hb⟩ := Option.isSome_iff_exists.mp hb
  rw [hb, memoryUninit_shrinks st ref b hb]

/-- The same entries, pointing to the same banks but for their devices. -/
structure Renamed (f : δ → ε) (st : MemState δ) (st' : MemState ε) : Prop where
  banks : st'.banks = st.banks
  view : ∀ ref, st'.view ref = (st.view ref).map (Addrbank.withDevice f)
  next : st'.next = st.next

namespace Renamed

variable {f : δ → ε} {st t : MemState δ} {st' t' : MemState ε}

theorem initial : Renamed f .initial .initial := by
  refine ⟨rfl, fun ref => ?_, rfl⟩
  cases ref <;> rfl

theorem live (h : Renamed f st st') (id : Nat) : st'.Live id ↔ st.Live id := by
  rw [live_iff_view, live_iff_view, h.view, Option.isSome_map]

theorem same (h : Renamed f st st') (hs : SameMap st t) (hs' : SameMap st' t') : Renamed f t t' :=
  ⟨hs'.banks.trans (h.banks.trans hs.banks.symm),
    fun ref => by rw [hs'.view, h.view, hs.view],
    hs'.next.trans (h.next.trans hs.next.symm)⟩

theorem painted {S : BankIdx → Prop} {ref : BankRef} (h : Renamed f st st')
    (hp : Painted S ref st t) (hp' : Painted S ref st' t') : Renamed f t t' := by
  refine ⟨funext fun j => ?_, fun r => by rw [hp'.view, h.view, hp.view],
    hp'.next.trans (h.next.trans hp.next.symm)⟩
  by_cases hj : S j
  · rw [hp.inside j hj, hp'.inside j hj]
  · rw [hp.outside j hj, hp'.outside j hj, h.banks]

theorem alloc (h : Renamed f st st') (b : Addrbank δ) :
    Renamed f (st.alloc b) (st'.alloc (b.withDevice f)) := by
  refine ⟨h.banks, fun ref => ?_, congrArg (· + 1) h.next⟩
  rw [view_alloc, view_alloc, h.next]
  split
  · rfl
  · exact h.view ref

theorem free (h : Renamed f st st') (id : Nat) : Renamed f (st.free id) (st'.free id) := by
  refine ⟨h.banks, fun ref => ?_, h.next⟩
  rw [view_free, view_free]
  split
  · rfl
  · exact h.view ref

theorem init (h : Renamed f st st') : Renamed f (memoryInit st) (memoryInit st') := by
  have hb : Renamed f (initBanks st) (initBanks st') := by
    refine ⟨h.banks, fun ref => ?_, h.next⟩
    cases ref with
    | region id => exact h.view (.region id)
    | _ => rfl
  exact hb.painted (memoryInit_resets st) (memoryInit_resets st')

/-- Whether a region is freed depends on the entries alone. -/
theorem unmap (h : Renamed f st st') (startAddr size : Long) :
    Renamed f (memoryUnmap startAddr size st) (memoryUnmap startAddr size st') := by
  obtain ⟨t, hp, hc⟩ := memoryUnmap_cases startAddr size st
  obtain ⟨t', hp', hc'⟩ := memoryUnmap_cases startAddr size st'
  have ht := h.painted hp hp'
  obtain ⟨id, hn, hid, hno, hs⟩ | ⟨hany, hs⟩ := hc
  · obtain ⟨id', -, hid', -, hs'⟩ | ⟨hany', -⟩ := hc'
    · rw [h.banks, hid] at hid'
      cases hid'
      exact (ht.free id).same hs hs'
    · obtain ⟨j, hj⟩ := hany' id hn (by rw [h.banks, hid])
      exact absurd (by rw [← ht.banks, hj]) (hno j)
  · obtain ⟨id', hn', hid', hno', -⟩ | ⟨-, hs'⟩ := hc'
    · obtain ⟨j, hj⟩ := hany id' hn' (by rw [← h.banks, hid'])
      exact absurd (by rw [ht.banks, hj]) (hno' j)
    · exact ht.same hs hs'

theorem uninit (h : Renamed f st st') (hs : Sound st) (hs' : Sound st') :
    Renamed f (memoryUninit st) (memoryUninit st') := by
  refine ⟨funext fun j => ?_, fun ref => ?_, ?_⟩
  · rw [memoryUninit_banks hs, memoryUninit_banks hs']
  · cases ref with
    | region id =>
      have hlive : (memoryUninit st').Live id ↔ (memoryUninit st).Live id := by
        rw [memoryUninit_live hs, memoryUninit_live hs', h.live, h.banks]
      rw [live_iff_view, live_iff_view] at hlive
      by_cases hl : ((memoryUninit st).view (.region id)).isSome
      · rw [memoryUninit_kept st' (hlive.mpr hl), memoryUninit_kept st hl, h.view]
      · rw [Option.not_isSome_iff_eq_none.mp hl, Option.not_isSome_iff_eq_none.mp (mt hlive.mp hl)]
        rfl
    | null => rfl
    | dummy | musashi | testdev => rw [memoryUninit_kept st rfl, memoryUninit_kept st' rfl, h.view]
  · rw [(memoryUninit_swept hs).next, (memoryUninit_swept hs').next, h.next]

/-- A call treats the two maps alike. -/
theorem run (h : Renamed f st st') (hs : Sound st) (hs' : Sound st') (op : MemOp δ) :
    Renamed f (op.run st) ((op.withDevice f).run st') := by
  cases op with
  | init => exact h.init
  | mapPtr ok startAddr size hostPtr flags =>
    cases ok with
    | false => exact h
    | true =>
      refine (h.alloc (ramBank startAddr size hostPtr flags)).painted
        (memoryMapPtr_painted startAddr size hostPtr flags st) ?_
      rw [← h.next]
      exact memoryMapPtr_painted startAddr size hostPtr flags st'
  | mapCustom ok startAddr size device =>
    cases ok with
    | false => exact h
    | true =>
      refine (h.alloc (customBank startAddr device)).painted
        (memoryMapCustom_painted startAddr size device st) ?_
      rw [← h.next]
      exact memoryMapCustom_painted startAddr size (f device) st'
  | unmap startAddr size => exact h.unmap startAddr size
  | uninit => exact h.uninit hs hs'

theorem runOps (h : Renamed f st st') (hs : Sound st) (hs' : Sound st') (ops : List (MemOp δ)) :
    Renamed f (UaeCpu.runOps ops st) (UaeCpu.runOps (ops.map (MemOp.withDevice f)) st') := by
  induction ops generalizing st st' with
  | nil => exact h
  | cons op ops ih => exact ih (h.run hs hs' op) (hs.run op) (hs'.run (op.withDevice f))

theorem bankAt (h : Renamed f st st') (a : Long) :
    (st'.bankAt a).map Addrbank.shape =
      ((st.bankAt a).map Addrbank.shape).map (Addrbank.withDevice f) := by
  unfold MemState.bankAt
  rw [h.banks]
  exact h.view _

end Renamed

end Rename

/-! ## Layouts -/

/-- Which callbacks a custom region has. -/
structure Presence where
  r8 : Bool
  r16 : Bool
  r32 : Bool
  w8 : Bool
  w16 : Bool
  w32 : Bool
  deriving DecidableEq, Repr

namespace Presence

def none : Presence :=
  { r8 := false, r16 := false, r32 := false, w8 := false, w16 := false, w32 := false }

/-- A callback serves the access, at its own width or a smaller one. -/
def serves (q : Presence) : Access → Bool
  | .lget => q.r32 || q.r16 || q.r8
  | .wget => q.r16 || q.r8
  | .bget => q.r8
  | .lput _ => q.w32 || q.w16 || q.w8
  | .wput _ => q.w16 || q.w8
  | .bput _ => q.w8

end Presence

/-- The calls on the map after `memory_init`, and the two modes of unmapped space. -/
structure Layout where
  calls : List (MemOp Presence)
  musashiMode : Bool
  unmappedBusError : Bool

/-- What answers an access. -/
inductive Reach where
  | host (p : HostPtr)
  /-- a register of the test device -/
  | testDevice (offset : Long)
  /-- nothing: what a get reads -/
  | nothing (v : Long)
  | device
  deriving DecidableEq, Repr

/-- What a get of unmapped space reads. -/
def Access.floating : Access → Long
  | .lget => 0xFFFFFFFF
  | .wget => 0xFFFF
  | .bget => 0xFF
  | .lput _ | .wput _ | .bput _ => 0

/-- The registers `handle_test_device_write` knows. -/
def testDeviceRegister (offset : Long) : Bool :=
  offset == 0x00 || offset == 0x04 || offset == 0x0C || offset == 0x14

namespace Layout

def map (L : Layout) : MemState Presence := runOps (.init :: L.calls) .initial

def reachIn (L : Layout) (x : Access) (a : Long) (b : Addrbank Presence) : Reach :=
  match b.handlers with
  | .dummy => if L.musashiMode || L.unmappedBusError then .device else .nothing x.floating
  | .musashi => .device
  | .testdev =>
    if x.isPut && testDeviceRegister (a &&& 0xFF) then .testDevice (a &&& 0xFF) else .nothing 0
  | .ram => if x.isPut && b.isRom then .nothing 0 else .host (b.hostAddr a)
  | .custom => if (b.device.getD .none).serves x then .device else .nothing x.floating

def reach (L : Layout) (x : Access) (a : Long) : Option Reach :=
  (L.map.bankAt a).map (L.reachIn x a)

end Layout

variable {ω : Type}

def Callbacks.present (k : Callbacks ω) : Presence :=
  { r8 := k.r8.isSome, r16 := k.r16.isSome, r32 := k.r32.isSome, w8 := k.w8.isSome,
    w16 := k.w16.isSome, w32 := k.w32.isSome }

/-- The host has this layout: its map was made by these calls, with callbacks of its own. -/
structure Layout.Of (L : Layout) (env : MemEnv ω) : Prop where
  map : ∃ calls, env.map = runOps (.init :: calls) .initial ∧
    L.calls = calls.map (MemOp.withDevice Callbacks.present)
  musashiMode : env.musashiMode = L.musashiMode
  unmappedBusError : env.unmappedBusError = L.unmappedBusError

/-- The bank of an address, and what an access reaches through it. -/
theorem Layout.Of.bank {L : Layout} {env : MemEnv ω} (h : L.Of env) (x : Access) (a : Long) :
    ∃ b, env.map.bankAt a = some b ∧
      L.reach x a = some (L.reachIn x a (b.withDevice Callbacks.present)) := by
  obtain ⟨calls, hmap, hcalls⟩ := h.map
  have hinit : ∀ {δ : Type}, Sound (MemState.initial : MemState δ) := Sound.initial
  have hr : Renamed Callbacks.present env.map L.map := by
    rw [hmap, Layout.map, hcalls]
    exact Renamed.initial.runOps hinit hinit (.init :: calls)
  obtain ⟨b, hb⟩ : ∃ b, env.map.bankAt a = some b := by
    rw [hmap]
    exact bankAt_run calls a
  have hbank := hr.bankAt a
  rw [hb] at hbank
  obtain ⟨b', hb', hs⟩ := Option.map_eq_some_iff.mp hbank
  refine ⟨b, hb, ?_⟩
  rw [Layout.reach, hb', Option.map_some]
  have hreach : L.reachIn x a b'.shape = L.reachIn x a (b.shape.withDevice Callbacks.present) := by
    rw [hs]
  exact congrArg some hreach

end UaeCpu
