import UaeCpu.Layout

/-!
# UaeCpu.AddressSpace

The 24-bit address space. `build_cpufunctbl` computes a mask for addresses, but no data accessor
that `set_x_funcs` installs applies it: an access goes to the bank that all 32 bits of its
address select.

* `setXFuncs`            — the accessors of a configuration.
* `Framed`               — what leaves host memory alone, and does not depend on it.
* `run_of_reach`         — what an access does is what it reaches, short of devices.
* `Layout.noting`        — the host whose devices tell all addresses apart.
* `address_space_24_iff` — when an access does what it does at the masked address.
-/

namespace UaeCpu

open Fault FaultM

/-! ## Configuration -/

structure AddressPrefs extends Prefs where
  addressSpace24 : Bool

/-- `fixup_cpu`, after which the preferences are as `uae_cpu_set_config` leaves them. -/
def fixupCpu (p : AddressPrefs) : AddressPrefs :=
  if p.cpuModel.num ≤ 68010 then { p with addressSpace24 := true } else p

/-- `regs.address_space_mask`, as `build_cpufunctbl` sets it. -/
def addressSpaceMask (p : AddressPrefs) : Long :=
  if p.addressSpace24 then 0x00FFFFFF else 0xFFFFFFFF

def munge24 (p : AddressPrefs) (x : Long) : Long := x &&& addressSpaceMask p

/-- A set of `x_get_*` and `x_put_*`, by the suffix of their names. -/
inductive XFuncs where
  | plain | jit | data030 | ce000 | ce020 | ce030 | c040 | mmu
  deriving DecidableEq

/-- `set_x_funcs`. The `_compatible` accessors are the plain ones, and nothing in this build sets
`cpu_memory_cycle_exact` or `cpu_data_cache`. -/
def setXFuncs (p : Prefs) : XFuncs :=
  if p.mmuModel then .mmu
  else if p.cpuModel.num < 68020 then
    if p.cpuCycleExact then .ce000 else .plain
  else if !p.cpuCycleExact then
    if p.cpuCompatible then
      if p.cpuModel = .m68030 ∧ p.cachesize = 0 then .data030 else .plain
    else if p.cachesize ≠ 0 then .jit
    else .plain
  else if p.cpuModel = .m68020 then .ce020
  else if p.cpuModel = .m68030 then .ce030
  else .c040

variable {ω : Type}

/-! ## Accessors -/

/-- `get_long_ce000` and its siblings: a long is two words. -/
def accessCe000 (env : MemEnv ω) (addr : Long) : Access → Acc ω Long
  | .lget => do
    let hi ← Access.wget.run env addr
    let lo ← Access.wget.run env (addr + 2)
    pure (hi <<< 16 ||| lo)
  | .lput v => do
    let _ ← (Access.wput ((v >>> 16).setWidth 16)).run env addr
    (Access.wput (v.setWidth 16)).run env (addr + 2)
  | x => x.run env addr

/-- A data access. All accessors but those of the 68000 and of the MMU come to one `get_*` or
`put_*` once the cycles are left out; `mmu` is what the translating ones do. -/
def XFuncs.access (f : XFuncs) (mmu : Long → Access → Acc ω Long) (env : MemEnv ω) (addr : Long)
    (x : Access) : Acc ω Long :=
  match f with
  | .mmu => mmu addr x
  | .ce000 => accessCe000 env addr x
  | _ => x.run env addr

/-- The accesses an accessor without MMU makes, with the distance of each from its address. -/
def XFuncs.parts (f : XFuncs) (x : Access) : List (Access × Long) :=
  match f, x with
  | .ce000, .lget => [(.wget, 0), (.wget, 2)]
  | .ce000, .lput v => [(.wput ((v >>> 16).setWidth 16), 0), (.wput (v.setWidth 16), 2)]
  | _, x => [(x, 0)]

/-! ## Effects -/

namespace MemWorld

/-- Without the log, which is no part of the machine. -/
def unlogged (w : MemWorld ω) : MemWorld ω := { w with touched := [] }

/-- The devices alone: host memory blank. -/
def bare (w : MemWorld ω) : MemWorld ω := { w with host := fun _ => 0, touched := [] }

/-- The devices of `w'` with the host memory and the log of `w`. -/
def restore (w w' : MemWorld ω) : MemWorld ω := { w' with host := w.host, touched := w.touched }

end MemWorld

/-- The two computations do the same to the machine. -/
def SameEffect {α : Type} (m m' : Acc ω α) : Prop :=
  ∀ w, (m w).mapState MemWorld.unlogged = (m' w).mapState MemWorld.unlogged

/-- The access goes to host memory: to RAM, or it reads ROM. -/
def Backed (x : Access) (b : Addrbank (Callbacks ω)) : Prop :=
  b.handlers = .ram ∧ (x.isPut && b.isRom) = false

/-! ## What does not concern host memory -/

/-- The computation neither reads nor changes host memory and the log. -/
def Framed {α : Type} (m : Acc ω α) : Prop := ∀ w, m w = (m w.bare).mapState w.restore

namespace Framed

variable {α β : Type}

theorem pure (a : α) : Framed (pure a : Acc ω α) := fun _ => rfl

theorem bind {m : Acc ω α} {f : α → Acc ω β} (hm : Framed m) (hf : ∀ a, Framed (f a)) :
    Framed (m >>= f) := by
  intro w
  rw [bind_apply, bind_apply, hm w]
  cases m w.bare with
  | ret a w₁ =>
    show f a (w.restore w₁) = (f a w₁).mapState w.restore
    rw [hf a (w.restore w₁), hf a w₁, Outcome.mapState_mapState]
    rfl
  | thrown c w₁ => rfl
  | diverge => rfl

theorem handleTestDeviceWrite (offset val : Long) :
    Framed (handleTestDeviceWrite (ω := ω) offset val) := by
  intro w
  unfold UaeCpu.handleTestDeviceWrite
  simp only [update_apply, Outcome.mapState]
  split_ifs <;> rfl

end Framed

/-! ## What goes to host memory -/

/-- The access at host byte `p`. -/
def Access.hostRun (p : HostPtr) : Access → Acc ω Long
  | .lget => doGetMemLong p
  | .wget => do pure ((← doGetMemWord p).setWidth 32)
  | .bget => do pure ((← hostRead p).setWidth 32)
  | .lput v => do doPutMemLong p v; pure 0
  | .wput v => do doPutMemWord p v; pure 0
  | .bput v => do hostWrite p v; pure 0

theorem run_backed {env : MemEnv ω} {addr : Long} {b : Addrbank (Callbacks ω)} {x : Access}
    (hb : env.map.bankAt addr = some b) (hx : Backed x b) :
    x.run env addr = x.hostRun (b.hostAddr addr) := by
  obtain ⟨hram, hrom⟩ := hx
  cases x with
  | lget => simp only [Access.run, getLong, hb, hram, ramLget, Access.hostRun]
  | wget => simp only [Access.run, getWord, hb, hram, ramWget, Access.hostRun]
  | bget => simp only [Access.run, getByte, hb, hram, ramBget, Access.hostRun]
  | lput v =>
    have hrom' : b.isRom = false := hrom
    simp only [Access.run, putLong, hb, hram, ramLput, Access.hostRun, hrom', Bool.not_false,
      if_true]
  | wput v =>
    have hrom' : b.isRom = false := hrom
    simp only [Access.run, putWord, hb, hram, ramWput, Access.hostRun, hrom', Bool.not_false,
      if_true]
  | bput v =>
    have hrom' : b.isRom = false := hrom
    simp only [Access.run, putByte, hb, hram, ramBput, Access.hostRun, hrom', Bool.not_false,
      if_true]

/-- The byte a get takes from the lowest address, in its result. -/
def Access.topByte (x : Access) (v : Long) : Byte := v.extractLsb' (8 * (x.size - 1)) 8

/-- The byte a put stores at the lowest address. -/
def Access.firstByte : Access → Byte
  | .lput v => v.extractLsb' 24 8
  | .wput v => v.extractLsb' 8 8
  | .bput v => v
  | _ => 0

theorem topByte_long (b0 b1 b2 b3 : Byte) :
    Access.topByte .lget ((b0 ++ b1) ++ (b2 ++ b3)) = b0 := by
  show BitVec.extractLsb' 24 8 _ = b0
  ext i hi
  rw [BitVec.getElem_extractLsb', BitVec.getLsbD_append, if_neg (by omega),
    BitVec.getLsbD_append, if_neg (by omega), show 24 + i - 16 - 8 = i by omega,
    BitVec.getLsbD_eq_getElem hi]

theorem topByte_word (b0 b1 : Byte) : Access.topByte .wget ((b0 ++ b1).setWidth 32) = b0 := by
  show BitVec.extractLsb' 8 8 _ = b0
  ext i hi
  rw [BitVec.getElem_extractLsb', BitVec.getLsbD_setWidth, decide_eq_true (by omega),
    Bool.true_and, BitVec.getLsbD_append, if_neg (by omega), show 8 + i - 8 = i by omega,
    BitVec.getLsbD_eq_getElem hi]

theorem topByte_byte (b0 : Byte) : Access.topByte .bget (b0.setWidth 32) = b0 := by
  show BitVec.extractLsb' 0 8 _ = b0
  ext i hi
  rw [BitVec.getElem_extractLsb', BitVec.getLsbD_setWidth, decide_eq_true (by omega),
    Bool.true_and, Nat.zero_add, BitVec.getLsbD_eq_getElem hi]

theorem hostRun_get {x : Access} (hx : x.isPut = false) (p : HostPtr) (w : MemWorld ω) :
    ∃ v w', x.hostRun p w = .ret v w' ∧ x.topByte v = w.host p := by
  cases x with
  | lget => exact ⟨_, _, rfl, topByte_long _ _ _ _⟩
  | wget => exact ⟨_, _, rfl, topByte_word _ _⟩
  | bget => exact ⟨_, _, rfl, topByte_byte _⟩
  | lput v | wput v | bput v => cases hx

theorem hostRun_put {x : Access} (hx : x.isPut = true) (p : HostPtr) (w : MemWorld ω) :
    ∃ w', x.hostRun p w = .ret 0 w' ∧ w'.host p = x.firstByte ∧
      ∀ q : Nat, q < p → w'.host q = w.host q := by
  cases x with
  | lget | wget | bget => cases hx
  | lput v =>
    refine ⟨_, rfl, ?_, fun q hq => ?_⟩
    · simp [Access.firstByte]
    · have h0 : q ≠ p := Nat.ne_of_lt hq
      have h1 : q ≠ p + 1 := by omega
      have h2 : q ≠ p + 2 := by omega
      have h3 : q ≠ p + 3 := by omega
      simp [h0, h1, h2, h3]
  | wput v =>
    refine ⟨_, rfl, ?_, fun q hq => ?_⟩
    · simp [Access.firstByte]
    · have h0 : q ≠ p := Nat.ne_of_lt hq
      have h1 : q ≠ p + 1 := by omega
      simp [h0, h1]
  | bput v =>
    refine ⟨_, rfl, ?_, fun q hq => ?_⟩
    · exact if_pos rfl
    · exact if_neg (Nat.ne_of_lt hq)

/-! ## Two addresses -/

theorem firstByte_ne (x : Access) : x.firstByte + 1 ≠ x.firstByte := by
  intro h
  have hnat := congrArg BitVec.toNat h
  have hlt := x.firstByte.isLt
  rw [BitVec.toNat_add, show (1 : Byte).toNat = 1 from rfl] at hnat
  omega

/-- A put at the lower of two addresses changes a byte that one at the higher leaves. -/
theorem put_lower {x : Access} {p q : Nat} (w₀ : MemWorld ω) (hput : x.isPut = true)
    (hlt : p < q) : ¬ SameEffect (x.hostRun p : Acc ω Long) (x.hostRun q) := by
  intro h
  let w : MemWorld ω := { w₀ with host := fun _ => x.firstByte + 1 }
  obtain ⟨w₁, hp, hfirst, -⟩ := hostRun_put hput p w
  obtain ⟨w₂, hq, -, hlower⟩ := hostRun_put hput q w
  have hw := h w
  rw [hp, hq] at hw
  injection hw with _ hs
  have hhost := congrArg (fun t : MemWorld ω => t.host p) hs
  change w₁.host p = w₂.host p at hhost
  rw [hfirst, hlower p hlt] at hhost
  exact firstByte_ne x hhost.symm

/-- Two host addresses are one to an access only if they are the same. -/
theorem hostRun_sameEffect {x : Access} {p q : HostPtr} (w₀ : MemWorld ω)
    (h : SameEffect (x.hostRun p : Acc ω Long) (x.hostRun q)) : p = q := by
  by_contra hne
  cases hput : x.isPut with
  | false =>
    -- one byte differs from all others
    let w : MemWorld ω := { w₀ with host := fun y => if y = p then 1 else 0 }
    obtain ⟨v, w₁, hp, hv⟩ := hostRun_get hput p w
    obtain ⟨v', w₂, hq, hv'⟩ := hostRun_get hput q w
    have hw := h w
    rw [hp, hq] at hw
    injection hw with hvv
    rw [hvv, hv'] at hv
    have hbad : (0 : Byte) = 1 := by
      rw [← show w.host q = 0 from if_neg fun he => hne he.symm, hv]
      exact if_pos rfl
    exact absurd hbad (by decide)
  | true =>
    rcases Nat.lt_or_gt_of_ne hne with hlt | hlt
    · exact put_lower w₀ hput hlt h
    · exact put_lower w₀ hput hlt fun w => (h w).symm

/-- What goes to host memory is not framed. -/
theorem hostRun_not_framed {x : Access} {p : HostPtr} {m : Acc ω Long} (w₀ : MemWorld ω)
    (hm : Framed m) : ¬ SameEffect (x.hostRun p) m := by
  intro h
  cases hput : x.isPut with
  | false =>
    -- the framed side gives one value for both contents of memory
    have hval : ∀ c : Byte, ∃ v, x.topByte v = c ∧ (m w₀.bare).result = some (.ok v) := by
      intro c
      let w : MemWorld ω := { w₀ with host := fun _ => c }
      obtain ⟨v, w₁, hp, hv⟩ := hostRun_get hput p w
      have hw := h w
      rw [hp, hm w] at hw
      refine ⟨v, hv, ?_⟩
      show (m w.bare).result = _
      cases hmw : m w.bare with
      | ret u w₂ =>
        rw [hmw] at hw
        injection hw with hvu
        rw [hvu]
        rfl
      | thrown c w₂ => rw [hmw] at hw; cases hw
      | diverge => rw [hmw] at hw; cases hw
    obtain ⟨v, hv, hres⟩ := hval 0
    obtain ⟨v', hv', hres'⟩ := hval 1
    rw [hres] at hres'
    injection hres' with hok
    injection hok with hvv
    rw [hvv, hv'] at hv
    exact absurd hv (by decide)
  | true =>
    let w : MemWorld ω := { w₀ with host := fun _ => x.firstByte + 1 }
    obtain ⟨w₁, hp, hfirst, -⟩ := hostRun_put hput p w
    have hw := h w
    rw [hp, hm w] at hw
    cases hmw : m w.bare with
    | ret u w₂ =>
      rw [hmw] at hw
      injection hw with _ hs
      have hhost := congrArg (fun t : MemWorld ω => t.host p) hs
      change w₁.host p = w.host p at hhost
      rw [hfirst] at hhost
      exact firstByte_ne x hhost.symm
    | thrown c w₂ => rw [hmw] at hw; cases hw
    | diverge => rw [hmw] at hw; cases hw

/-! ## What an access reaches -/

section Reached

variable {L : Layout} {env : MemEnv ω} {x : Access} {a a' : Long}

/-- The value a put hands to the test device. -/
def Access.stored : Access → Long
  | .lput v => v
  | .wput v => v.setWidth 32
  | .bput v => v.setWidth 32
  | _ => 0

/-- What an access does that reaches no device. -/
def Reach.run (x : Access) : Reach → Acc ω Long
  | .host p => x.hostRun p
  | .testDevice offset => do handleTestDeviceWrite offset x.stored; pure 0
  | .nothing v => pure v
  | .device => crash

theorem handleTestDeviceWrite_other {offset : Long} (hoff : testDeviceRegister (offset &&& 0xFF) = false)
    (v : Long) : handleTestDeviceWrite (ω := ω) (offset &&& 0xFF) v = pure () := by
  have hmask : offset &&& 0xFF &&& 0xFF = offset &&& 0xFF := by
    rw [BitVec.and_assoc, BitVec.and_self]
  simp only [testDeviceRegister, Bool.or_eq_false_iff, beq_eq_false_iff_ne, ne_eq] at hoff
  obtain ⟨⟨⟨h0, h4⟩, hc⟩, h14⟩ := hoff
  funext w
  simp only [handleTestDeviceWrite, hmask, h0, h4, hc, h14, if_false]
  rfl

theorem present_callbacks (b : Addrbank (Callbacks ω)) :
    (b.withDevice Callbacks.present).device.getD .none = b.callbacks.present := by
  unfold Addrbank.callbacks Addrbank.withDevice
  cases b.device <;> rfl

/-- A region without a callback for the access answers it as unmapped space does. -/
theorem run_unserved {b : Addrbank (Callbacks ω)} (hb : env.map.bankAt a = some b)
    (hh : b.handlers = .custom) (hs : b.callbacks.present.serves x = false) :
    x.run env a = pure x.floating := by
  cases x <;>
  simp only [Presence.serves, Callbacks.present, Bool.or_eq_false_iff, Option.isSome_eq_false_iff,
    Option.isNone_iff_eq_none] at hs
  case lget =>
    simp only [Access.run, getLong, hb, hh, customLget, hs]
    rfl
  case wget =>
    simp only [Access.run, getWord, hb, hh, customWget, hs]
    rfl
  case bget =>
    simp only [Access.run, getByte, hb, hh, customBget, hs]
    rfl
  case lput v =>
    simp only [Access.run, putLong, hb, hh, customLput, hs]
    rfl
  case wput v =>
    simp only [Access.run, putWord, hb, hh, customWput, hs]
    rfl
  case bput v =>
    simp only [Access.run, putByte, hb, hh, customBput, hs]
    rfl

theorem run_unmapped {b : Addrbank (Callbacks ω)} (hb : env.map.bankAt a = some b)
    (hh : b.handlers = .dummy) (hm : env.musashiMode = false) (hu : env.unmappedBusError = false) :
    x.run env a = pure x.floating := by
  cases x
  case lget =>
    simp only [Access.run, getLong, hb, hh, dummyLget, dummyAccess, hm, hu]
    rfl
  case wget =>
    simp only [Access.run, getWord, hb, hh, dummyWget, dummyAccess, hm, hu]
    rfl
  case bget =>
    simp only [Access.run, getByte, hb, hh, dummyBget, dummyAccess, hm, hu]
    rfl
  case lput v =>
    simp only [Access.run, putLong, hb, hh, dummyLput, dummyAccess, hm, hu]
    rfl
  case wput v =>
    simp only [Access.run, putWord, hb, hh, dummyWput, dummyAccess, hm, hu]
    rfl
  case bput v =>
    simp only [Access.run, putByte, hb, hh, dummyBput, dummyAccess, hm, hu]
    rfl

theorem run_rom {b : Addrbank (Callbacks ω)} (hb : env.map.bankAt a = some b)
    (hh : b.handlers = .ram) (hrom : (x.isPut && b.isRom) = true) : x.run env a = pure 0 := by
  obtain ⟨hput, hr⟩ := Bool.and_eq_true_iff.mp hrom
  cases x with
  | lget | wget | bget => cases hput
  | lput v => simp only [Access.run, putLong, hb, hh, ramLput, hr]; rfl
  | wput v => simp only [Access.run, putWord, hb, hh, ramWput, hr]; rfl
  | bput v => simp only [Access.run, putByte, hb, hh, ramBput, hr]; rfl

theorem run_testDevice {b : Addrbank (Callbacks ω)} (hb : env.map.bankAt a = some b)
    (hh : b.handlers = .testdev) : x.run env a =
      if x.isPut then do handleTestDeviceWrite (a &&& 0xFF) x.stored; pure 0 else pure 0 := by
  cases x with
  | lget => simp only [Access.run, getLong, hb, hh]; rfl
  | wget => simp only [Access.run, getWord, hb, hh]; rfl
  | bget => simp only [Access.run, getByte, hb, hh]; rfl
  | lput v => simp only [Access.run, putLong, hb, hh]; rfl
  | wput v => simp only [Access.run, putWord, hb, hh]; rfl
  | bput v => simp only [Access.run, putByte, hb, hh]; rfl

/-- Short of a device, what an access reaches says what it does. -/
theorem run_of_reach (hL : L.Of env) {r : Reach} (hr : L.reach x a = some r) (hdev : r ≠ .device) :
    x.run env a = r.run x := by
  obtain ⟨b, hb, hreach⟩ := hL.bank x a
  rw [hreach] at hr
  cases hr
  revert hdev
  unfold Layout.reachIn
  rw [present_callbacks, ← hL.musashiMode, ← hL.unmappedBusError,
    show (b.withDevice Callbacks.present).handlers = b.handlers from rfl]
  cases hh : b.handlers with
  | dummy =>
    dsimp only
    split
    · exact fun h => absurd rfl h
    · next hm =>
      rw [Bool.or_eq_true, not_or, Bool.not_eq_true, Bool.not_eq_true] at hm
      exact fun _ => run_unmapped hb hh hm.1 hm.2
  | musashi => exact fun h => absurd rfl h
  | testdev =>
    intro _
    rw [run_testDevice hb hh]
    dsimp only
    cases hput : x.isPut with
    | false => rfl
    | true =>
      cases hreg : testDeviceRegister (a &&& 0xFF) with
      | false =>
        simp only [handleTestDeviceWrite_other hreg]
        rfl
      | true => rfl
  | ram =>
    intro _
    dsimp only
    split
    · next hrom => exact run_rom hb hh hrom
    · next hrom => exact run_backed hb ⟨hh, Bool.eq_false_iff.mpr hrom⟩
  | custom =>
    dsimp only
    split
    · exact fun h => absurd rfl h
    · next hs => exact fun _ => run_unserved hb hh (by simpa using hs)

end Reached

/-! ## Devices that note where they were called -/

/-- Callbacks that note the first address they are called with. -/
def Presence.noting (q : Presence) : Callbacks (Option Long) :=
  { r8 := if q.r8 then some fun a d => (0, d.or (some a)) else .none
    r16 := if q.r16 then some fun a d => (0, d.or (some a)) else .none
    r32 := if q.r32 then some fun a d => (0, d.or (some a)) else .none
    w8 := if q.w8 then some fun a _ d => d.or (some a) else .none
    w16 := if q.w16 then some fun a _ d => d.or (some a) else .none
    w32 := if q.w32 then some fun a _ d => d.or (some a) else .none }

/-- The host whose devices all note the first address; bus errors do, and are thrown. -/
def Layout.noting (L : Layout) : MemEnv (Option Long) where
  map := runOps (.init :: L.calls.map (MemOp.withDevice Presence.noting)) .initial
  musashiMode := L.musashiMode
  unmappedBusError := L.unmappedBusError
  musashi :=
    { read8 := fun a d => (0, d.or (some a)), read16 := fun a d => (0, d.or (some a))
      read32 := fun a d => (0, d.or (some a)), write8 := fun a _ d => d.or (some a)
      write16 := fun a _ d => d.or (some a), write32 := fun a _ d => d.or (some a) }
  raiseBusError := fun a _ _ d => (some 2, d.or (some a))

/-- A machine whose devices have noted nothing yet. -/
def MemWorld.fresh (w : MemWorld Unit) : MemWorld (Option Long) :=
  { host := w.host, touched := [], testDevice := w.testDevice,
    pendingIrqLevel := w.pendingIrqLevel, stdout := w.stdout, dev := none }

/-- The state behind the devices at the end. -/
def deviceState {α : Type} : Outcome (MemWorld ω) α → Option ω
  | .ret _ w => some w.dev
  | .thrown _ w => some w.dev
  | .diverge => none

theorem deviceState_unlogged {α : Type} (o : Outcome (MemWorld ω) α) :
    deviceState (o.mapState MemWorld.unlogged) = deviceState o := by
  cases o <;> rfl

theorem SameEffect.deviceState {m m' : Acc ω Long} (h : SameEffect m m') (w : MemWorld ω) :
    deviceState (m w) = deviceState (m' w) := by
  rw [← deviceState_unlogged, h w, deviceState_unlogged]

section Noting

variable {L : Layout} {x : Access} {a a' : Long}

theorem present_noting (q : Presence) : q.noting.present = q := by
  obtain ⟨r8, r16, r32, w8, w16, w32⟩ := q
  cases r8 <;> cases r16 <;> cases r32 <;> cases w8 <;> cases w16 <;> cases w32 <;> rfl

theorem Layout.of_noting (L : Layout) : L.Of L.noting := by
  refine ⟨⟨_, rfl, ?_⟩, rfl, rfl⟩
  rw [List.map_map]
  refine (List.map_id _).symm.trans (List.map_congr_left fun op _ => ?_)
  cases op with
  | mapCustom ok startAddr size q =>
    exact congrArg (MemOp.mapCustom ok startAddr size) (present_noting q).symm
  | _ => rfl

/-- The bank of an address among these devices. -/
theorem Layout.bank_noting (L : Layout) (a : Long) :
    ∃ c b, L.map.bankAt a = some c ∧ L.noting.map.bankAt a = some b ∧ b.handlers = c.handlers ∧
      b.callbacks = (c.device.getD .none).noting := by
  obtain ⟨c, hc⟩ : ∃ c, L.map.bankAt a = some c := bankAt_run L.calls a
  have hinit : ∀ {δ : Type}, Sound (MemState.initial : MemState δ) := Sound.initial
  have hbank : (L.noting.map.bankAt a).map Addrbank.shape =
      ((L.map.bankAt a).map Addrbank.shape).map (Addrbank.withDevice Presence.noting) :=
    (Renamed.initial.runOps hinit hinit (.init :: L.calls)).bankAt a
  rw [hc] at hbank
  obtain ⟨b, hb, hs⟩ := Option.map_eq_some_iff.mp hbank
  refine ⟨c, b, hc, hb, congrArg Addrbank.handlers hs, ?_⟩
  have hdev : b.device = c.device.map Presence.noting := congrArg Addrbank.device hs
  unfold Addrbank.callbacks
  rw [hdev]
  cases c.device <;> rfl

section Device

variable {b : Addrbank (Callbacks (Option Long))} (hb : L.noting.map.bankAt a = some b)
include hb

theorem noting_unmapped (hh : b.handlers = .dummy)
    (hm : (L.musashiMode || L.unmappedBusError) = true) (w : MemWorld Unit) :
    deviceState (x.run L.noting a w.fresh) = some (some a) := by
  have hmode : L.noting.musashiMode = L.musashiMode := rfl
  have hbus : L.noting.unmappedBusError = L.unmappedBusError := rfl
  cases hmm : L.musashiMode with
  | true =>
    cases x <;>
    simp only [Access.run, getLong, getWord, getByte, putLong, putWord, putByte, hb, hh, dummyLget,
      dummyWget, dummyBget, dummyLput, dummyWput, dummyBput, dummyAccess, hmode, hmm, if_true] <;>
    rfl
  | false =>
    rw [hmm, Bool.false_or] at hm
    cases x <;>
    simp only [Access.run, getLong, getWord, getByte, putLong, putWord, putByte, hb, hh, dummyLget,
      dummyWget, dummyBget, dummyLput, dummyWput, dummyBput, dummyAccess, hmode, hmm, hbus, hm,
      Bool.false_eq_true, if_true, if_false] <;>
    rfl

theorem noting_musashi (hh : b.handlers = .musashi) (w : MemWorld Unit) :
    deviceState (x.run L.noting a w.fresh) = some (some a) := by
  cases x <;>
  simp only [Access.run, getLong, getWord, getByte, putLong, putWord, putByte, hb, hh] <;> rfl

/-- Whatever the width of the callback, its first call is at the address itself. -/
theorem noting_custom {q : Presence} (hh : b.handlers = .custom) (hq : b.callbacks = q.noting)
    (hs : q.serves x = true) (w : MemWorld Unit) :
    deviceState (x.run L.noting a w.fresh) = some (some a) := by
  obtain ⟨r8, r16, r32, w8, w16, w32⟩ := q
  cases x with
  | lget =>
    simp only [Access.run, getLong, hb, hh, customLget, hq]
    cases r32 <;> cases r16 <;> cases r8 <;> first | rfl | cases hs
  | wget =>
    simp only [Access.run, getWord, hb, hh, customWget, hq]
    cases r16 <;> cases r8 <;> first | rfl | cases hs
  | bget =>
    simp only [Access.run, getByte, hb, hh, customBget, hq]
    cases r8 <;> first | rfl | cases hs
  | lput v =>
    simp only [Access.run, putLong, hb, hh, customLput, hq]
    cases w32 <;> cases w16 <;> cases w8 <;> first | rfl | cases hs
  | wput v =>
    simp only [Access.run, putWord, hb, hh, customWput, hq]
    cases w16 <;> cases w8 <;> first | rfl | cases hs
  | bput v =>
    simp only [Access.run, putByte, hb, hh, customBput, hq]
    cases w8 <;> first | rfl | cases hs

end Device

/-- An access that reaches a device calls it first at its own address. -/
theorem noting_device (hr : L.reach x a = some .device) (w : MemWorld Unit) :
    deviceState (x.run L.noting a w.fresh) = some (some a) := by
  obtain ⟨c, b, hc, hb, hh, hcb⟩ := L.bank_noting a
  rw [Layout.reach, hc, Option.map_some, Option.some.injEq] at hr
  unfold Layout.reachIn at hr
  cases hk : c.handlers with
  | dummy =>
    rw [hk] at hr hh
    dsimp only at hr
    split at hr
    · next hm => exact noting_unmapped hb hh hm w
    · cases hr
  | musashi =>
    rw [hk] at hh
    exact noting_musashi hb hh w
  | testdev | ram =>
    rw [hk] at hr
    dsimp only at hr
    split at hr <;> cases hr
  | custom =>
    rw [hk] at hr hh
    dsimp only at hr
    split at hr
    · next hs => exact noting_custom hb hh hcb hs w
    · cases hr

theorem hostRun_deviceState (x : Access) (p : HostPtr) (w : MemWorld ω) :
    deviceState (x.hostRun p w) = some w.dev := by
  cases x <;> rfl

/-- What reaches no device leaves the devices alone. -/
theorem run_deviceState {r : Reach} (hr : r ≠ .device) (w : MemWorld ω) :
    deviceState (r.run x w) = some w.dev := by
  cases r with
  | host p => exact hostRun_deviceState x p w
  | testDevice offset =>
    simp only [Reach.run, handleTestDeviceWrite, update_bind_apply, pure_apply, deviceState]
    split_ifs <;> rfl
  | nothing v => rfl
  | device => exact absurd rfl hr

/-- A device at one of two addresses tells them apart. -/
theorem device_tells {a a' : Long} (hne : a ≠ a') {r : Reach} (hr : L.reach x a = some .device)
    (hr' : L.reach x a' = some r) :
    ¬ SameEffect (x.run L.noting a) (x.run L.noting a') := by
  intro h
  have hdev := h.deviceState (MemWorld.holding fun _ => 0).fresh
  rw [noting_device hr] at hdev
  by_cases hr'd : r = .device
  · rw [hr'd] at hr'
    rw [noting_device hr'] at hdev
    exact hne (Option.some.inj (Option.some.inj hdev))
  · rw [run_of_reach L.of_noting hr' hr'd, run_deviceState hr'd] at hdev
    cases hdev

theorem framed_reach {r : Reach} (hhost : ∀ p, r ≠ .host p) (hdev : r ≠ .device) :
    Framed (r.run x : Acc ω Long) := by
  cases r with
  | host p => exact absurd rfl (hhost p)
  | testDevice offset => exact (Framed.handleTestDeviceWrite _ _).bind fun _ => .pure 0
  | nothing v => exact .pure v
  | device => exact absurd rfl hdev

theorem testDeviceRegister_iff {offset : Long} : testDeviceRegister offset = true ↔
    offset = 0x00 ∨ offset = 0x04 ∨ offset = 0x0C ∨ offset = 0x14 := by
  simp [testDeviceRegister, or_assoc]

/-- A write to a register of the test device is seen. -/
theorem testDevice_tells {offset : Long} (hreg : testDeviceRegister offset = true) (v v' : Long)
    (w₀ : MemWorld ω) :
    ¬ SameEffect (do handleTestDeviceWrite (ω := ω) offset v; pure 0) (pure v') := by
  intro h
  let w : MemWorld ω :=
    { w₀ with testDevice := { w₀.testDevice with interruptLevel := v.setWidth 3 + 1 } }
  have hw := h w
  rw [handleTestDeviceWrite, update_bind_apply] at hw
  injection hw with _ hs
  obtain rfl | rfl | rfl | rfl := testDeviceRegister_iff.mp hreg
  · have hfail : w.testDevice.failCount + 1 = w.testDevice.failCount :=
      congrArg (fun u : MemWorld ω => u.testDevice.failCount) hs
    simp at hfail
  · have hpass : w.testDevice.passCount + 1 = w.testDevice.passCount :=
      congrArg (fun u : MemWorld ω => u.testDevice.passCount) hs
    simp at hpass
  · have hlevel : v.setWidth 3 = v.setWidth 3 + 1 :=
      congrArg (fun u : MemWorld ω => u.testDevice.interruptLevel) hs
    simp at hlevel
  · have hout : w.stdout ++ [v.setWidth 8] = w.stdout :=
      congrArg (fun u : MemWorld ω => u.stdout) hs
    simp at hout

theorem reach_testDevice {offset : Long} (hr : L.reach x a = some (.testDevice offset)) :
    offset = a &&& 0xFF ∧ testDeviceRegister offset = true := by
  obtain ⟨c, -, hin⟩ := Option.map_eq_some_iff.mp hr
  unfold Layout.reachIn at hin
  split at hin
  · split at hin <;> cases hin
  · cases hin
  · split at hin
    · next hreg =>
      cases hin
      exact ⟨rfl, (Bool.and_eq_true_iff.mp hreg).2⟩
    · cases hin
  · split at hin <;> cases hin
  · split at hin <;> cases hin

theorem SameEffect.symm {α : Type} {m m' : Acc ω α} (h : SameEffect m m') : SameEffect m' m :=
  fun w => (h w).symm

/-- Short of devices, only the same reach has the same effect. -/
theorem reach_unique {r r' : Reach} (hr : L.reach x a = some r) (hr' : L.reach x a' = some r')
    (hlow : a &&& 0xFF = a' &&& 0xFF) (hd : r ≠ .device) (hd' : r' ≠ .device) (w₀ : MemWorld ω)
    (h : SameEffect (r.run x : Acc ω Long) (r'.run x)) : r = r' := by
  cases r with
  | host p =>
    cases r' with
    | host q => rw [hostRun_sameEffect w₀ h]
    | testDevice | nothing =>
      exact absurd h (hostRun_not_framed w₀ (framed_reach (fun _ he => nomatch he) hd'))
    | device => exact absurd rfl hd'
  | testDevice offset =>
    obtain ⟨ho, hreg⟩ := reach_testDevice hr
    cases r' with
    | host q =>
      exact absurd h.symm (hostRun_not_framed w₀ (framed_reach (fun _ he => nomatch he) hd))
    | testDevice offset' => rw [ho, hlow, (reach_testDevice hr').1]
    | nothing v => exact absurd h (testDevice_tells hreg _ v w₀)
    | device => exact absurd rfl hd'
  | nothing v =>
    cases r' with
    | host q =>
      exact absurd h.symm (hostRun_not_framed w₀ (framed_reach (fun _ he => nomatch he) hd))
    | testDevice offset' => exact absurd h.symm (testDevice_tells (reach_testDevice hr').2 _ v w₀)
    | nothing v' =>
      have hw := h w₀
      injection hw with hv
      rw [hv]
    | device => exact absurd rfl hd'
  | device => exact absurd rfl hd

end Noting

/-! ## The mask -/

/-- The access reaches at both addresses the same host byte, or nothing at all that answers both
alike. -/
def Mirrored (L : Layout) (x : Access) (a a' : Long) : Prop :=
  ∃ r, r ≠ .device ∧ L.reach x a = some r ∧ L.reach x a' = some r

/-- The access at `a` cannot be told from the one at the masked address: the address has 24 bits,
or no MMU is in between and the memory map is mirrored where the accessor goes. -/
def Spared (p : AddressPrefs) (L : Layout) (a : Long) (x : Access) : Prop :=
  a.toNat < 2 ^ 24 ∨
    setXFuncs p.toPrefs ≠ .mmu ∧ ∀ t ∈ (setXFuncs p.toPrefs).parts x,
      Mirrored L t.1 (a + t.2) (munge24 p a + t.2)

theorem munge24_of_lt {p : AddressPrefs} (h24 : p.addressSpace24 = true) {a : Long}
    (ha : a.toNat < 2 ^ 24) : munge24 p a = a := by
  unfold munge24 addressSpaceMask
  rw [h24, if_pos rfl]
  apply BitVec.eq_of_toNat_eq
  rw [BitVec.toNat_and, show (0x00FFFFFF : Long).toNat = 2 ^ 24 - 1 from rfl,
    Nat.and_two_pow_sub_one_eq_mod, Nat.mod_eq_of_lt ha]

theorem add_zero_long (a : Long) : a + 0 = a := BitVec.add_zero a

theorem access_congr {f : XFuncs} (hf : f ≠ .mmu) (mmu : Long → Access → Acc ω Long)
    {env : MemEnv ω} {x : Access} {a a' : Long}
    (h : ∀ t ∈ f.parts x, t.1.run env (a + t.2) = t.1.run env (a' + t.2)) :
    f.access mmu env a x = f.access mmu env a' x := by
  have hone : ∀ y : Access, (y, (0 : Long)) ∈ f.parts x → y.run env a = y.run env a' := by
    intro y hy
    have hz : y.run env (a + 0) = y.run env (a' + 0) := h _ hy
    rwa [add_zero_long, add_zero_long] at hz
  cases f with
  | mmu => exact absurd rfl hf
  | ce000 =>
    unfold XFuncs.access accessCe000
    cases x with
    | lget =>
      dsimp only
      rw [hone .wget (.head _), h (.wget, 2) (.tail _ (.head _))]
    | lput v =>
      dsimp only
      rw [hone _ (.head _), h _ (.tail _ (.head _))]
    | wget | bget | wput v | bput v => exact hone _ (.head _)
  | plain | jit | data030 | ce020 | ce030 | c040 => exact hone _ (.head _)

/-- Where one access is all, the accessor is that access. -/
theorem access_single {f : XFuncs} (hf : f ≠ .mmu) {x : Access} (hone : (f.parts x).length = 1)
    (mmu : Long → Access → Acc ω Long) (env : MemEnv ω) (a : Long) :
    f.parts x = [(x, 0)] ∧ f.access mmu env a x = x.run env a := by
  cases f with
  | mmu => exact absurd rfl hf
  | ce000 =>
    cases x with
    | lget | lput v => cases hone
    | wget | bget | wput v | bput v => exact ⟨rfl, rfl⟩
  | plain | jit | data030 | ce020 | ce030 | c040 => exact ⟨rfl, rfl⟩

theorem Mirrored.run_eq {L : Layout} {env : MemEnv ω} {x : Access} {a a' : Long} (hL : L.Of env)
    (h : Mirrored L x a a') : x.run env a = x.run env a' := by
  obtain ⟨r, hdev, hr, hr'⟩ := h
  rw [run_of_reach hL hr hdev, run_of_reach hL hr' hdev]

/-- Two addresses with the same low byte are one to an access, whatever the devices do, only if
they are mirrored. -/
theorem mirrored_of_sameEffect {L : Layout} {x : Access} {a a' : Long} (hne : a ≠ a')
    (hlow : a &&& 0xFF = a' &&& 0xFF) (h : SameEffect (x.run L.noting a) (x.run L.noting a')) :
    Mirrored L x a a' := by
  obtain ⟨b, -, hr⟩ := L.of_noting.bank x a
  obtain ⟨b', -, hr'⟩ := L.of_noting.bank x a'
  have hd : L.reachIn x a (b.withDevice Callbacks.present) ≠ .device := fun he =>
    device_tells hne (by rw [hr, he]) hr' h
  have hd' : L.reachIn x a' (b'.withDevice Callbacks.present) ≠ .device := fun he =>
    device_tells hne.symm (by rw [hr', he]) hr h.symm
  rw [run_of_reach L.of_noting hr hd, run_of_reach L.of_noting hr' hd'] at h
  have heq := reach_unique hr hr' hlow hd hd' (MemWorld.holding fun _ => 0).fresh h
  exact ⟨_, hd, hr, by rw [hr', ← heq]⟩

/-- On every host with this layout the access does at the masked address what it does at the
address itself. `mmu` is what the translating accessors do. -/
def MaskedAlike (p : AddressPrefs) (L : Layout) (a : Long) (x : Access) : Prop :=
  ∀ (ω : Type) (env : MemEnv ω), L.Of env → ∀ mmu : Long → Access → Acc ω Long,
    SameEffect ((setXFuncs p.toPrefs).access mmu env a x)
      ((setXFuncs p.toPrefs).access mmu env (munge24 p a) x)

theorem munge24_low (p : AddressPrefs) (a : Long) : munge24 p a &&& 0xFF = a &&& 0xFF := by
  unfold munge24 addressSpaceMask
  rw [BitVec.and_assoc]
  split <;> rfl

theorem munge24_lt {p : AddressPrefs} (h24 : p.addressSpace24 = true) (a : Long) :
    (munge24 p a).toNat < 2 ^ 24 := by
  unfold munge24 addressSpaceMask
  rw [h24, if_pos rfl, BitVec.toNat_and]
  exact Nat.lt_of_le_of_lt Nat.and_le_right (by decide)

/-- Under 24-bit addressing an access does at the masked address what it does at the address
itself if that is `Spared`, and, where the accessor makes one bus access without MMU, only
then. -/
theorem address_space_24_iff (p : AddressPrefs) (h24 : (fixupCpu p).addressSpace24 = true)
    (L : Layout) (a : Long) (x : Access) :
    (Spared (fixupCpu p) L a x → MaskedAlike (fixupCpu p) L a x) ∧
      (setXFuncs (fixupCpu p).toPrefs ≠ .mmu →
        ((setXFuncs (fixupCpu p).toPrefs).parts x).length = 1 →
        (MaskedAlike (fixupCpu p) L a x ↔ Spared (fixupCpu p) L a x)) := by
  have henough : Spared (fixupCpu p) L a x → MaskedAlike (fixupCpu p) L a x := by
    rintro (ha | ⟨hf, hmirror⟩) ω env hL mmu w
    · rw [munge24_of_lt h24 ha]
    · rw [access_congr hf mmu fun t ht => (hmirror t ht).run_eq hL]
  refine ⟨henough, fun hf hone => ⟨fun h => ?_, henough⟩⟩
  obtain ⟨hparts, -⟩ := access_single hf hone (fun _ _ => crash) L.noting a
  by_cases ha : a.toNat < 2 ^ 24
  · exact .inl ha
  · refine .inr ⟨hf, fun t ht => ?_⟩
    rw [hparts] at ht
    rw [List.mem_singleton.mp ht]
    show Mirrored L x (a + 0) (munge24 (fixupCpu p) a + 0)
    rw [add_zero_long, add_zero_long]
    refine mirrored_of_sameEffect (fun he => ?_) (munge24_low _ a).symm ?_
    · have hlt := munge24_lt h24 a
      rw [← he] at hlt
      exact ha hlt
    · have hsame := h _ L.noting L.of_noting fun _ _ => crash
      rwa [(access_single hf hone _ L.noting _).2, (access_single hf hone _ L.noting _).2] at hsame

/-- A 68000 in the default configuration. -/
def AddressPrefs.m68000 : AddressPrefs := { Prefs.plain .m68000 with addressSpace24 := false }

/-- RAM at 0, from a host buffer, and 16 MB higher once more. -/
def mirroredRam : Layout where
  calls := [.mapPtr true 0 0x10000 0x100000 0, .mapPtr true 0x1000000 0x10000 0x100000 0]
  musashiMode := false
  unmappedBusError := false

/-- A device with byte callbacks at `0x1000000`, over nothing. -/
def highDevice : Layout where
  calls := [.mapCustom true 0x1000000 0x10000 { Presence.none with r8 := true, w8 := true }]
  musashiMode := false
  unmappedBusError := true

/-- What a region reaches is known by its shape. -/
theorem reach_of_shape {L : Layout} {x : Access} {a : Long} {b c : Addrbank Presence}
    (hb : L.map.bankAt a = some b) (hs : b.shape = c) :
    L.reach x a = some (L.reachIn x a c) := by
  rw [Layout.reach, hb, ← hs]
  rfl

/-- A long read 16 MB up is spared by the mirrored RAM; a byte written there to a device is not. -/
theorem mirror_is_spared :
    (fixupCpu .m68000).addressSpace24 = true ∧
      MaskedAlike (fixupCpu .m68000) mirroredRam 0x1000040 .lget ∧
      ¬ MaskedAlike (fixupCpu .m68000) highDevice 0x1000040 (.bput 7) := by
  have hfirst : Covered 0 0x10000 (bankIndex 0x40) := by unfold Covered Loop.Arc; decide
  have hother : ¬ Covered 0x1000000 0x10000 (bankIndex 0x40) := by
    unfold Covered Loop.Arc; decide
  have hsecond : Covered 0x1000000 0x10000 (bankIndex 0x1000040) := by
    unfold Covered Loop.Arc; decide
  refine ⟨rfl, (address_space_24_iff .m68000 rfl mirroredRam 0x1000040 .lget).1 ?_, ?_⟩
  · obtain ⟨b, hb, hbs⟩ : ∃ b, mirroredRam.map.bankAt 0x40 = some b ∧
        b.shape = (ramBank 0 0x10000 0x100000 0).shape := bankAt_first_of_two _ _ _ _ hfirst hother
    obtain ⟨c, hc, hcs⟩ : ∃ c, mirroredRam.map.bankAt 0x1000040 = some c ∧
        c.shape = (ramBank 0x1000000 0x10000 0x100000 0).shape := bankAt_mapPtr _ _ _ hsecond
    refine .inr ⟨by decide, fun t ht => ?_⟩
    rw [List.mem_singleton.mp ht]
    exact ⟨.host 0x100040, by decide, reach_of_shape hc hcs, reach_of_shape hb hbs⟩
  · rw [(address_space_24_iff .m68000 rfl highDevice 0x1000040 (.bput 7)).2 (by decide) rfl]
    obtain ⟨c, hc, hcs⟩ : ∃ c, highDevice.map.bankAt 0x1000040 = some c ∧
        c.shape = (customBank 0x1000000 { Presence.none with r8 := true, w8 := true }).shape :=
      bankAt_mapCustom _ _ hsecond
    rintro (h | ⟨-, h⟩)
    · exact absurd h (by decide)
    · obtain ⟨r, hr, hreach, -⟩ := h _ (.head _)
      rw [show (0x1000040 : Long) + 0 = 0x1000040 from rfl, reach_of_shape hc hcs] at hreach
      exact hr (Option.some.inj hreach).symm

/-- Outside of the only region there is nothing. -/
theorem bankAt_uncovered {startAddr size addr : Long} (hostPtr : HostPtr) (flags : Long)
    (hout : ¬ Covered startAddr size (bankIndex addr)) :
    ∃ b, (runOps [.init, .mapPtr true startAddr size hostPtr flags]
        (.initial : MemState (Callbacks ω))).bankAt addr = some b ∧ b.handlers = .dummy := by
  let st : MemState (Callbacks ω) := runOps [.init] .initial
  have hst : Sound st := Sound.initial.runOps _
  have hkept := bankAt_mapPtr_other hostPtr flags hst hout
  have hdummy : (st.bankAt addr).map Addrbank.shape =
      some (Addrbank.zeroed .dummy abflagNone) := by
    have hbank : st.banks (bankIndex addr) = .dummy := (memoryInit_painted .initial).1 _
    show st.view (st.banks (bankIndex addr)) = _
    rw [hbank]
    exact (memoryInit_resets .initial).view .dummy
  rw [hdummy] at hkept
  obtain ⟨b, hb, hbs⟩ := Option.map_eq_some_iff.mp hkept
  exact ⟨b, hb, congrArg Addrbank.handlers hbs⟩

/-- A byte read 16 MB above RAM finds unmapped space, not the RAM. -/
theorem high_read_misses_ram :
    let env := MemEnv.bare (runOps [.init, .mapPtr true 0 0x10000 0x100000 0] .initial)
    let p := fixupCpu .m68000
    (p.addressSpace24 = true) ∧
      ¬ SameEffect ((setXFuncs p.toPrefs).access (fun _ _ => crash) env 0x1000000 .bget)
        ((setXFuncs p.toPrefs).access (fun _ _ => crash) env (munge24 p 0x1000000) .bget) := by
  intro env p
  have hin : Covered 0 0x10000 (bankIndex 0) := by unfold Covered Loop.Arc; decide
  have hout : ¬ Covered 0 0x10000 (bankIndex 0x1000000) := by unfold Covered Loop.Arc; decide
  obtain ⟨b, hb, hbs⟩ : ∃ b, env.map.bankAt 0 = some b ∧
      b.shape = (ramBank 0 0x10000 0x100000 0).shape := bankAt_mapPtr _ _ _ hin
  obtain ⟨c, hc, hdummy⟩ : ∃ c, env.map.bankAt 0x1000000 = some c ∧ c.handlers = .dummy :=
    bankAt_uncovered _ _ hout
  have hbacked : Backed .bget b := ⟨congrArg Addrbank.handlers hbs, rfl⟩
  refine ⟨rfl, fun h => ?_⟩
  rw [show munge24 p 0x1000000 = 0 by decide, show setXFuncs p.toPrefs = .plain by decide] at h
  have hsame : SameEffect (Access.bget.run env 0x1000000) (Access.bget.run env 0) := h
  rw [run_backed hb hbacked, run_unmapped hc hdummy rfl rfl] at hsame
  exact hostRun_not_framed (.holding fun _ => 0) (.pure _) hsame.symm

end UaeCpu
