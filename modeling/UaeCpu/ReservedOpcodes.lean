import UaeCpu.Dispatch

/-!
# UaeCpu.ReservedOpcodes

The dispatch table after any sequence of host calls.

* `buildCpufunctbl_reserved` — a table built with reservations against the one built without.
* `buildCpufunctbl_append`   — patching the live table is rebuilding it.
* `Reserving.built`          — in every reachable state the table is a fresh build.
-/

namespace UaeCpu

variable {H : Type}

/-! ## The two loops over the table -/

theorem uaeHostOpcodeReserved_append (ranges : Ranges) (r : Word × Word) (w : Word) :
    uaeHostOpcodeReserved (ranges ++ [r]) w =
      (uaeHostOpcodeReserved ranges w || (decide (r.1 ≤ w) && decide (w ≤ r.2))) := by
  simp [uaeHostOpcodeReserved]

@[simp] theorem uaeHostOpcodeReserved_nil (w : Word) : uaeHostOpcodeReserved [] w = false := rfl

section Apply

variable (core : CpuCore H) (ranges : Ranges) (t : Tables H) (w : Word)

theorem uaeHostApplyReservedOpcodes_cpufunctbl :
    (uaeHostApplyReservedOpcodes core ranges t).cpufunctbl w =
      if uaeHostOpcodeReserved ranges w then core.opIllg1 else t.cpufunctbl w := by
  refine Loop.visits (fun (t : Tables H) j => t.cpufunctbl j)
    (fun j h => if uaeHostOpcodeReserved ranges j then core.opIllg1 else h) rfl ?_ w
  intro i t j
  by_cases hj : j = BitVec.ofNat 16 i
  · subst hj
    rw [if_pos rfl]
    split <;> simp [Tables.set]
  · rw [if_neg hj]
    split
    · exact Function.update_of_ne hj _ _
    · rfl

theorem uaeHostApplyReservedOpcodes_cpufunctblNoret :
    (uaeHostApplyReservedOpcodes core ranges t).cpufunctblNoret w =
      if uaeHostOpcodeReserved ranges w then core.opIllg1Noret else t.cpufunctblNoret w := by
  refine Loop.visits (fun (t : Tables H) j => t.cpufunctblNoret j)
    (fun j h => if uaeHostOpcodeReserved ranges j then core.opIllg1Noret else h)
    rfl ?_ w
  intro i t j
  by_cases hj : j = BitVec.ofNat 16 i
  · subst hj
    rw [if_pos rfl]
    split <;> simp [Tables.set]
  · rw [if_neg hj]
    split
    · exact Function.update_of_ne hj _ _
    · rfl

end Apply

theorem Tables.ext_entries {t t' : Tables H} (h : ∀ w, t.cpufunctbl w = t'.cpufunctbl w)
    (hNoret : ∀ w, t.cpufunctblNoret w = t'.cpufunctblNoret w) : t = t' := by
  cases t
  cases t'
  rw [Tables.mk.injEq]
  exact ⟨funext h, funext hNoret⟩

section Patch

variable (core : CpuCore H)

theorem uaeHostApplyReservedOpcodes_nil (t : Tables H) :
    uaeHostApplyReservedOpcodes core [] t = t := by
  apply Tables.ext_entries
  · intro w
    rw [uaeHostApplyReservedOpcodes_cpufunctbl]
    simp
  · intro w
    rw [uaeHostApplyReservedOpcodes_cpufunctblNoret]
    simp

/-- A word reserved before stays patched, so the live table needs only the longer list. -/
theorem uaeHostApplyReservedOpcodes_append (ranges : Ranges) (r : Word × Word) (t : Tables H) :
    uaeHostApplyReservedOpcodes core (ranges ++ [r])
        (uaeHostApplyReservedOpcodes core ranges t) =
      uaeHostApplyReservedOpcodes core (ranges ++ [r]) t := by
  apply Tables.ext_entries
  · intro w
    simp only [uaeHostApplyReservedOpcodes_cpufunctbl, uaeHostOpcodeReserved_append]
    by_cases h : uaeHostOpcodeReserved ranges w <;> simp [h]
  · intro w
    simp only [uaeHostApplyReservedOpcodes_cpufunctblNoret, uaeHostOpcodeReserved_append]
    by_cases h : uaeHostOpcodeReserved ranges w <;> simp [h]

end Patch

theorem doByteswap16_doByteswap16 (v : Word) : doByteswap16 (doByteswap16 v) = v := by
  unfold doByteswap16
  apply BitVec.eq_of_getLsbD_eq
  intro i hi
  simp only [BitVec.getLsbD_append, BitVec.getLsbD_extractLsb']
  grind

theorem doByteswap16_inj {v w : Word} : doByteswap16 v = doByteswap16 w ↔ v = w := by
  constructor
  · intro h
    rw [← doByteswap16_doByteswap16 v, h, doByteswap16_doByteswap16]
  · rintro rfl
    rfl

theorem swapTable_doByteswap16 (tmp : Word → H) (w : Word) :
    swapTable tmp (doByteswap16 w) = tmp w := by
  refine Loop.visits (fun (t : Word → H) j => t (doByteswap16 j)) (fun j _ => tmp j) rfl ?_ w
  intro i t j
  simp only [Function.update_apply, doByteswap16_inj]
  by_cases hj : j = BitVec.ofNat 16 i
  · rw [if_pos hj, if_pos hj, hj]
  · rw [if_neg hj, if_neg hj]

/-! ## One build -/

/-- The index `cpufunctbl` holds an opcode at. -/
def opcodeSlot (swap : Bool) (w : Word) : Word := if swap then doByteswap16 w else w

section Build

variable [DecidableEq H] (core : CpuCore H) {p : DispatchPrefs} {ranges : Ranges}
  {t : Tables H} {swap : Bool}

theorem buildCpufunctbl_swap (h : buildCpufunctbl core p ranges = some (t, swap)) :
    swap = decide (core.getWordUnswapped ∧ p.cachesize ≠ 0) := by
  unfold buildCpufunctbl at h
  cases hb : baseTables core p with
  | none => rw [hb] at h; cases h
  | some b =>
    rw [hb] at h
    dsimp only at h
    split at h
    · next hc => cases h; exact (decide_eq_true hc).symm
    · next hc => cases h; exact (decide_eq_false hc).symm

theorem buildCpufunctbl_entry {b : Tables H} (hb : baseTables core p = some b)
    (h : buildCpufunctbl core p ranges = some (t, swap)) (w : Word) :
    t.cpufunctbl (opcodeSlot swap w) =
      if uaeHostOpcodeReserved ranges w then core.opIllg1 else b.cpufunctbl w := by
  unfold buildCpufunctbl at h
  rw [hb] at h
  dsimp only at h
  split at h
  · cases h
    rw [opcodeSlot, if_pos rfl]
    dsimp only
    rw [swapTable_doByteswap16, uaeHostApplyReservedOpcodes_cpufunctbl]
  · cases h
    rw [opcodeSlot, if_neg (by decide), uaeHostApplyReservedOpcodes_cpufunctbl]

theorem baseTables_of_build (h : buildCpufunctbl core p ranges = some (t, swap)) :
    ∃ b, baseTables core p = some b := by
  unfold buildCpufunctbl at h
  cases hb : baseTables core p with
  | none => rw [hb] at h; cases h
  | some b => exact ⟨b, rfl⟩

theorem buildCpufunctbl_unswapped (ranges : Ranges) {b : Tables H}
    (hb : baseTables core p = some b) (hswap : core.getWordUnswapped = false) :
    buildCpufunctbl core p ranges = some (uaeHostApplyReservedOpcodes core ranges b, false) := by
  unfold buildCpufunctbl
  rw [hb, hswap]
  rfl

theorem baseTables_of_illg {tbl : List (CpuTbl H)} (hillg : ∀ w, (core.table68k w).illg = true)
    (htbl : core.cputbls (tableLevel p) (tableMode p) = some tbl) :
    baseTables core p = some (installHandlers core p tbl) := by
  unfold baseTables
  rw [htbl]
  refine Loop.inv (fun t => t = some (installHandlers core p tbl)) rfl ?_
  rintro i t - rfl
  dsimp only [shareHandler]
  rw [if_pos (hillg _)]

theorem buildCpufunctbl_of_base (ranges : Ranges) {b : Tables H}
    (hb : baseTables core p = some b) :
    ∃ t swap, buildCpufunctbl core p ranges = some (t, swap) := by
  unfold buildCpufunctbl
  rw [hb]
  dsimp only
  split <;> exact ⟨_, _, rfl⟩

theorem buildCpufunctbl_reserved (h : buildCpufunctbl core p ranges = some (t, swap)) :
    ∃ t₀, buildCpufunctbl core p [] = some (t₀, swap) ∧
      ∀ w, t.cpufunctbl (opcodeSlot swap w) =
        if uaeHostOpcodeReserved ranges w then core.opIllg1
        else t₀.cpufunctbl (opcodeSlot swap w) := by
  obtain ⟨b, hb⟩ := baseTables_of_build core h
  obtain ⟨t₀, swap₀, h₀⟩ := buildCpufunctbl_of_base core [] hb
  have hswap : swap₀ = swap :=
    (buildCpufunctbl_swap core h₀).trans (buildCpufunctbl_swap core h).symm
  subst hswap
  refine ⟨t₀, h₀, ?_⟩
  intro w
  rw [buildCpufunctbl_entry core hb h, buildCpufunctbl_entry core hb h₀]
  simp

/-- Where the table is not permuted, patching it is rebuilding it. -/
theorem buildCpufunctbl_append (r : Word × Word) (hc : p.cachesize = 0)
    (h : buildCpufunctbl core p ranges = some (t, swap)) :
    buildCpufunctbl core p (ranges ++ [r]) =
      some (uaeHostApplyReservedOpcodes core (ranges ++ [r]) t, swap) := by
  have hno : ¬(core.getWordUnswapped = true ∧ p.cachesize ≠ 0) := fun hs => hs.2 hc
  obtain ⟨b, hb⟩ := baseTables_of_build core h
  unfold buildCpufunctbl at h ⊢
  rw [hb] at h ⊢
  dsimp only at h ⊢
  rw [if_neg hno] at h ⊢
  cases h
  rw [uaeHostApplyReservedOpcodes_append]

end Build

/-! ## Sequences of calls -/

/-- A call of the host; `allocOk` says whether the JIT gets memory in it. -/
inductive ReserveCall where
  | reserveOpcodes (allocOk : Bool) (first last : Word)
  | clearReservedOpcodes (allocOk : Bool)
  | setConfig (allocOk : Bool) (cfg : UaeCpuConfig)

/-- The call's result, 0 for those that return nothing, and the state after it. -/
def ReserveCall.perform [DecidableEq H] (core : CpuCore H) :
    ReserveCall → DispatchState H → Option (Int × DispatchState H)
  | .reserveOpcodes allocOk first last, s => uaeHostReserveOpcodes core allocOk first last s
  | .clearReservedOpcodes allocOk, s => do
    let s' ← uaeHostClearReservedOpcodes core allocOk s
    return (0, s')
  | .setConfig allocOk cfg, s => do
    let s' ← uaeCpuSetConfig core allocOk cfg s
    return (0, s')

/-- `Reserving core log s`: the calls of `log`, the latest first and each with its result, lead
from `uae_cpu_global_init` to `s`. -/
inductive Reserving [DecidableEq H] (core : CpuCore H) :
    List (ReserveCall × Int) → DispatchState H → Prop where
  | globalInit {allocOk : Bool} {s : DispatchState H} :
      initM68k core allocOk PrefsState.initial [] = some s → Reserving core [] s
  | call {log : List (ReserveCall × Int)} {s s' : DispatchState H} {c : ReserveCall} {r : Int} :
      Reserving core log s → c.perform core s = some (r, s') → Reserving core ((c, r) :: log) s'

/-- `w` lies in a range reserved, with success, since the last clear. -/
def ReservedSinceClear (w : Word) : List (ReserveCall × Int) → Prop
  | [] => False
  | (.clearReservedOpcodes _, _) :: _ => False
  | (.setConfig _ _, _) :: log => ReservedSinceClear w log
  | (.reserveOpcodes _ first last, r) :: log =>
    (r = 0 ∧ first ≤ w ∧ w ≤ last) ∨ ReservedSinceClear w log

section Runs

variable [DecidableEq H] {core : CpuCore H} {log : List (ReserveCall × Int)}
  {s s' : DispatchState H} {allocOk : Bool}

theorem initM68k_cases {prefs : PrefsState} {ranges : Ranges}
    (h : initM68k core allocOk prefs ranges = some s) :
    s.prefs = prefsChangedCpu allocOk prefs ∧ s.ranges = ranges ∧
      buildCpufunctbl core s.prefs.currprefs s.ranges = some (s.tables, s.needOpcodeSwap) := by
  unfold initM68k at h
  dsimp only at h
  cases hb : buildCpufunctbl core (prefsChangedCpu allocOk prefs).currprefs ranges with
  | none => rw [hb] at h; cases h
  | some b =>
    rw [hb] at h
    cases h
    exact ⟨rfl, rfl, hb⟩

theorem initM68k_of_build {prefs : PrefsState} {ranges : Ranges} {t : Tables H} {swap : Bool}
    (h : buildCpufunctbl core (prefsChangedCpu allocOk prefs).currprefs ranges = some (t, swap)) :
    initM68k core allocOk prefs ranges = some
      { prefs := prefsChangedCpu allocOk prefs, ranges := ranges, tables := t,
        needOpcodeSwap := swap } := by
  unfold initM68k
  dsimp only
  rw [h]

theorem uaeHostReserveOpcodes_patch {first last : Word} (hj : core.jit = false)
    (hle : first ≤ last) (hlen : s.ranges.length < uaeHostMaxReservedRanges) :
    ∃ s', uaeHostReserveOpcodes core allocOk first last s = some (0, s') := by
  unfold uaeHostReserveOpcodes
  rw [if_neg (not_or.mpr ⟨BitVec.not_lt.mpr hle, Nat.not_le.mpr hlen⟩)]
  exact ⟨_, if_neg (by simp [hj])⟩

theorem uaeHostReserveOpcodes_cases {first last : Word} {r : Int}
    (h : uaeHostReserveOpcodes core allocOk first last s = some (r, s')) :
    (r = -1 ∧ s' = s) ∨
    (r = 0 ∧ s'.ranges = s.ranges ++ [(first, last)] ∧
      (initM68k core allocOk s.prefs (s.ranges ++ [(first, last)]) = some s' ∨
        ¬(core.jit = true ∧ s.prefs.currprefs.cachesize ≠ 0) ∧
        s' = { s with
          ranges := s.ranges ++ [(first, last)]
          tables := uaeHostApplyReservedOpcodes core (s.ranges ++ [(first, last)])
            s.tables })) := by
  unfold uaeHostReserveOpcodes at h
  split at h
  · cases h
    exact .inl ⟨rfl, rfl⟩
  · dsimp only at h
    split at h
    · cases hi : initM68k core allocOk s.prefs (s.ranges ++ [(first, last)]) with
      | none => rw [hi] at h; cases h
      | some s₁ =>
        rw [hi] at h
        cases h
        exact .inr ⟨rfl, (initM68k_cases hi).2.1, .inl rfl⟩
    · next hc =>
      cases h
      exact .inr ⟨rfl, rfl, .inr ⟨hc, rfl⟩⟩

theorem clear_cases {r : Int}
    (h : (ReserveCall.clearReservedOpcodes allocOk).perform core s = some (r, s')) :
    r = 0 ∧ initM68k core allocOk s.prefs [] = some s' := by
  obtain ⟨s₁, hs₁, hr⟩ := Option.bind_eq_some_iff.mp h
  cases hr
  exact ⟨rfl, hs₁⟩

theorem setConfig_cases {cfg : UaeCpuConfig} {r : Int}
    (h : (ReserveCall.setConfig allocOk cfg).perform core s = some (r, s')) :
    r = 0 ∧ uaeCpuSetConfig core allocOk cfg s = some s' := by
  obtain ⟨s₁, hs₁, hr⟩ := Option.bind_eq_some_iff.mp h
  cases hr
  exact ⟨rfl, hs₁⟩

/-- No preferences ask for a translation cache. -/
def PrefsState.NoCache (prefs : PrefsState) : Prop :=
  prefs.currprefs.cachesize = 0 ∧ prefs.changedPrefs.cachesize = 0

theorem checkPrefsChangedComp_noCache {prefs : PrefsState} (h : prefs.NoCache) :
    (checkPrefsChangedComp allocOk prefs).NoCache := by
  unfold checkPrefsChangedComp
  dsimp only
  rw [if_pos (h.1.trans h.2.symm)]
  split
  · exact h
  · exact h

theorem fixupFpu_cachesize (p : DispatchPrefs) : p.fixupFpu.cachesize = p.cachesize := by
  unfold DispatchPrefs.fixupFpu
  split <;> rfl

theorem prefsChangedCpu_noCache {prefs : PrefsState} (h : prefs.NoCache) :
    (prefsChangedCpu allocOk prefs).NoCache := by
  have hfix : PrefsState.NoCache { prefs with changedPrefs := prefs.changedPrefs.fixupFpu } :=
    ⟨h.1, (fixupFpu_cachesize _).trans h.2⟩
  exact checkPrefsChangedComp_noCache hfix

/-- The invariant: the table is a fresh build, and without the JIT there is no cache. -/
structure Built (core : CpuCore H) (s : DispatchState H) : Prop where
  fresh : buildCpufunctbl core s.prefs.currprefs s.ranges = some (s.tables, s.needOpcodeSwap)
  noCache : core.jit = false → s.prefs.NoCache

theorem Built.of_init {prefs : PrefsState} {ranges : Ranges}
    (h : initM68k core allocOk prefs ranges = some s)
    (hcache : core.jit = false → prefs.NoCache) : Built core s := by
  obtain ⟨hp, -, hb⟩ := initM68k_cases h
  refine ⟨hb, ?_⟩
  intro hj
  rw [hp]
  exact prefsChangedCpu_noCache (hcache hj)

/-- With a cache the table is rebuilt; without one it is not permuted and can be patched. -/
theorem Built.reserve {first last : Word} {r : Int} (hs : Built core s)
    (h : uaeHostReserveOpcodes core allocOk first last s = some (r, s')) : Built core s' := by
  rcases uaeHostReserveOpcodes_cases h with ⟨-, rfl⟩ | ⟨-, -, hi | ⟨hc, rfl⟩⟩
  · exact hs
  · exact .of_init hi hs.noCache
  · have hcache : s.prefs.currprefs.cachesize = 0 := by
      by_cases hj : core.jit = true
      · by_contra hne
        exact hc ⟨hj, hne⟩
      · exact (hs.noCache (Bool.eq_false_of_not_eq_true hj)).1
    exact ⟨buildCpufunctbl_append core (first, last) hcache hs.fresh, hs.noCache⟩

theorem Built.setConfig {cfg : UaeCpuConfig} (h : uaeCpuSetConfig core allocOk cfg s = some s') :
    Built core s' := by
  refine .of_init h ?_
  intro hj
  unfold configureJitPrefs
  rw [hj, if_neg (by decide)]
  exact ⟨fixupFpu_cachesize _, rfl⟩

theorem Built.perform {c : ReserveCall} {r : Int} (hs : Built core s)
    (h : c.perform core s = some (r, s')) : Built core s' := by
  cases c with
  | reserveOpcodes allocOk first last => exact hs.reserve h
  | clearReservedOpcodes allocOk => exact .of_init (clear_cases h).2 hs.noCache
  | setConfig allocOk cfg => exact .setConfig (setConfig_cases h).2

theorem Reserving.built (h : Reserving core log s) : Built core s := by
  induction h with
  | globalInit hi => exact .of_init hi fun _ => ⟨rfl, rfl⟩
  | call _ hc ih => exact ih.perform hc

/-- One call: the ranges the host holds are those the log asks for. -/
theorem perform_reserved {c : ReserveCall} {r : Int} {w : Word}
    (ih : uaeHostOpcodeReserved s.ranges w = true ↔ ReservedSinceClear w log)
    (h : c.perform core s = some (r, s')) :
    uaeHostOpcodeReserved s'.ranges w = true ↔ ReservedSinceClear w ((c, r) :: log) := by
  cases c with
  | reserveOpcodes allocOk first last =>
    rw [ReservedSinceClear, ← ih]
    rcases uaeHostReserveOpcodes_cases h with ⟨rfl, rfl⟩ | ⟨rfl, hr, -⟩
    · simp
    · rw [hr, uaeHostOpcodeReserved_append]
      simp [or_comm]
  | clearReservedOpcodes allocOk =>
    rw [(initM68k_cases (clear_cases h).2).2.1, ReservedSinceClear]
    simp
  | setConfig allocOk cfg =>
    rw [(initM68k_cases (setConfig_cases h).2).2.1, ReservedSinceClear]
    exact ih

theorem Reserving.reserved (h : Reserving core log s) (w : Word) :
    uaeHostOpcodeReserved s.ranges w = true ↔ ReservedSinceClear w log := by
  induction h with
  | globalInit hi =>
    rw [(initM68k_cases hi).2.1, ReservedSinceClear]
    simp
  | call _ hc ih => exact perform_reserved ih hc

theorem Reserving.reserve_first {t : Tables H} {swap : Bool} {first last : Word}
    (hj : core.jit = false) (hle : first ≤ last)
    (h : buildCpufunctbl core (prefsChangedCpu allocOk .initial).currprefs [] = some (t, swap)) :
    ∃ s, Reserving core [(.reserveOpcodes allocOk first last, 0)] s := by
  have hinit := initM68k_of_build h
  obtain ⟨s, hs⟩ : ∃ s, uaeHostReserveOpcodes core allocOk first last
      { prefs := prefsChangedCpu allocOk .initial, ranges := [], tables := t,
        needOpcodeSwap := swap } = some (0, s) :=
    uaeHostReserveOpcodes_patch hj hle (Nat.succ_pos 15)
  exact ⟨s, .call (.globalInit hinit) hs⟩

theorem perform_failed {c : ReserveCall} (h : c.perform core s = some (-1, s')) : s' = s := by
  cases c with
  | reserveOpcodes allocOk first last =>
    rcases uaeHostReserveOpcodes_cases h with ⟨-, hs⟩ | ⟨hr, -⟩
    · exact hs
    · cases hr
  | clearReservedOpcodes allocOk => cases (clear_cases h).1
  | setConfig allocOk cfg => cases (setConfig_cases h).1

end Runs

/-- After any sequence of calls a reserved opcode dispatches to `op_illg_1` and every other one
to the entry of a build without reservations; a call that fails changes nothing. -/
theorem reserved_opcodes_dispatch [DecidableEq H] {core : CpuCore H}
    {log : List (ReserveCall × Int)} {s : DispatchState H} (h : Reserving core log s) :
    (∃ t, buildCpufunctbl core s.prefs.currprefs [] = some (t, s.needOpcodeSwap) ∧
      ∀ w,
        (ReservedSinceClear w log →
          s.tables.cpufunctbl (opcodeSlot s.needOpcodeSwap w) = core.opIllg1) ∧
        (¬ReservedSinceClear w log →
          s.tables.cpufunctbl (opcodeSlot s.needOpcodeSwap w) =
            t.cpufunctbl (opcodeSlot s.needOpcodeSwap w))) ∧
    ∀ (c : ReserveCall) (s' : DispatchState H), c.perform core s = some (-1, s') → s' = s := by
  obtain ⟨t, ht, hentry⟩ := buildCpufunctbl_reserved core h.built.fresh
  refine ⟨⟨t, ht, ?_⟩, fun c s' hc => perform_failed hc⟩
  intro w
  have hw := h.reserved w
  rw [hentry w]
  constructor
  · intro hr
    rw [if_pos (hw.mpr hr)]
  · intro hr
    rw [if_neg (mt hw.mp hr)]

/-- A core of `NOP` and `STOP` alone, whose handlers are numbers. -/
def nopCore : CpuCore Nat :=
  { cputbls := fun _ _ => some [⟨1, 1, 0x4E71⟩, ⟨2, 2, 0x4E72⟩]
    opSmalltbl3 := []
    table68k := fun _ => { illg := true, clev := 0, unimpclev := 0, handler := none }
    opIllg1 := 0
    opIllg1Noret := 0
    opUnimpl1 := 0
    opUnimpl1Noret := 0
    jit := false
    getWordUnswapped := false }

theorem nopCore_build (p : DispatchPrefs) (ranges : Ranges) :
    buildCpufunctbl nopCore p ranges = some (uaeHostApplyReservedOpcodes nopCore ranges
      (installHandlers nopCore p [⟨1, 1, 0x4E71⟩, ⟨2, 2, 0x4E72⟩]), false) :=
  buildCpufunctbl_unswapped nopCore ranges (baseTables_of_illg nopCore (fun _ => rfl) rfl) rfl

theorem nopCore_nop (p : DispatchPrefs) :
    (installHandlers nopCore p [⟨1, 1, 0x4E71⟩, ⟨2, 2, 0x4E72⟩]).cpufunctbl 0x4E71 = 1 := by
  unfold installHandlers
  split <;> rfl

theorem nopCore_init (allocOk : Bool) (prefs : PrefsState) (ranges : Ranges) :
    ∃ s, initM68k nopCore allocOk prefs ranges = some s ∧ s.ranges = ranges :=
  ⟨_, initM68k_of_build (nopCore_build _ ranges), rfl⟩

theorem nopCore_setConfig (allocOk : Bool) (cfg : UaeCpuConfig) (s : DispatchState Nat) :
    ∃ s', uaeCpuSetConfig nopCore allocOk cfg s = some s' := by
  unfold uaeCpuSetConfig
  extract_lets _ _ _ _ prefs
  obtain ⟨s', hs', -⟩ := nopCore_init allocOk prefs s.ranges
  exact ⟨s', hs'⟩

def config68030 : UaeCpuConfig := ⟨68030, 68882, 0, 0, false, 0, false⟩

/-- NOP is reserved, the configuration changes, the reservation is cleared, and STOP is reserved. -/
theorem nop_reserved_dispatch :
    ∃ s, Reserving nopCore
        [(.reserveOpcodes true 0x4E72 0x4E72, 0), (.clearReservedOpcodes true, 0), (.setConfig true config68030, 0),
          (.reserveOpcodes true 0x4E71 0x4E71, 0)] s ∧
      s.tables.cpufunctbl 0x4E71 = 1 ∧ s.tables.cpufunctbl 0x4E72 = 0 := by
  obtain ⟨s₁, hrun₁⟩ : ∃ s, Reserving nopCore [(.reserveOpcodes true 0x4E71 0x4E71, 0)] s :=
    Reserving.reserve_first rfl (BitVec.le_refl 0x4E71) (nopCore_build _ [])
  obtain ⟨s₂, hs₂⟩ := nopCore_setConfig true config68030 s₁
  have hrun₂ : Reserving nopCore _ s₂ := .call hrun₁ (c := .setConfig true config68030) (r := 0) (by
    rw [ReserveCall.perform, hs₂]
    rfl)
  obtain ⟨s₃, hs₃, hnone⟩ := nopCore_init true s₂.prefs []
  have hrun₃ : Reserving nopCore _ s₃ := .call hrun₂ (c := .clearReservedOpcodes true) (r := 0) (by
    rw [ReserveCall.perform, uaeHostClearReservedOpcodes, hs₃]
    rfl)
  obtain ⟨s, hs⟩ : ∃ s, uaeHostReserveOpcodes nopCore true 0x4E72 0x4E72 s₃ = some (0, s) :=
    uaeHostReserveOpcodes_patch rfl (BitVec.le_refl 0x4E72) (by rw [hnone]; decide)
  have hrun := hrun₃.call (c := .reserveOpcodes true 0x4E72 0x4E72) hs
  obtain ⟨⟨t, ht, hw⟩, -⟩ := reserved_opcodes_dispatch hrun
  rw [nopCore_build, Option.some.injEq, Prod.mk.injEq, uaeHostApplyReservedOpcodes_nil] at ht
  obtain ⟨rfl, hswap⟩ := ht
  rw [← hswap] at hw
  have hnop := (hw 0x4E71).2 (by simp [ReservedSinceClear])
  have hstop := (hw 0x4E72).1 (.inl ⟨rfl, by decide, by decide⟩)
  exact ⟨s, hrun, hnop.trans (nopCore_nop _), hstop⟩

end UaeCpu
