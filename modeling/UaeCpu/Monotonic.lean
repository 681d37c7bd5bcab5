import UaeCpu.Calls

/-!
# UaeCpu.Monotonic

The clock the host reads, `uae_host_cycles`, along every run of the system.

* `step_hostCycles_le`  — a step never moves the clock back, unless it is the reset of the
                          cycle-exact exception or a block that overflows the countdown.
* `clock_monotonic`     — so a run without these never does, and a call of `uae_host_run` returns
                          what the clock moved by.
-/

namespace UaeCpu

open Fault FaultM Trans

variable {μ : Type} {h : Host μ}

/-! ## Ticks -/

namespace Clock

/-- The ticks counted so far, those of compiled code included. -/
def ticks (k : Clock) : Int := if k.jitRunActive then k.currcycle + k.consumed else k.currcycle

theorem hostCycles_eq (k : Clock) :
    k.hostCycles = if 0 < k.ticks then k.ticks / cycleUnit else 0 := rfl

theorem hostCycles_mono {k k' : Clock} (hk : k.ticks ≤ k'.ticks) :
    k.hostCycles ≤ k'.hostCycles := by
  simp only [hostCycles_eq, cycleUnit]
  split <;> split <;> omega

theorem hostCycles_nonneg (k : Clock) : 0 ≤ k.hostCycles := by
  simp only [hostCycles_eq, cycleUnit]
  split <;> omega

/-- `do_cycles` adds exactly what it is given, whatever the countdown holds. -/
theorem doCycles_ticks (n : Int) (k : Clock) : (k.doCycles n).1.ticks = k.ticks + n := by
  simp only [doCycles]
  cases ha : k.jitRunActive
  · simp [ticks, ha]
  · simp only [if_true, jitDoCycles, ticks, ha, consumed, BitVec.sub_self, BitVec.toInt_zero]
    omega

theorem doCycles_active (n : Int) (k : Clock) :
    (k.doCycles n).1.jitRunActive = k.jitRunActive := by
  simp only [doCycles]
  split <;> rfl

end Clock

theorem addTicks_ticks (n : Int) (c : Cpu μ) :
    (c.addTicks n).clock.ticks = c.clock.ticks + n := by
  cases ha : c.clock.jitRunActive
  · simp [Cpu.addTicks, Clock.ticks, ha]
  · simp only [Cpu.addTicks, Clock.ticks, Clock.consumed, ha, if_true]
    omega

theorem resetClock_ticks (c : Cpu μ) : (ce000ResetClock c).clock.ticks = 0 := by
  simp only [ce000ResetClock, Cpu.doCycles, Clock.doCycles]
  by_cases ha : c.clock.jitRunActive = true
  · simp [ha, Clock.jitDoCycles, Clock.ticks, Clock.consumed]
  · simp [ha, Clock.ticks]

/-- A block adds its ticks as long as the 32-bit difference has room for them. -/
theorem jitBlock_ticks {n : Nat} {c : Cpu μ} (ha : c.clock.jitRunActive = true)
    (hn : (n : Int) ≤ intMax) (hroom : c.clock.consumed + n ≤ intMax) :
    (c.jitBlock n).clock.ticks = c.clock.ticks + n := by
  have hsub : (c.clock.pissoffValue - (c.clock.pissoff - BitVec.ofNat 32 n)).toInt =
      c.clock.consumed + n := by
    have he : c.clock.pissoffValue - (c.clock.pissoff - BitVec.ofNat 32 n) =
        (c.clock.pissoffValue - c.clock.pissoff) + BitVec.ofNat 32 n := by bv_omega
    have hlo := BitVec.le_toInt (x := c.clock.pissoffValue - c.clock.pissoff)
    simp only [intMax, Clock.consumed] at *
    rw [he, BitVec.toInt_add, BitVec.toInt_ofNat', Int.bmod_eq_of_le (n := (n : Int)),
      Int.bmod_eq_of_le] <;> omega
  have hafter : ∀ k : Clock, k.jitRunActive = true → k.consumed = c.clock.consumed + n →
      k.currcycle = c.clock.currcycle → k.ticks = c.clock.ticks + n := by
    intro k hk hc hcur
    simp only [Clock.ticks, hk, ha, if_true, hc, hcur]
    omega
  simp only [Cpu.jitBlock]
  split
  · simp only [Cpu.doCycles, Clock.doCycles_ticks, add_zero]
    exact hafter _ ha hsub rfl
  · exact hafter _ ha hsub rfl

/-! ## Steps -/

/-- Translated code runs exactly when the outermost call is on the JIT path. -/
def JitBottom (active : Bool) : List Call → Prop
  | [] => active = false
  | [k] => active = true ↔ k.kind = .jit
  | k :: rest => k.kind ≠ .jit ∧ JitBottom active rest

theorem JitBottom.cons {active : Bool} {k : Call} {rest : List Call}
    (hb : JitBottom active rest) (hk : k.kind ≠ .jit) : JitBottom active (k :: rest) := by
  cases rest with
  | nil => simpa [JitBottom, hk] using hb
  | cons k' rest => exact ⟨hk, hb⟩

theorem JitBottom.head {active : Bool} {k k' : Call} {rest : List Call}
    (hb : JitBottom active (k :: rest)) (hk : k'.kind = k.kind) :
    JitBottom active (k' :: rest) := by
  cases rest with
  | nil => simpa [JitBottom, hk] using hb
  | cons k₁ rest => exact ⟨hk ▸ hb.1, hb.2⟩

theorem JitBottom.tail {active : Bool} {k : Call} {rest : List Call}
    (hb : JitBottom active (k :: rest)) (hk : k.kind ≠ .jit) : JitBottom active rest := by
  cases rest with
  | nil => simpa [JitBottom, hk] using hb
  | cons k₁ rest => exact hb.2

theorem JitBottom.unique : ∀ {k : List Call} {a b : Bool}, JitBottom a k → JitBottom b k → a = b
  | [], _, _, ha, hb => ha.trans hb.symm
  | [_], _, _, ha, hb => Bool.eq_iff_iff.mpr (ha.trans hb.symm)
  | _ :: _ :: _, _, _, ha, hb => unique ha.2 hb.2

theorem JitBottom.jit {active : Bool} {k : Call} {rest : List Call}
    (hb : JitBottom active (k :: rest)) (hk : k.kind = .jit) : active = true ∧ rest = [] := by
  cases rest with
  | nil => exact ⟨hb.mpr hk, rfl⟩
  | cons k₁ rest => exact absurd hk hb.1

theorem CallStep.kind {k k' : Call} {s : Sys μ} {e : Event} {c' : Cpu μ} {w : Option Nat}
    (hs : CallStep h k s e k' c' w) : k'.kind = k.kind := by
  cases hs <;> rfl

theorem promote_clock (spc : SpcFlags) (c : Cpu μ) : (c.promote spc).clock = c.clock := by
  simp only [Cpu.promote]
  split <;> rfl

theorem CallStep.clock {k k' : Call} {s : Sys μ} {e : Event} {c' : Cpu μ} {w : Option Nat}
    (hs : CallStep h k s e k' c' w) : c'.clock = s.cpu.clock := by
  cases hs <;> first | rfl | exact promote_clock _ _

/-- The countdown is in use exactly during a call on the JIT path. -/
def JitCalls (s : Sys μ) : Prop := JitBottom s.cpu.clock.jitRunActive s.calls

/-- What the clock relies on. -/
structure ClockInv (s : Sys μ) : Prop where
  nonneg : 0 ≤ s.cpu.clock.ticks
  jit : JitCalls s

/-- The steps that may move the clock back: a cycle-exact exception once a cycle has been
counted, and a block that the 32-bit countdown has no room for. -/
def ClockSafe (s : Sys μ) : Event → Prop
  | .resetClock => s.cpu.clock.hostCycles = 0
  | .block n => s.cpu.clock.consumed + n ≤ intMax
  | _ => True

/-- A step that leaves the clock, the countdown and the kinds of the calls alone. -/
theorem JitCalls.same {s s' : Sys μ} (hj : JitCalls s) (hc : s'.cpu.clock = s.cpu.clock)
    (hk : s'.calls = s.calls) : JitCalls s' ∧ s.cpu.clock.ticks ≤ s'.cpu.clock.ticks := by
  simp only [JitCalls, hc, hk, le_refl, and_true]
  exact hj

/-- A step that adds ticks. -/
theorem JitCalls.add {s s' : Sys μ} (hj : JitCalls s) (n : Nat)
    (hc : s'.cpu.clock.ticks = s.cpu.clock.ticks + n)
    (ha : s'.cpu.clock.jitRunActive = s.cpu.clock.jitRunActive) (hk : s'.calls = s.calls) :
    JitCalls s' ∧ s.cpu.clock.ticks ≤ s'.cpu.clock.ticks := by
  simp only [JitCalls, ha, hk]
  exact ⟨hj, by omega⟩

theorem jitBlock_active (n : Nat) (c : Cpu μ) :
    (c.jitBlock n).clock.jitRunActive = c.clock.jitRunActive := by
  simp only [Cpu.jitBlock]
  split
  · exact Clock.doCycles_active 0 _
  · rfl

theorem enterRun_clock (c : Cpu μ) : (enterRun h c).clock = c.clock := by
  simp only [enterRun]
  split <;> rfl

theorem setIrq_clock (l : Long) (c : Cpu μ) : (setIrq l c).clock = c.clock := by
  simp only [setIrq]
  split <;> rfl

theorem setVirq_clock (l : Long) (a : Bool) (c : Cpu μ) : (setVirq l a c).clock = c.clock := by
  simp only [setVirq]
  split <;> split <;> rfl

/-- A step that meets the condition takes no tick back, except for the reset of the cycle-exact
exception. -/
theorem step_ticks_le {s s' : Sys μ} {e : Event} (hi : JitCalls s)
    (hs : Guarded (Step h) ClockSafe s e s') (he : e ≠ .resetClock) :
    JitCalls s' ∧ s.cpu.clock.ticks ≤ s'.cpu.clock.ticks := by
  obtain ⟨hsafe, hs⟩ := hs
  cases hs with
  | quiet hin hq => exact hi.same hq.clock rfl
  | ticks n hin => exact hi.add n (Clock.doCycles_ticks n _) (Clock.doCycles_active n _) rfl
  | exactTicks n hin hce => exact hi.add n (addTicks_ticks n _) rfl rfl
  | resetClock => exact absurd rfl he
  | block n hin ha h0 hn =>
    exact hi.add n (jitBlock_ticks ha hn hsafe) (jitBlock_active n _) rfl
  | writeSR k v hin => exact hi.same rfl rfl
  | setIrq l hin => exact hi.same (setIrq_clock l _) rfl
  | setVirq l a hin => exact hi.same (setVirq_clock l a _) rfl
  | endTimeslice hin => exact hi.same rfl rfl
  | raiseMask hc => exact hi.same rfl rfl
  | enterRun cycles hin hj =>
    simp only [JitCalls, enterRun_clock, le_refl, and_true]
    exact JitBottom.cons hi (by simp)
  | enterJit cycles hcalls hj =>
    have hoff : s.cpu.clock.jitRunActive = false := by
      simpa only [JitCalls, hcalls, JitBottom] using hi
    have ht : ((enterRun h s.cpu).jitStart cycles).clock.ticks = s.cpu.clock.ticks := by
      simp [Cpu.jitStart, JitClock.start, Clock.ticks, Clock.consumed, hoff, enterRun_clock]
    refine ⟨?_, ht.ge⟩
    simp [JitCalls, JitBottom, Cpu.jitStart, JitClock.start]
  | enterStep hin => exact ⟨JitBottom.cons hi (by simp), le_refl _⟩
  | call hcalls hk =>
    simp only [JitCalls, hcalls] at hi
    simp only [JitCalls, hk.clock, le_refl, and_true]
    exact hi.head hk.kind
  | @leave k r rest hcalls =>
    simp only [JitCalls, hcalls] at hi
    cases k with
    | jit =>
      obtain ⟨ha, rfl⟩ := hi.jit rfl
      have ht : (CallKind.jit.close s.cpu).clock.ticks = s.cpu.clock.ticks := by
        simp [CallKind.close, leaveRun, Cpu.jitFinish, Clock.ticks, ha]
      exact ⟨rfl, ht.ge⟩
    | run target => exact ⟨hi.tail (by simp), le_refl _⟩
    | step => exact ⟨hi.tail (by simp), le_refl _⟩

/-- So it never moves the clock back. -/
theorem step_hostCycles_le {s s' : Sys μ} {e : Event} (hi : ClockInv s)
    (hs : Guarded (Step h) ClockSafe s e s') :
    ClockInv s' ∧ s.cpu.clock.hostCycles ≤ s'.cpu.clock.hostCycles := by
  by_cases he : e = .resetClock
  · obtain ⟨hsafe, hs⟩ := hs
    subst he
    cases hs with
    | resetClock hin he hp =>
      have h0 := resetClock_ticks s.cpu
      refine ⟨⟨h0.ge, ?_⟩, hsafe.trans_le (Clock.hostCycles_nonneg _)⟩
      have ha : (ce000ResetClock s.cpu).clock.jitRunActive = s.cpu.clock.jitRunActive :=
        Clock.doCycles_active _ _
      simp only [JitCalls, Sys.charge, ha]
      exact hi.jit
    | call hcalls hk => cases hk
  · obtain ⟨hj, hle⟩ := step_ticks_le hi.jit hs he
    exact ⟨⟨hi.nonneg.trans hle, hj⟩, Clock.hostCycles_mono hle⟩

/-! ## Runs -/

/-- `uae_host_cycles`. -/
def Sys.hostCycles (s : Sys μ) : Int := s.cpu.clock.hostCycles

theorem run_clockInv {s s' : Sys μ} {es : List Event}
    (hr : Run (Guarded (Step h) ClockSafe) s es s') (hi : ClockInv s) : ClockInv s' :=
  hr.invariant hi fun hi hs => (step_hostCycles_le hi hs).1

theorem run_hostCycles_le {s s' : Sys μ} {es : List Event}
    (hr : Run (Guarded (Step h) ClockSafe) s es s') (hi : ClockInv s) :
    s.hostCycles ≤ s'.hostCycles := by
  induction hr with
  | nil => exact le_refl _
  | cons hs _ ih =>
    obtain ⟨hi', hle⟩ := step_hostCycles_le hi hs
    exact hle.trans (ih hi')

/-- No call is on the JIT path. -/
def NoJit (s : Sys μ) : Prop :=
  s.cpu.clock.jitRunActive = false ∧ ∀ k ∈ s.calls, k.kind ≠ .jit

theorem step_noJit {s s' : Sys μ} {e : Event} (hjit : h.prefs.jit = false) (hn : NoJit s)
    (hs : Step h s e s') : NoJit s' := by
  obtain ⟨ha, hk⟩ := hn
  cases hs with
  | quiet hin hq => exact ⟨(congrArg Clock.jitRunActive hq.clock).trans ha, hk⟩
  | ticks n hin => exact ⟨(Clock.doCycles_active n _).trans ha, hk⟩
  | exactTicks n hin he => exact ⟨ha, hk⟩
  | resetClock hin he hp => exact ⟨(Clock.doCycles_active _ _).trans ha, hk⟩
  | block n hin hon h0 hn => rw [ha] at hon; cases hon
  | writeSR k v hin => exact ⟨ha, hk⟩
  | setIrq l hin => exact ⟨by simp only [setIrq_clock]; exact ha, hk⟩
  | setVirq l a hin => exact ⟨by simp only [setVirq_clock]; exact ha, hk⟩
  | endTimeslice hin => exact ⟨ha, hk⟩
  | raiseMask hc => exact ⟨ha, hk⟩
  | enterRun cycles hin hj =>
    refine ⟨by simp only [enterRun_clock]; exact ha, ?_⟩
    simpa using hk
  | enterJit cycles hcalls hj => rw [hjit] at hj; cases hj
  | enterStep hin => exact ⟨ha, by simpa using hk⟩
  | call hcalls hc =>
    rw [hcalls] at hk
    refine ⟨by simp only [hc.clock]; exact ha, ?_⟩
    simpa [hc.kind] using hk
  | @leave k r rest hcalls =>
    rw [hcalls] at hk
    have hkd : k ≠ .jit := hk ⟨k, .done r⟩ (by simp)
    refine ⟨?_, fun k' hk' => hk k' (by simp [hk'])⟩
    cases k with
    | jit => exact absurd rfl hkd
    | run target => exact ha
    | step => exact ha

/-- No step can move the clock back in a configuration that is neither a cycle-exact 68000 or
68010 nor runs translated code. -/
theorem run_guarded (hce : ¬ (h.prefs.cpuCycleExact = true ∧ h.prefs.cpuModel.num ≤ 68010))
    (hjit : h.prefs.jit = false) {s s' : Sys μ} {es : List Event} (hr : Run (Step h) s es s')
    (hn : NoJit s) : Run (Guarded (Step h) ClockSafe) s es s' := by
  induction hr with
  | nil => exact .nil
  | @cons s s₁ s₂ e es hs _ ih =>
    refine .cons ⟨?_, hs⟩ (ih (step_noJit hjit hn hs))
    cases hs with
    | resetClock hin he hp => exact absurd ⟨he, hp⟩ hce
    | block n hin ha h0 hn' => rw [hn.1] at ha; cases ha
    | call hcalls hc => cases hc <;> trivial
    | _ => trivial

/-- `uae_host_run` returns the ticks between its two readings of `currcycle`, in cycles. -/
theorem uaeHostRun_returns {fuel : Nat} {cycles n : Int} {c c' : Cpu μ}
    (hr : uaeHostRun h fuel cycles c = .ret n c') :
    n = toCInt ((c'.clock.currcycle - c.clock.currcycle).tdiv cycleUnit) := by
  have he : Ends (uaeHostRun h fuel cycles) c (fun n c' =>
      n = toCInt ((c'.clock.currcycle - c.clock.currcycle).tdiv cycleUnit)) fun _ => True := by
    simp only [uaeHostRun, ends_bind, ends_reads, ends_update]
    split
    · simp only [ends_bind, ends_update, ends_reads, ends_pure]
      exact .of_forall (fun _ _ => trivial) fun _ => trivial
    · simp only [ends_bind, ends_update, ends_reads, ends_pure]
      exact .of_forall (fun _ _ => trivial) fun _ => trivial
  exact he.of_ret hr

theorem toCInt_of_lt {x : Int} (h0 : 0 ≤ x) (hx : x < 2 ^ 31) : toCInt x = x := by
  simp only [toCInt]
  rw [BitVec.toInt_ofInt, Int.bmod_eq_of_le] <;> omega

/-- Between two times outside translated code, the first of them a whole number of cycles, the
difference of the clock is the difference of `currcycle`. -/
theorem hostCycles_diff {k k' : Clock} (hk : k.jitRunActive = false)
    (hk' : k'.jitRunActive = false) (h0 : 0 ≤ k.ticks) (h0' : 0 ≤ k'.ticks)
    (hle : k.hostCycles ≤ k'.hostCycles) (hw : k.currcycle % cycleUnit = 0) :
    (k'.currcycle - k.currcycle).tdiv cycleUnit = k'.hostCycles - k.hostCycles := by
  simp only [Clock.hostCycles_eq, Clock.ticks, hk, hk', Bool.false_eq_true, if_false,
    cycleUnit] at *
  have hge : 0 ≤ k'.currcycle - k.currcycle := by
    split at hle <;> split at hle <;> omega
  rw [Int.tdiv_eq_ediv_of_nonneg hge]
  split <;> split <;> omega

/-- The clock never goes back in a run whose steps all meet the condition, and a call of
`uae_host_run` made in it outside translated code at a whole number of cycles returns, as a C
`int`, what the clock moved by. Every call is a run, and in a configuration that is neither a
cycle-exact 68000 or 68010 nor translates code every run meets the condition. -/
theorem clock_monotonic (hp : h.Parts) {c₀ : Cpu μ} (hoff : c₀.clock.jitRunActive = false)
    (h0 : 0 ≤ c₀.clock.currcycle) (hd : c₀.executeDepth = 0) {s : Sys μ} {es : List Event}
    (hr : Run (Guarded (Step h) ClockSafe) (.idle c₀) es s) :
    (∀ es' s', Run (Guarded (Step h) ClockSafe) s es' s' →
      s.hostCycles ≤ s'.hostCycles ∧
      ∀ fuel cycles n, uaeHostRun h fuel cycles s.cpu = .ret n s'.cpu → s'.calls = s.calls →
        s.cpu.clock.jitRunActive = false → s.cpu.clock.currcycle % cycleUnit = 0 →
        n = toCInt (s'.hostCycles - s.hostCycles) ∧
          (s'.hostCycles - s.hostCycles < 2 ^ 31 → n = s'.hostCycles - s.hostCycles ∧ 0 ≤ n)) ∧
    (∀ fuel cycles n c', Inside s.calls → uaeHostRun h fuel cycles s.cpu = .ret n c' →
      ∃ es' s', Run (Step h) s es' s' ∧ s'.cpu = c' ∧ s'.calls = s.calls) ∧
    (¬ (h.prefs.cpuCycleExact = true ∧ h.prefs.cpuModel.num ≤ 68010) → h.prefs.jit = false →
      ∀ es' s', Run (Step h) s es' s' → Run (Guarded (Step h) ClockSafe) s es' s') := by
  have hi₀ : ClockInv (.idle c₀) := ⟨by simpa [Sys.idle, Clock.ticks, hoff] using h0, hoff⟩
  have hi := run_clockInv hr hi₀
  refine ⟨fun es' s' hr' => ⟨run_hostCycles_le hr' hi, ?_⟩, ?_, ?_⟩
  · intro fuel cycles n hrun hcalls hact hwhole
    have hi' := run_clockInv hr' hi
    have hle := run_hostCycles_le hr' hi
    have hact' : s'.cpu.clock.jitRunActive = false := by
      have hjit : JitBottom s'.cpu.clock.jitRunActive s.calls := by
        rw [← hcalls]
        exact hi'.jit
      rw [← hact]
      exact hjit.unique hi.jit
    have hn : n = toCInt (s'.hostCycles - s.hostCycles) := by
      rw [uaeHostRun_returns hrun, hostCycles_diff hact hact' hi.nonneg hi'.nonneg hle hwhole]
      rfl
    refine ⟨hn, fun hlt => ?_⟩
    rw [toCInt_of_lt (by omega) hlt] at hn
    exact ⟨hn, by omega⟩
  · intro fuel cycles n c' hin hrun
    have hnest : s.Nested := Run.nested hr.unguard hd.symm
    exact ((uaeHostRun_inner hp fuel cycles) s.cpu).of_ret hrun s.calls hin trivial s rfl rfl hnest
  · intro hce hjit es' s' hr'
    have hno : NoJit s := hr.unguard.invariant ⟨hoff, by simp [Sys.idle]⟩ (step_noJit hjit)
    exact run_guarded hce hjit hr' hno

/-- A cycle-exact 68000 over RAM. -/
def exact68000 : Host (Long → Byte) :=
  .ram { Prefs.plain .m68000 with cpuCompatible := true, cpuCycleExact := true } Mem.ofFun
    fun _ => opNop

/-- That CPU a hundred cycles after its reset. -/
def late68000 : Cpu (Long → Byte) :=
  (Cpu.reset exact68000.prefs 0x1000 0x400 fun _ => 0).addTicks (100 * cycleUnit)

/-- An illegal instruction of a cycle-exact 68000 sets the clock back to zero. -/
theorem exception_resets_clock :
    late68000.clock.hostCycles = 100 ∧
      ∃ c', exception exact68000 4 late68000 = .ret () c' ∧ c'.clock.hostCycles = 0 :=
  ⟨by decide, _, rfl, by decide⟩

/-- A 68020 without MMU or JIT over RAM. -/
def plain68020 : Host (Long → Byte) := .ram (.plain .m68020) Mem.ofFun fun _ => opNop

theorem clock_monotonic_68020 :
    let c := Cpu.reset (.plain .m68020) 0x1000 0x400 fun _ => (0 : Byte)
    let s := (Sys.idle c).charge (c.doCycles (2 * cycleUnit))
    ∀ es' s', Run (Step plain68020) s es' s' → 2 ≤ s'.hostCycles := by
  intro c s es' s' hr'
  have hrun : Run (Guarded (Step plain68020) ClockSafe) (.idle c) [.ticks 1024] s :=
    .single ⟨trivial, .ticks 1024 trivial⟩
  have hmono := clock_monotonic (ram_parts fun _ => opNop_inner) rfl (by decide) rfl hrun
  exact (hmono.1 es' s' (hmono.2.2 (by decide) (by decide) es' s' hr')).1

end UaeCpu
