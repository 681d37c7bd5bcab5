import UaeCpu.JitDispatch
import UaeCpu.SingleStep

/-!
# UaeCpu.StopCall

Leaving the stopped state in a whole call of `uae_host_run`, for a CPU that waits in a STOP or
LPSTOP with an unmasked interrupt pending.

* `CallTakes`      — somewhere in the call the CPU leaves the stopped state for the interrupt.
* `StopsAgain`     — the code behind the waiting PC is the STOP, which is executed once more.
* `stop_left_iff`  — the interrupt is taken on the JIT path only, and where the budget lets the
  dispatcher look at the flags often enough.
-/

namespace UaeCpu

open Fault FaultM Mem Relation

variable {μ : Type}

/-! ## The call -/

/-- The call is the outermost one of a configuration that runs translated code. -/
def onJitPath (h : Host μ) (c : Cpu μ) : Bool := h.prefs.jit && c.executeDepth == 0

/-- Translated code taken as a whole. -/
def wholeCode (h : Host μ) (_ : Cpu μ) (H : Jit.Handler μ) : Prop := H = .popall h.compiled

/-- A round of the interpreter loop. -/
def LoopStep (h : Host μ) (target : Int) (a b : Cpu μ) : Prop :=
  ∃ fuel go, hostRound h fuel target a = .ret go b

/-- From `s₀` the steps lead through states in which the CPU waits to one that takes the interrupt
of level `l`. -/
def TakenFrom {σ : Type} (step : σ → σ → Prop) (cpu : σ → Cpu μ) (M : ByteMem μ) (l : Level)
    (vec : Nat) (c : Cpu μ) (s₀ : σ) : Prop :=
  ∃ s s', ReflTransGen (fun a b => Waits (cpu a) ∧ step a b) s₀ s ∧ Waits (cpu s) ∧ step s s' ∧
    InterruptTaken M l vec c (cpu s')

/-- The call takes the interrupt out of the stopped state it finds the CPU in. -/
def CallTakes (M : ByteMem μ) (h : Host μ) (cycles : Int) (l : Level) (vec : Nat) (c : Cpu μ) : Prop :=
  if onJitPath h c then
    TakenFrom (Jit.Step h (wholeCode h)) Prod.snd M l vec c (.entry, (enterRun h c).jitStart cycles)
  else TakenFrom (LoopStep h (c.clock.currcycle + cycles * cycleUnit)) id M l vec c (enterRun h c)

/-! ## The STOP, executed again -/

/-- The same wait. A STOP executed again writes the status register, samples the interrupt level and
raises flags; the code around it notes the instruction. -/
structure SameStop (c c' : Cpu μ) : Prop where
  regs : c'.regs = { c.regs with
    spc := c'.regs.spc, ipl := c'.regs.ipl, sr := c'.regs.sr
    opcode := c'.regs.opcode, instructionPc := c'.regs.instructionPc }
  flags : c'.flags = c.flags
  pending : c'.pending = c.pending
  world : c'.world = c.world

/-- What a STOP executed again leaves: `checkint` has raised `SPCFLAG_DOINT`. -/
structure StoppedAgain (c c' : Cpu μ) : Prop where
  same : SameStop c c'
  doInt : c'.regs.spc.doInt = true
  int : c'.regs.spc.int = c.regs.spc.int
  doTrace : c'.regs.spc.doTrace = c.regs.spc.doTrace
  modeChange : c'.regs.spc.modeChange = c.regs.spc.modeChange
  mmuRestart : c'.regs.spc.mmuRestart = c.regs.spc.mmuRestart

/-- The PC is still at the STOP or LPSTOP the CPU waits in, so translated code executes it again, and
so does the inner loop of the dispatcher. The first time this takes `cost` ticks of the budget. -/
structure StopsAgain (h : Host μ) (cost : Int) (c : Cpu μ) : Prop where
  compiled : ∀ x, SameStop c x → ∃ x', h.compiled x = .ret () x' ∧ StoppedAgain x x'
  spends : ∀ x x', SameStop c x → x.clock = c.clock → h.compiled x = .ret () x' →
    x'.regs.spc.brk = (x.regs.spc.brk || decide (c.clock.jitRunTarget - c.clock.currcycle ≤ cost))
  interpreted : ∀ fuel x, SameStop c x → Jit.traced x.regs = true →
    ∃ x', Jit.dispatch h fuel .traced x = .ret .asked x' ∧ StoppedAgain x x'

section

variable {M : ByteMem μ} {h : Host μ} {l : Level} {vec : Nat} {c c' c'' : Cpu μ}

theorem SameStop.refl (c : Cpu μ) : SameStop c c := ⟨rfl, rfl, rfl, rfl⟩

theorem SameStop.trans (h : SameStop c c') (h' : SameStop c' c'') : SameStop c c'' where
  regs := by rw [h'.regs, h.regs]
  flags := h'.flags.trans h.flags
  pending := h'.pending.trans h.pending
  world := h'.world.trans h.world

theorem SameStop.mapSpc (h : SameStop c c') (f : SpcFlags → SpcFlags) : SameStop c (c'.mapSpc f) :=
  h.trans ⟨rfl, rfl, rfl, rfl⟩

theorem SameStop.stopped (h : SameStop c c') : c'.regs.stopped = c.regs.stopped := by rw [h.regs]

theorem StoppedEntry.same (hs : StoppedEntry M h l vec c) (h' : SameStop c c') :
    StoppedEntry M h l vec c' where
  ram := hs.ram
  note := hs.note
  ack := hs.ack
  level := hs.level
  even := by
    rw [h'.world, h'.regs]
    exact hs.even
  apart x hx := by
    have he : entryStack h.prefs c'.regs = entryStack h.prefs c.regs :=
      entryStack_congr (by rw [h'.regs]) (by rw [h'.regs]) (by rw [h'.regs])
    rw [he, h'.regs]
    rw [h'.regs] at hx
    exact hs.apart x hx
  stopped := by rw [h'.stopped]; exact hs.stopped
  current x hp hw := hs.current x (hp.trans h'.pending) (hw.trans h'.world)
  unmasked := by rw [h'.regs]; exact hs.unmasked

theorem InterruptTaken.same (ht : InterruptTaken M l vec c' c'') (h : SameStop c c') :
    InterruptTaken M l vec c c'' where
  stopped := ht.stopped
  stackedPc := by rw [ht.stackedPc, h.regs]; rfl
  intmask := ht.intmask
  pc := by rw [ht.pc, h.world, h.regs]; rfl

end

/-! ## Looks at the flags -/

section Look

variable {M : ByteMem μ} {h : Host μ} {code : Cpu μ → Jit.Handler μ → Prop} {l : Level} {vec : Nat}
  {x : Cpu μ} {p : Jit.Point}

/-- The points at which the dispatcher looks at the special flags. -/
def looks : Jit.Point → Bool
  | .entry | .back | .asked => true
  | _ => false

/-- Where it goes from there when nothing asks it to leave. -/
def goesOn (p : Jit.Point) (x : Cpu μ) : Jit.Point :=
  match p with
  | .asked => .traced
  | .back => if Jit.traced x.regs then .traced else .code
  | _ => .code

def leavesTo : Jit.Point → Jit.Point
  | .asked => .exit
  | _ => .left

theorem any_of_not_keep {f : SpcFlags} (hf : lookFlags f ≠ f) : f.any = true := by
  by_contra hany
  obtain ⟨int, doInt, trace, doTrace, brk, modeChange, check, endCompile, mmuRestart⟩ := f
  simp only [SpcFlags.any, Bool.or_eq_true, not_or, Bool.not_eq_true] at hany
  obtain ⟨⟨⟨⟨⟨⟨⟨⟨rfl, rfl⟩, rfl⟩, rfl⟩, rfl⟩, rfl⟩, rfl⟩, rfl⟩, rfl⟩ := hany
  exact hf rfl

theorem checkSpecialties_waiting (hj : h.prefs.jit = true) (hw : Waits x)
    (hoff : x.regs.spc.modeChange = true ∨ x.regs.spc.mmuRestart = true ∨ x.regs.spc.int = false)
    (fuel : Nat) :
    checkSpecialties h fuel x =
      .ret (x.regs.spc.modeChange || x.regs.spc.brk) (x.mapSpc lookFlags) := by
  simp only [checkSpecialties, reads_bind_apply]
  by_cases hany : x.regs.spc.any = true
  · rw [if_pos hany]
    exact doSpecialties_waiting hj hw hoff fuel
  · have hkeep : x.mapSpc lookFlags = x := by
      have hf : lookFlags x.regs.spc = x.regs.spc := by
        by_contra hf
        exact hany (any_of_not_keep hf)
      simp only [Cpu.mapSpc, hf]
    have hbits : (x.regs.spc.modeChange || x.regs.spc.brk) = false := by
      by_contra hb
      refine hany ?_
      rcases Bool.or_eq_true _ _ ▸ (Bool.not_eq_false _ ▸ hb) with hb | hb <;> simp [SpcFlags.any, hb]
    rw [if_neg hany, hkeep, hbits]
    rfl

/-- A look that takes no interrupt. -/
theorem look_waiting (hj : h.prefs.jit = true) (hp : looks p = true) (hw : Waits x)
    (hoff : x.regs.spc.modeChange = true ∨ x.regs.spc.mmuRestart = true ∨ x.regs.spc.int = false)
    (fuel : Nat) :
    Jit.dispatch h fuel p x =
      .ret (if x.regs.spc.modeChange || x.regs.spc.brk then leavesTo p else goesOn p x)
        (x.mapSpc lookFlags) := by
  have hc := checkSpecialties_waiting hj hw hoff fuel
  cases p with
  | code | traced | exit | left => cases hp
  | entry | asked =>
    rw [Jit.dispatch, bind_ret hc]
    cases (x.regs.spc.modeChange || x.regs.spc.brk) <;> rfl
  | back =>
    rw [Jit.dispatch, bind_ret hc]
    cases hb : (x.regs.spc.modeChange || x.regs.spc.brk)
    · have hmode : x.regs.spc.modeChange = false := by
        simp only [Bool.or_eq_false_iff] at hb
        exact hb.1
      have hclear : (x.mapSpc lookFlags).mapSpc (fun f => { f with brk := false }) = x.mapSpc lookFlags := by
        simp [Cpu.mapSpc, lookFlags, hmode]
      have htr : Jit.traced (x.mapSpc lookFlags).regs = Jit.traced x.regs := rfl
      simp only [Bool.false_eq_true, if_false, reads_bind_apply, htr, goesOn]
      cases Jit.traced x.regs
      · rfl
      · exact congrArg (Outcome.ret Jit.Point.traced) hclear
    · rfl

/-- A look that takes the interrupt. -/
theorem look_takes (hj : h.prefs.jit = true) (hp : looks p = true) (hs : StoppedEntry M h l vec x)
    (hmode : x.regs.spc.modeChange = false) (hmmu : x.regs.spc.mmuRestart = false)
    (htr : x.regs.spc.doTrace = false) (hint : x.regs.spc.int = true) :
    ∃ s, Jit.Step h code (p, x) s ∧ InterruptTaken M l vec x s.2 := by
  obtain ⟨b, y, hd, ht⟩ := doSpecialties_stopped hj hs hmode hmmu htr hint 0
  have hc : checkSpecialties h 1 x = .ret b y := by
    have hany : x.regs.spc.any = true := by simp [SpcFlags.any, hint]
    simp only [checkSpecialties, reads_bind_apply]
    rw [if_pos hany]
    exact hd
  have hreturns : Returns (Jit.dispatch h 1 p) x fun _ y => InterruptTaken M l vec x y := by
    cases p with
    | code | traced | exit | left => cases hp
    | entry | asked =>
      refine .bind_eq hc ?_
      cases b
      · exact returns_pure.mpr ht
      · exact returns_pure.mpr ht
    | back =>
      refine .bind_eq hc ?_
      cases b
      · refine returns_reads_bind.mpr ?_
        split
        · exact returns_update_bind.mpr (returns_pure.mpr (ht.mapSpc _))
        · exact returns_pure.mpr ht
      · exact returns_pure.mpr ht
  obtain ⟨p', y', hd', ht'⟩ := hreturns
  refine ⟨(p', y'), .dispatch ?_ ?_ hd', ht'⟩
  · rintro rfl
    cases hp
  · rintro rfl
    cases hp

end Look

/-! ## The call, step by step -/

section Call

variable {M : ByteMem μ} {h : Host μ} {l : Level} {vec : Nat} {c c₀ x x' : Cpu μ} {cycles cost : Int}

theorem jitEntry_regs (cycles : Int) :
    ((enterRun h c).jitStart cycles).regs =
      { c.regs with spc := { c.regs.spc with int := c.regs.spc.int || h.getIrq.isSome } } := by
  simp only [Cpu.jitStart, enterRun]
  cases hg : h.getIrq.isSome <;> simp [signalIrq, Cpu.mapSpc]

theorem jitEntry_same (cycles : Int) : SameStop c ((enterRun h c).jitStart cycles) := by
  simp only [Cpu.jitStart, enterRun]
  split <;> exact ⟨rfl, rfl, rfl, rfl⟩

theorem jitEntry_budget (cycles : Int) :
    ((enterRun h c).jitStart cycles).clock.jitRunTarget -
      ((enterRun h c).jitStart cycles).clock.currcycle = cycles * cycleUnit := by
  simp only [Cpu.jitStart, JitClock.start, enterRun]
  split <;> exact add_sub_cancel_left _ _

theorem Waits.same (hw : Waits x) (hs : SameStop x x')
    (htr : x'.regs.spc.doTrace = x.regs.spc.doTrace) : Waits x' :=
  ⟨by rw [hs.stopped]; exact hw.1, htr.trans hw.2⟩

theorem Waits.look (hw : Waits x) : Waits (x.mapSpc lookFlags) := by
  refine hw.same (SameStop.refl x |>.mapSpc _) ?_
  simp only [Cpu.mapSpc, lookFlags]
  split <;> rfl

/-- Translated code that executes the STOP again goes back to the dispatcher. -/
theorem code_step {s : Jit.Point × Cpu μ} (hrun : h.compiled x = .ret () x')
    (hst : Jit.Step h (wholeCode h) (.code, x) s) : s = (.back, x') := by
  have hpop : ∀ {H : Jit.Handler μ} {o}, wholeCode h x H → H.run x = o → o = .ret false x' := by
    intro H o hc ho
    rw [hc] at ho
    rw [← ho]
    exact bind_ret hrun
  cases hst with
  | dispatch hcode => exact absurd rfl hcode
  | chain hc ho => cases hpop hc ho
  | back hc ho => cases hpop hc ho; rfl
  | fault hc ho => cases hpop hc ho

theorem code_back (hrun : h.compiled x = .ret () x') :
    Jit.Step h (wholeCode h) (.code, x) (.back, x') :=
  .back rfl (bind_ret hrun)

/-- What is known at each point of a call that does not take the interrupt. -/
inductive Fruitless (c₀ : Cpu μ) : Jit.Point × Cpu μ → Prop where
  | entry : Fruitless c₀ (.entry, c₀)
  | code : c₀.regs.spc.modeChange = false → c₀.regs.spc.brk = false → c₀.regs.spc.doTrace = false →
      Fruitless c₀ (.code, c₀.mapSpc lookFlags)
  | back {x : Cpu μ} : x.regs.spc.brk = true → x.regs.spc.int = false → Fruitless c₀ (.back, x)
  | left {x : Cpu μ} : Fruitless c₀ (.left, x)

/-- The condition at the head of `m68k_run_jit`: the first look takes the interrupt, or one of the
next two does and the budget lasts until then. -/
def InTime (budget cost : Int) (f : SpcFlags) : Prop :=
  f.modeChange = false ∧ f.doTrace = false ∧
    (f.int = true ∧ f.mmuRestart = false ∨
      f.brk = false ∧
        (f.int = true ∨ f.doInt = true ∧ f.mmuRestart = false ∨ cost < budget))

variable (hj : h.prefs.jit = true) (ha : StopsAgain h cost c₀)
  (hb : c₀.clock.jitRunTarget - c₀.clock.currcycle = cycles * cycleUnit)
include hj ha hb

/-- A step of a call out of time. -/
theorem fruitless_step {s s' : Jit.Point × Cpu μ}
    (hoff : ¬ InTime (cycles * cycleUnit) cost c₀.regs.spc) (hf : Fruitless c₀ s) (hw : Waits s.2)
    (hst : Jit.Step h (wholeCode h) s s') : Fruitless c₀ s' ∧ s'.2.regs.stopped ≠ .no := by
  have hlook : ∀ {p : Jit.Point} {x : Cpu μ}, looks p = true → Waits x →
      x.regs.spc.modeChange = true ∨ x.regs.spc.mmuRestart = true ∨ x.regs.spc.int = false →
      ∀ {s'}, Jit.Step h (wholeCode h) (p, x) s' →
      s' = (if x.regs.spc.modeChange || x.regs.spc.brk then leavesTo p else goesOn p x,
        x.mapSpc lookFlags) := by
    intro p x hp hw hoff s' hst
    cases hst with
    | dispatch hcode hleft hd =>
      rw [look_waiting hj hp hw hoff] at hd
      cases hd
      rfl
    | _ => cases hp
  cases hf with
  | entry =>
    have hwait : c₀.regs.spc.modeChange = true ∨ c₀.regs.spc.mmuRestart = true ∨
        c₀.regs.spc.int = false := by
      by_contra hcon
      simp only [not_or, Bool.not_eq_true, Bool.not_eq_false] at hcon
      exact hoff ⟨hcon.1, hw.2, .inl ⟨hcon.2.2, hcon.2.1⟩⟩
    rw [hlook rfl hw hwait hst]
    refine ⟨?_, hw.look.1⟩
    cases hbits : (c₀.regs.spc.modeChange || c₀.regs.spc.brk)
    · simp only [Bool.or_eq_false_iff] at hbits
      exact .code hbits.1 hbits.2 hw.2
    · exact .left
  | code hmode hbrk htr =>
    have hsame : SameStop c₀ (c₀.mapSpc lookFlags) := (SameStop.refl c₀).mapSpc _
    obtain ⟨x', hrun, hagain⟩ := ha.compiled _ hsame
    rw [code_step hrun hst]
    have hmiss : c₀.regs.spc.int = false ∧
        (c₀.regs.spc.doInt = true → c₀.regs.spc.mmuRestart = true) ∧ cycles * cycleUnit ≤ cost := by
      refine ⟨?_, fun hd => ?_, ?_⟩
      · by_contra hint
        exact hoff ⟨hmode, htr, .inr ⟨hbrk, .inl (by simpa using hint)⟩⟩
      · by_contra hmmu
        exact hoff ⟨hmode, htr, .inr ⟨hbrk, .inr (.inl ⟨hd, by simpa using hmmu⟩)⟩⟩
      · by_contra hlt
        exact hoff ⟨hmode, htr, .inr ⟨hbrk, .inr (.inr (by omega))⟩⟩
    refine ⟨.back ?_ ?_, by rw [hagain.same.stopped]; exact hw.1⟩
    · rw [ha.spends _ _ hsame rfl hrun, hb]
      simp [hmiss.2.2]
    · rw [hagain.int]
      simp only [Cpu.mapSpc, lookFlags, hmode, Bool.false_eq_true, if_false, hmiss.1, Bool.false_or]
      cases hd : c₀.regs.spc.doInt
      · rfl
      · simp [hmiss.2.1 hd]
  | @back x hbrk hint =>
    rw [hlook rfl hw (.inr (.inr hint)) hst, hbrk, Bool.or_true]
    exact ⟨.left, hw.look.1⟩
  | left =>
    cases hst with
    | dispatch _ hleft _ => exact absurd rfl hleft

theorem not_taken (hoff : ¬ InTime (cycles * cycleUnit) cost c₀.regs.spc) :
    ¬ TakenFrom (Jit.Step h (wholeCode h)) Prod.snd M l vec c (.entry, c₀) := by
  rintro ⟨s, s', hr, hw, hst, ht⟩
  have hf : Fruitless c₀ s := by
    clear hw hst
    induction hr with
    | refl => exact .entry
    | tail _ hstep ih => exact (fruitless_step hj ha hb hoff ih hstep.1 hstep.2).1
  exact (fruitless_step hj ha hb hoff hf hw hst).2 ht.stopped

/-- In time, one of the first three looks takes the interrupt. -/
theorem taken_of_inTime (hs : StoppedEntry M h l vec c₀)
    (hon : InTime (cycles * cycleUnit) cost c₀.regs.spc) :
    TakenFrom (Jit.Step h (wholeCode h)) Prod.snd M l vec c₀ (.entry, c₀) := by
  obtain ⟨hmode, htr, hon⟩ := hon
  have hw : Waits c₀ := ⟨hs.stopped, htr⟩
  by_cases hfirst : c₀.regs.spc.int = true ∧ c₀.regs.spc.mmuRestart = false
  · obtain ⟨s', hst, ht⟩ := look_takes (p := .entry) hj rfl hs hmode hfirst.2 htr hfirst.1
    exact ⟨_, s', .refl, hw, hst, ht⟩
  have hwait : c₀.regs.spc.mmuRestart = true ∨ c₀.regs.spc.int = false := by
    by_contra hcon
    simp only [not_or, Bool.not_eq_true, Bool.not_eq_false] at hcon
    exact hfirst ⟨hcon.2, hcon.1⟩
  obtain ⟨hbrk, hon⟩ := hon.resolve_left hfirst
  -- the first look, and the STOP once more
  obtain ⟨x, hx⟩ : ∃ x, x = c₀.mapSpc lookFlags := ⟨_, rfl⟩
  have hsame : SameStop c₀ x := hx ▸ (SameStop.refl c₀).mapSpc _
  have hwx : Waits x := hx ▸ hw.look
  have h1 : Jit.Step h (wholeCode h) (.entry, c₀) (.code, x) := by
    refine .dispatch (n := 0) (fun h => by cases h) (fun h => by cases h) ?_
    rw [look_waiting hj rfl hw (.inr hwait), hmode, hbrk, hx]
    rfl
  have hflags : x.regs.spc.modeChange = false ∧ x.regs.spc.mmuRestart = false ∧
      x.regs.spc.brk = false ∧
      x.regs.spc.int = (c₀.regs.spc.int || (c₀.regs.spc.doInt && !c₀.regs.spc.mmuRestart)) := by
    rw [hx]
    simp [Cpu.mapSpc, lookFlags, hmode]
  obtain ⟨hmx, hrx, hbx, hix⟩ := hflags
  obtain ⟨y, hrun, hagain⟩ := ha.compiled x hsame
  have hwy : Waits y := hwx.same hagain.same hagain.doTrace
  have hsy : SameStop c₀ y := hsame.trans hagain.same
  have hmy : y.regs.spc.modeChange = false := hagain.modeChange.trans hmx
  have hry : y.regs.spc.mmuRestart = false := hagain.mmuRestart.trans hrx
  have hto : ReflTransGen (fun a b : Jit.Point × Cpu μ => Waits a.2 ∧ Jit.Step h (wholeCode h) a b)
      (.entry, c₀) (.back, y) :=
    .tail (.single ⟨hw, h1⟩) ⟨hwx, code_back hrun⟩
  by_cases hsecond : x.regs.spc.int = true
  · obtain ⟨s', hst, ht⟩ := look_takes (p := .back) hj rfl (hs.same hsy) hmy hry
      hwy.2 (hagain.int.trans hsecond)
    exact ⟨_, s', hto, hwy, hst, ht.same hsy⟩
  -- the second look, and the STOP once more
  rw [hix] at hsecond
  have hlt : cost < cycles * cycleUnit := by
    rcases hon with hint | ⟨hd, hmmu⟩ | hlt
    · exact absurd (by rw [hint]; rfl) hsecond
    · exact absurd (by simp [hd, hmmu]) hsecond
    · exact hlt
  have hby : y.regs.spc.brk = false := by
    have hclock : x.clock = c₀.clock := by rw [hx]; rfl
    rw [ha.spends x y hsame hclock hrun, hbx, hb]
    simpa using hlt
  have hwaity : y.regs.spc.int = false := by
    rw [hagain.int, hix]
    simpa using hsecond
  have h3 : Jit.Step h (wholeCode h) (.back, y) (goesOn .back y, y.mapSpc lookFlags) := by
    refine .dispatch (n := 0) (fun h => by cases h) (fun h => by cases h) ?_
    rw [look_waiting hj rfl hwy (.inr (.inr hwaity)), hmy, hby]
    rfl
  obtain ⟨z, hz⟩ : ∃ z, z = y.mapSpc lookFlags := ⟨_, rfl⟩
  rw [← hz] at h3
  have hsz : SameStop c₀ z := hz ▸ hsy.mapSpc _
  have hwz : Waits z := hz ▸ hwy.look
  have hflags : z.regs.spc.modeChange = false ∧ z.regs.spc.mmuRestart = false ∧ z.regs.spc.int = true := by
    rw [hz]
    simp [Cpu.mapSpc, lookFlags, hmy, hry, hagain.doInt]
  obtain ⟨hmz, hrz, hiz⟩ := hflags
  have hthird : ∀ {p : Jit.Point} {w : Cpu μ}, looks p = true → StoppedAgain z w →
      Jit.Step h (wholeCode h) (goesOn .back y, z) (p, w) →
      TakenFrom (Jit.Step h (wholeCode h)) Prod.snd M l vec c₀ (.entry, c₀) := by
    intro p w hp hagain' hst
    have hsw : SameStop c₀ w := hsz.trans hagain'.same
    have hww : Waits w := hwz.same hagain'.same hagain'.doTrace
    obtain ⟨s', hst', ht⟩ := look_takes hj hp (hs.same hsw) (hagain'.modeChange.trans hmz)
      (hagain'.mmuRestart.trans hrz) hww.2 (hagain'.int.trans hiz)
    exact ⟨_, s', .tail (.tail hto ⟨hwy, h3⟩) ⟨hwz, hst⟩, hww, hst', ht.same hsw⟩
  cases htraced : Jit.traced y.regs with
  | true =>
    have hgo : goesOn .back y = .traced := by simp [goesOn, htraced]
    obtain ⟨w, hd, hagain'⟩ := ha.interpreted 0 z hsz (by rw [hz]; exact htraced)
    exact hthird (p := .asked) rfl hagain' (hgo ▸ .dispatch (fun h => by cases h) (fun h => by cases h) hd)
  | false =>
    have hgo : goesOn .back y = .code := by simp [goesOn, htraced]
    obtain ⟨w, hrun', hagain'⟩ := ha.compiled z hsz
    exact hthird (p := .back) rfl hagain' (hgo ▸ code_back hrun')

end Call

/-! ## On which calls the interrupt is taken -/

section Call

variable {M : ByteMem μ} {h : Host μ} {l : Level} {vec : Nat} {c x x' : Cpu μ} {cycles cost : Int}

/-- The guard of the interpreter loop is closed for a stopped CPU. -/
theorem loopStep_stopped {target : Int} (hst : x.regs.stopped ≠ .no) (hs : LoopStep h target x x') :
    x' = x := by
  obtain ⟨fuel, go, hs⟩ := hs
  have hpass : runPass h fuel target x = .ret false x := by
    simp only [runPass, reads_bind_apply]
    rw [if_pos (by simp [runnable, hst])]
    rfl
  rw [hostRound, tryCatch_ret hpass] at hs
  cases hs
  rfl

/-- `pushall_call_handler` runs the whole of translated code. -/
theorem runsCache_wholeCode : Jit.RunsCache h (wholeCode h) := by
  intro c o ho hne
  cases o with
  | diverge => exact absurd rfl hne
  | ret _ c' => exact .back rfl (bind_ret ho)
  | thrown e c' => exact .fault rfl (bind_thrown ho)

/-- A stopped CPU leaves the stopped state for an unmasked interrupt exactly when the call is on the
JIT path and in time. `m68k_run_jit` goes through the steps this is about; off that path every call
returns at once with the CPU still stopped. -/
theorem stop_left_iff (hst : c.regs.stopped ≠ .no) :
    (StoppedEntry M h l vec c →
      (onJitPath h c = true → StopsAgain h cost ((enterRun h c).jitStart cycles)) →
      (CallTakes M h cycles l vec c ↔ onJitPath h c = true ∧ InTime (cycles * cycleUnit) cost
        { c.regs.spc with int := c.regs.spc.int || h.getIrq.isSome })) ∧
    (∀ fuel c', runJit h fuel ((enterRun h c).jitStart cycles) = .ret () c' →
      Jit.Reaches h (wholeCode h) (.entry, (enterRun h c).jitStart cycles) (.left, c')) ∧
    (onJitPath h c = false → ∀ fuel, ∃ c',
      uaeHostRun h (fuel + 1) cycles c = .ret 0 c' ∧ c'.regs.stopped = c.regs.stopped) := by
  refine ⟨fun hs ha => ?_, fun fuel c' => Jit.runJit_reaches runsCache_wholeCode, fun hj fuel => ?_⟩
  · cases hj : onJitPath h c
    · simp only [CallTakes, hj, Bool.false_eq_true, if_false, false_and, iff_false]
      rintro ⟨s, s', -, hw, hstep, ht⟩
      rw [id_eq, loopStep_stopped hw.1 hstep] at ht
      exact hw.1 ht.stopped
    · have hjit : h.prefs.jit = true := by
        simp only [onJitPath, Bool.and_eq_true] at hj
        exact hj.1
      have hsame : SameStop c ((enterRun h c).jitStart cycles) := jitEntry_same cycles
      have hregs := jitEntry_regs (h := h) (c := c) cycles
      have hflags : ((enterRun h c).jitStart cycles).regs.spc =
          { c.regs.spc with int := c.regs.spc.int || h.getIrq.isSome } := by rw [hregs]
      simp only [CallTakes, hj, if_true, true_and]
      rw [← hflags]
      refine ⟨fun ht => ?_, fun hon => ?_⟩
      · by_contra hoff
        exact not_taken hjit (ha hj) (jitEntry_budget cycles) hoff ht
      · obtain ⟨s, s', hr, hw, hstep, ht⟩ :=
          taken_of_inTime hjit (ha hj) (jitEntry_budget cycles) (hs.same hsame) hon
        exact ⟨s, s', hr, hw, hstep, ht.same hsame⟩
  · have hpath : ¬ (h.prefs.jit = true ∧ (enterRun h c).executeDepth = 1) := by
      have hd : (enterRun h c).executeDepth = c.executeDepth + 1 := by
        simp only [enterRun]; split <;> rfl
      simpa [onJitPath, hd] using hj
    have hclock : (enterRun h c).clock = c.clock := by simp only [enterRun]; split <;> rfl
    have hst' : (enterRun h c).regs.stopped = c.regs.stopped := by
      simp only [enterRun]; split <;> rfl
    have hpass : runPass h (fuel + 1) (c.clock.currcycle + cycles * cycleUnit) (enterRun h c) =
        .ret false (enterRun h c) := by
      simp only [runPass, reads_bind_apply]
      rw [if_pos (by simp [runnable, hst', hst])]
      rfl
    refine ⟨leaveRun (enterRun h c), ?_, hst'⟩
    simp only [uaeHostRun, reads_bind_apply, update_bind_apply]
    rw [if_neg hpath]
    have hloop : runLoop h (fuel + 1) (c.clock.currcycle + cycles * cycleUnit) (enterRun h c) =
        .ret () (enterRun h c) := by
      simp only [runLoop, loop_succ]
      rw [bind_ret (tryCatch_ret hpass)]
      rfl
    rw [bind_ret hloop]
    simp only [update_bind_apply, reads_bind_apply, leaveRun, hclock, sub_self]
    rfl

end Call

/-! ## The STOP of the tables -/

section Stop

variable {p : Prefs} {M : ByteMem μ} {c x : Cpu μ}

/-- STOP from the 68020 on. While the CPU waits `regs.ir` has the operand. -/
def opStop (p : Prefs) (M : ByteMem μ) : FaultM (Cpu μ) Long := do
  let c ← reads id
  if c.regs.stopped = .no then
    update fun c => c.mapRegs fun r => { r with ir := rd16 M c.world (c.regs.pc + 2) }
  checkint (.ram p M fun _ => opNop)
  update fun c => c.writeSR p .stop c.regs.ir
  -- `do_cycles_stop(4)`
  update fun c => c.doCycles (4 * cpuCycleUnit)
  update fun c => c.mapRegs fun r =>
    { r with stopped := if r.stopped = .no then .stop else r.stopped }
  return 0

/-- The round of `execute_normal` that ends at a STOP. -/
def executeStop (p : Prefs) (M : ByteMem μ) : FaultM (Cpu μ) Unit := do
  update fun c => c.mapRegs fun r => { r with instructionPc := r.pc }
  let opcode ← (ramPort M).getIword
  update fun c => c.mapRegs fun r => { r with opcode := opcode }
  let _ ← opStop p M
  update fun c => c.doCycles (4 * cycleUnit)

/-- Memory holds one STOP, and translated code is what `execute_normal` makes of it. -/
def stopHost (p : Prefs) (M : ByteMem μ) : Host μ :=
  { Host.ram p M fun _ => opStop p M with compiled := executeStop p M }

/-- The CPU waits as the STOP has left it. -/
structure AsStopped (c : Cpu μ) : Prop where
  stopped : c.regs.stopped ≠ .no
  sr : srUnchanged { c.regs with sr := c.regs.ir } = true
  flags : c.flags = Flags.ofSR c.regs.ir

theorem AsStopped.same (ha : AsStopped c) (h : SameStop c x) : AsStopped x where
  stopped := by rw [h.stopped]; exact ha.stopped
  sr := by rw [h.regs]; exact ha.sr
  flags := by rw [h.flags, h.regs]; exact ha.flags

/-- `checkint` of a configuration with the JIT always asks for a look at the interrupts. -/
theorem checkint_jit (hj : p.jit = true) : ∃ ipl, checkint (.ram p M fun _ => opNop) x =
    .ret () ((x.mapRegs fun r => { r with ipl := ipl }).mapSpc fun f => { f with doInt := true }) := by
  obtain ⟨hm, hcomp, -, hacc⟩ := jit_prefs hj
  have hcache : p.cachesize ≠ 0 := by
    simp only [Prefs.jit, Bool.and_eq_true, bne_iff_ne] at hj
    exact hj.1.1.1
  have hdelay : p.interruptDelay = false := by
    simp [Prefs.interruptDelay, Prefs.cycleExactTable, hcomp, hcache]
  have hpin : ∃ ipl, (if x.regs.ipl.pin = x.pending.level then x else updateIpl p x.pending.level x) =
      x.mapRegs fun r => { r with ipl := ipl } := by
    split
    · exact ⟨x.regs.ipl, rfl⟩
    · refine ⟨{ x.regs.ipl with
        changeEvtP := x.regs.ipl.changeEvt, pinP := x.regs.ipl.pin
        changeEvt := x.clock.currcycle, pin := x.pending.level }, ?_⟩
      simp only [updateIpl, hacc, Bool.false_eq_true, false_and, if_false]
      rfl
  obtain ⟨ipl, hpin⟩ := hpin
  have hdoint : doint (.ram p M fun _ => opNop) x =
      .ret () ((x.mapRegs fun r => { r with ipl := ipl }).mapSpc fun f => { f with doInt := true }) := by
    change Outcome.ret () (dointWith p x.pending.level x) = _
    simp only [dointWith, hpin, hdelay, hcomp, Bool.false_eq_true, if_false, false_and]
    rw [if_pos (.inr hcache)]
  refine ⟨ipl, ?_⟩
  rw [checkint, bind_ret hdoint]
  exact congrFun (if_neg fun hc => hcache hc.2) _

/-- What a STOP writes where the CPU waits in it. -/
def stopWrites (ipl : IplState) (c : Cpu μ) : Cpu μ :=
  (c.mapRegs fun r => { r with ipl := ipl, sr := r.ir }).mapSpc fun f => { f with doInt := true }

theorem writeSR_again (ha : AsStopped x) (ipl : IplState) :
    Cpu.writeSR p .stop x.regs.ir ((x.mapRegs fun r => { r with ipl := ipl }).mapSpc
      fun f => { f with doInt := true }) = stopWrites ipl x := by
  have hcore : ∀ k : Core, srUnchanged k.regs = true → k.regs.sr = x.regs.ir →
      makeFromSRx p .stop k = { k with flags := x.flags } := fun k hk hsr => by
    simp only [makeFromSRx, hk, if_true, hsr, ha.flags]
  let k : Core := { regs := { x.regs with
    ipl := ipl, spc := { x.regs.spc with doInt := true }, sr := x.regs.ir }, flags := x.flags }
  exact congrArg (fun k : Core => { (stopWrites ipl x) with toCore := k }) (hcore k ha.sr rfl)

/-- A STOP executed where the CPU waits in it. -/
theorem opStop_again (hj : p.jit = true) (ha : AsStopped x) : ∃ ipl,
    opStop p M x = .ret 0 ((stopWrites ipl x).doCycles (4 * cpuCycleUnit)) := by
  obtain ⟨ipl, hc⟩ := checkint_jit (M := M) (x := x) hj
  refine ⟨ipl, ?_⟩
  have hstopped : ∀ c : Cpu μ, c.regs.stopped ≠ .no → (c.mapRegs fun r =>
      { r with stopped := if r.stopped = .no then .stop else r.stopped }) = c := fun c hc => by
    simp [Cpu.mapRegs, hc]
  simp only [opStop, reads_bind_apply, id_eq]
  rw [if_neg ha.stopped, bind_ret hc, update_bind_apply]
  change (update _ >>= _) (Cpu.writeSR p .stop x.regs.ir _) = _
  rw [writeSR_again ha ipl, update_bind_apply, update_bind_apply]
  exact congrArg (Outcome.ret 0) (hstopped _ ha.stopped)

/-- The instruction noted, and the STOP executed again. -/
def waited (M : ByteMem μ) (ipl : IplState) (c : Cpu μ) : Cpu μ :=
  ((stopWrites ipl (c.mapRegs fun r => { r with
    instructionPc := r.pc, opcode := rd16 M c.world r.pc })).doCycles (4 * cpuCycleUnit)).doCycles
      (4 * cycleUnit)

theorem stoppedAgain_waited (ipl : IplState) : StoppedAgain x (waited M ipl x) where
  same := ⟨rfl, rfl, rfl, rfl⟩
  doInt := rfl
  int := rfl
  doTrace := rfl
  modeChange := rfl
  mmuRestart := rfl

theorem waited_brk (ipl : IplState) (hrun : x.clock.jitRunActive = true)
    (hfresh : x.clock.consumed = 0) : (waited M ipl x).regs.spc.brk = (x.regs.spc.brk ||
      decide (x.clock.jitRunTarget - x.clock.currcycle ≤ 4 * cpuCycleUnit + 4 * cycleUnit)) := by
  have hdo : ∀ {n : Int} {k : Clock}, k.jitRunActive = true → k.consumed = 0 →
      (k.doCycles n).2 = decide (k.jitRunTarget - k.currcycle ≤ n) ∧
      (k.doCycles n).1.jitRunActive = true ∧ (k.doCycles n).1.consumed = 0 ∧
      (k.doCycles n).1.jitRunTarget = k.jitRunTarget ∧ (k.doCycles n).1.currcycle = k.currcycle + n := by
    intro n k hk hc
    simp only [Clock.doCycles, hk, if_true, Clock.jitDoCycles, hc, decide_eq_decide, true_and]
    refine ⟨by omega, ?_, by omega⟩
    simp only [Clock.consumed, BitVec.sub_self]
    rfl
  obtain ⟨h1, h2, h3, h4, h5⟩ := hdo (n := 4 * cpuCycleUnit) hrun hfresh
  obtain ⟨h6, -⟩ := hdo (n := 4 * cycleUnit) h2 h3
  change ((x.regs.spc.brk || (x.clock.doCycles (4 * cpuCycleUnit)).2) ||
    ((x.clock.doCycles (4 * cpuCycleUnit)).1.doCycles (4 * cycleUnit)).2) = _
  rw [h1, h6, h4, h5, Bool.or_assoc, ← Bool.decide_or]
  refine congrArg (x.regs.spc.brk || ·) (decide_eq_decide.mpr ?_)
  simp only [cpuCycleUnit, cycleUnit]
  omega

theorem executeStop_again (hj : p.jit = true) (ha : AsStopped x) :
    ∃ ipl, executeStop p M x = .ret () (waited M ipl x) ∧
      ∀ fuel, Jit.traced x.regs = true → Jit.dispatch (stopHost p M) fuel .traced x = .ret .asked (waited M ipl x) := by
  obtain ⟨ipl, hop⟩ := opStop_again (M := M) (x := x.mapRegs fun r =>
    { r with instructionPc := r.pc, opcode := rd16 M x.world r.pc }) hj ⟨ha.stopped, ha.sr, ha.flags⟩
  refine ⟨ipl, ?_, fun fuel htr => ?_⟩
  · simp only [executeStop, update_bind_apply]
    exact bind_ret hop
  · simp only [Jit.dispatch, reads_bind_apply]
    rw [if_pos htr, update_bind_apply]
    exact bind_ret hop

theorem stopsAgain_stopHost (hj : p.jit = true) (ha : AsStopped c)
    (hrun : c.clock.jitRunActive = true) (hfresh : c.clock.consumed = 0) :
    StopsAgain (stopHost p M) (4 * cpuCycleUnit + 4 * cycleUnit) c where
  compiled x hx := by
    obtain ⟨ipl, hex, -⟩ := executeStop_again (M := M) hj (ha.same hx)
    exact ⟨_, hex, stoppedAgain_waited ipl⟩
  spends x x' hx hclock hrun' := by
    obtain ⟨ipl, hex, -⟩ := executeStop_again (M := M) hj (ha.same hx)
    rw [show (stopHost p M).compiled x = executeStop p M x from rfl, hex] at hrun'
    cases hrun'
    rw [waited_brk ipl (by rw [hclock]; exact hrun) (by rw [hclock]; exact hfresh), hclock]
  interpreted fuel x hx htr := by
    obtain ⟨ipl, -, hdis⟩ := executeStop_again (M := M) hj (ha.same hx)
    exact ⟨_, hdis fuel htr, stoppedAgain_waited ipl⟩

end Stop

/-- A 68020 over RAM, waiting in `STOP #$2000` when a level 3 request is pushed. -/
def stopped68020 (p : Prefs) : Cpu (Long → Byte) :=
  setIrq 3 (((Cpu.reset p 0x2000 0x400 fun _ => 0).writeSR p .plain 0x2000).mapRegs fun r =>
    { r with ir := 0x2000, stopped := .stop })

/-- The interpreter leaves the CPU stopped with the request pending. -/
theorem stays_stopped_68020 :
    let c := stopped68020 (.plain .m68020)
    c.regs.stopped ≠ .no ∧ c.regs.halted = 0 ∧ c.regs.intmask < c.pending.level ∧
      ∀ fuel, ∃ c', uaeHostRun (.ram (.plain .m68020) ofFun fun _ => opNop) (fuel + 1) 1000 c =
        .ret 0 c' ∧ c'.regs.stopped = .stop :=
  ⟨by decide, by decide, by decide, fun _ => ⟨_, rfl, rfl⟩⟩

/-- A configuration that translates code. -/
def jit8192 : Prefs := { Prefs.plain .m68020 with cachesize := 8192 }

/-- With `SPCFLAG_DOINT` alone, as `uae_host_step` leaves the flags behind a STOP. -/
def sampled68020 : Cpu (Long → Byte) :=
  (stopped68020 jit8192).mapSpc fun f => { f with int := false, doInt := true }

theorem sampled68020_entry : StoppedEntry ofFun (stopHost jit8192 ofFun) 3 27 sampled68020 where
  ram := ramPort_ram ofFun
  note := fun _ hn => by cases hn
  ack := fun _ => rfl
  level := fun c => ⟨_, rfl⟩
  even := by decide
  apart := fun x hx => by
    have hv : vectorAddr sampled68020.regs 27 = 0x6C#32 := by decide
    have he : entryStack jit8192 sampled68020.regs - 8 = 0x1FF8#32 := by decide
    have hm : sampled68020.regs.m = false := by decide
    rw [hv] at hx
    refine ⟨?_, by simp [hm]⟩
    change ¬ Covers (entryStack jit8192 sampled68020.regs - 8) 8 x
    rw [he]
    simp only [Covers] at *
    bv_omega
  stopped := by decide
  current := fun c' hp _ => by
    change Outcome.ret c'.pending.level c' = .ret 3 c'
    rw [hp]; rfl
  unmasked := by decide

theorem sampled68020_asStopped : AsStopped sampled68020 := ⟨by decide, by decide, by decide⟩

/-- The first look makes `SPCFLAG_DOINT` into `SPCFLAG_INT`, the second takes the interrupt. -/
theorem stop_left_68020 : CallTakes ofFun (stopHost jit8192 ofFun) 1000 3 27 sampled68020 :=
  ((stop_left_iff sampled68020_entry.stopped).1 sampled68020_entry fun _ =>
    stopsAgain_stopHost rfl (sampled68020_asStopped.same (jitEntry_same 1000)) rfl rfl).mpr
    ⟨rfl, rfl, rfl, .inr ⟨rfl, .inr (.inl ⟨rfl, rfl⟩)⟩⟩

end UaeCpu
