import UaeCpu.Simulation

/-!
# UaeCpu.Calls

The entry points as runs of the transition system: `do_specialties` and the loops around it.

* `uaeHostRun_inner`, `uaeHostStep_inner` — a whole call leaves the calls around it as they were,
  which is what lets a hook make one.
-/

namespace UaeCpu

open Fault FaultM Trans

variable {μ : Type} {h : Host μ}

/-! ## Computations of a call -/

/-- `m`, started with the calls `k`, is a run that ends with calls in `K` if it returns and in
`E` if it throws. -/
def Traces (h : Host μ) (k : List Call) {α : Type} (m : FaultM (Cpu μ) α)
    (K : α → List Call → Prop) (E : List Call → Prop) (c : Cpu μ) : Prop :=
  Ends m c (fun a => Sim h k (K a) c) (Sim h k E c)

section Traces

variable {α β : Type} {k : List Call} {m : FaultM (Cpu μ) α} {K : α → List Call → Prop}
  {E : List Call → Prop} {c : Cpu μ}

theorem Traces.mono {K' : α → List Call → Prop} {E' : List Call → Prop}
    (ht : Traces h k m K E c) (hK : ∀ a k', K a k' → K' a k') (hE : ∀ k', E k' → E' k') :
    Traces h k m K' E' c :=
  Ends.mono ht (fun a _ hs => hs.mono (hK a)) fun _ hs => hs.mono hE

theorem Traces.bind {f : α → FaultM (Cpu μ) β} {K' : β → List Call → Prop}
    (ht : Traces h k m K E c) (hf : ∀ a k' c', K a k' → Traces h k' (f a) K' E c') :
    Traces h k (m >>= f) K' E c := by
  simp only [Traces, Ends, bind_apply] at *
  cases hm : m c with
  | ret a c' =>
    rw [hm] at ht
    have hf' := fun k' hk => hf a k' c' hk
    dsimp only
    cases hfa : f a c' with
    | ret b c'' => exact ht.trans fun k' hk => by have := hf' k' hk; rw [hfa] at this; exact this
    | thrown e c'' => exact ht.trans fun k' hk => by have := hf' k' hk; rw [hfa] at this; exact this
    | diverge => trivial
  | thrown e c' => rw [hm] at ht; exact ht
  | diverge => trivial

theorem Traces.tryCatch {g : Int → FaultM (Cpu μ) α} {F : List Call → Prop}
    (ht : Traces h k m K F c) (hg : ∀ e k' c', F k' → Traces h k' (g e) K E c') :
    Traces h k (tryCatch m g) K E c := by
  simp only [Traces, Ends, FaultM.tryCatch] at *
  cases hm : m c with
  | ret a c' => rw [hm] at ht; exact ht
  | thrown e c' =>
    rw [hm] at ht
    have hg' := fun k' hk => hg e k' c' hk
    dsimp only
    cases hge : g e c' with
    | ret b c'' => exact ht.trans fun k' hk => by have := hg' k' hk; rw [hge] at this; exact this
    | thrown e' c'' =>
      exact ht.trans fun k' hk => by have := hg' k' hk; rw [hge] at this; exact this
    | diverge => trivial
  | diverge => trivial

theorem Traces.pure {a : α} (hk : K a k) : Traces h k (Pure.pure a) K E c := Sim.refl hk c

theorem Traces.reads_bind {g : Cpu μ → α} {f : α → FaultM (Cpu μ) β} {K' : β → List Call → Prop}
    (hf : Traces h k (f (g c)) K' E c) : Traces h k (FaultM.reads g >>= f) K' E c := hf

/-- What hooks and handlers do leaves the calls alone. -/
theorem Traces.inner {P : List Call → Prop} (hm : Within (Moves h P) m) (hi : Inside k)
    (hP : P k) : Traces h k m (fun _ => (· = k)) (· = k) c :=
  (hm c).mono (fun _ _ hs => hs k hi hP) fun _ hs => hs k hi hP

/-- A step first. -/
theorem Traces.after {k' : List Call} {c' : Cpu μ} (hs : Sim h k (· = k') c c')
    {f : Unit → FaultM (Cpu μ) α} (hf : Traces h k' (f ()) K E c') (g : Cpu μ → Cpu μ)
    (hg : g c = c') : Traces h k (update g >>= f) K E c := by
  subst hg
  exact Ends.mono hf (fun a _ ht => hs.trans fun k₁ hk => hk ▸ ht) fun _ ht =>
    hs.trans fun k₁ hk => hk ▸ ht

theorem Traces.quiet_bind {g : Cpu μ → Cpu μ} {f : Unit → FaultM (Cpu μ) α} (hi : Inside k)
    (hg : Quiet c (g c)) (hf : Traces h k (f ()) K E (g c)) :
    Traces h k (update g >>= f) K E c :=
  .after (hg.moves (P := fun _ => True) k hi trivial) hf g rfl

/-- A quiet update, when its condition holds, first. -/
theorem Traces.quietIf {p : Prop} [Decidable p] {g : Cpu μ → Cpu μ}
    {f : Unit → FaultM (Cpu μ) α} (hi : Inside k) (hg : Quiet c (g c))
    (hf : ∀ c, Traces h k (f ()) K E c) :
    Traces h k (if p then update g >>= f else f ()) K E c := by
  split
  · exact .quiet_bind hi hg (hf (g c))
  · exact hf c

end Traces

/-! ## `do_specialties` -/

/-- The innermost call, of kind `kd`, was thrown out of a hook or handler. -/
def Thrown (kd : CallKind) (rest : List Call) (k : List Call) : Prop :=
  ∃ ph : Phase, ph.inside = true ∧ k = ⟨kd, ph⟩ :: rest

/-- What `do_specialties` says: leave the loop or go on. -/
def Told (kd : CallKind) (rest : List Call) (exit : Bool) (k : List Call) : Prop :=
  if exit then ∃ r, k = ⟨kd, .done r⟩ :: rest else k = ⟨kd, .ready⟩ :: rest

/-- A hook or handler called from the innermost call. -/
theorem Traces.inside {α : Type} {P : List Call → Prop} {m : FaultM (Cpu μ) α} {kd : CallKind}
    {ph : Phase} {rest : List Call} {c : Cpu μ} (hm : Within (Moves h P) m)
    (hph : ph.inside = true) (hP : P (⟨kd, ph⟩ :: rest)) :
    Traces h (⟨kd, ph⟩ :: rest) m (fun _ => (· = ⟨kd, ph⟩ :: rest)) (Thrown kd rest) c :=
  (Traces.inner hm (k := ⟨kd, ph⟩ :: rest) hph hP).mono (fun _ _ hk => hk) fun _ hk =>
    ⟨ph, hph, hk⟩

section Specialties

variable (hp : h.Parts) {kd : CallKind} {rest : List Call}

theorem quiet_dointWith (p : Prefs) (ipl : Level) (c : Cpu μ) : Quiet c (dointWith p ipl c) := by
  have hu : Quiet c (if c.regs.ipl.pin = ipl then c else updateIpl p ipl c) := by
    split
    · exact ⟨rfl, rfl, rfl, rfl, rfl, id, id⟩
    · simp only [updateIpl, Cpu.mapRegs, iplFetchNext, iplFetchNow]
      repeat' split
      all_goals exact ⟨rfl, rfl, rfl, rfl, rfl, id, id⟩
  simp only [dointWith]
  generalize (if c.regs.ipl.pin = ipl then c else updateIpl p ipl c) = c₁ at hu
  repeat' split
  all_goals first
    | exact hu
    | exact ⟨hu.pending, hu.clock, hu.depth, hu.intmask, hu.brk, fun _ => rfl, hu.doInt⟩
    | exact ⟨hu.pending, hu.clock, hu.depth, hu.intmask, hu.brk, hu.int, fun _ => rfl⟩

include hp

theorem doint_inner : Inner h (doint h) :=
  .bind (intlev_moves hp) fun ipl => quiet_update fun c => quiet_dointWith h.prefs ipl c

omit hp in
theorem Traces.via {α : Type} {k k' : List Call} {m : FaultM (Cpu μ) α}
    {K : α → List Call → Prop} {E : List Call → Prop} {c : Cpu μ} (hs : Sim h k (· = k') c c)
    (ht : Traces h k' m K E c) : Traces h k m K E c :=
  Ends.mono ht (fun _ _ ht => hs.trans fun _ hk => hk ▸ ht) fun _ ht =>
    hs.trans fun _ hk => hk ▸ ht

theorem interruptRound_traces (spc : SpcFlags) (nr : Level) (c : Cpu μ) :
    Traces h (⟨kd, .taking spc nr⟩ :: rest) (interruptRound h nr)
      (fun o k => k = ⟨kd, .taking spc nr⟩ :: rest ∧
        (o.isSome = true → h.prefs.cpuCompatible = true)) (Thrown kd rest) c := by
  have hnr : BitVec.ofNat 3 (nr.toNat + 24 - 24) = nr := by simp
  have hexc : Within (Moves h (Taking nr)) (exception h (nr.toNat + 24)) :=
    exception_moves hp fun _ k hk => by rw [hnr]; exact hk
  have hat : Taking nr (⟨kd, .taking spc nr⟩ :: rest) := ⟨kd, spc, rest, rfl⟩
  refine (Traces.inside hexc (by rfl) hat).bind ?_
  rintro _ _ c' rfl
  by_cases hc : !h.prefs.cpuCompatible ∨ h.prefs.cpuModel = .m68060
  · rw [if_pos hc]
    exact .pure ⟨rfl, fun ho => by cases ho⟩
  · rw [if_neg hc]
    have hcomp : h.prefs.cpuCompatible = true := by
      revert hc; cases h.prefs.cpuCompatible <;> simp
    have htail : ∀ l : Level, ∀ c', Traces h (⟨kd, .taking spc nr⟩ :: rest) (do
          let mask ← reads (·.regs.intmask)
          return if l = 0 ∨ l ≤ mask then none else some l)
        (fun o k => k = ⟨kd, .taking spc nr⟩ :: rest ∧
          (o.isSome = true → h.prefs.cpuCompatible = true)) (Thrown kd rest) c' :=
      fun l c' => .reads_bind (.pure ⟨rfl, fun _ => hcomp⟩)
    split
    · exact .reads_bind (htail _ _)
    · refine (Traces.inside (intlev_moves hp) (by rfl) hat).bind ?_
      rintro l _ c'' rfl
      exact htail l c''

theorem interruptLoop_traces (spc : SpcFlags) : ∀ (fuel : Nat) (nr : Level) (c : Cpu μ),
    Traces h (⟨kd, .taking spc nr⟩ :: rest) (interruptLoop h fuel nr)
      (fun _ k => ∃ nr', k = ⟨kd, .taking spc nr'⟩ :: rest) (Thrown kd rest) c := by
  intro fuel
  induction fuel with
  | zero => intro nr c; trivial
  | succ fuel ih =>
    intro nr c
    refine (interruptRound_traces hp spc nr c).bind ?_
    rintro (_ | nr') k' c' ⟨rfl, hcomp⟩
    · exact .pure ⟨nr, rfl⟩
    · refine .via (.call (.again nr') _ rfl fun s hc => ⟨s.want, ?_⟩) (ih nr' c')
      subst hc
      exact .again (hcomp rfl)

/-- `do_interrupt` takes a level and goes on serving. -/
theorem doInterrupt_traces (spc : SpcFlags) (fuel : Nat) (nr : Level) (c : Cpu μ) :
    Traces h (⟨kd, .taking spc nr⟩ :: rest) (doInterrupt h fuel nr)
      (fun _ => (· = ⟨kd, .serving spc⟩ :: rest)) (Thrown kd rest) c := by
  refine (interruptLoop_traces hp spc fuel nr c).bind ?_
  rintro _ _ c' ⟨nr', rfl⟩
  refine .via (.call .took _ rfl fun s hc => ⟨s.want, ?_⟩)
    (.inside (doint_inner hp) (by rfl) trivial)
  subst hc
  exact .took

omit hp in
/-- `do_specialties` samples a level it just read and clears the flags. -/
theorem sim_sample {spc : SpcFlags} {l : Level} {c : Cpu μ} (hint : spc.int = true)
    (hmmu : spc.mmuRestart = false) (hl : h.getIrq = none → l = c.pending.level) :
    Sim h (⟨kd, .serving spc⟩ :: rest)
      (· = ⟨kd, if c.regs.takes l then .taking spc.served l else .serving spc.served⟩ :: rest) c
      c.clearInts :=
  .call (.sample l) _ rfl fun s hc => ⟨s.want, by subst hc; exact .sample hint hmmu hl⟩

/-- The interrupt part of `do_specialties` once the level is known. -/
theorem serviceLevel_traces {spc : SpcFlags} (fuel : Nat) {l : Level} {c : Cpu μ}
    (hint : spc.int = true) (hmmu : spc.mmuRestart = false)
    (hl : h.getIrq = none → l = c.pending.level) :
    Traces h (⟨kd, .serving spc⟩ :: rest) (do
        update fun c => c.mapSpc fun f => { f with int := false, doInt := false }
        let c ← reads id
        if c.regs.intmask < l ∨ (l = 7 ∧ c.regs.ipl.lastipl < l) then
          doInterrupt h fuel l
        update fun c => c.mapRegs fun r => { r with ipl := { r.ipl with lastipl := l } })
      (fun _ => (· = ⟨kd, .serving spc.served⟩ :: rest)) (Thrown kd rest) c := by
  have hlast : ∀ c, Traces h (⟨kd, .serving spc.served⟩ :: rest)
      (update fun c => c.mapRegs fun r => { r with ipl := { r.ipl with lastipl := l } })
      (fun _ => (· = ⟨kd, .serving spc.served⟩ :: rest)) (Thrown kd rest) c := fun c =>
    .inside (P := fun _ => True) (quiet_update fun _ => quiet_mapRegs rfl rfl id id) (by rfl)
      trivial
  refine .after (sim_sample hint hmmu hl) ?_ _ rfl
  refine .reads_bind ?_
  by_cases ht : c.regs.intmask < l ∨ (l = 7 ∧ c.regs.ipl.lastipl < l)
  · have htk : c.regs.takes l = true := decide_eq_true ht
    rw [if_pos htk]
    refine (if_pos (c := (id c.clearInts).regs.intmask < l ∨ (l = 7 ∧
      (id c.clearInts).regs.ipl.lastipl < l)) ht).symm ▸ ?_
    refine (doInterrupt_traces hp spc.served fuel l _).bind ?_
    rintro _ _ c' rfl
    exact hlast c'
  · have htk : c.regs.takes l = false := decide_eq_false ht
    rw [if_neg (by simp [htk])]
    refine (if_neg (c := (id c.clearInts).regs.intmask < l ∨ (l = 7 ∧
      (id c.clearInts).regs.ipl.lastipl < l)) ht).symm ▸ ?_
    exact hlast _

/-- In `do_specialties` with the interrupt part behind it. -/
def Serviced (h : Host μ) (kd : CallKind) (rest : List Call) (spc : SpcFlags) (k : List Call) :
    Prop :=
  ∃ spc', k = ⟨kd, .serving spc'⟩ :: rest ∧ (spc' = spc ∨ spc' = spc.served) ∧
    (spc'.int = true → spc'.mmuRestart = true ∨ h.prefs.accurateIpl = true)

theorem serviceInterrupt_traces {spc : SpcFlags} (fuel : Nat) (c : Cpu μ)
    (hmmu : spc.mmuRestart = false) :
    Traces h (⟨kd, .serving spc⟩ :: rest) (serviceInterrupt h fuel spc.int)
      (fun _ => Serviced h kd rest spc) (Thrown kd rest) c := by
  have hserved : ∀ k : List Call, k = ⟨kd, .serving spc.served⟩ :: rest →
      Serviced h kd rest spc k :=
    fun k hk => ⟨_, hk, .inr rfl, fun hi => by cases hi⟩
  simp only [serviceInterrupt]
  split
  · rename_i hacc
    have hkeep : ∀ k : List Call, k = ⟨kd, .serving spc⟩ :: rest → Serviced h kd rest spc k :=
      fun k hk => ⟨_, hk, .inl rfl, fun _ => .inr hacc.2⟩
    refine .reads_bind ?_
    split
    · refine .after (.call (.sampleExact (timeForInterrupt c.regs)) _ rfl fun s hc => ⟨s.want, ?_⟩)
        ((doInterrupt_traces hp spc fuel _ _).mono (fun _ => hkeep) fun _ hk => hk) _ rfl
      subst hc
      exact .sampleExact hacc.2
    · exact .pure (hkeep _ rfl)
  · split
    · rename_i hint
      cases hg : h.getIrq with
      | none =>
        have hlev : intlev h = reads (·.pending.level) := by simp [intlev, hg]
        rw [hlev]
        exact .reads_bind ((serviceLevel_traces hp fuel hint hmmu fun _ => rfl).mono
          (fun _ => hserved) fun _ hk => hk)
      | some hook =>
        refine (Traces.inside (P := fun _ => True) (intlev_moves hp) (by rfl) trivial).bind ?_
        rintro l _ c' rfl
        exact (serviceLevel_traces hp fuel hint hmmu fun hn => by rw [hg] at hn; cases hn).mono
          (fun _ => hserved) fun _ hk => hk
    · rename_i hint
      exact .pure ⟨_, rfl, .inl rfl, fun hi => absurd hi hint⟩

omit hp in
/-- The end of `do_specialties`, from the CPU with the delayed request promoted. -/
theorem endSpecialties_ends {spc spc' : SpcFlags} (hmode : spc.modeChange = false)
    (hspc : spc' = spc ∨ spc' = spc.served)
    (hint : spc'.int = true → spc'.mmuRestart = true ∨ h.prefs.accurateIpl = true) {c c' : Cpu μ}
    (hc : c' = c.promote spc) :
    Ends (if spc.brk then do
        update fun c => c.mapSpc fun f => { f with brk := false }
        return true
      else return false) c'
      (fun b => Sim h (⟨kd, .serving spc'⟩ :: rest) (Told kd rest b) c)
      (Sim h (⟨kd, .serving spc'⟩ :: rest) (Thrown kd rest) c) := by
  have hmode' : spc'.modeChange = false := by obtain rfl | rfl := hspc <;> exact hmode
  have hbrk : spc'.brk = spc.brk := by obtain rfl | rfl := hspc <;> rfl
  have hprom : c.promote spc = c.promote spc' := by obtain rfl | rfl := hspc <;> rfl
  subst hc
  rw [hprom, ← hbrk]
  cases hb : spc'.brk
  · rw [if_neg (by simp)]
    refine Sim.call .served ⟨kd, .ready⟩ (by simp [Told]) fun s hc => ⟨s.want, ?_⟩
    subst hc
    exact .served hmode' hb hint
  · rw [if_pos rfl]
    refine Sim.call (.exit .request) ⟨kd, .done .request⟩ (by simp [Told])
      fun s hc => ⟨none, ?_⟩
    subst hc
    exact .request hmode' hb hint

theorem doSpecialties_traces (fuel : Nat) (c : Cpu μ) :
    Traces h (⟨kd, .serving c.regs.spc⟩ :: rest) (doSpecialties h fuel) (Told kd rest)
      (Thrown kd rest) c := by
  refine .reads_bind ?_
  generalize c.regs.spc = spc
  by_cases hmode : spc.modeChange = true
  · rw [if_pos hmode]
    refine Sim.call (.exit .modeChange) ⟨kd, .done .modeChange⟩ (by simp [Told])
      fun s hc => ⟨s.want, ?_⟩
    subst hc
    exact .modeChange hmode
  rw [if_neg hmode]
  have hmode : spc.modeChange = false := by simpa using hmode
  have hin : Inside (⟨kd, .serving spc⟩ :: rest) := rfl
  refine .quietIf hin ⟨rfl, rfl, rfl, rfl, rfl, id, id⟩ fun c => ?_
  refine .quietIf hin ⟨rfl, rfl, rfl, rfl, rfl, id, id⟩ fun c => ?_
  have hdoTrace : ∀ c : Cpu μ, Quiet c (c.mapRegs (doTrace h.prefs)) := fun c => by
    simp only [doTrace, Cpu.mapRegs]
    repeat' split
    all_goals exact ⟨rfl, rfl, rfl, rfl, rfl, id, id⟩
  by_cases hmmu : spc.mmuRestart = true
  · rw [if_pos hmmu]
    have hsame : ∀ c : Cpu μ, c = c.promote spc := fun c => by simp [Cpu.promote, hmmu]
    refine .quiet_bind hin ⟨rfl, rfl, rfl, rfl, rfl, id, id⟩ ?_
    exact .quietIf hin (hdoTrace _) fun c =>
      endSpecialties_ends hmode (.inl rfl) (fun _ => .inl hmmu) (hsame c)
  · rw [if_neg hmmu]
    have hmmu : spc.mmuRestart = false := by simpa using hmmu
    have hserve : ∀ c : Cpu μ, Traces h (⟨kd, .serving spc⟩ :: rest) (do
        serviceInterrupt h fuel spc.int
        if spc.doInt then
          update fun c => c.mapSpc fun f => { f with doInt := false, int := true }
        if spc.brk then
          update fun c => c.mapSpc fun f => { f with brk := false }
          return true
        else return false) (Told kd rest) (Thrown kd rest) c := by
      intro c
      refine (serviceInterrupt_traces hp fuel c hmmu).bind ?_
      rintro _ _ c' ⟨spc', rfl, hspc, hint⟩
      extract_lets jp
      by_cases hd : spc.doInt = true
      · rw [if_pos hd]
        exact endSpecialties_ends hmode hspc hint (by simp [Cpu.promote, hd, hmmu])
      · rw [if_neg hd]
        exact endSpecialties_ends hmode hspc hint (by simp [Cpu.promote, hd])
    have htrace : ∀ c : Cpu μ, Traces h (⟨kd, .serving spc⟩ :: rest) (do
        let trace ← reads (·.regs.spc.trace)
        if trace then update fun c => c.mapRegs (doTrace h.prefs)
        serviceInterrupt h fuel spc.int
        if spc.doInt then
          update fun c => c.mapSpc fun f => { f with doInt := false, int := true }
        if spc.brk then
          update fun c => c.mapSpc fun f => { f with brk := false }
          return true
        else return false) (Told kd rest) (Thrown kd rest) c :=
      fun c => .reads_bind (.quietIf hin (hdoTrace _) hserve)
    extract_lets _ jp
    by_cases hdt : spc.doTrace = true
    · rw [if_pos hdt]
      have hexc : Inner h (exception h 9) := exception_inner hp rfl
      refine (Traces.inside hexc (by rfl) trivial).bind ?_
      rintro _ _ c' rfl
      exact htrace c'
    · rw [if_neg hdt]
      exact htrace c

end Specialties

/-! ## The interpreter loop -/

/-- After a pass of a loop: at its head again, or about to return. -/
def Passed (kd : CallKind) (rest : List Call) (again : Bool) (k : List Call) : Prop :=
  if again then k = ⟨kd, .head⟩ :: rest else ∃ r, k = ⟨kd, .done r⟩ :: rest

section Run

variable (hp : h.Parts) {kd : CallKind} {rest : List Call}
include hp

theorem checkSpecialties_traces (fuel : Nat) {c : Cpu μ} (hopen : kd.opens c = true) :
    Traces h (⟨kd, .head⟩ :: rest) (checkSpecialties h fuel) (Told kd rest) (Thrown kd rest) c := by
  have hpass : Sim h (⟨kd, .head⟩ :: rest)
      (· = ⟨kd, if c.regs.spc.any then .serving c.regs.spc else .ready⟩ :: rest) c c :=
    .call .pass _ rfl fun s hc => ⟨s.want, by subst hc; exact .pass hopen⟩
  refine .via hpass (.reads_bind ?_)
  cases hany : c.regs.spc.any
  · exact .pure (by simp [Told])
  · exact doSpecialties_traces hp fuel c

omit hp in
theorem chargedTicks_nonneg (c : Cpu μ) (cyc : Long) : 0 ≤ chargedTicks c cyc := by
  simp only [chargedTicks, cycleUnit]
  split
  · split <;> omega
  · exact Int.natCast_nonneg _

theorem callInstrHook_inner : Inner h (callInstrHook h) := by
  simp only [callInstrHook]
  split
  · rename_i hook hg
    exact .reads_bind fun pc => hp.instr hook hg pc
  · exact .pure ()

/-- Fetches an opcode and executes it. -/
theorem executeOpcode_inner {fetch : FaultM (Cpu μ) Word} (hf : Inner h fetch)
    {charge : Cpu μ → Long → Int} (hc : ∀ c cyc, 0 ≤ charge c cyc) :
    Inner h (do
      let opcode ← fetch
      update fun c => c.mapRegs fun r => { r with instructionPc := r.pc, opcode := opcode }
      let cyc ← h.cpufunctbl opcode
      update fun c => c.doCycles (charge c cyc)
      update fun c => c.mapRegs fun r => { r with instructionCnt := r.instructionCnt + 1 }) :=
  .bind hf fun opcode => quiet_bind (fun _ => quiet_mapRegs rfl rfl id id) <|
    .bind (hp.cpufunctbl opcode) fun cyc =>
    .update_bind (fun c => moves_doCycles (hc c cyc) c) <|
    quiet_update fun _ => quiet_mapRegs rfl rfl id id

theorem executeInstr_inner : Inner h (executeInstr h) := by
  refine .bind (callInstrHook_inner hp) fun _ => ?_
  by_cases hi : h.prefs.cpuCompatible ∧ h.prefs.cpuModel.num ≤ 68010
  · simp only [hi, and_self, if_true]
    exact executeOpcode_inner hp (.reads _) chargedTicks_nonneg
  · simp only [hi, if_false]
    exact executeOpcode_inner hp hp.getIword chargedTicks_nonneg

theorem runPass_traces (fuel : Nat) (target : Int) (c : Cpu μ) :
    Traces h (⟨.run target, .head⟩ :: rest) (runPass h fuel target)
      (Passed (.run target) rest) (Thrown (.run target) rest) c := by
  refine .reads_bind ?_
  cases hgo : runnable target c
  · refine Sim.call (.exit .guard) ⟨.run target, .done .guard⟩ (by simp [Passed])
      fun s hc => ⟨s.want, ?_⟩
    subst hc
    exact .closed hgo
  · rw [if_neg (by simp)]
    have hopen : (CallKind.run target).opens c = true := hgo
    refine (checkSpecialties_traces hp fuel hopen).bind ?_
    rintro (_ | _) k' c' hk
    · obtain rfl : k' = ⟨.run target, .ready⟩ :: rest := by simpa [Told] using hk
      rw [if_neg (by simp)]
      refine .via (.call .begin ⟨.run target, .busy⟩ rfl fun s hc => ⟨s.want, ?_⟩) ?_
      · subst hc; exact .begin
      · refine (Traces.inside (executeInstr_inner hp) (by rfl) trivial).bind ?_
        rintro _ _ c'' rfl
        refine Sim.call .finish ⟨.run target, .head⟩ (by simp [Passed]) fun s hc => ⟨s.want, ?_⟩
        subst hc
        exact .finish (by simp)
    · rw [if_pos rfl]
      exact .pure (by simpa [Told, Passed] using hk)

omit hp in
/-- A call that was thrown out of a hook or handler goes on in its `CATCH` block. -/
theorem sim_fault {k : List Call} (hk : Thrown kd rest k) (c : Cpu μ) :
    Sim h k (· = ⟨kd, .busy⟩ :: rest) c c := by
  obtain ⟨ph, hph, rfl⟩ := hk
  exact .call .fault _ rfl fun s hc => ⟨s.want, by subst hc; exact .fault hph⟩

/-- `bus_error` never throws itself. -/
theorem busError_traces {k : List Call} (hk : Thrown kd rest k) (c : Cpu μ) :
    Traces h k (busError h) (fun _ => (· = ⟨kd, .busy⟩ :: rest)) (fun _ => False) c := by
  have hexc : Inner h (exception h 2) := exception_inner hp rfl
  refine .via (sim_fault hk c) (Traces.tryCatch
    (Traces.inner (k := ⟨kd, .busy⟩ :: rest) hexc rfl trivial) ?_)
  rintro e _ c' rfl
  exact .pure rfl

theorem loopBody_traces (fuel : Nat) (target : Int) (c : Cpu μ) :
    Traces h (⟨.run target, .head⟩ :: rest)
      (tryCatch (runPass h fuel target) fun _ => do busError h; return true)
      (Passed (.run target) rest) (fun _ => False) c := by
  refine (runPass_traces hp fuel target c).tryCatch fun e k' c' hk => ?_
  refine (busError_traces hp hk c').bind ?_
  rintro _ _ c'' rfl
  refine Sim.call .finish ⟨.run target, .head⟩ (by simp [Passed]) fun s hc => ⟨s.want, ?_⟩
  subst hc
  exact .finish (by simp)

omit hp in
/-- A loop whose body comes back to the stack it started from. -/
theorem Traces.loop {k : List Call} {body : FaultM (Cpu μ) Bool} {D E : List Call → Prop}
    (hb : ∀ c, Traces h k body (fun b k' => if b then k' = k else D k') E c) (fuel : Nat)
    (c : Cpu μ) : Traces h k (FaultM.loop body fuel) (fun _ => D) E c := by
  refine Ends.loop (I := Sim h k (· = k) c) (Q := Sim h k D c) (fun c' hI => ?_) fuel c
    (.refl (K := (· = k)) rfl c)
  have hthen : ∀ {K : List Call → Prop} {c''}, Sim h k K c' c'' → Sim h k K c c'' :=
    fun hs => hI.trans fun k₁ hk => by rw [hk]; exact hs
  refine Ends.mono (hb c') (fun b c'' hs => ?_) fun c'' hs => hthen hs
  cases b
  · exact hthen hs
  · exact hthen hs

theorem runLoop_traces (fuel : Nat) (target : Int) (c : Cpu μ) :
    Traces h (⟨.run target, .head⟩ :: rest) (runLoop h fuel target)
      (fun _ k => ∃ r, k = ⟨.run target, .done r⟩ :: rest) (fun _ => False) c :=
  .loop (fun c' => loopBody_traces hp fuel target c') fuel c

/-! ## `uae_host_step` -/

theorem stepInstr_inner : Inner h (stepInstr h) := by
  have hc : ∀ (_ : Cpu μ) (cyc : Long), (0 : Int) ≤ (cyc &&& 0xFFFF).toNat :=
    fun _ _ => Int.natCast_nonneg _
  refine .bind (callInstrHook_inner hp) fun _ => ?_
  by_cases hi : h.prefs.cpuCompatible = true
  · by_cases hm : h.prefs.cpuModel.num ≤ 68010
    · simp only [hi, hm, if_true]
      exact executeOpcode_inner hp (.reads _) hc
    · simp only [hi, hm, if_true, if_false]
      exact executeOpcode_inner hp (.reads _) hc
  · simp only [hi]
    exact executeOpcode_inner hp hp.getIword hc

omit hp in
/-- The end of a call. -/
theorem sim_leave {k : List Call} (hk : ∃ r, k = ⟨kd, .done r⟩ :: rest) (c : Cpu μ) :
    Sim h k (· = rest) c (kd.close c) := by
  obtain ⟨r, rfl⟩ := hk
  exact fun s hc hk _ => ⟨[.leave], _, .single (.leave hk), by rw [hc], rfl⟩

omit hp in
/-- A computation that comes back to the calls it was started in, wherever that is. -/
theorem inner_of_traces {α : Type} {m : FaultM (Cpu μ) α}
    (ht : ∀ k c, Inside k → k.length = c.executeDepth →
      Traces h k m (fun _ => (· = k)) (· = k) c) : Inner h m := by
  intro c
  simp only [Traces, Ends] at *
  cases hm : m c with
  | ret a c' =>
    intro k hi _ s hc hk hn
    have := ht k c hi (by rw [← hk, ← hc]; exact hn)
    rw [hm] at this
    exact this s hc hk hn
  | thrown e c' =>
    intro k hi _ s hc hk hn
    have := ht k c hi (by rw [← hk, ← hc]; exact hn)
    rw [hm] at this
    exact this s hc hk hn
  | diverge => trivial

omit hp in
theorem sim_stepped (c : Cpu μ) :
    Sim h (⟨.step, .busy⟩ :: rest) (fun k => ∃ r, k = ⟨.step, .done r⟩ :: rest) c c :=
  .call (.exit .stepped) ⟨.step, .done .stepped⟩ ⟨_, rfl⟩ fun s hc =>
    ⟨s.want, by subst hc; exact .stepped⟩

/-- The instruction of a step, once the special flags are dealt with. -/
theorem stepBody_traces (c : Cpu μ) :
    Traces h (⟨.step, .ready⟩ :: rest) (do stepInstr h; return false)
      (fun (_ : Bool) k => ∃ r, k = ⟨.step, .done r⟩ :: rest) (Thrown .step rest) c := by
  refine .via (.call .begin ⟨.step, .busy⟩ rfl fun s hc => ⟨s.want, ?_⟩) ?_
  · subst hc; exact .begin
  · refine (Traces.inside (stepInstr_inner hp) (by rfl) trivial).bind ?_
    rintro _ _ c' rfl
    exact sim_stepped c'

theorem uaeHostStep_inner (fuel : Nat) : Inner h (uaeHostStep h fuel) := by
  refine inner_of_traces fun k c hi _ => .reads_bind ?_
  have henter : Sim h k (· = ⟨.step, .head⟩ :: k) c
      { c with executeDepth := c.executeDepth + 1 } :=
    fun s hc hk _ => ⟨[.enterStep], _, .single (.enterStep (hk ▸ hi)), by rw [hc], by rw [hk]⟩
  refine .after henter ?_ _ rfl
  refine Traces.bind (K := fun _ k' => ∃ r, k' = ⟨.step, .done r⟩ :: k) ?_ ?_
  · refine Traces.tryCatch (F := Thrown .step k) ?_ fun e k' c' hk => ?_
    · have hopen : CallKind.step.opens { c with executeDepth := c.executeDepth + 1 } = true := rfl
      refine (checkSpecialties_traces hp fuel hopen).bind ?_
      rintro (_ | _) k' c' hk
      · obtain rfl : k' = ⟨.step, .ready⟩ :: k := by simpa [Told] using hk
        exact stepBody_traces hp c'
      · exact .pure (by simpa [Told] using hk)
    · refine ((busError_traces hp hk c').mono (fun _ _ hk => hk) fun _ hf => hf.elim).bind ?_
      rintro _ _ c'' rfl
      exact sim_stepped c''
  · rintro exited k' c' hk
    refine .after (sim_leave hk c') ?_ _ rfl
    exact Sim.refl (K := (· = k)) rfl _

/-! ## The JIT path -/

omit hp in
theorem sim_begin (c : Cpu μ) : Sim h (⟨kd, .ready⟩ :: rest) (· = ⟨kd, .busy⟩ :: rest) c c :=
  .call .begin _ rfl fun s hc => ⟨s.want, by subst hc; exact .begin⟩

omit hp in
theorem sim_finish (hk : kd ≠ .step) (c : Cpu μ) :
    Sim h (⟨kd, .busy⟩ :: rest) (· = ⟨kd, .head⟩ :: rest) c c :=
  .call .finish _ rfl fun s hc => ⟨s.want, by subst hc; exact .finish hk⟩

/-- One pass of the loop for traced code: it goes on, or ends with or without being told to. -/
theorem tracedPass_traces (fuel : Nat) (c : Cpu μ) :
    Traces h (⟨.jit, .ready⟩ :: rest) (tracedPass h fuel)
      (fun b k => if b then k = ⟨.jit, .ready⟩ :: rest
        else k = ⟨.jit, .ready⟩ :: rest ∨ ∃ r, k = ⟨.jit, .done r⟩ :: rest)
      (Thrown .jit rest) c := by
  refine .reads_bind ?_
  by_cases ht : c.regs.t0 ∨ c.regs.t1 ∨ c.regs.m
  · rw [if_pos ht]
    have hin : Inside (⟨.jit, .busy⟩ :: rest) := rfl
    refine .via (sim_begin c) (.quiet_bind hin ⟨rfl, rfl, rfl, rfl, rfl, id, id⟩ ?_)
    refine (Traces.inside hp.getIword (by rfl) trivial).bind ?_
    rintro op _ c₁ rfl
    refine .quiet_bind hin ⟨rfl, rfl, rfl, rfl, rfl, id, id⟩ ?_
    refine (Traces.inside (hp.cpufunctbl op) (by rfl) trivial).bind ?_
    rintro _ _ c₂ rfl
    have hticks : Moves h (fun _ => True) c₂ (c₂.doCycles (4 * cycleUnit)) :=
      moves_doCycles (by decide) c₂
    refine .after (hticks _ hin trivial) ?_ _ rfl
    have hopen : CallKind.jit.opens (c₂.doCycles (4 * cycleUnit)) = true := rfl
    refine .via (sim_finish (by simp) _) ((checkSpecialties_traces hp fuel hopen).bind ?_)
    rintro (_ | _) k' c' hk
    · exact .pure (by simpa [Told] using hk)
    · exact .pure (by simpa [Told] using Or.inr hk)
  · rw [if_neg ht]
    exact .pure (by simp)

/-- Translated code, with the exception a fault in it becomes. -/
theorem compiledRound_traces (c : Cpu μ) :
    Traces h (⟨.jit, .busy⟩ :: rest) (tryCatch (do h.compiled; return true)
        fun exc => do exception h exc.toNat; return false)
      (fun _ => (· = ⟨.jit, .busy⟩ :: rest)) (Thrown .jit rest) c := by
  have hin : Inside (⟨.jit, .busy⟩ :: rest) := rfl
  have hcomp := hp.compiled c
  simp only [Traces, Ends, FaultM.tryCatch, bind_apply, Moves] at *
  cases hm : h.compiled c with
  | ret a c' => rw [hm] at hcomp; exact hcomp _ hin trivial
  | diverge => trivial
  | thrown e c' =>
    rw [hm] at hcomp
    dsimp only
    have hexc := (exception_inner hp (hp.compiledCode c e c' hm)) c'
    simp only [Ends, Moves] at hexc
    cases hx : exception h e.toNat c' with
    | ret a c'' =>
      rw [hx] at hexc
      exact (hcomp _ hin trivial).trans fun k₁ hk => by subst hk; exact hexc _ hin trivial
    | thrown e' c'' =>
      rw [hx] at hexc
      exact (hcomp _ hin trivial).trans fun k₁ hk => by
        subst hk; exact (hexc _ hin trivial).mono fun _ hk => ⟨_, rfl, hk⟩
    | diverge => trivial

theorem jitRound_traces (fuel : Nat) (c : Cpu μ) :
    Traces h (⟨.jit, .busy⟩ :: rest) (jitRound h fuel)
      (fun b k => if b then k = ⟨.jit, .busy⟩ :: rest else ∃ r, k = ⟨.jit, .done r⟩ :: rest)
      (Thrown .jit rest) c := by
  refine (compiledRound_traces hp c).bind ?_
  rintro returned _ c₁ rfl
  cases returned
  · exact .pure rfl
  rw [if_neg (by simp)]
  have hopen : CallKind.jit.opens c₁ = true := rfl
  refine .via (sim_finish (by simp) _) ((checkSpecialties_traces hp fuel hopen).bind ?_)
  rintro (_ | _) k' c₂ hk
  · obtain rfl : k' = ⟨.jit, .ready⟩ :: rest := by simpa [Told] using hk
    rw [if_neg (by simp)]
    refine .reads_bind ?_
    extract_lets jp
    by_cases ht : c₂.regs.t0 ∨ c₂.regs.t1 ∨ c₂.regs.m
    · rw [if_pos ht]
      have hdrop : Sim h (⟨.jit, .ready⟩ :: rest) (· = ⟨.jit, .ready⟩ :: rest) c₂ c₂.clearBrk :=
        .call .drop _ rfl fun s hc => ⟨none, by subst hc; exact .drop⟩
      refine .after hdrop ?_ _ rfl
      refine (Traces.loop (fun c => tracedPass_traces hp fuel c) fuel _).bind ?_
      have hend : ∀ c, Traces h (⟨.jit, .busy⟩ :: rest) (do
          update fun c => c.mapSpc fun f => { f with endCompile := false }
          return true)
          (fun b k => if b then k = ⟨.jit, .busy⟩ :: rest else ∃ r, k = ⟨.jit, .done r⟩ :: rest)
          (Thrown .jit rest) c :=
        fun c => .quiet_bind rfl ⟨rfl, rfl, rfl, rfl, rfl, id, id⟩ (.pure rfl)
      rintro _ k' c₃ (rfl | ⟨r, rfl⟩)
      · exact .via (sim_begin c₃) (hend c₃)
      · refine .via (.call .resume _ rfl fun s hc => ⟨s.want, ?_⟩) (hend c₃)
        subst hc
        exact .resume
    · rw [if_neg ht]
      exact .via (sim_begin c₂) (.pure rfl)
  · rw [if_pos rfl]
    exact .pure (by simpa [Told] using hk)

theorem runJit_traces (fuel : Nat) (c : Cpu μ) :
    Traces h (⟨.jit, .head⟩ :: rest) (runJit h fuel)
      (fun _ k => ∃ r, k = ⟨.jit, .done r⟩ :: rest) (Thrown .jit rest) c := by
  have hopen : CallKind.jit.opens c = true := rfl
  refine (checkSpecialties_traces hp fuel hopen).bind ?_
  rintro (_ | _) k' c₁ hk
  · obtain rfl : k' = ⟨.jit, .ready⟩ :: rest := by simpa [Told] using hk
    rw [if_neg (by simp)]
    exact .via (sim_begin c₁) (.loop (fun c => jitRound_traces hp fuel c) fuel c₁)
  · rw [if_pos rfl]
    exact .pure (by simpa [Told] using hk)

/-- The JIT path between setting the countdown up and folding it in. -/
theorem jitGuarded_traces (fuel : Nat) (c : Cpu μ) :
    Traces h (⟨.jit, .head⟩ :: rest) (tryCatch (runJit h fuel) fun _ => busError h)
      (fun _ k => ∃ r, k = ⟨.jit, .done r⟩ :: rest) (fun _ => False) c := by
  refine (runJit_traces hp fuel c).tryCatch fun e k' c' hk => ?_
  have hdone : ∀ c, Sim h (⟨.jit, .busy⟩ :: rest) (fun k => ∃ r, k = ⟨.jit, .done r⟩ :: rest) c c :=
    fun c => .call (.exit .fault) ⟨.jit, .done .fault⟩ ⟨_, rfl⟩ fun s hc =>
      ⟨s.want, by subst hc; exact .jitFault⟩
  refine Ends.mono (busError_traces hp hk c') (fun _ c'' hs => ?_) fun _ hs => hs
  exact hs.trans fun k₁ hk => by subst hk; exact hdone c''

/-- `uae_host_run` is a run of the system that ends with the calls it began with. -/
theorem uaeHostRun_inner (fuel : Nat) (cycles : Int) : Inner h (uaeHostRun h fuel cycles) := by
  refine inner_of_traces fun k c hi hlen => .reads_bind ?_
  by_cases hj : h.prefs.jit ∧ (enterRun h c).executeDepth = 1
  · have hk : k = [] := by
      rw [enterRun_depth] at hj
      exact List.eq_nil_of_length_eq_zero (by omega)
    subst hk
    have henter : Sim h [] (· = [⟨.jit, .head⟩]) c ((enterRun h c).jitStart cycles) :=
      fun s hc hk _ => ⟨[.enterJit cycles], _, .single (.enterJit cycles hk hj.1), by rw [hc], rfl⟩
    have hrun : Traces h [⟨.jit, .head⟩] (tryCatch (runJit h fuel) fun _ => busError h)
        (fun _ k => ∃ r, k = [⟨.jit, .done r⟩]) (fun _ => False) ((enterRun h c).jitStart cycles) :=
      jitGuarded_traces hp fuel _
    simp only [Traces, ends_bind, ends_update, ends_reads]
    rw [if_pos hj]
    simp only [runJitPath, ends_bind, ends_update, ends_reads, ends_pure]
    refine Ends.mono hrun (fun _ c' hs => ?_) fun c' hs => ?_
    · exact henter.trans fun k₁ hk₁ => hk₁ ▸ hs.trans fun k₂ hk₂ => sim_leave hk₂ c'
    · exact henter.trans fun k₁ hk₁ => hk₁ ▸ hs.mono fun _ hf => hf.elim
  · have henter : Sim h k
        (· = ⟨.run (c.clock.currcycle + cycles * cycleUnit), .head⟩ :: k) c (enterRun h c) := by
      intro s hc hk _
      have hjit : h.prefs.jit = true → s.calls ≠ [] := by
        intro hp hnil
        refine hj ⟨hp, ?_⟩
        rw [enterRun_depth, ← hlen, ← hk, hnil]
        rfl
      exact ⟨[.enterRun cycles], _, .single (.enterRun cycles (hk ▸ hi) hjit), by rw [hc],
        by rw [hk, hc]⟩
    refine .after henter (.reads_bind ?_) _ rfl
    rw [if_neg hj]
    refine ((runLoop_traces hp fuel _ _).mono (fun _ _ hk => hk) fun _ hf => hf.elim).bind ?_
    rintro _ k' c' hk
    refine .after (sim_leave hk c') ?_ _ rfl
    exact Sim.refl (K := (· = k)) rfl _

end Run

end UaeCpu
