import UaeCpu.Monotonic

/-!
# UaeCpu.Timeslice

`uae_cpu_end_timeslice` in nested calls: the request is one shared flag, and it is meant for the
call it was made in.

* `OwnRequest`          — a pending request belongs to the innermost call.
* `step_ownRequest`     — every step keeps that, unless a call begins or ends while the flag is up.
* `timeslice_innermost` — so in a run without such steps each request makes exactly the call it
                          was made in return.
-/

namespace UaeCpu

open Fault FaultM Trans

variable {μ : Type} {h : Host μ}

/-- The phase holds flags that were read with `SPCFLAG_BRK` up. -/
def Phase.sampledBrk : Phase → Bool
  | .serving spc | .taking spc _ => spc.brk
  | _ => false

/-- A pending request was made in the innermost call, which has not ended, and only that call can
have read it. -/
structure OwnRequest (s : Sys μ) : Prop where
  brk : s.brk = s.want.isSome
  own : ∀ d, s.want = some d → d = s.depth
  top : ∀ k rest, s.calls = k :: rest → k.phase.sampledBrk = true → s.want = some s.depth
  below : ∀ k ∈ s.calls.tail, k.phase.sampledBrk = false
  settled : ∀ k r rest, s.calls = ⟨k, .done r⟩ :: rest → s.want = none

/-- The steps that keep a request with its call: no call begins while the flag is up, none ends
for another reason while it is, the JIT budget raises it only for the call on the JIT path, and
neither the dispatcher's `check_debugger` nor its loop for traced code swallows it. -/
def RequestSafe (s : Sys μ) : Event → Prop
  | .endTimeslice => s.calls ≠ []
  | .enterRun _ | .enterJit _ | .enterStep | .drop => s.brk = false
  | .exit .request => True
  | .exit _ => s.brk = false
  | .resume => ∀ k rest, s.calls ≠ ⟨k, .done .request⟩ :: rest
  | .ticks n => (s.cpu.clock.doCycles n).2 = true → s.depth = 1
  | .resetClock => (s.cpu.clock.doCycles ((s.cpu.clock.currcycle * 2).tdiv cycleUnit)).2 = true →
      s.depth = 1
  | .block n => (s.cpu.jitBlock n).regs.spc.brk = true → s.brk = false → s.depth = 1
  | _ => True

/-! ## `SPCFLAG_BRK` in each step -/

theorem doCycles_brk (n : Int) (c : Cpu μ) :
    (c.doCycles n).regs.spc.brk = (c.regs.spc.brk || (c.clock.doCycles n).2) := rfl

theorem jitBlock_brk {n : Nat} {c : Cpu μ} (hb : c.regs.spc.brk = true) :
    (c.jitBlock n).regs.spc.brk = true := by
  simp only [Cpu.jitBlock]
  split
  · rw [doCycles_brk]; simp [hb]
  · exact hb

theorem setIrq_brk (l : Long) (c : Cpu μ) : (setIrq l c).regs.spc.brk = c.regs.spc.brk := by
  simp only [setIrq]
  split <;> rfl

theorem setVirq_brk (l : Long) (a : Bool) (c : Cpu μ) :
    (setVirq l a c).regs.spc.brk = c.regs.spc.brk := by
  simp only [setVirq]
  split <;> split <;> rfl

theorem enterRun_brk (c : Cpu μ) : (enterRun h c).regs.spc.brk = c.regs.spc.brk := by
  simp only [enterRun]
  split <;> rfl

theorem promote_brk (spc : SpcFlags) (c : Cpu μ) :
    (c.promote spc).regs.spc.brk = c.regs.spc.brk := by
  simp only [Cpu.promote]
  split <;> rfl

theorem close_brk (k : CallKind) (c : Cpu μ) : (k.close c).regs.spc.brk = c.regs.spc.brk := by
  cases k <;> rfl

/-! ## Steps -/

section Keep

variable {s s' : Sys μ} (ho : OwnRequest s)
include ho

/-- A step that leaves the flag and the calls alone. -/
theorem OwnRequest.same (hb : s'.brk = s.brk) (hw : s'.want = s.want) (hc : s'.calls = s.calls) :
    OwnRequest s' where
  brk := by rw [hb, hw]; exact ho.brk
  own d hd := by
    have hdep : s'.depth = s.depth := congrArg List.length hc
    rw [hdep]; exact ho.own d (hw ▸ hd)
  top k rest hk hs := by
    have hdep : s'.depth = s.depth := congrArg List.length hc
    rw [hdep, hw]; exact ho.top k rest (hc ▸ hk) hs
  below := by rw [hc]; exact ho.below
  settled k r rest hk := by rw [hw]; exact ho.settled k r rest (hc ▸ hk)

/-- A step inside that may raise the flag for the innermost call. -/
theorem OwnRequest.raise (hin : Inside s.calls) (hb : s'.brk = s'.want.isSome)
    (hw : s'.want = s.want ∨ s'.want = some s.depth) (hc : s'.calls = s.calls) :
    OwnRequest s' := by
  have hdep : s'.depth = s.depth := congrArg List.length hc
  refine ⟨hb, fun d hd => ?_, fun k rest hk hs => ?_, by rw [hc]; exact ho.below, ?_⟩
  · rw [hdep]
    obtain hw | hw := hw
    · exact ho.own d (hw ▸ hd)
    · rw [hw] at hd; cases hd; rfl
  · rw [hdep]
    obtain hw | hw := hw
    · rw [hw]; exact ho.top k rest (hc ▸ hk) hs
    · exact hw
  · intro k r rest hk
    rw [← hc, hk] at hin
    cases hin

theorem OwnRequest.want_none (hb : s.brk = false) : s.want = none := by
  have hw := ho.brk
  rw [hb] at hw
  exact Option.not_isSome_iff_eq_none.mp (by rw [← hw]; simp)

/-- A call begins with the flag down. -/
theorem OwnRequest.push {k : CallKind} (hb : s.brk = false) (hb' : s'.brk = s.brk)
    (hw : s'.want = s.want) (hc : s'.calls = ⟨k, .head⟩ :: s.calls) : OwnRequest s' := by
  have hnone := ho.want_none hb
  refine ⟨by rw [hb', hw]; exact ho.brk, fun d hd => ?_, fun k' rest hk hs => ?_, ?_, ?_⟩
  · rw [hw, hnone] at hd; cases hd
  · rw [hc] at hk
    cases hk
    cases hs
  · rw [hc]
    intro k' hk'
    -- a call under the new one has read no request, or there would still be one
    by_contra hs
    have hs : k'.phase.sampledBrk = true := by simpa using hs
    cases hcalls : s.calls with
    | nil => rw [hcalls] at hk'; cases hk'
    | cons k₁ rest =>
      rw [hcalls, List.tail_cons] at hk'
      obtain rfl | hmem := List.mem_cons.mp hk'
      · have := ho.top k' rest hcalls hs
        rw [hnone] at this; cases this
      · have := ho.below k' (by rw [hcalls]; exact hmem)
        rw [this] at hs; cases hs
  · intro k' r rest hk
    rw [hc] at hk
    cases hk

/-- The innermost call goes on. -/
theorem OwnRequest.advance {k k' : Call} {rest : List Call} {c' : Cpu μ} {w : Option Nat}
    (hc : s.calls = k :: rest) (hb : c'.regs.spc.brk = w.isSome)
    (hw : w = s.want ∨ w = none) (hs : k'.phase.sampledBrk = true → w = some s.depth)
    (hover : ∀ r, k'.phase = .done r → w = none) :
    OwnRequest { cpu := c', calls := k' :: rest, want := w } := by
  have hdep : Sys.depth { cpu := c', calls := k' :: rest, want := w } = s.depth := by
    simp only [Sys.depth, hc, List.length_cons]
  refine ⟨hb, fun d hd => ?_, fun k₁ rest₁ hk hs₁ => ?_, ?_, fun k₁ r rest₁ hk => ?_⟩
  · rw [hdep]
    obtain rfl | rfl := hw
    · exact ho.own d hd
    · cases hd
  · cases hk
    rw [hdep]; exact hs hs₁
  · have := ho.below
    rw [hc] at this
    exact this
  · cases hk
    exact hover r rfl

theorem step_call_ownRequest {k k' : Call} {rest : List Call} {e : Event} {c' : Cpu μ}
    {w : Option Nat} (hc : s.calls = k :: rest) (hk : CallStep h k s e k' c' w)
    (hsafe : RequestSafe s e) : OwnRequest { cpu := c', calls := k' :: rest, want := w } := by
  have hsame : s.cpu.regs.spc.brk = s.want.isSome := ho.brk
  have hdown : s.brk = false → s.want = none := ho.want_none
  cases hk with
  | pass hopen =>
    refine ho.advance hc hsame (.inl rfl) (fun hs => ?_) fun r hr => ?_
    · -- the flags just read hold the request
      have hbrk : s.cpu.regs.spc.brk = true := by
        revert hs; split <;> simp [Phase.sampledBrk]
      obtain ⟨d, hd⟩ := Option.isSome_iff_exists.mp (hsame.symm.trans hbrk)
      rw [hd, ho.own d hd]
    · revert hr; split <;> simp
  | closed hcl =>
    exact ho.advance hc hsame (.inl rfl) (fun hs => by cases hs) fun _ _ => hdown hsafe
  | sample hint hmmu hl =>
    refine ho.advance hc hsame (.inl rfl) (fun hs => ?_) fun r hr => ?_
    · refine ho.top _ _ hc ?_
      revert hs; split <;> exact id
    · revert hr; split <;> simp
  | sampleExact ha => exact ho.advance hc hsame (.inl rfl) (fun hs => ho.top _ _ hc hs) (by simp)
  | again hcomp => exact ho.advance hc hsame (.inl rfl) (fun hs => ho.top _ _ hc hs) (by simp)
  | took => exact ho.advance hc hsame (.inl rfl) (fun hs => ho.top _ _ hc hs) (by simp)
  | served hmode hbrk hint =>
    exact ho.advance hc (by rw [promote_brk]; exact hsame) (.inl rfl) (fun hs => by cases hs)
      (by simp)
  | request hmode hbrk hint =>
    exact ho.advance hc rfl (.inr rfl) (fun hs => by cases hs) fun _ _ => rfl
  | modeChange hmode =>
    exact ho.advance hc hsame (.inl rfl) (fun hs => by cases hs) fun _ _ => hdown hsafe
  | begin => exact ho.advance hc hsame (.inl rfl) (fun hs => by cases hs) (by simp)
  | finish hk => exact ho.advance hc hsame (.inl rfl) (fun hs => by cases hs) (by simp)
  | fault hph => exact ho.advance hc hsame (.inl rfl) (fun hs => by cases hs) (by simp)
  | stepped =>
    exact ho.advance hc hsame (.inl rfl) (fun hs => by cases hs) fun _ _ => hdown hsafe
  | jitFault =>
    exact ho.advance hc hsame (.inl rfl) (fun hs => by cases hs) fun _ _ => hdown hsafe
  | resume => exact ho.advance hc hsame (.inl rfl) (fun hs => by cases hs) (by simp)
  | drop => exact ho.advance hc rfl (.inr rfl) (fun hs => by cases hs) (by simp)

/-- `do_cycles` raises the flag for the innermost call, or leaves it. -/
theorem OwnRequest.charged {c' : Cpu μ} (hin : Inside s.calls)
    (hup : s.brk = true → c'.regs.spc.brk = true)
    (hone : c'.regs.spc.brk = true → s.brk = false → s.depth = 1) :
    OwnRequest (s.charge c') := by
  have hsame : s.brk = s.want.isSome := ho.brk
  refine ho.raise hin ?_ ?_ rfl
  · by_cases hb : s.brk = true
    · simp [Sys.brk, Sys.charge, hup hb] at *
      simp [hb, ← hsame]
    · by_cases hb' : c'.regs.spc.brk = true <;>
        simp_all [Sys.brk, Sys.charge]
  · by_cases hb : c'.regs.spc.brk = true ∧ s.brk = false
    · right
      simp [Sys.charge, hb, hone hb.1 hb.2]
    · left
      simp only [Sys.charge]
      rw [if_neg]
      simpa using hb

end Keep

/-- A step that meets the condition keeps a pending request with the innermost call. -/
theorem step_ownRequest {s s' : Sys μ} {e : Event} (ho : OwnRequest s)
    (hs : Guarded (Step h) RequestSafe s e s') : OwnRequest s' := by
  obtain ⟨hsafe, hs⟩ := hs
  cases hs with
  | quiet hin hq => exact ho.same hq.brk rfl rfl
  | ticks n hin =>
    refine ho.charged hin (fun hb => ?_) fun hb hb₀ => hsafe ?_
    · simp only [Sys.brk] at hb; rw [doCycles_brk, hb]; rfl
    · simp only [Sys.brk] at hb₀; rw [doCycles_brk, hb₀] at hb; exact hb
  | exactTicks n hin he => exact ho.same rfl rfl rfl
  | resetClock hin he hp =>
    refine ho.charged hin (fun hb => ?_) fun hb hb₀ => hsafe ?_
    · simp only [Sys.brk] at hb; simp only [ce000ResetClock, doCycles_brk, hb]; rfl
    · simp only [Sys.brk] at hb₀; simp only [ce000ResetClock, doCycles_brk, hb₀] at hb; exact hb
  | block n hin ha h0 hn => exact ho.charged hin jitBlock_brk hsafe
  | writeSR k v hin => exact ho.same (writeSR_spc h.prefs k v s.cpu.toCore).1 rfl rfl
  | setIrq l hin => exact ho.same (setIrq_brk l _) rfl rfl
  | setVirq l a hin => exact ho.same (setVirq_brk l a _) rfl rfl
  | endTimeslice hin => exact ho.raise hin rfl (.inr rfl) rfl
  | raiseMask hc => exact ho.same rfl rfl rfl
  | enterRun cycles hin hj => exact ho.push hsafe (enterRun_brk _) rfl rfl
  | enterJit cycles hcalls hj => exact ho.push hsafe (enterRun_brk _) rfl (by rw [hcalls])
  | enterStep hin => exact ho.push hsafe rfl rfl rfl
  | call hcalls hk => exact step_call_ownRequest ho hcalls hk hsafe
  | @leave k r rest hcalls =>
    have hnone := ho.settled k r rest hcalls
    have hbelow := ho.below
    rw [hcalls, List.tail_cons] at hbelow
    refine ⟨?_, fun d hd => ?_, fun k' rest' hk hs => ?_, fun k' hk' => ?_, fun _ _ _ _ => hnone⟩
    · simp only [Sys.brk, close_brk]; exact ho.brk
    · simp only [hnone] at hd; cases hd
    · rw [hbelow k' (by simp only at hk; simp [hk])] at hs; cases hs
    · exact hbelow k' (List.mem_of_mem_tail hk')

/-- A call is told to return only by a request of its own, which that step uses up. -/
theorem exit_request {s s' : Sys μ} (ho : OwnRequest s) (hs : Step h s (.exit .request) s') :
    s.want = some s.depth ∧ s'.brk = false ∧ s'.want = none ∧ s'.calls.tail = s.calls.tail := by
  cases hs with
  | call hcalls hk =>
    cases hk with
    | request hmode hbrk hint =>
      exact ⟨ho.top _ _ hcalls hbrk, rfl, rfl, by rw [hcalls, List.tail_cons, List.tail_cons]⟩

theorem leave_brk {s s' : Sys μ} (ho : OwnRequest s) (hs : Step h s .leave s') :
    s.brk = false ∧ s'.brk = false := by
  cases hs with
  | @leave k r rest hcalls =>
    have hdown : s.brk = false := by rw [ho.brk, ho.settled k r rest hcalls]; rfl
    exact ⟨hdown, (close_brk k _).trans hdown⟩
  | call hcalls hk => cases hk

/-- A pending request stays pending, with the same calls in progress, until its call is told to
return. -/
theorem request_stays {s s' : Sys μ} {e : Event} {d : Nat} (ho : OwnRequest s)
    (hw : s.want = some d) (hs : Guarded (Step h) RequestSafe s e s') :
    s'.want = some d ∧ (∀ r, e ≠ .exit r) ∨ e = .exit .request := by
  obtain ⟨hsafe, hs⟩ := hs
  have hup : s.brk = true := by rw [ho.brk, hw]; rfl
  have hnot : s.brk ≠ false := by simp [hup]
  have hcharge : ∀ c', (s.charge c').want = some d := by simp [Sys.charge, hup, hw]
  cases hs with
  | quiet | exactTicks | writeSR | setIrq | setVirq | raiseMask => exact .inl ⟨hw, by simp⟩
  | ticks | resetClock | block => exact .inl ⟨hcharge _, by simp⟩
  | endTimeslice => exact .inl ⟨by rw [ho.own d hw], by simp⟩
  | enterRun | enterJit | enterStep => exact absurd hsafe hnot
  | leave hcalls =>
    have hnone := ho.settled _ _ _ hcalls
    rw [hw] at hnone; cases hnone
  | call hcalls hk =>
    cases hk with
    | request => exact .inr rfl
    | closed | modeChange | stepped | jitFault | drop => exact absurd hsafe hnot
    | resume =>
      have hnone := ho.settled _ _ _ hcalls
      rw [hw] at hnone; cases hnone
    | _ => exact .inl ⟨hw, by simp⟩

/-- The call a request was made in does not end before it has been told to return. -/
theorem request_returns {s s' : Sys μ} {es : List Event} {d : Nat}
    (hr : Run (Guarded (Step h) RequestSafe) s es s') (ho : OwnRequest s) (hw : s.want = some d)
    (hd : s'.depth < d) :
    ∃ es₁ es₂ s₁ s₂, es = es₁ ++ .exit .request :: es₂ ∧ (∀ r, .exit r ∉ es₁) ∧
      Run (Guarded (Step h) RequestSafe) s es₁ s₁ ∧ s₁.depth = d ∧
      Step h s₁ (.exit .request) s₂ ∧ Run (Guarded (Step h) RequestSafe) s₂ es₂ s' := by
  induction hr with
  | nil => exact absurd (ho.own d hw) hd.ne'
  | @cons s s₁ s' e es hs hr ih =>
    have hdep : s.depth = d := (ho.own d hw).symm
    obtain ⟨hw', hne⟩ | rfl := request_stays ho hw hs
    · obtain ⟨es₁, es₂, t₁, t₂, rfl, hno, hr₁, hdep₁, hex, hr₂⟩ := ih (step_ownRequest ho hs) hw' hd
      refine ⟨e :: es₁, es₂, t₁, t₂, rfl, fun r hmem => ?_, .cons hs hr₁, hdep₁, hex, hr₂⟩
      obtain heq | hmem := List.mem_cons.mp hmem
      · exact hne r heq.symm
      · exact hno r hmem
    · exact ⟨[], es, s, s₁, rfl, by simp, .nil, hdep, hs.2, hr⟩

/-! ## The loop -/

/-- Whatever `do_specialties` does in between, it asks the loop to leave when it started with the
flag up. -/
theorem doSpecialties_brk (fuel : Nat) {c : Cpu μ} (hb : c.regs.spc.brk = true) :
    Ends (doSpecialties h fuel) c (fun b _ => b = true) fun _ => True := by
  have hnext : ∀ {α : Type} {m : FaultM (Cpu μ) α} {f : α → FaultM (Cpu μ) Bool} {c : Cpu μ},
      (∀ a c, Ends (f a) c (fun b _ => b = true) fun _ => True) →
      Ends (m >>= f) c (fun b _ => b = true) fun _ => True := fun hf =>
    Ends.bind (P := fun _ _ => True) (.of_forall (fun _ _ => trivial) fun _ => trivial)
      fun a c _ => hf a c
  simp only [doSpecialties, ends_bind (m := reads _), ends_reads, hb, if_true]
  repeat' first
    | exact ends_pure.mpr rfl
    | refine .ite (fun _ => ?_) fun _ => ?_
    | refine hnext fun _ _ => ?_

/-- So a pass of the interpreter loop that starts with the flag up is its last. -/
theorem runPass_brk {fuel : Nat} {target : Int} {c c' : Cpu μ} {b : Bool}
    (hb : c.regs.spc.brk = true) (hpass : runPass h fuel target c = .ret b c') : b = false := by
  have hany : c.regs.spc.any = true := by simp [SpcFlags.any, hb]
  have he : Ends (runPass h fuel target) c (fun b _ => b = false) fun _ => True := by
    simp only [runPass, checkSpecialties, ends_bind (m := reads _), ends_reads]
    split
    · rfl
    · rw [ends_bind, ends_bind, ends_reads, hany, if_pos rfl]
      refine (doSpecialties_brk fuel hb).mono (fun b c' hb => ?_) fun _ _ => trivial
      rw [hb, if_pos rfl]
      rfl
  exact he.of_ret hpass

/-! ## Runs -/

/-- In every run whose steps all meet the condition a pending request belongs to the innermost
call; that call, and no other, is told to return by it, the flag is down when it has returned, and
it does not end before. A pass of the loop that finds the flag up is its last, and every call of
`uae_host_run` or `uae_host_step` is a run. -/
theorem timeslice_innermost (hp : h.Parts) {c₀ : Cpu μ} (hb : c₀.regs.spc.brk = false)
    (hd : c₀.executeDepth = 0) {s : Sys μ} {es : List Event}
    (hr : Run (Guarded (Step h) RequestSafe) (.idle c₀) es s) :
    OwnRequest s ∧
    (∀ d es' s', s.want = some d → Run (Guarded (Step h) RequestSafe) s es' s' → s'.depth < d →
      ∃ es₁ es₂ s₁ s₂, es' = es₁ ++ .exit .request :: es₂ ∧ (∀ r, .exit r ∉ es₁) ∧
        Run (Guarded (Step h) RequestSafe) s es₁ s₁ ∧ s₁.depth = d ∧
        Step h s₁ (.exit .request) s₂ ∧ Run (Guarded (Step h) RequestSafe) s₂ es₂ s') ∧
    (∀ s', Step h s (.exit .request) s' →
      s.want = some s.depth ∧ s'.brk = false ∧ s'.want = none ∧ s'.calls.tail = s.calls.tail) ∧
    (∀ s', Step h s .leave s' → s.brk = false ∧ s'.brk = false) ∧
    (∀ fuel target b c', s.brk = true → runPass h fuel target s.cpu = .ret b c' → b = false) ∧
    (∀ fuel cycles n c', Inside s.calls → uaeHostRun h fuel cycles s.cpu = .ret n c' →
      ∃ es' s', Run (Step h) s es' s' ∧ s'.cpu = c' ∧ s'.calls = s.calls) ∧
    (∀ fuel n c', Inside s.calls → uaeHostStep h fuel s.cpu = .ret n c' →
      ∃ es' s', Run (Step h) s es' s' ∧ s'.cpu = c' ∧ s'.calls = s.calls) := by
  have ho₀ : OwnRequest (.idle c₀) :=
    ⟨hb, fun _ hw => (by cases hw), fun _ _ hk => (by cases hk), by simp [Sys.idle],
      fun _ _ _ hk => (by cases hk)⟩
  have ho : OwnRequest s := hr.invariant ho₀ step_ownRequest
  have hnest : s.Nested := Run.nested hr.unguard hd.symm
  refine ⟨ho, fun d es' s' hw hr' hd' => request_returns hr' ho hw hd', fun s' => exit_request ho,
    fun s' => leave_brk ho, fun fuel target b c' hup hpass => runPass_brk hup hpass, ?_, ?_⟩
  · intro fuel cycles n c' hin hrun
    exact (uaeHostRun_inner hp fuel cycles s.cpu).of_ret hrun s.calls hin trivial s rfl rfl hnest
  · intro fuel n c' hin hrun
    exact (uaeHostStep_inner hp fuel s.cpu).of_ret hrun s.calls hin trivial s rfl rfl hnest

/-- A 68020 over RAM whose instructions all call `uae_cpu_end_timeslice`. -/
def ending68020 : Host (Long → Byte) :=
  .ram (.plain .m68020) Mem.ofFun fun _ => do
    update endTimeslice
    opNop

/-- A request made in the last instruction of the budget outlives its call, and the next call
returns at once without having executed anything. -/
theorem endTimeslice_outlives_call :
    ∃ c₁ c₂, uaeHostRun ending68020 2 1 (.reset (.plain .m68020) 0x1000 0x400 fun _ => 0) =
        .ret 2 c₁ ∧ c₁.regs.spc.brk = true ∧
      uaeHostRun ending68020 2 1000 c₁ = .ret 0 c₂ ∧ c₂.regs.pc = c₁.regs.pc :=
  ⟨_, _, rfl, rfl, rfl, rfl⟩

/-- An instruction calls `uae_host_run` and the first instruction of that call asks to return: it ends
the call inside, not the one around it. -/
theorem timeslice_innermost_68020 :
    let c := Cpu.reset (.plain .m68020) 0x1000 0x400 fun _ => (0 : Byte)
    let s : Sys (Long → Byte) :=
      { cpu := endTimeslice (enterRun plain68020 (enterRun plain68020 c))
        calls := [⟨.run 10240, .busy⟩, ⟨.run 5120, .busy⟩], want := some 2 }
    ∀ es' s', Run (Guarded (Step plain68020) RequestSafe) s es' s' → s'.depth < 2 →
      ∃ es₁ es₂ s₁ s₂, es' = es₁ ++ .exit .request :: es₂ ∧ s₁.depth = 2 ∧
        Step plain68020 s₁ (.exit .request) s₂ ∧ Run (Guarded (Step plain68020) RequestSafe) s₂ es₂ s' := by
  intro c s es' s' hr' hdepth
  have hrun : Run (Guarded (Step plain68020) RequestSafe) (.idle c)
      [.enterRun 10, .pass, .begin, .enterRun 20, .pass, .begin, .endTimeslice] s :=
    .cons ⟨rfl, .enterRun 10 trivial (by decide)⟩ <|
    .cons ⟨trivial, .call rfl (.pass (by decide))⟩ <|
    .cons ⟨trivial, .call rfl .begin⟩ <|
    .cons ⟨rfl, .enterRun 20 rfl (by decide)⟩ <|
    .cons ⟨trivial, .call rfl (.pass (by decide))⟩ <|
    .cons ⟨trivial, .call rfl .begin⟩ <|
    .single ⟨by simp [RequestSafe], .endTimeslice rfl⟩
  obtain ⟨es₁, es₂, s₁, s₂, hes, -, -, hdep, hexit, htail⟩ :=
    (timeslice_innermost (ram_parts fun _ => opNop_inner) rfl rfl hrun).2.1 2 es' s' rfl hr' hdepth
  exact ⟨es₁, es₂, s₁, s₂, hes, hdep, hexit, htail⟩

end UaeCpu
