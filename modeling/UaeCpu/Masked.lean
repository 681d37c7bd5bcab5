import UaeCpu.Monotonic

/-!
# UaeCpu.Masked

Interrupt requests that arrive while they are masked, in `timing_mode` 0 without JIT and without
a `get_irq` hook: whether `SPCFLAG_INT` is up by the time they are unmasked.

* `Armed`             — an unmasked request has `SPCFLAG_INT` up, outside `do_interrupt`.
* `Clear`             — an unmasked request will be noticed before the next instruction.
* `step_armed`, `step_clear` — every step that meets `MaskSafe` keeps them.
* `interrupt_not_lost` — so in a run of such steps no two instructions in a row start with a
                         request unmasked.
-/

namespace UaeCpu

open Fault FaultM Trans

variable {μ : Type} {h : Host μ}

/-- `intlev() > regs.intmask`, for pushed requests. -/
def Cpu.unmasked (c : Cpu μ) : Prop := c.regs.intmask < c.pending.level

instance (c : Cpu μ) : Decidable c.unmasked := inferInstanceAs (Decidable (_ < _))

/-- An unmasked request has `SPCFLAG_INT` up. -/
def Cpu.flagged (c : Cpu μ) : Prop := c.unmasked → c.regs.spc.int = true

/-- The innermost call is in `do_interrupt`. -/
def inInterrupt : List Call → Bool
  | ⟨_, .taking _ _⟩ :: _ => true
  | _ => false

/-- Where an unmasked request is still going to be noticed: not right before an instruction, and
in `do_specialties` only with `SPCFLAG_INT` still to be served. -/
def Noticed : List Call → Prop
  | ⟨_, .ready⟩ :: _ => False
  | ⟨_, .serving spc⟩ :: _ => spc.int = true ∧ spc.mmuRestart = false
  | _ => True

/-- Outside `do_interrupt` an unmasked request is flagged. -/
structure Armed (s : Sys μ) : Prop where
  flagged : inInterrupt s.calls = false → s.cpu.flagged
  below : ∀ k ∈ s.calls.tail, k.phase.inside = true

/-- An unmasked request is going to be noticed before the next instruction. -/
def Clear (s : Sys μ) : Prop := s.cpu.unmasked → Noticed s.calls

/-- The steps that lose no request. A status register write that unmasks one finds `SPCFLAG_INT`
up or the level on the pin, held back by the old mask; withdrawing the level of the pin uncovers
no unflagged virtual one; `do_interrupt` leaves no unflagged request unmasked, whether it ends,
faults or executes code; a request made or unmasked inside `do_specialties` finds `SPCFLAG_INT`
still to be served there; and `SPCFLAG_MMURESTART` puts no service off. -/
def MaskSafe (s : Sys μ) : Event → Prop
  | .writeSR _ v => srMaskField v < s.cpu.pending.level → Noticed s.calls ∧
      (inInterrupt s.calls = true ∨ s.cpu.regs.spc.int = true ∨
        s.cpu.regs.ipl.pin ≤ s.cpu.regs.intmask ∧ srMaskField v < s.cpu.regs.ipl.pin)
  | .setIrq l => (setIrq l s.cpu).unmasked → Noticed s.calls ∧
      (inInterrupt s.calls = true ∨ s.cpu.regs.spc.int = true ∨ l.setWidth 3 ≠ (0 : Level))
  | .setVirq l a => (setVirq l a s.cpu).unmasked → Noticed s.calls
  | .pass => s.cpu.unmasked → s.cpu.regs.spc.mmuRestart = false
  | .took | .fault | .enterRun _ | .enterStep => s.cpu.flagged
  | .leave => s.cpu.unmasked → Noticed s.calls.tail
  | _ => True

/-! ## Effects on a pending request -/

theorem Quiet.flagged {c c' : Cpu μ} (hq : Quiet c c') (hf : c.flagged) : c'.flagged := by
  intro hu
  refine hq.int (hf ?_)
  simpa only [Cpu.unmasked, hq.intmask, hq.pending] using hu

theorem Quiet.unmasked {c c' : Cpu μ} (hq : Quiet c c') : c'.unmasked ↔ c.unmasked := by
  simp only [Cpu.unmasked, hq.intmask, hq.pending]

theorem promote_unmasked (spc : SpcFlags) (c : Cpu μ) : (c.promote spc).unmasked ↔ c.unmasked := by
  simp only [Cpu.promote]
  split <;> rfl

theorem promote_flagged {spc : SpcFlags} {c : Cpu μ} (hf : c.flagged) :
    (c.promote spc).flagged := by
  intro hu
  have hint := hf ((promote_unmasked spc c).mp hu)
  simp only [Cpu.promote]
  split
  · rfl
  · exact hint

theorem jitBlock_unmasked (n : Nat) (c : Cpu μ) : (c.jitBlock n).unmasked ↔ c.unmasked := by
  simp only [Cpu.jitBlock]
  split <;> rfl

theorem jitBlock_flagged {n : Nat} {c : Cpu μ} (hf : c.flagged) : (c.jitBlock n).flagged := by
  simp only [Cpu.jitBlock]
  split <;> exact hf

theorem enterRun_flagged {c : Cpu μ} (hf : c.flagged) : (enterRun h c).flagged := by
  simp only [enterRun]
  split
  · exact fun _ => rfl
  · exact hf

theorem close_unmasked (k : CallKind) (c : Cpu μ) : (k.close c).unmasked ↔ c.unmasked := by
  cases k <;> rfl

theorem close_flagged {k : CallKind} {c : Cpu μ} (hf : c.flagged) : (k.close c).flagged := by
  cases k <;> exact hf

/-- A request of a level above 0 raises the flag. -/
theorem setIrq_flagged {l : Long} {c : Cpu μ}
    (hl : c.regs.spc.int = true ∨ l.setWidth 3 ≠ (0 : Level)) : (setIrq l c).flagged := by
  intro _
  simp only [setIrq]
  split
  · rfl
  · rename_i h0
    refine hl.resolve_right fun hne => h0 ?_
    bv_omega

/-- So does a virtual line that goes up; one that goes down uncovers nothing. -/
theorem setVirq_flagged {l : Long} {a : Bool} {c : Cpu μ} (hf : c.flagged) :
    (setVirq l a c).flagged := by
  intro hu
  simp only [setVirq] at hu ⊢
  generalize (if a = true then c.pending.virq ||| _ else _) = virq at hu ⊢
  by_cases hv : virq = 0
  · subst hv
    simp only [ne_eq, not_true, if_false] at hu ⊢
    refine hf ?_
    simp only [Cpu.unmasked, Pending.level] at hu ⊢
    split at hu
    · rename_i hpos
      rw [if_pos hpos]; exact hu
    · have hzero : virqLevel 0 = 0 := by decide
      rw [hzero] at hu
      exact absurd hu (by bv_omega)
  · rw [if_pos hv]; rfl

theorem writeSR_intmask (p : Prefs) (k : SrWrite) (v : Word) (c : Cpu μ) :
    (c.writeSR p k v).regs.intmask = srMaskField v := by
  obtain ⟨hu, he⟩ | ⟨-, i, spc, he⟩ :=
    makeFromSRx_cases p k { c.toCore with regs := { c.regs with sr := v } }
  · simp only [Cpu.writeSR, writeSR, he]
    exact (srUnchanged_iff.mp hu).2.2.2.2
  · simp only [Cpu.writeSR, writeSR, he]
    rfl

theorem writeSR_unmasked (p : Prefs) (k : SrWrite) (v : Word) (c : Cpu μ) :
    (c.writeSR p k v).unmasked ↔ srMaskField v < c.pending.level := by
  simp only [Cpu.unmasked, writeSR_intmask]
  rfl

/-- A write that unmasks a request flags it when the old mask held the level of the pin back. -/
theorem writeSR_flagged {p : Prefs} (hacc : p.accurateIpl = false) (hcache : p.cachesize = 0)
    {k : SrWrite} {v : Word} {c : Cpu μ}
    (hsafe : srMaskField v < c.pending.level → c.regs.spc.int = true ∨
      c.regs.ipl.pin ≤ c.regs.intmask ∧ srMaskField v < c.regs.ipl.pin) :
    (c.writeSR p k v).flagged := by
  intro hu
  have hkeep := (writeSR_spc p k v c.toCore).2.1
  obtain hint | ⟨hpin, hnew⟩ := hsafe ((writeSR_unmasked p k v c).mp hu)
  · exact hkeep hint
  · have hne : c.regs.intmask ≠ srMaskField v := fun he => by
      rw [← he] at hnew; exact absurd hnew (by bv_omega)
    have hun : srUnchanged { c.regs with sr := v } = false := by
      rw [Bool.eq_false_iff]
      exact fun ht => hne (srUnchanged_iff.mp ht).2.2.2.2
    have hspc := (makeFromSRx_spc p k { c.toCore with regs := { c.regs with sr := v } } hun).2.1
    refine hspc.trans ?_
    simp only [loadIntmask, hne, if_false, hacc, Bool.false_eq_true, hpin, hnew, and_self, if_true,
      hcache]

/-! ## Steps -/

/-- `timing_mode` 0 without JIT, and no hook that owns the level. -/
structure Plain (h : Host μ) : Prop where
  compatible : h.prefs.cpuCompatible = false
  cycleExact : h.prefs.cpuCycleExact = false
  cachesize : h.prefs.cachesize = 0
  getIrq : h.getIrq = none

theorem Plain.accurateIpl (hp : Plain h) : h.prefs.accurateIpl = false := by
  simp [Prefs.accurateIpl, Prefs.cycleExactTable, hp.cycleExact]

section Steps

variable {s s' : Sys μ}

/-- A step of a hook or handler. -/
theorem Armed.inside (ha : Armed s) (hc : s'.calls = s.calls)
    (hf : inInterrupt s.calls = false → s'.cpu.flagged) : Armed s' :=
  ⟨by rw [hc]; exact hf, by rw [hc]; exact ha.below⟩

theorem Armed.push {k : CallKind} (ha : Armed s) (hin : Inside s.calls)
    (hc : s'.calls = ⟨k, .head⟩ :: s.calls) (hf : s'.cpu.flagged) : Armed s' := by
  refine ⟨fun _ => hf, ?_⟩
  rw [hc, List.tail_cons]
  cases hk : s.calls with
  | nil => simp
  | cons k' rest =>
    intro k'' hk''
    obtain rfl | hmem := List.mem_cons.mp hk''
    · rw [hk] at hin; exact hin
    · exact ha.below k'' (by rw [hk]; exact hmem)

/-- The innermost call goes on. -/
theorem Armed.advance {k k' : Call} {rest : List Call} {c' : Cpu μ} {w : Option Nat} (ha : Armed s)
    (hc : s.calls = k :: rest) (hf : inInterrupt (k' :: rest) = false → c'.flagged) :
    Armed { cpu := c', calls := k' :: rest, want := w } := by
  refine ⟨hf, ?_⟩
  have := ha.below
  rw [hc] at this
  exact this

/-- A masked level that `do_specialties` does not take. -/
theorem not_unmasked_of_takes {c : Cpu μ} {l : Level} (hl : l = c.pending.level)
    (ht : ¬ c.regs.takes l = true) : ¬ c.clearInts.unmasked := by
  intro hu
  subst hl
  refine ht (decide_eq_true (.inl ?_))
  exact hu

theorem step_call_armed (hp : Plain h) (ha : Armed s) {k k' : Call} {rest : List Call} {e : Event}
    {c' : Cpu μ} {w : Option Nat} (hc : s.calls = k :: rest) (hk : CallStep h k s e k' c' w)
    (hsafe : MaskSafe s e) : Armed { cpu := c', calls := k' :: rest, want := w } := by
  have hf := ha.flagged
  rw [hc] at hf
  cases hk with
  | pass hopen => exact ha.advance hc fun _ => hf rfl
  | closed hcl => exact ha.advance hc fun _ => hf rfl
  | sample hint hmmu hl =>
    refine ha.advance hc fun hn hu => absurd hu (not_unmasked_of_takes (hl hp.getIrq) fun ht => ?_)
    rw [if_pos ht] at hn
    cases hn
  | sampleExact hacc => rw [hp.accurateIpl] at hacc; cases hacc
  | again hcomp => rw [hp.compatible] at hcomp; cases hcomp
  | took => exact ha.advance hc fun _ => hsafe
  | served hmode hbrk hint => exact ha.advance hc fun _ => promote_flagged (hf rfl)
  | request hmode hbrk hint =>
    exact ha.advance hc fun _ hu => promote_flagged (hf rfl) hu
  | modeChange hmode => exact ha.advance hc fun _ => hf rfl
  | begin => exact ha.advance hc fun _ => hf rfl
  | finish hk => exact ha.advance hc fun _ => hf rfl
  | fault hph => exact ha.advance hc fun _ => hsafe
  | stepped => exact ha.advance hc fun _ => hf rfl
  | jitFault => exact ha.advance hc fun _ => hf rfl
  | resume => exact ha.advance hc fun _ => hf rfl
  | drop => exact ha.advance hc fun _ => hf rfl

/-- A step that meets the condition keeps every unmasked request flagged. -/
theorem step_armed (hp : Plain h) {e : Event} (ha : Armed s)
    (hs : Guarded (Step h) MaskSafe s e s') : Armed s' := by
  obtain ⟨hsafe, hs⟩ := hs
  cases hs with
  | quiet hin hq => exact ha.inside rfl fun hn => hq.flagged (ha.flagged hn)
  | ticks n hin => exact ha.inside rfl fun hn => ha.flagged hn
  | exactTicks n hin he => exact ha.inside rfl fun hn => ha.flagged hn
  | resetClock hin he hm => exact ha.inside rfl fun hn => ha.flagged hn
  | block n hin hact h0 hn' => exact ha.inside rfl fun hn => jitBlock_flagged (ha.flagged hn)
  | writeSR k v hin =>
    refine ha.inside rfl fun hn => writeSR_flagged hp.accurateIpl hp.cachesize fun hlt => ?_
    exact (hsafe hlt).2.resolve_left (by simp [hn])
  | setIrq l hin =>
    refine ha.inside rfl fun hn hu => ?_
    exact setIrq_flagged ((hsafe hu).2.resolve_left (by simp [hn])) hu
  | setVirq l a hin => exact ha.inside rfl fun hn => setVirq_flagged (ha.flagged hn)
  | endTimeslice hin => exact ha.inside rfl fun hn => ha.flagged hn
  | raiseMask hc => exact ha.inside rfl fun hn => by rw [hc] at hn; cases hn
  | enterRun cycles hin hj => exact ha.push hin rfl (enterRun_flagged hsafe)
  | enterJit cycles hcalls hj => simp [Prefs.jit, hp.cachesize] at hj
  | enterStep hin => exact ha.push hin rfl hsafe
  | call hcalls hk => exact step_call_armed hp ha hcalls hk hsafe
  | @leave k r rest hcalls =>
    have hf := ha.flagged (by rw [hcalls]; rfl)
    have hb := ha.below
    rw [hcalls, List.tail_cons] at hb
    exact ⟨fun _ => close_flagged hf, fun k' hk' => hb k' (List.mem_of_mem_tail hk')⟩

/-- Between two instructions, and with no interrupt taken, a request that is unmasked is noticed. -/
theorem step_clear (hp : Plain h) {e : Event} (ha : Armed s) (hc : Clear s)
    (hs : Guarded (Step h) MaskSafe s e s') (hbegin : e ≠ .begin) (htook : e ≠ .took) :
    Clear s' := by
  obtain ⟨hsafe, hs⟩ := hs
  cases hs with
  | quiet hin hq => exact fun hu => hc (hq.unmasked.mp hu)
  | ticks n hin => exact hc
  | exactTicks n hin he => exact hc
  | resetClock hin he hm => exact hc
  | block n hin hact h0 hn => exact fun hu => hc ((jitBlock_unmasked n s.cpu).mp hu)
  | writeSR k v hin => exact fun hu => (hsafe ((writeSR_unmasked h.prefs k v s.cpu).mp hu)).1
  | setIrq l hin => exact fun hu => (hsafe hu).1
  | setVirq l a hin => exact hsafe
  | endTimeslice hin => exact hc
  | raiseMask hcalls => exact fun _ => by simp [hcalls, Noticed]
  | enterRun cycles hin hj => exact fun _ => trivial
  | enterJit cycles hcalls hj => exact fun _ => trivial
  | enterStep hin => exact fun _ => trivial
  | leave hcalls =>
    intro hu
    have := hsafe ((close_unmasked _ _).mp hu)
    rwa [hcalls] at this
  | call hcalls hk =>
    have hf := ha.flagged
    rw [hcalls] at hf
    simp only [Clear, hcalls] at hc
    cases hk with
    | pass hopen =>
      -- an unmasked request is among the flags just read
      intro hu
      have hint : s.cpu.regs.spc.int = true := hf rfl hu
      have hany : s.cpu.regs.spc.any = true := by simp [SpcFlags.any, hint]
      simp only [hany, if_true]
      exact ⟨hint, hsafe hu⟩
    | @sample _ _ _ l hint hmmu hl =>
      intro hu
      by_cases ht : s.cpu.regs.takes l = true
      · simp only [ht, if_true]
        trivial
      · exact absurd hu (not_unmasked_of_takes (hl hp.getIrq) ht)
    | sampleExact hacc => rw [hp.accurateIpl] at hacc; cases hacc
    | again hcomp => rw [hp.compatible] at hcomp; cases hcomp
    | took => exact absurd rfl htook
    | served hmode hbrk hint =>
      -- `do_specialties` does not end without having served the flag
      intro hu
      obtain ⟨hi, hm⟩ := hc ((promote_unmasked _ _).mp hu)
      obtain hm' | hacc := hint hi
      · rw [hm] at hm'; cases hm'
      · rw [hp.accurateIpl] at hacc; cases hacc
    | begin => exact absurd rfl hbegin
    | drop => exact hc
    | _ => exact fun _ => trivial

end Steps

/-! ## Runs -/

theorem run_armed (hp : Plain h) {s s' : Sys μ} {es : List Event}
    (hr : Run (Guarded (Step h) MaskSafe) s es s') (ha : Armed s) : Armed s' :=
  hr.invariant ha fun ha hs => step_armed hp ha hs

theorem run_clear (hp : Plain h) {s s' : Sys μ} {es : List Event}
    (hr : Run (Guarded (Step h) MaskSafe) s es s') (ha : Armed s) (hc : Clear s)
    (hbegin : .begin ∉ es) (htook : .took ∉ es) : Clear s' := by
  induction hr with
  | nil => exact hc
  | cons hs _ ih =>
    simp only [List.mem_cons, not_or] at hbegin htook
    exact ih (step_armed hp ha hs)
      (step_clear hp ha hc hs (Ne.symm hbegin.1) (Ne.symm htook.1)) hbegin.2 htook.2

/-- An instruction begins right after `do_specialties`, or with no flag up. -/
theorem begin_ready {s s' : Sys μ} (hs : Step h s .begin s') :
    ∃ k rest, s.calls = ⟨k, .ready⟩ :: rest ∧ s'.calls = ⟨k, .busy⟩ :: rest := by
  cases hs with
  | call hcalls hk =>
    cases hk
    exact ⟨_, _, hcalls, rfl⟩

/-- In `timing_mode` 0 without JIT and `get_irq` hook, in every run whose steps all meet the
condition: outside `do_interrupt` an unmasked request has `SPCFLAG_INT` up, and of two instructions
in a row with no interrupt taken between them the second never begins with a request unmasked.
Every call of `uae_host_run` is a run. -/
theorem interrupt_not_lost (hparts : h.Parts) (hp : Plain h) {c₀ : Cpu μ} (hf : c₀.flagged)
    (hd : c₀.executeDepth = 0) {s : Sys μ} {es : List Event}
    (hr : Run (Guarded (Step h) MaskSafe) (.idle c₀) es s) :
    (inInterrupt s.calls = false → s.cpu.unmasked → s.cpu.regs.spc.int = true) ∧
    (∀ s₁ es' s₂ s₃, Step h s .begin s₁ → Run (Guarded (Step h) MaskSafe) s₁ es' s₂ →
      .begin ∉ es' → .took ∉ es' → Step h s₂ .begin s₃ → ¬ s₂.cpu.unmasked) ∧
    (∀ fuel cycles n c', Inside s.calls → uaeHostRun h fuel cycles s.cpu = .ret n c' →
      ∃ es' s', Run (Step h) s es' s' ∧ s'.cpu = c' ∧ s'.calls = s.calls) := by
  have ha : Armed s := run_armed hp hr ⟨fun _ => hf, by simp [Sys.idle]⟩
  refine ⟨ha.flagged, fun s₁ es' s₂ s₃ hb hr' hbegin htook hb' hu => ?_, ?_⟩
  · obtain ⟨k, rest, -, hbusy⟩ := begin_ready hb
    obtain ⟨k', rest', hready, -⟩ := begin_ready hb'
    have ha₁ : Armed s₁ := step_armed (e := .begin) hp ha ⟨trivial, hb⟩
    have hc₁ : Clear s₁ := fun _ => by rw [hbusy]; trivial
    have hc₂ := run_clear hp hr' ha₁ hc₁ hbegin htook hu
    rw [hready] at hc₂
    exact hc₂
  · intro fuel cycles n c' hin hrun
    have hnest : s.Nested := Run.nested hr.unguard hd.symm
    exact (uaeHostRun_inner hparts fuel cycles s.cpu).of_ret hrun s.calls hin trivial s rfl rfl
      hnest

/-- `MOVE #$2000,SR`, as the table without prefetch has it. -/
def opUnmask (p : Prefs) : FaultM (Cpu (Long → Byte)) Long := do
  update fun c => (c.writeSR p .plain 0x2000).mapRegs fun r => { r with pc := r.pc + 4 }
  return 0

/-- A 68020 over RAM that knows this instruction and NOP. -/
def unmask68020 : Host (Long → Byte) :=
  .ram (.plain .m68020) Mem.ofFun fun op => if op = 0x46FC then opUnmask (.plain .m68020) else opNop

/-- That CPU after a reset, with a level 3 request pushed and NOP, `MOVE #$2000,SR`, NOP, NOP to
execute. -/
def masked68020 : Cpu (Long → Byte) :=
  setIrq 3 (.reset (.plain .m68020) 0x1000 0x400 fun a =>
    if a = 0x402 then 0x46 else if a = 0x403 then 0xFC else 0)

/-- The request is masked at first; when the write unmasks it no flag is set, and both NOPs are
executed with level 3 pending over mask 0. -/
theorem unmask_loses_interrupt :
    ∃ c₁ c₂ : Cpu (Long → Byte), uaeHostRun unmask68020 4 4 masked68020 = .ret 4 c₁ ∧
      c₁.unmasked ∧ c₁.regs.spc.int = false ∧ c₁.regs.spc.doInt = false ∧
      uaeHostRun unmask68020 4 4 c₁ = .ret 4 c₂ ∧ c₂.unmasked ∧
      c₂.regs.pc = c₁.regs.pc + 4 ∧ c₂.regs.instructionCnt = c₁.regs.instructionCnt + 2 :=
  ⟨_, _, rfl, by decide, by decide, by decide, rfl, by decide, by decide, by decide⟩

/-- A request that is masked when the call first looks at the flags. -/
theorem interrupt_not_lost_68020 :
    let c : Cpu (Long → Byte) := .reset (.plain .m68020) 0x1000 0x400 fun _ => 0
    let s : Sys (Long → Byte) :=
      { cpu := (enterRun plain68020 (setIrq 3 c)).clearInts, calls := [⟨.run 5120, .ready⟩]
        want := none }
    ∀ s₁ es' s₂ s₃, Step plain68020 s .begin s₁ →
      Run (Guarded (Step plain68020) MaskSafe) s₁ es' s₂ → .begin ∉ es' → .took ∉ es' →
      Step plain68020 s₂ .begin s₃ → ¬ s₂.cpu.unmasked := by
  intro c s
  have hrun : Run (Guarded (Step plain68020) MaskSafe) (.idle c)
      [.setIrq 3, .enterRun 10, .pass, .sample 3, .served] s :=
    .cons ⟨fun hu => absurd hu (by decide), .setIrq 3 trivial⟩ <|
    .cons ⟨fun hu => absurd hu (by decide), .enterRun 10 trivial (by decide)⟩ <|
    .cons ⟨fun _ => rfl, .call rfl (.pass (by decide))⟩ <|
    .cons ⟨trivial, .call rfl (.sample rfl rfl fun _ => rfl)⟩ <|
    .single ⟨trivial, .call rfl (.served rfl rfl fun hi => by cases hi)⟩
  exact (interrupt_not_lost (ram_parts fun _ => opNop_inner) ⟨rfl, rfl, rfl, rfl⟩
    (fun hu => absurd hu (by decide)) rfl hrun).2.1

end UaeCpu
