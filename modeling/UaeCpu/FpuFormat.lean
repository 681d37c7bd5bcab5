import UaeCpu.FpuAgree

/-!
# UaeCpu.FpuFormat

FRESTORE of a frame it does not know. Each model's branch writes fields as it reads the frame and
finds a wrong format or size late.

* `restoreRounds` — the loop `goto retry` makes, cut off after a number of rounds.
* `fpuopRestore_format_iff` — when a format error leaves the FPU as it was.
-/

namespace UaeCpu.Fpu

section Rounds

variable (p : FpuPrefs) (resume : FpuCpu → FpuCpu)

/-- `goto retry`, at most `n` rounds. -/
def restoreRounds : Nat → FpuModel → Long → Long → FpuCpu → FrameResult
  | 0, model, _, _, _ => .retry model
  | n + 1, model, ad, d, c =>
    match restoreFrame p resume model ad d c with
    | .retry model => restoreRounds n model ad d c
    | r => r

end Rounds

/-! ## Formats -/

/-- The format byte of a 68060 frame is none of NULL, IDLE and EXCP. -/
def WrongFormat060 (d : Long) : Prop :=
  (d >>> 8) &&& 0xFF ≠ 0x60 ∧ (d >>> 8) &&& 0xFF ≠ 0xE0 ∧ (d >>> 8) &&& 0xFF ≠ 0

/-- A 6888x frame with a size no 6888x frame has. -/
def WrongSize6888x (d : Long) : Prop :=
  (d >>> 24) &&& 0xFF = 0x1F ∧
    ¬ ((d >>> 16) &&& 0xFF = 0x18 ∨ (d >>> 16) &&& 0xFF = 0x38) ∧
    ¬ ((d >>> 16) &&& 0xFF = 0xB4 ∨ (d >>> 16) &&& 0xFF = 0xD4)

instance (d : Long) : Decidable (WrongFormat060 d) := by unfold WrongFormat060; infer_instance

instance (d : Long) : Decidable (WrongSize6888x d) := by unfold WrongSize6888x; infer_instance

/-- The configurations that read 6888x frames: a 68040 tries them in the second round. -/
def Reads6888x (p : FpuPrefs) : Prop :=
  p.fpuModel = .m68881 ∨ p.fpuModel = .m68882 ∨ (p.fpuModel = .m68040 ∧ p.fpuNoUnimplemented = false)

/-- What a frame that is refused finds in the FPU. -/
def FrameKept (p : FpuPrefs) (ad : Long) (c : FpuCpu) : Prop :=
  (p.fpuModel = .m68060 → WrongFormat060 (c.xCpGetLong ad) →
    c.fpu.fpExpPend = 0 ∧ c.fpu.fsave.eo =
      ⟨c.xCpGetLong ad &&& 0xFFFF0000, c.xCpGetLong (ad + 4), c.xCpGetLong (ad + 4 + 4)⟩) ∧
  (Reads6888x p → WrongSize6888x (c.xCpGetLong ad) → c.fpu.fpuState = true)

/-- The FPU registers, everything else of the FPU, and the address registers. -/
structure FormatKept (c c' : FpuCpu) : Prop where
  ctrl : c'.regs.fpu = c.regs.fpu
  fpu : c'.fpu = c.fpu
  areg : ∀ i, c'.regs.areg i = c.regs.areg i

section Format

variable {p : FpuPrefs} {resume : FpuCpu → FpuCpu} {ad d : Long} {c c' : FpuCpu}

/-- What the 68060 has written when it finds the format wrong. -/
def refused060 (ad d : Long) (c : FpuCpu) : FpuCpu :=
  (c.mapFsave fun s =>
    { s with eo := ⟨d &&& 0xFFFF0000, c.xCpGetLong (ad + 4), c.xCpGetLong (ad + 4 + 4)⟩ }).mapFpu
    fun f => { f with fpExpPend := 0 }

theorem restore060_format_iff :
    restore060 ad d c = .format c' ↔ WrongFormat060 d ∧ c' = refused060 ad d c := by
  simp only [restore060, WrongFormat060]
  by_cases h60 : (d >>> 8) &&& 0xFF = 0x60
  · rw [if_pos h60]
    exact iff_of_false (fun h => by cases h) fun h => h.1.1 h60
  by_cases hE0 : (d >>> 8) &&& 0xFF = 0xE0
  · rw [if_neg h60, if_pos hE0]
    refine iff_of_false (fun h => ?_) fun h => h.1.2.1 hE0
    split at h <;> cases h
  by_cases h0 : (d >>> 8) &&& 0xFF = 0
  · rw [if_neg h60, if_neg hE0, if_neg (not_not_intro h0)]
    exact iff_of_false (fun h => by cases h) fun h => h.1.2.2 h0
  · rw [if_neg h60, if_neg hE0, if_pos h0, FrameResult.format.injEq]
    exact ⟨fun h => ⟨⟨h60, hE0, h0⟩, h.symm⟩, fun h => h.2.symm⟩

theorem restore040_format (h : restore040 p resume ad d c = .format c') : c' = c := by
  have hbusy : ∀ a, restoreBusy resume a c ≠ .format c' := fun _ h => by cases h
  simp only [restore040] at h
  split at h
  · split at h
    · exact absurd h (hbusy _)
    split at h
    · cases h
    split at h
    · cases h
    · exact (FrameResult.format.inj h).symm
  split at h
  · cases h
  split at h
  · cases h
  · exact (FrameResult.format.inj h).symm

/-- What the 6888x has written when it finds the size wrong. -/
def refused6888x (c : FpuCpu) : FpuCpu := c.mapFpu fun f => { f with fpuState := true }

theorem restore6888x_size {model : FpuModel} (hm : model = .m68881 ∨ model = .m68882)
    (h : WrongSize6888x d) : restore6888x p model ad d c = .format (refused6888x c) := by
  have hv : getFpuVersion p model = 0x1F := by
    obtain rfl | rfl := hm <;> rfl
  simp only [restore6888x, hv]
  rw [if_pos h.1, if_neg h.2.1, if_neg h.2.2]
  rfl

theorem restore6888x_format {model : FpuModel} (hm : model = .m68881 ∨ model = .m68882)
    (h : restore6888x p model ad d c = .format c') :
    (WrongSize6888x d ∧ c' = refused6888x c) ∨ (¬ WrongSize6888x d ∧ c' = c) := by
  have hv : getFpuVersion p model = 0x1F := by
    obtain rfl | rfl := hm <;> rfl
  simp only [restore6888x, hv] at h
  by_cases hversion : (d >>> 24) &&& 0xFF = 0x1F
  · rw [if_pos hversion] at h
    split at h
    · split at h <;> cases h
    · rename_i hidle
      split at h
      · cases h
      · rename_i hbusy
        exact .inl ⟨⟨hversion, hidle, hbusy⟩, (FrameResult.format.inj h).symm⟩
  · rw [if_neg hversion] at h
    refine .inr ⟨fun hw => hversion hw.1, ?_⟩
    split at h
    · cases h
    split at h
    · cases h
    · exact (FrameResult.format.inj h).symm

/-! ## The second round -/

/-- A round asks for another one only as the configured model, and for a different one. -/
theorem retry_of {model other : FpuModel} (h : restoreFrame p resume model ad d c = .retry other) :
    p.fpuModel = model ∧ other ≠ model ∧ p.fpuNoUnimplemented = false ∧
      (other = .m68881 → model = .m68040) := by
  have h6888x {m : FpuModel} (hm : m ≠ .m68040) (h : restore6888x p m ad d c = .retry other) :
      p.fpuModel = m ∧ other = .m68040 ∧ p.fpuNoUnimplemented = false := by
    simp only [restore6888x] at h
    by_cases hv : (d >>> 24) &&& 0xFF = getFpuVersion p m
    · rw [if_pos hv] at h
      split_ifs at h
    rw [if_neg hv] at h
    by_cases h0 : (d >>> 24) &&& 0xFF = 0
    · rw [if_pos h0] at h
      cases h
    rw [if_neg h0] at h
    split_ifs at h with hretry
    exact ⟨hretry.2.2, (FrameResult.retry.inj h).symm, by simpa using hretry.1⟩
  cases model with
  | m68060 =>
    simp only [restoreFrame, restore060] at h
    split_ifs at h
  | m68040 =>
    have hbusy : ∀ a, restoreBusy resume a c ≠ .retry other := fun _ h => by cases h
    simp only [restoreFrame, restore040] at h
    by_cases hv : (d >>> 24) &&& 0xFF = getFpuVersion p .m68040
    · rw [if_pos hv] at h
      split_ifs at h
      exact absurd h (hbusy _)
    rw [if_neg hv] at h
    by_cases h0 : (d >>> 24) &&& 0xFF = 0
    · rw [if_pos h0] at h
      cases h
    rw [if_neg h0] at h
    split_ifs at h with hretry
    obtain rfl := FrameResult.retry.inj h
    exact ⟨hretry.2.2, by decide, by simpa using hretry.1, fun _ => rfl⟩
  | none | m68881 | m68882 =>
    obtain ⟨hm, rfl, hun⟩ := h6888x (by decide) h
    exact ⟨hm, by decide, hun, fun h => by cases h⟩

theorem second_round {model other : FpuModel}
    (h : restoreFrame p resume p.fpuModel ad d c = .retry model) :
    restoreFrame p resume model ad d c ≠ .retry other := fun h' =>
  (retry_of h).2.1 (retry_of h').1.symm

/-- Two rounds are all there are. -/
theorem restoreRounds_two (n : Nat) :
    (∀ model, restoreRounds p resume 2 p.fpuModel ad d c ≠ .retry model) ∧
      restoreRounds p resume (n + 2) p.fpuModel ad d c = restoreRounds p resume 2 p.fpuModel ad d c := by
  simp only [restoreRounds]
  cases h1 : restoreFrame p resume p.fpuModel ad d c with
  | done c' ad' => exact ⟨fun _ h => (by cases h), rfl⟩
  | format c' => exact ⟨fun _ h => (by cases h), rfl⟩
  | retry model =>
    simp only
    cases h2 : restoreFrame p resume model ad d c with
    | done c' ad' => exact ⟨fun _ h => (by cases h), rfl⟩
    | format c' => exact ⟨fun _ h => (by cases h), rfl⟩
    | retry other => exact absurd h2 (second_round h1)

/-- The version of a 6888x frame is not the 68040's. -/
theorem version_ne (p : FpuPrefs) : (0x1F : Long) ≠ getFpuVersion p .m68040 := by
  change (0x1F : Long) ≠ if p.fpuRevision40 then 0x40 else 0x41
  split <;> decide

theorem rounds_wrongSize (hr : Reads6888x p) (h : WrongSize6888x d) :
    restoreRounds p resume 2 p.fpuModel ad d c = .format (refused6888x c) := by
  obtain hm | hm | ⟨hm, hun⟩ := hr
  · rw [hm]
    simp only [restoreRounds, restoreFrame, restore6888x_size (.inl rfl) h]
  · rw [hm]
    simp only [restoreRounds, restoreFrame, restore6888x_size (.inr rfl) h]
  · have hfirst : restore040 p resume ad d c = .retry .m68881 := by
      simp only [restore040, h.1]
      rw [if_neg (version_ne p), if_neg (by decide), if_pos ⟨by rw [hun]; decide, trivial, hm⟩]
    rw [hm]
    simp only [restoreRounds, restoreFrame, hfirst, restore6888x_size (.inl rfl) h]

theorem rounds_wrongFormat (hm : p.fpuModel = .m68060) (h : WrongFormat060 d) :
    restoreRounds p resume 2 p.fpuModel ad d c = .format (refused060 ad d c) := by
  rw [hm]
  simp only [restoreRounds, restoreFrame, restore060_format_iff.mpr ⟨h, rfl⟩]

/-- A frame that is refused is refused before anything is written, or by one of the two checks that
come late. -/
theorem rounds_format (hp : p.fpuModel ≠ .none)
    (h : restoreRounds p resume 2 p.fpuModel ad d c = .format c') :
    c' = c ∨ (p.fpuModel = .m68060 ∧ WrongFormat060 d ∧ c' = refused060 ad d c) ∨
      (Reads6888x p ∧ WrongSize6888x d ∧ c' = refused6888x c) := by
  have h040 (h' : restoreFrame p resume .m68040 ad d c = .format c') : c' = c := restore040_format h'
  have h6888x {m : FpuModel} (hm : m = .m68881 ∨ m = .m68882) (hr : Reads6888x p)
      (h' : restoreFrame p resume m ad d c = .format c') :
      c' = c ∨ (p.fpuModel = .m68060 ∧ WrongFormat060 d ∧ c' = refused060 ad d c) ∨
        (Reads6888x p ∧ WrongSize6888x d ∧ c' = refused6888x c) := by
    have h' : restore6888x p m ad d c = .format c' := by
      obtain rfl | rfl := hm <;> exact h'
    obtain ⟨hw, hc⟩ | ⟨-, hc⟩ := restore6888x_format hm h'
    · exact .inr (.inr ⟨hr, hw, hc⟩)
    · exact .inl hc
  simp only [restoreRounds] at h
  cases h1 : restoreFrame p resume p.fpuModel ad d c with
  | done c'' ad' => rw [h1] at h; cases h
  | format c'' =>
    rw [h1] at h
    obtain rfl := FrameResult.format.inj h
    cases hm : p.fpuModel with
    | none => exact absurd hm hp
    | m68060 =>
      rw [hm] at h1
      obtain ⟨hw, hc⟩ := restore060_format_iff.mp h1
      exact .inr (.inl ⟨rfl, hw, hc⟩)
    | m68040 =>
      rw [hm] at h1
      exact .inl (h040 h1)
    | m68881 =>
      rw [hm] at h1 h6888x
      exact h6888x (.inl rfl) (.inl hm) h1
    | m68882 =>
      rw [hm] at h1 h6888x
      exact h6888x (.inr rfl) (.inr (.inl hm)) h1
  | retry model =>
    rw [h1] at h
    simp only at h
    obtain ⟨hmodel, -, -⟩ := restoreFrame_retry c h1
    have h2 : restoreFrame p resume model ad d c = .format c' := by
      cases h2 : restoreFrame p resume model ad d c with
      | done c'' ad' => rw [h2] at h; cases h
      | format c'' => rw [h2] at h; exact h
      | retry other => exact absurd h2 (second_round h1)
    obtain rfl | rfl := hmodel
    · have hm040 : p.fpuModel = .m68040 ∧ p.fpuNoUnimplemented = false :=
        ⟨(retry_of h1).2.2.2 rfl, (retry_of h1).2.2.1⟩
      exact h6888x (.inl rfl) (.inr (.inr hm040)) h2
    · exact .inl (h040 h2)

/-! ## The instruction -/

/-- The two rounds of `fpuop_restore` are `restoreRounds`. -/
theorem fpuopRestore_format {disp : DispEa} {opcode : Word} {c₁ : FpuCpu}
    (h6 : faultIfNo6888x p = false) (had : getFpAd disp opcode c = some (ad, c₁))
    (hno : ifNoFpu p c₁.fpu = false) :
    fpuopRestore p disp resume opcode c = .error (.format, c') ↔
      restoreRounds p resume 2 p.fpuModel ad (c₁.xCpGetLong ad) c₁ = .format c' := by
  have hdone (c'' : FpuCpu) (a : Long) :
      (FrameResult.done c'' a = .format c') = False := eq_false fun h => by cases h
  have hok (c'' : FpuCpu) : ((Except.ok c'' : FpuExit) = .error (.format, c')) = False :=
    eq_false fun h => by cases h
  have herr (c'' : FpuCpu) : ((Except.error (.format, c'') : FpuExit) = .error (.format, c')) =
      (FrameResult.format c'' = .format c') := by
    simp only [Except.error.injEq, Prod.mk.injEq, true_and, FrameResult.format.injEq]
  simp only [fpuopRestore, h6, had, hno, restoreRounds, Bool.false_eq_true, if_false]
  cases h1 : restoreFrame p resume p.fpuModel ad (c₁.xCpGetLong ad) c₁ with
  | done c'' a => simp only [hok, hdone]
  | format c'' => simp only [herr]
  | retry model =>
    simp only
    cases h2 : restoreFrame p resume model ad (c₁.xCpGetLong ad) c₁ with
    | done c'' a => simp only [hok, hdone]
    | format c'' => simp only [herr]
    | retry other => exact absurd h2 (second_round h1)

theorem FormatKept.moved (pc : Long) : FormatKept c (c.mapRegs fun r => { r with pc := pc }) :=
  ⟨rfl, rfl, fun _ => rfl⟩

theorem formatKept_refused060 (pc : Long) :
    FormatKept c (refused060 ad d (c.mapRegs fun r => { r with pc := pc })) ↔
      c.fpu.fpExpPend = 0 ∧
        c.fpu.fsave.eo = ⟨d &&& 0xFFFF0000, c.xCpGetLong (ad + 4), c.xCpGetLong (ad + 4 + 4)⟩ := by
  refine ⟨fun h => ⟨(congrArg (·.fpExpPend) h.fpu).symm, (congrArg (·.fsave.eo) h.fpu).symm⟩, ?_⟩
  rintro ⟨hpend, heo⟩
  refine ⟨rfl, ?_, fun _ => rfl⟩
  change { c.fpu with
    fsave := { c.fpu.fsave with
      eo := ⟨d &&& 0xFFFF0000, c.xCpGetLong (ad + 4), c.xCpGetLong (ad + 4 + 4)⟩ }
    fpExpPend := 0 } = c.fpu
  rw [← heo, ← hpend]

theorem formatKept_refused6888x (pc : Long) :
    FormatKept c (refused6888x (c.mapRegs fun r => { r with pc := pc })) ↔
      c.fpu.fpuState = true := by
  refine ⟨fun h => (congrArg (·.fpuState) h.fpu).symm, fun hs => ⟨rfl, ?_, fun _ => rfl⟩⟩
  change { c.fpu with fpuState := true } = c.fpu
  rw [← hs]

end Format

/-- FRESTORE ends after two rounds, and a format error leaves everything as it was just where the
frame finds what the 68060 and the 6888x write before they look at the format. -/
theorem fpuopRestore_format_iff (p : FpuPrefs) (disp : DispEa) (resume : FpuCpu → FpuCpu)
    (opcode : Word) (c : FpuCpu) :
    ((∀ c', fpuopRestore p disp resume opcode c = .error (.format, c') → FormatKept c c') ↔
      ∀ ad c₁, faultIfNo6888x p = false → getFpAd disp opcode c = some (ad, c₁) →
        ifNoFpu p c.fpu = false → FrameKept p ad c) ∧
      ∀ n ad d c₁, (∀ model, restoreRounds p resume 2 p.fpuModel ad d c₁ ≠ .retry model) ∧
        restoreRounds p resume (n + 2) p.fpuModel ad d c₁ =
          restoreRounds p resume 2 p.fpuModel ad d c₁ := by
  refine ⟨⟨fun h ad c₁ h6 had hno => ?_, fun h c' hc' => ?_⟩, fun n ad d c₁ => restoreRounds_two n⟩
  · obtain ⟨pc, rfl⟩ := getFpAd_moved had
    have hformat (c' : FpuCpu) : fpuopRestore p disp resume opcode c = .error (.format, c') ↔ _ :=
      fpuopRestore_format h6 had hno
    refine ⟨fun hm hw => ?_, fun hr hw => ?_⟩
    · exact (formatKept_refused060 pc).mp (h _ ((hformat _).mpr (rounds_wrongFormat hm hw)))
    · exact (formatKept_refused6888x pc).mp (h _ ((hformat _).mpr (rounds_wrongSize hr hw)))
  · cases h6 : faultIfNo6888x p with
    | true =>
      rw [fpuopRestore, if_pos h6] at hc'
      cases hc'
    | false =>
    cases had : getFpAd disp opcode c with
    | none =>
      rw [fpuopRestore, if_neg (by rw [h6]; decide), had] at hc'
      cases hc'
    | some got =>
    obtain ⟨ad, c₁⟩ := got
    obtain ⟨pc, rfl⟩ := getFpAd_moved had
    cases hno : ifNoFpu p c.fpu with
    | true =>
      simp only [fpuopRestore, h6, had, Bool.false_eq_true, if_false] at hc'
      rw [if_pos (by exact hno)] at hc'
      cases hc'
    | false =>
    have hp : p.fpuModel ≠ .none := fun hp => by simp [ifNoFpu, hp] at hno
    obtain ⟨h060, h6888x⟩ := h ad _ h6 had hno
    have hrounds := (fpuopRestore_format h6 had hno).mp hc'
    obtain rfl | ⟨hm, hw, rfl⟩ | ⟨hr, hw, rfl⟩ := rounds_format hp hrounds
    · exact .moved pc
    · exact (formatKept_refused060 pc).mpr (h060 hm hw)
    · exact (formatKept_refused6888x pc).mpr (h6888x hr hw)

/-- A 68060 with a pending operand error loses it to a frame of format 0x10. -/
theorem format_error_clears_pending :
    ¬ ∀ c', fpuopRestore (.plain .m68060 .m68060) (fun _ a => (a, 0)) id 0xF35F
      { operandError .busy 4 with mem := fun ad => if ad = 2 then 0x10 else 0 } =
        .error (.format, c') →
      FormatKept { operandError .busy 4 with mem := fun ad => if ad = 2 then 0x10 else 0 } c' := by
  intro h
  have hkept := h _ rfl
  exact absurd (congrArg (·.fpExpPend) hkept.fpu) (by decide)

end UaeCpu.Fpu
