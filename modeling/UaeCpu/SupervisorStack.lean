import UaeCpu.Ram
import UaeCpu.Lib.Run

/-!
# UaeCpu.SupervisorStack

The one supervisor stack of the 68060, kept by the code in `regs.isp`, `regs.msp` and `A7`.

* `Stacks`, `StackStep`     — what the stack pointers are to do: a machine with one supervisor
                              stack pointer.
* `exception_stacks`        — every exception goes to that stack.
* `writeSR_stacks_iff`      — exactly when a status register write leaves it alone.
* `supervisorStack_refines` — a run without the other writes is a run of that machine.
-/

namespace UaeCpu

open Fault FaultM Trans

variable {μ : Type}

/-! ## One supervisor stack -/

/-- The stack pointers of a CPU that has one for each mode. -/
structure Stacks where
  ssp : Long
  usp : Long
  s : Bool
  deriving DecidableEq, Repr

/-- What happens to the stack pointers: a status register write, an exception, or an instruction
that loads `A7`. -/
inductive StackEvent where
  | writeSR (k : SrWrite) (v : Word)
  | exception (nr : Nat)
  | loadA7 (v : Long)
  deriving DecidableEq, Repr

/-- A status register write only switches modes; an exception enters supervisor mode and stacks
its frames, at most sixty bytes, unless the host services it; a load goes to the stack pointer of
the mode. -/
inductive StackStep : Stacks → StackEvent → Stacks → Prop where
  | writeSR {t : Stacks} (k : SrWrite) (v : Word) :
      StackStep t (.writeSR k v) { t with s := v.getLsbD 13 }
  | exception {t : Stacks} (nr b : Nat) : b ≤ 60 →
      StackStep t (.exception nr) { t with ssp := t.ssp - BitVec.ofNat 32 b, s := true }
  | serviced {t : Stacks} (nr : Nat) : StackStep t (.exception nr) t
  | loadA7 {t : Stacks} (v : Long) :
      StackStep t (.loadA7 v) (if t.s then { t with ssp := v } else { t with usp := v })

/-- The logical stack pointers: `A7` is the one of the current mode, and the next entry to
supervisor mode loads `regs.isp`. -/
def Regs.stacks (r : Regs) : Stacks where
  ssp := if r.s then r.sp.a7 else r.sp.isp
  usp := if r.s then r.sp.usp else r.sp.a7
  s := r.s

/-! ## Exceptions -/

/-- The stack pointers and the mode are left alone. -/
def StackQuiet (c c' : Cpu μ) : Prop := c'.regs.sp = c.regs.sp ∧ c'.regs.s = c.regs.s

/-- From supervisor mode, `A7` goes down by at most `n` bytes and nothing else happens to the
stack pointers. -/
def Lowers (n : Nat) (c c' : Cpu μ) : Prop :=
  c.regs.s = true → c'.regs.s = true ∧ c'.regs.sp.usp = c.regs.sp.usp ∧
    ∃ b ≤ n, c'.regs.sp.a7 = c.regs.sp.a7 - BitVec.ofNat 32 b

theorem StackQuiet.lowers {c c' : Cpu μ} (hq : StackQuiet c c') (n : Nat) : Lowers n c c' := by
  intro hs
  obtain ⟨hsp, hs'⟩ := hq
  exact ⟨hs'.trans hs, by rw [hsp], 0, by omega, by simp [hsp]⟩

theorem Lowers.trans {n k : Nat} {c₁ c₂ c₃ : Cpu μ} (h₁ : Lowers n c₁ c₂) (h₂ : Lowers k c₂ c₃) :
    Lowers (n + k) c₁ c₃ := by
  intro hs
  obtain ⟨hs', hu, b, hb, ha⟩ := h₁ hs
  obtain ⟨hs'', hu', b', hb', ha'⟩ := h₂ hs'
  refine ⟨hs'', hu'.trans hu, b + b', by omega, ?_⟩
  rw [ha', ha, BitVec.ofNat_add]
  bv_omega

theorem Lowers.mono {n k : Nat} {c c' : Cpu μ} (h : Lowers n c c') (hnk : n ≤ k) :
    Lowers k c c' := by
  intro hs
  obtain ⟨hs', hu, b, hb, ha⟩ := h hs
  exact ⟨hs', hu, b, by omega, ha⟩

section Down

variable {α β : Type} {n k : Nat}

theorem within_lowers_bind {m : FaultM (Cpu μ) α} {f : α → FaultM (Cpu μ) β}
    (hm : Within (Lowers n) m) (hf : ∀ a, Within (Lowers k) (f a)) :
    Within (Lowers (n + k)) (m >>= f) :=
  hm.comp hf (fun _ _ h => h.mono (by omega)) fun _ _ _ h h' => h.trans h'

/-- A step that leaves the stacks alone costs nothing. -/
theorem within_quiet_bind {m : FaultM (Cpu μ) α} {f : α → FaultM (Cpu μ) β}
    (hm : Within StackQuiet m) (hf : ∀ a, Within (Lowers n) (f a)) :
    Within (Lowers n) (m >>= f) :=
  hm.comp hf (fun _ _ h => h.lowers n) fun _ _ _ h h' =>
    (by simpa using (h.lowers 0).trans h')

theorem within_pure (a : α) : Within (Lowers n) (pure a : FaultM (Cpu μ) α) :=
  fun _ => StackQuiet.lowers ⟨rfl, rfl⟩ n

theorem within_reads_bind {g : Cpu μ → α} {f : α → FaultM (Cpu μ) β}
    (hf : ∀ a, Within (Lowers n) (f a)) : Within (Lowers n) (reads g >>= f) :=
  within_quiet_bind (fun _ => ⟨rfl, rfl⟩) hf

theorem within_update_bind {g : Cpu μ → Cpu μ} {f : Unit → FaultM (Cpu μ) β}
    (hg : ∀ c, StackQuiet c (g c)) (hf : Within (Lowers n) (f ())) :
    Within (Lowers n) (update g >>= f) :=
  within_quiet_bind (fun c => hg c) fun _ => hf

theorem xDoCycles_quiet (p : Prefs) (n : Int) (c : Cpu μ) : StackQuiet c (c.xDoCycles p n) := by
  simp only [Cpu.xDoCycles]
  split <;> exact ⟨rfl, rfl⟩

theorem oddVector_lowers {h : Host μ} (hm : h.prefs.cpuModel = .m68060)
    {nested : Nat → FaultM (Cpu μ) Unit}
    (hn : Within (Lowers n) (nested 3)) (nr vectorNr : Nat) (g1 : Bool) (newpc : Long) :
    Within (Lowers n) (oddVector h nested nr vectorNr g1 newpc) := by
  simp only [oddVector, hm, exception3Notinstruction, setLastDi, exception3f]
  refine within_reads_bind fun _ => within_update_bind (fun _ => ⟨rfl, rfl⟩) ?_
  exact within_update_bind (fun _ => ⟨rfl, rfl⟩) (within_update_bind (fun _ => ⟨rfl, rfl⟩) hn)

end Down

/-- The host's memory and hooks do not touch the stack pointers or the mode. -/
structure Host.LeavesStacks (h : Host μ) : Prop where
  getLong : ∀ a, Within StackQuiet (h.port.getLong a)
  putLong : ∀ a v, Within StackQuiet (h.port.putLong a v)
  putWord : ∀ a v, Within StackQuiet (h.port.putWord a v)
  fillPrefetch : Within StackQuiet h.port.fillPrefetch
  getIrq : ∀ m, h.getIrq = some m → Within StackQuiet m
  intAck : ∀ m, h.intAck = some m → ∀ l, Within StackQuiet (m l)
  trap : ∀ m, h.trap = some m → ∀ n, Within StackQuiet (m n)
  exception : ∀ m, h.exception = some m → ∀ i, Within StackQuiet (m i)

/-- The bytes an item takes on the stack. -/
def Push.bytes : Push → Nat
  | .word _ | .skip => 2
  | .long _ => 4
  | .clearWb2 | .clearWb3 => 0

/-- The most a single exception of the 68060 without MMU stacks. -/
def frameBytes (nr : Nat) : Nat := if nr = 2 then 60 else 16

/-- The host took the exception itself, or it went to the one supervisor stack. -/
def Enters (n : Nat) (c c' : Cpu μ) : Prop :=
  StackQuiet c c' ∨ ∃ b ≤ n, c'.regs.stacks =
    { c.regs.stacks with ssp := c.regs.stacks.ssp - BitVec.ofNat 32 b, s := true }

theorem Enters.lowers {n : Nat} {c c' : Cpu μ} (he : Enters n c c') : Lowers n c c' := by
  obtain hq | ⟨b, hb, he⟩ := he
  · exact hq.lowers n
  · intro hs
    simp only [Regs.stacks, hs, if_true, Stacks.mk.injEq] at he
    obtain ⟨h1, h2, h3⟩ := he
    simp only [h3, if_true] at h1 h2
    exact ⟨h3, h2, b, hb, h1⟩

theorem StackQuiet.stacks {c c' : Cpu μ} (hq : StackQuiet c c') :
    c'.regs.stacks = c.regs.stacks := by
  simp only [Regs.stacks, hq.1, hq.2]

theorem StackQuiet.trans {c₁ c₂ c₃ : Cpu μ} (h₁ : StackQuiet c₁ c₂) (h₂ : StackQuiet c₂ c₃) :
    StackQuiet c₁ c₃ := ⟨h₂.1.trans h₁.1, h₂.2.trans h₁.2⟩

theorem Enters.after {n : Nat} {c c₁ c' : Cpu μ} (he : Enters n c₁ c') (hq : StackQuiet c c₁) :
    Enters n c c' := by
  obtain hq' | he := he
  · exact .inl (hq.trans hq')
  · rw [hq.stacks] at he; exact .inr he

theorem Enters.before {n : Nat} {c c₁ c' : Cpu μ} (he : Enters n c c₁) (hq : StackQuiet c₁ c') :
    Enters n c c' := by
  obtain hq' | he := he
  · exact .inl (hq'.trans hq)
  · rw [← hq.stacks] at he; exact .inr he

/-- The entry to supervisor mode of the 68060 goes to `regs.isp`. -/
theorem enters_of_lowers {p : Prefs} (hm : p.cpuModel = .m68060) {n : Nat} {c c₁ c' : Cpu μ}
    (hq : StackQuiet c c₁) (hl : Lowers n (c₁.makeSR.mapRegs (enterSupervisor p)) c') :
    Enters n c c' := by
  have hs : (c₁.makeSR.mapRegs (enterSupervisor p)).regs.s = true := by
    cases hs : c₁.regs.s <;> simp [Cpu.mapRegs, Cpu.makeSR, makeSR, enterSupervisor, hs]
  have hst : (c₁.makeSR.mapRegs (enterSupervisor p)).regs.stacks =
      { c.regs.stacks with s := true } := by
    have h60 : ¬ (68020 ≤ p.cpuModel.num ∧ p.cpuModel.num < 68060) := by rw [hm]; decide
    obtain ⟨hsp, hs'⟩ := hq
    cases hs₀ : c.regs.s <;>
      simp [Cpu.mapRegs, Cpu.makeSR, makeSR, enterSupervisor, Regs.stacks, hs', hsp, hs₀, h60]
  obtain ⟨hs', hu, b, hb, ha⟩ := hl hs
  refine .inr ⟨b, hb, ?_⟩
  simp only [Regs.stacks, hs, if_true, Stacks.mk.injEq] at hst
  simp only [Regs.stacks, hs', if_true, hu, ha, hst.1, hst.2.1]

section Exception

variable {h : Host μ} (hq : h.LeavesStacks)
include hq

theorem pushWord_lowers (v : Word) : Within (Lowers 2) (pushWord h v) := by
  have hput : ∀ a, Within (Lowers 0) (h.port.putWord a v) := fun a =>
    (hq.putWord a v).mono fun _ _ h => h.lowers 0
  refine within_lowers_bind (n := 2) (k := 0) (fun c hs => ⟨hs, rfl, 2, le_refl _, rfl⟩) fun _ => ?_
  exact within_reads_bind hput

theorem pushLong_lowers (v : Long) : Within (Lowers 4) (pushLong h v) := by
  have hput : ∀ a, Within (Lowers 0) (h.port.putLong a v) := fun a =>
    (hq.putLong a v).mono fun _ _ h => h.lowers 0
  refine within_lowers_bind (n := 4) (k := 0) (fun c hs => ⟨hs, rfl, 4, le_refl _, rfl⟩) fun _ => ?_
  exact within_reads_bind hput

theorem push_lowers : ∀ x : Push, Within (Lowers x.bytes) (x.run h)
  | .word v => pushWord_lowers hq v
  | .long v => pushLong_lowers hq v
  | .skip => fun _ hs => ⟨hs, rfl, 2, le_refl _, rfl⟩
  | .clearWb2 | .clearWb3 => fun _ => StackQuiet.lowers ⟨rfl, rfl⟩ 0

theorem pushAll_lowers : ∀ xs : List Push,
    Within (Lowers (xs.map Push.bytes).sum) (pushAll h xs)
  | [] => within_pure ()
  | x :: xs => by
    rw [List.map_cons, List.sum_cons]
    exact within_lowers_bind (push_lowers hq x) fun _ => pushAll_lowers xs

theorem pushAll_lowers_le {xs : List Push} {n : Nat} (hn : (xs.map Push.bytes).sum ≤ n) :
    Within (Lowers n) (pushAll h xs) :=
  (pushAll_lowers hq xs).mono fun _ _ hl => hl.mono hn

/-- The short frame formats take at most sixteen bytes. -/
theorem buildFrame_lowers {f : FrameFormat} (hf : f ∈ [.fourWord, .sixWord, .fpPost, .fpUnimp])
    (oldpc currpc ssw : Long) (nr : Nat) :
    Within (Lowers 16) (exceptionBuildStackFrame h oldpc currpc ssw nr f) := by
  have hl : ¬ (f = .longBus ∧ ssw &&& 0x0040 = 0) := by
    rintro ⟨rfl, -⟩; revert hf; decide
  simp only [exceptionBuildStackFrame, hl, if_false]
  refine within_reads_bind fun c => pushAll_lowers_le hq ?_
  cases f <;> simp [frameBody, frameTail, Push.bytes] at hf ⊢

theorem buildFrameCommon_lowers (oldpc currpc : Long) (nr vectorNr : Nat) :
    Within (Lowers 16) (exceptionBuildStackFrameCommon h oldpc currpc nr vectorNr) := by
  have hb : ∀ {f : FrameFormat}, f ∈ [.fourWord, .sixWord, .fpPost, .fpUnimp] →
      ∀ oldpc currpc ssw nr,
        Within (Lowers 16) (exceptionBuildStackFrame h oldpc currpc ssw nr f) :=
    buildFrame_lowers hq
  refine within_reads_bind fun c => ?_
  refine .ite (fun _ => hb (by split <;> simp) _ _ _ _) fun _ => ?_
  refine .ite (fun _ => hb (by simp) _ _ _ _) fun _ => ?_
  refine .ite (fun _ => ?_) fun _ => .ite (fun _ => ?_) fun _ => hb (by simp) _ _ _ _
  · refine .ite (fun _ => .ite (fun _ => hb (by simp) _ _ _ _) fun _ => hb (by simp) _ _ _ _)
      fun _ => .ite (fun _ => hb (by simp) _ _ _ _) fun _ => hb (by simp) _ _ _ _
  · refine within_update_bind (fun _ => ⟨rfl, rfl⟩) ?_
    exact .ite (fun _ => hb (by simp) _ _ _ _) fun _ => hb (by simp) _ _ _ _

/-- The frame of `Exception_normal` on the 68060; six bytes are still to come where its value says
so. -/
theorem normalFrame_lowers (hm : h.prefs.cpuModel = .m68060) (nr vectorNr : Nat) (currpc : Long)
    (sv : Bool) (c : Cpu μ) :
    Ends (normalFrame h nr vectorNr currpc sv) c
      (fun o => Lowers (frameBytes nr - if o = some false then 6 else 0) c)
      (Lowers (frameBytes nr) c) := by
  have h60 : ¬ h.prefs.cpuModel.num < 68060 := by rw [hm]; decide
  have h00 : h.prefs.cpuModel ≠ .m68000 := by rw [hm]; decide
  have h40 : 68040 ≤ h.prefs.cpuModel.num := by rw [hm]; decide
  have hmaster : Within (Lowers 2) (masterInterruptFrame h currpc vectorNr) := by
    simp only [masterInterruptFrame, h60, if_false]
    exact within_lowers_bind (k := 0) (pushWord_lowers hq _) fun _ => within_pure ()
  have hthen : ∀ {n : Nat} {m : FaultM (Cpu μ) Unit} {o : Option Bool}, Within (Lowers n) m →
      n ≤ frameBytes nr - (if o = some false then 6 else 0) →
      Ends (m >>= fun _ => pure o) c
        (fun o => Lowers (frameBytes nr - if o = some false then 6 else 0) c)
        (Lowers (frameBytes nr) c) := fun hw hn =>
    ends_bind.mpr ((hw c).mono (fun _ _ hl => ends_pure.mpr (hl.mono hn))
      fun _ hl => hl.mono (by omega))
  simp only [normalFrame, ends_bind (m := reads _), ends_reads, h00, h40, if_false, if_true]
  refine .ite (fun hnr => .ite (fun h2 => ?_) fun h2 => ?_)
    fun hnr => .ite (fun _ => ?_) fun _ => ?_
  · refine hthen (pushAll_lowers hq _) ?_
    simp [frame040NoMmu, Push.bytes, frameBytes, h2]
  · exact hthen (buildFrame_lowers hq (by simp) _ _ _ _) (by simp [frameBytes, h2])
  · exact hthen hmaster (by simp [frameBytes]; split <;> omega)
  · exact hthen (buildFrameCommon_lowers hq _ _ _ _) (by simp [frameBytes]; split <;> omega)

theorem finishFrame_lowers (hm : h.prefs.cpuModel = .m68060) (nr : Nat) (nextpc : Long)
    (o : Option Bool) :
    Within (Lowers (if o = some false then 6 else 0)) (finishFrame h nr nextpc o) := by
  have h40 : ¬ h.prefs.cpuModel = .m68040 := by rw [hm]; decide
  have hend : Within (Lowers 0) (do
      if h.prefs.cpuModel = .m68060 ∧ isInterrupt nr then
        update fun c => c.mapRegs fun r => { r with m := false }
      let c ← reads id
      if h.prefs.cpuModel = .m68040 ∧ nr = 3 ∧ c.latch.last.op &&& 0x10000 ≠ 0 then
        h.port.putWord c.regs.sp.a7 c.latch.last.sr) := by
    have hlast : Within (Lowers 0) (do
        let c ← reads id
        if h.prefs.cpuModel = .m68040 ∧ nr = 3 ∧ c.latch.last.op &&& 0x10000 ≠ 0 then
          h.port.putWord c.regs.sp.a7 c.latch.last.sr) :=
      within_reads_bind fun c => .ite (fun hc => absurd hc.1 h40) fun _ => within_pure ()
    exact .ite (fun _ => within_update_bind (fun _ => ⟨rfl, rfl⟩) hlast) fun _ => hlast
  match o with
  | none => exact within_pure ()
  | some true => exact hend
  | some false =>
    exact within_lowers_bind (n := 4) (k := 2) (pushLong_lowers hq nextpc) fun _ =>
      within_reads_bind fun sr =>
        within_lowers_bind (k := 0) (pushWord_lowers hq sr) fun _ => hend

/-- Both halves of the frame. -/
theorem normalStack_lowers (hm : h.prefs.cpuModel = .m68060) (nr vectorNr : Nat)
    (currpc nextpc : Long) (sv : Bool) :
    Within (Lowers (frameBytes nr))
      (normalFrame h nr vectorNr currpc sv >>= finishFrame h nr nextpc) := by
  intro c
  refine (normalFrame_lowers hq hm nr vectorNr currpc sv c).bind fun o c' hl => ?_
  have hle : (if o = some false then 6 else 0) ≤ frameBytes nr := by
    simp only [frameBytes]; split <;> split <;> omega
  have hsum : ∀ c'', Lowers (if o = some false then 6 else 0) c' c'' →
      Lowers (frameBytes nr) c c'' := fun c'' hl' => (hl.trans hl').mono (by omega)
  exact (finishFrame_lowers hq hm nr nextpc o c').mono (fun _ => hsum) hsum

theorem intlev_quiet : Within StackQuiet (intlev h) := by
  cases hg : h.getIrq with
  | none => simp only [intlev, hg]; exact fun _ => ⟨rfl, rfl⟩
  | some hook =>
    simp only [intlev, hg]
    exact (hq.getIrq hook hg).comp (S := StackQuiet) (fun _ _ => ⟨rfl, rfl⟩) (fun _ _ h => h)
      fun _ _ _ h h' => ⟨h'.1.trans h.1, h'.2.trans h.2⟩

/-- The end of `Exception_normal` stacks nothing itself, but an odd vector raises an address
error, unless it is that of a bus or address error. -/
theorem normalVector_lowers (hm : h.prefs.cpuModel = .m68060) {nested : Nat → FaultM (Cpu μ) Unit}
    {n : Nat} (nr : Nat) (hn : ¬ (nr = 2 ∨ nr = 3) → Within (Lowers n) (nested 3)) (vectorNr : Nat)
    (g1 : Bool) : Within (Lowers n) (normalVector h nested nr vectorNr g1) := by
  have h10 : ¬ h.prefs.cpuModel.num ≤ 68010 := by rw [hm]; decide
  have hcyc : addApproximateExceptionCycles h nr = pure () := by
    simp only [addApproximateExceptionCycles, hm, approximateExceptionCycles]
  refine within_reads_bind fun c => ?_
  rw [if_neg (by simp [h10])]
  have hfetch : Within (Lowers n) (do
      let newpc ← h.port.getLong (vectorAddr c.regs vectorNr)
      setExceptionInException 0
      if newpc.getLsbD 0 then
        if nr = 2 ∨ nr = 3 then cpuHalt
        else
          update fun c => c.xDoCycles h.prefs (6 * 4 * cycleUnit / 2)
          oddVector h nested nr vectorNr g1 newpc
      else
        addApproximateExceptionCycles h nr
        update fun c => c.mapRegs fun r => endCompile h.prefs (r.setpc newpc)
        let ipl ← intlev h
        update fun c => c.mapRegs fun r => iplFetchNow { r with ipl := { r.ipl with pin := ipl } }
        h.port.fillPrefetch
        update fun c => c.mapRegs (exceptionCheckTrace h.prefs nr)) := by
    refine within_quiet_bind (hq.getLong _) fun newpc => ?_
    refine within_update_bind (fun _ => ⟨rfl, rfl⟩)
      (.ite (fun _ => .ite (fun _ => ?_) fun hnr => ?_) fun _ => ?_)
    · exact within_pure ()
    · exact within_update_bind (xDoCycles_quiet _ _)
        (oddVector_lowers hm (hn hnr) nr vectorNr g1 newpc)
    · rw [hcyc]
      refine within_quiet_bind (fun _ => ⟨rfl, rfl⟩) fun _ => within_update_bind (fun c => ?_) ?_
      · simp only [Cpu.mapRegs, endCompile]; split <;> exact ⟨rfl, rfl⟩
      refine within_quiet_bind (intlev_quiet hq) fun _ => ?_
      refine within_update_bind (fun _ => ⟨rfl, rfl⟩) ?_
      exact within_quiet_bind hq.fillPrefetch fun _ => fun _ => StackQuiet.lowers ⟨rfl, rfl⟩ n
  exact .ite (fun _ => within_update_bind (fun _ => ⟨rfl, rfl⟩) hfetch) fun _ => hfetch

theorem iackCycle_quiet (nr : Nat) : Within StackQuiet (iackCycle h nr) := by
  cases ha : h.intAck with
  | none => simp only [iackCycle, ha]; exact fun _ => ⟨rfl, rfl⟩
  | some hook =>
    simp only [iackCycle, ha]
    exact (hq.intAck hook ha _).comp (S := StackQuiet) (fun _ _ => ⟨rfl, rfl⟩) (fun _ _ h => h)
      fun _ _ _ h h' => ⟨h'.1.trans h.1, h'.2.trans h.2⟩

/-- `Exception_normal` on the 68060 enters supervisor mode and stacks its frames there. -/
theorem exceptionNormal_enters (hm : h.prefs.cpuModel = .m68060)
    {nested : Nat → FaultM (Cpu μ) Unit} {n : Nat} (nr : Nat)
    (hn : ¬ (nr = 2 ∨ nr = 3) → Within (Lowers n) (nested 3)) :
    Within (Enters (frameBytes nr + n)) (exceptionNormal h nested nr) := by
  have h20 : ¬ h.prefs.cpuModel.num < 68020 := by rw [hm]; decide
  intro c
  refine ends_bind.mpr (ends_reads.mpr ?_)
  extract_lets currpc g1 jp
  have hjp : ∀ vectorNr c₁, StackQuiet c c₁ → Ends (jp vectorNr) c₁
      (fun _ => Enters (frameBytes nr + n) c) (Enters (frameBytes nr + n) c) := by
    intro vectorNr c₁ hc₁
    simp only [jp, ends_bind (m := update _), ends_update, ends_bind (m := reads _), ends_reads,
      id_eq, h20, and_false, if_false]
    have hsup : ∀ c', Lowers (frameBytes nr + n) (c₁.makeSR.mapRegs (enterSupervisor h.prefs)) c' →
        Enters (frameBytes nr + n) c c' := fun c' => enters_of_lowers hm hc₁
    refine .ite (fun _ => hsup _ (StackQuiet.lowers ⟨rfl, rfl⟩ _)) fun _ => ?_
    have hrest := within_lowers_bind (normalStack_lowers hq hm nr vectorNr c.regs.pc
        (if h.prefs.cpuModel = .m68000 then (c₁.makeSR.mapRegs (enterSupervisor h.prefs)).regs.pc
          else exceptionPc nr (c₁.makeSR.mapRegs (enterSupervisor h.prefs)).regs) c.regs.s)
      fun _ => normalVector_lowers hq hm nr hn vectorNr (h.group1 c.regs.ir c)
    have hends := hrest (c₁.makeSR.mapRegs (enterSupervisor h.prefs))
    simp only [ends_bind] at hends ⊢
    exact hends.mono (fun _ _ he => he.mono (fun _ _ he => he.mono (fun _ => hsup) hsup) hsup) hsup
  refine .ite (fun _ => ?_) fun _ => hjp nr c ⟨rfl, rfl⟩
  exact ends_bind.mpr
    ((iackCycle_quiet hq nr).ends (fun v c₁ hc => hjp v c₁ hc) fun _ hc => .inl hc)

theorem noteException_quiet060 (nr : Nat) (pc : Long) :
    Within StackQuiet (noteException h nr pc) := by
  cases he : h.exception with
  | none => simp only [noteException, he]; exact fun _ => ⟨rfl, rfl⟩
  | some hook =>
    simp only [noteException, he]
    exact fun c => (hq.exception hook he _).ends (fun _ _ hc => hc) fun _ hc => hc

/-- The whole of `ExceptionX` on a 68060 without MMU. -/
theorem exceptionXWith_enters (hm : h.prefs.cpuModel = .m68060) (hmmu : h.prefs.mmuModel = false)
    {nested : Nat → FaultM (Cpu μ) Unit} {n : Nat} (nr : Nat)
    (hn : ¬ (nr = 2 ∨ nr = 3) → Within (Lowers n) (nested 3)) (oldpc : Option Long) :
    Within (Enters (frameBytes nr + n)) (exceptionXWith h nested nr oldpc) := by
  have h10 : ¬ h.prefs.cpuModel.num ≤ 68010 := by rw [hm]; decide
  have hengine : Within (Enters (frameBytes nr + n)) (exceptionEngine h nested nr) := by
    simp only [exceptionEngine, h10, and_false, if_false, hmmu, Bool.false_eq_true]
    exact exceptionNormal_enters hq hm nr hn
  have hbody : Within (Enters (frameBytes nr + n)) (exceptionXBody h nested nr oldpc) := by
    intro c
    refine ends_bind.mpr (ends_reads.mpr ?_)
    refine ends_bind.mpr
      ((noteException_quiet060 hq nr _).ends (fun _ c₁ hc₁ => ?_) fun _ hc => .inl hc)
    simp only [ends_bind (m := update _), ends_update]
    have hresume : ∀ r : Regs, (resumeStopped r).sp = r.sp ∧ (resumeStopped r).s = r.s := by
      intro r
      cases hst : r.stopped <;> simp [resumeStopped, hst]
    refine ends_bind.mpr (hengine.ends (fun _ c₂ hc₂ => ?_) fun c₂ hc₂ => ?_)
    · refine ends_update.mpr ((hc₂.after ?_).before ⟨rfl, rfl⟩)
      exact hc₁.trans (hresume _)
    · exact hc₂.after (hc₁.trans (hresume _))
  have htrap : ∀ m : FaultM (Cpu μ) Bool, Within StackQuiet m →
      Within (Enters (frameBytes nr + n)) (do
        if ← m then h.port.fillPrefetch else exceptionXBody h nested nr oldpc) := by
    intro m hw c
    refine ends_bind.mpr
      (hw.ends (fun b c₁ hc₁ => .ite (fun _ => ?_) fun _ => ?_) fun _ hc => .inl hc)
    · exact hq.fillPrefetch.ends (fun _ _ hc => .inl (hc₁.trans hc)) fun _ hc => .inl (hc₁.trans hc)
    · exact hbody.ends (fun _ _ hc => hc.after hc₁) fun _ hc => hc.after hc₁
  cases ht : h.trap with
  | none => simp only [exceptionXWith, ht]; exact hbody
  | some hook =>
    simp only [exceptionXWith, ht]
    exact .ite (fun _ => htrap _ (hq.trap hook ht _)) fun _ => hbody

/-- Every exception of the 68060 goes to the one supervisor stack. -/
theorem exception_enters (hm : h.prefs.cpuModel = .m68060) (hmmu : h.prefs.mmuModel = false)
    (nr : Nat) : Within (Enters 60) (exception h nr) := by
  have hnested : Within (Lowers 16) (exceptionXWith h (fun _ => pure ()) 3 none) :=
    (exceptionXWith_enters hq hm hmmu (n := 0) 3 (fun hn => absurd (.inr rfl) hn) none).mono
      fun _ _ he => he.lowers
  have hexc : Within (Enters _) (exceptionX h nr none) := exceptionXWith_enters hq hm hmmu
    (n := if nr = 2 ∨ nr = 3 then 0 else 16) nr (fun hn => by rw [if_neg hn]; exact hnested) none
  refine hexc.mono fun c c' he => ?_
  obtain hc | ⟨b, hb, he⟩ := he
  · exact .inl hc
  · refine .inr ⟨b, hb.trans ?_, he⟩
    simp only [frameBytes]
    split <;> split <;> omega

end Exception

/-! ## Status register writes -/

/-- The writes that keep the one stack: all but those that leave supervisor mode with `M` set or
change `M` in supervisor mode, unless `regs.isp` happens to hold the value of `A7`. -/
def StackSafe (c : Cpu μ) : StackEvent → Prop
  | .writeSR _ v => c.regs.s = true →
      (c.regs.m = true ∧ v.getLsbD 13 = false) ∨
        (v.getLsbD 13 = true ∧ c.regs.m ≠ v.getLsbD 12) → c.regs.sp.isp = c.regs.sp.a7
  | _ => True

instance (c : Cpu μ) : (e : StackEvent) → Decidable (StackSafe c e)
  | .writeSR _ _ => inferInstanceAs (Decidable (_ → _ → _))
  | .exception _ | .loadA7 _ => inferInstanceAs (Decidable True)

/-- A status register write of the 68060 keeps the one supervisor stack exactly when it is one of
these. -/
theorem writeSR_stacks_iff {p : Prefs} (hm : p.cpuModel = .m68060) (k : SrWrite) (v : Word)
    (c : Cpu μ) :
    (c.writeSR p k v).regs.stacks = { c.regs.stacks with s := v.getLsbD 13 } ↔
      StackSafe c (.writeSR k v) := by
  have h20 : 68020 ≤ p.cpuModel.num := by rw [hm]; decide
  have h60 : 68060 ≤ p.cpuModel.num := by rw [hm]; decide
  obtain ⟨hu, he⟩ | ⟨-, i, spc, he⟩ :=
    makeFromSRx_cases p k { c.toCore with regs := { c.regs with sr := v } }
  · obtain ⟨-, -, hs, hm', -⟩ := srUnchanged_iff.mp hu
    simp only [Cpu.writeSR, writeSR, he, StackSafe]
    simp only at hs hm'
    simp only [Regs.stacks, hs, hm', ne_eq, not_true, and_false, or_false, true_iff]
    intro h1 h2
    rw [h1] at h2
    cases h2.2
  · simp only [Cpu.writeSR, writeSR, he, StackSafe, Regs.stacks, decodeSR, bankStacks, h20, h60,
      if_true, decide_true, Bool.and_true]
    cases c.regs.s <;> cases c.regs.m <;> cases v.getLsbD 13 <;> cases v.getLsbD 12 <;>
      simp [eq_comm]

/-! ## Runs -/

/-- The same events on the code's model; an exception may also end in a throw of its own. -/
inductive CodeStep (h : Host μ) : Cpu μ → StackEvent → Cpu μ → Prop where
  | writeSR {c : Cpu μ} (k : SrWrite) (v : Word) :
      CodeStep h c (.writeSR k v) (c.writeSR h.prefs k v)
  | exception {c c' : Cpu μ} {nr : Nat} : exception h nr c = .ret () c' →
      CodeStep h c (.exception nr) c'
  | thrown {c c' : Cpu μ} {nr : Nat} {e : Int} : UaeCpu.exception h nr c = .thrown e c' →
      CodeStep h c (.exception nr) c'
  | loadA7 {c : Cpu μ} (v : Long) : CodeStep h c (.loadA7 v) (c.setA7 v)

theorem Enters.step {c c' : Cpu μ} (he : Enters 60 c c') (nr : Nat) :
    StackStep c.regs.stacks (.exception nr) c'.regs.stacks := by
  obtain hq | ⟨b, hb, he⟩ := he
  · rw [hq.stacks]; exact .serviced nr
  · rw [he]; exact .exception nr b hb

section Runs

variable {h : Host μ} (hq : h.LeavesStacks) (hm : h.prefs.cpuModel = .m68060)
  (hmmu : h.prefs.mmuModel = false)
include hq hm hmmu

theorem step_refines {c c' : Cpu μ} {e : StackEvent} (hs : Guarded (CodeStep h) StackSafe c e c') :
    StackStep c.regs.stacks e c'.regs.stacks := by
  obtain ⟨hsafe, hs⟩ := hs
  cases hs with
  | writeSR k v =>
    rw [(writeSR_stacks_iff hm k v c).mpr hsafe]
    exact .writeSR k v
  | exception he => exact ((exception_enters hq hm hmmu _ c).of_ret he).step _
  | thrown he => exact ((exception_enters hq hm hmmu _ c).of_thrown he).step _
  | loadA7 v =>
    have hv : (c.setA7 v).regs.stacks =
        if c.regs.stacks.s then { c.regs.stacks with ssp := v }
        else { c.regs.stacks with usp := v } := by
      cases hs : c.regs.s <;> simp [Cpu.setA7, Regs.stacks, hs]
    rw [hv]
    exact .loadA7 v

/-- In a run of status register writes, exceptions and loads of `A7` whose writes all meet the
condition, the code's stack pointers are those of a CPU with one supervisor stack pointer; and the
next write keeps them so exactly when it meets the condition. -/
theorem supervisorStack_refines {c c' : Cpu μ} {es : List StackEvent}
    (hr : Run (Guarded (CodeStep h) StackSafe) c es c') :
    Run StackStep c.regs.stacks es c'.regs.stacks ∧
      ∀ k v, StackStep c'.regs.stacks (.writeSR k v) (c'.writeSR h.prefs k v).regs.stacks ↔
        StackSafe c' (.writeSR k v) := by
  constructor
  · induction hr with
    | nil => exact .nil
    | cons hs _ ih => exact .cons (step_refines hq hm hmmu hs) ih
  · intro k v
    rw [← writeSR_stacks_iff hm k v c']
    refine ⟨fun hs => ?_, fun he => ?_⟩
    · generalize hw : (c'.writeSR h.prefs k v).regs.stacks = t at hs
      cases hs
      rfl
    · rw [he]; exact .writeSR k v

end Runs

/-- A 68060 over RAM. -/
def ram68060 : Host (Long → Byte) := .ram (.plain .m68060) Mem.ofFun fun _ => opNop

theorem ram_leavesStacks (p : Prefs) (tbl : Word → FaultM (Cpu (Long → Byte)) Long) :
    (Host.ram p Mem.ofFun tbl).LeavesStacks where
  getLong _ _ := ⟨rfl, rfl⟩
  putLong _ _ _ := ⟨rfl, rfl⟩
  putWord _ _ _ := ⟨rfl, rfl⟩
  fillPrefetch _ := ⟨rfl, rfl⟩
  getIrq _ hg := by cases hg
  intAck _ hg := by cases hg
  trap _ hg := by cases hg
  exception _ hg := by cases hg

def reset68060 : Cpu (Long → Byte) := .reset (.plain .m68060) 0x1000 0x400 fun _ => 0

/-- After a reset, with `M` set and a long word pushed. -/
def pushed68060 : Cpu (Long → Byte) :=
  (reset68060.writeSR (.plain .m68060) .plain 0x3000).setA7 0xFFC

/-- Clearing `M`, or leaving supervisor mode with it set, loses what was pushed. -/
theorem writeSR_moves_ssp :
    pushed68060.regs.stacks.ssp = 0xFFC ∧
      (pushed68060.writeSR (.plain .m68060) .plain 0x2000).regs.stacks.ssp = 0x1000 ∧
      (pushed68060.writeSR (.plain .m68060) .plain 0x1000).regs.stacks.ssp = 0x1000 := by
  decide

/-- `M` is set, to user mode and an interrupt there; what the next write does is settled by its
condition. -/
theorem supervisorStack_68060 :
    ∃ c' : Cpu (Long → Byte), c'.regs.stacks.ssp = 0xFF8 ∧
      Run StackStep reset68060.regs.stacks [.writeSR .plain 0x3000, .writeSR .plain 0x0000, .exception 26]
        c'.regs.stacks ∧
      ∀ k v, StackStep c'.regs.stacks (.writeSR k v) (c'.writeSR (.plain .m68060) k v).regs.stacks ↔
        StackSafe c' (.writeSR k v) := by
  obtain ⟨c', he, hssp⟩ : ∃ c', exception ram68060 26
      ((reset68060.writeSR (.plain .m68060) .plain 0x3000).writeSR (.plain .m68060) .plain 0x0000) = .ret () c' ∧
        c'.regs.stacks.ssp = 0xFF8 := ⟨_, rfl, by decide⟩
  have hrun : Run (Guarded (CodeStep ram68060) StackSafe) reset68060
      [.writeSR .plain 0x3000, .writeSR .plain 0x0000, .exception 26] c' :=
    .cons ⟨by decide, .writeSR _ _⟩ (.cons ⟨by decide, .writeSR _ _⟩ (.single ⟨trivial, .exception he⟩))
  exact ⟨c', hssp, supervisorStack_refines (ram_leavesStacks _ _) rfl rfl hrun⟩

end UaeCpu
