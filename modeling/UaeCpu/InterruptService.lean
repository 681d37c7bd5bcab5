import UaeCpu.Stop

/-!
# UaeCpu.InterruptService

The loop of `do_interrupt`. It ends because every round raises the mask to the level it takes and
goes on only for a higher one. `EntryOk` says when a round does raise it: an engine leaves the mask
as it was where `cpu_halt`, which does nothing in this build, stands in for the rest of the
exception, and where the MMU engines find an odd vector before they have set it.

* `exceptionEngine_masking`   — what each engine does to the mask.
* `interruptLoop_never_ends` — a prefetching 68000 or 68010 with an odd stack pointer.
* `doInterrupt_serviced`    — a call ends, with the mask at the level taken.
-/

namespace UaeCpu

open Fault FaultM

variable {μ α β : Type}

/-! ## The host -/

/-- The interrupt mask, VBR and the halted state are as they were. -/
structure MaskKept (c c' : Cpu μ) : Prop where
  intmask : c'.regs.intmask = c.regs.intmask
  halted : c'.regs.halted = c.regs.halted
  vbr : c'.regs.vbr = c.regs.vbr

instance : Std.Refl (MaskKept (μ := μ)) where
  refl _ := ⟨rfl, rfl, rfl⟩

instance : IsTrans (Cpu μ) MaskKept where
  trans _ _ _ h h' :=
    ⟨h'.intmask.trans h.intmask, h'.halted.trans h.halted, h'.vbr.trans h.vbr⟩

/-- A hook returns. It may push requests and change the world, but no register. -/
def Answers (m : FaultM (Cpu μ) α) : Prop :=
  ∀ c, ∃ a c', m c = .ret a c' ∧ c'.regs = { c.regs with spc := c'.regs.spc }

/-- Hooks that answer, and memory whose accesses come back, with a bus error or without, and do
not touch the mask. -/
structure Host.Calm (h : Host μ) : Prop where
  getLong : ∀ a, Stays MaskKept (h.port.getLong a)
  getWord : ∀ a, Stays MaskKept (h.port.getWord a)
  physGetLong : ∀ a, Stays MaskKept (h.port.physGetLong a)
  putLong : ∀ a v, Stays MaskKept (h.port.putLong a v)
  putWord : ∀ a v, Stays MaskKept (h.port.putWord a v)
  fillPrefetch : Stays MaskKept h.port.fillPrefetch
  getIrq : ∀ m, h.getIrq = some m → Answers m
  intAck : ∀ m, h.intAck = some m → ∀ l, Answers (m l)
  exception : ∀ m, h.exception = some m → ∀ i, Answers (m i)

theorem Answers.stays {m : FaultM (Cpu μ) α} (hm : Answers m) : Stays MaskKept m := by
  intro c
  obtain ⟨a, c', hr, hregs⟩ := hm c
  exact .ret hr ⟨by rw [hregs], by rw [hregs], by rw [hregs]⟩

/-- RAM without hooks. -/
theorem ram_calm {p : Prefs} {M : Mem.ByteMem μ} {tbl : Word → FaultM (Cpu μ) Long} :
    (Host.ram p M tbl).Calm where
  getLong _ := .reads _
  getWord _ := .reads _
  physGetLong _ := .reads _
  putLong _ _ := .update fun _ => ⟨rfl, rfl, rfl⟩
  putWord _ _ := .update fun _ => ⟨rfl, rfl, rfl⟩
  fillPrefetch := .pure ()
  getIrq _ hm := by cases hm
  intAck _ hm := by cases hm
  exception _ hm := by cases hm

/-! ## What a frame leaves alone -/

/-- Neither mask, VBR nor the halted state moves, and T0, T1 and M go down at most. -/
structure FrameKept (c c' : Cpu μ) : Prop where
  intmask : c'.regs.intmask = c.regs.intmask
  halted : c'.regs.halted = c.regs.halted
  vbr : c'.regs.vbr = c.regs.vbr
  t1 : c'.regs.t1 = true → c.regs.t1 = true
  t0 : c'.regs.t0 = true → c.regs.t0 = true
  m : c'.regs.m = true → c.regs.m = true

theorem FrameKept.maskKept {c c' : Cpu μ} (h : FrameKept c c') : MaskKept c c' :=
  ⟨h.intmask, h.halted, h.vbr⟩

/-- The changes `R` allows cover what an exception does around its vector. -/
structure Framing (h : Host μ) (R : Cpu μ → Cpu μ → Prop) : Prop where
  kept : ∀ c c', FrameKept c c' → R c c'
  getLong : ∀ a, Stays R (h.port.getLong a)
  getWord : ∀ a, Stays R (h.port.getWord a)
  physGetLong : ∀ a, Stays R (h.port.physGetLong a)
  putLong : ∀ a v, Stays R (h.port.putLong a v)
  putWord : ∀ a v, Stays R (h.port.putWord a v)
  fillPrefetch : Stays R h.port.fillPrefetch
  getIrq : ∀ m, h.getIrq = some m → Stays R m
  intAck : ∀ m, h.intAck = some m → ∀ l, Stays R (m l)
  exception : ∀ m, h.exception = some m → ∀ i, Stays R (m i)

theorem Host.Calm.framing {h : Host μ} (hc : h.Calm) : Framing h MaskKept where
  kept _ _ hk := hk.maskKept
  getLong := hc.getLong
  getWord := hc.getWord
  physGetLong := hc.physGetLong
  putLong := hc.putLong
  putWord := hc.putWord
  fillPrefetch := hc.fillPrefetch
  getIrq m hm := (hc.getIrq m hm).stays
  intAck m hm l := (hc.intAck m hm l).stays
  exception m hm i := (hc.exception m hm i).stays

namespace Framing

variable {h : Host μ} {R : Cpu μ → Cpu μ → Prop} [Std.Refl R] [IsTrans (Cpu μ) R]
  (hf : Framing h R)
include hf

omit [Std.Refl R] [IsTrans (Cpu μ) R] in
theorem update {g : Cpu μ → Cpu μ}
    (hg : ∀ c, FrameKept c (g c)) : Stays R (FaultM.update g) :=
  .update fun c => hf.kept c _ (hg c)

omit [Std.Refl R] in
theorem update_bind {g : Cpu μ → Cpu μ} {f : Unit → FaultM (Cpu μ) α}
    (hg : ∀ c, FrameKept c (g c)) (hs : Stays R (f ())) : Stays R (FaultM.update g >>= f) :=
  .update_bind (fun c => hf.kept c _ (hg c)) hs

theorem intlev : Stays R (intlev h) := by
  simp only [UaeCpu.intlev]
  split
  · rename_i hook hg
    exact .bind (hf.getIrq hook hg) fun _ => .pure _
  · exact .reads _

theorem iackCycle (nr : Nat) : Stays R (iackCycle h nr) := by
  simp only [UaeCpu.iackCycle]
  split
  · rename_i hook hg
    exact .bind (hf.intAck hook hg _) fun _ => .pure _
  · exact .pure _

theorem noteException (nr : Nat) (pc : Long) : Stays R (noteException h nr pc) := by
  simp only [UaeCpu.noteException]
  split
  · rename_i hook hg
    exact hf.update_bind (fun _ => ⟨rfl, rfl, rfl, id, id, id⟩)
      (.reads_bind fun c => (hf.exception hook hg _))
  · exact .pure ()

theorem pushWord (v : Word) : Stays R (pushWord h v) :=
  hf.update_bind (fun _ => ⟨rfl, rfl, rfl, id, id, id⟩) (.reads_bind fun a => hf.putWord a v)

theorem pushLong (v : Long) : Stays R (pushLong h v) :=
  hf.update_bind (fun _ => ⟨rfl, rfl, rfl, id, id, id⟩) (.reads_bind fun a => hf.putLong a v)

theorem pushAll : ∀ xs : List Push, Stays R (pushAll h xs)
  | [] => .pure ()
  | x :: xs => by
    refine .bind ?_ fun _ => pushAll xs
    cases x with
    | word v => exact hf.pushWord v
    | long v => exact hf.pushLong v
    | skip | clearWb2 | clearWb3 => exact hf.update fun _ => ⟨rfl, rfl, rfl, id, id, id⟩

theorem buildStackFrame (oldpc currpc ssw : Long) (nr : Nat) (f : FrameFormat) :
    Stays R (exceptionBuildStackFrame h oldpc currpc ssw nr f) := by
  simp only [exceptionBuildStackFrame]
  have hrest : Stays R (do
      let c ← reads id
      UaeCpu.pushAll h (frameBody oldpc ssw c.regs.irc c.latch f ++
        frameTail currpc c.regs.sr nr f)) := .reads_bind fun c => hf.pushAll _
  split
  · exact hf.update_bind (fun _ => ⟨rfl, rfl, rfl, id, id, id⟩) hrest
  · exact hrest

theorem buildStackFrameCommon (oldpc currpc : Long) (nr vectorNr : Nat) :
    Stays R (exceptionBuildStackFrameCommon h oldpc currpc nr vectorNr) := by
  have hb := fun a b d n f => hf.buildStackFrame a b d n f
  simp only [exceptionBuildStackFrameCommon]
  refine .reads_bind fun c => ?_
  refine .ite (fun _ => hb _ _ _ _ _) fun _ => .ite (fun _ => hb _ _ _ _ _) fun _ => ?_
  refine .ite (fun _ => ?_) fun _ => .ite (fun _ => ?_) fun _ => hb _ _ _ _ _
  · exact .ite (fun _ => .ite (fun _ => hb _ _ _ _ _) fun _ => hb _ _ _ _ _)
      fun _ => .ite (fun _ => hb _ _ _ _ _) fun _ => hb _ _ _ _ _
  · exact hf.update_bind (fun _ => ⟨rfl, rfl, rfl, id, id, id⟩)
      (.ite (fun _ => hb _ _ _ _ _) fun _ => hb _ _ _ _ _)

theorem addressErrorFrame (mode : Word) (f : LastFault) :
    Stays R (exceptionBuild68000AddressErrorStackFrame h mode f) :=
  hf.update_bind (fun _ => ⟨rfl, rfl, rfl, id, id, id⟩) <| .reads_bind fun _ =>
    .bind (hf.putWord _ _) fun _ => .bind (hf.putLong _ _) fun _ =>
    .bind (hf.putWord _ _) fun _ => .bind (hf.putWord _ _) fun _ => hf.putLong _ _

theorem masterInterruptFrame (pc : Long) (vec : Nat) :
    Stays R (masterInterruptFrame h pc vec) := by
  refine .bind (hf.pushWord _) fun _ => .ite (fun _ => ?_) fun _ => .pure _
  exact .bind (hf.pushLong _) fun _ => .reads_bind fun sr => .bind (hf.pushWord _) fun _ =>
    hf.update_bind (fun _ => ⟨rfl, rfl, rfl, id, id, nofun⟩) (hf.pushWord _)

theorem normalFrame (nr vec : Nat) (pc : Long) (sv : Bool) :
    Stays R (normalFrame h nr vec pc sv) := by
  have hb := fun a b d n f => hf.buildStackFrame a b d n f
  refine .reads_bind fun c => .ite (fun _ => .ite (fun _ => ?_) fun _ => .pure _) fun _ =>
    .ite (fun _ => .ite (fun _ => .ite (fun _ => ?_) fun _ => ?_) fun _ =>
      .ite (fun _ => ?_) fun _ => ?_) fun _ => .ite (fun _ => ?_) fun _ => ?_
  · exact hf.update_bind (fun _ => ⟨rfl, rfl, rfl, id, id, id⟩)
      (.bind (hf.addressErrorFrame _ _) fun _ => .pure _)
  · exact .bind (hf.pushAll _) fun _ => .pure _
  · exact .bind (hb _ _ _ _ _) fun _ => .pure _
  · exact hf.update_bind (fun _ => ⟨rfl, rfl, rfl, id, id, id⟩) (.bind (hb _ _ _ _ _) fun _ => .pure _)
  · exact hf.update_bind (fun _ => ⟨rfl, rfl, rfl, id, id, id⟩) (.bind (hb _ _ _ _ _) fun _ => .pure _)
  · exact .bind (hf.masterInterruptFrame _ _) fun _ => .pure _
  · exact .bind (hf.buildStackFrameCommon _ _ _ _) fun _ => .pure _

theorem finishFrame (nr : Nat) (pc : Long) (f : Option Bool) :
    Stays R (finishFrame h nr pc f) := by
  cases f with
  | none => exact .pure _
  | some used =>
    have hlast : Stays R (do
        let c ← reads id
        if h.prefs.cpuModel = .m68040 ∧ nr = 3 ∧ c.latch.last.op &&& 0x10000 ≠ 0 then
          h.port.putWord c.regs.sp.a7 c.latch.last.sr) :=
      .reads_bind fun c => .ite (fun _ => hf.putWord _ _) fun _ => .pure _
    have hmid : Stays R (do
        if h.prefs.cpuModel = .m68060 ∧ isInterrupt nr then
          FaultM.update fun c => c.mapRegs fun r => { r with m := false }
        let c ← reads id
        if h.prefs.cpuModel = .m68040 ∧ nr = 3 ∧ c.latch.last.op &&& 0x10000 ≠ 0 then
          h.port.putWord c.regs.sp.a7 c.latch.last.sr) :=
      .ite (fun _ => hf.update_bind (fun _ => ⟨rfl, rfl, rfl, id, id, nofun⟩) hlast) fun _ => hlast
    refine .ite (fun _ => ?_) fun _ => hmid
    exact .bind (hf.pushLong _) fun _ => .reads_bind fun sr => .bind (hf.pushWord _) fun _ => hmid

theorem putWordsAt (a7 : Long) : ∀ ws : List (Nat × Word), Stays R (putWordsAt h a7 ws)
  | [] => .pure ()
  | (_, _) :: ws => .bind (hf.putWord _ _) fun _ => putWordsAt a7 ws

omit hf [Std.Refl R] [IsTrans (Cpu μ) R] in
theorem dointWith (p : Prefs) (ipl : Level) (c : Cpu μ) : FrameKept c (dointWith p ipl c) := by
  have hspc : ∀ (x : Cpu μ) (f : SpcFlags → SpcFlags), FrameKept c x → FrameKept c (x.mapSpc f) :=
    fun _ _ hx => ⟨hx.intmask, hx.halted, hx.vbr, hx.t1, hx.t0, hx.m⟩
  have hu : FrameKept c (if c.regs.ipl.pin = ipl then c else updateIpl p ipl c) := by
    split
    · exact ⟨rfl, rfl, rfl, id, id, id⟩
    · simp only [updateIpl, iplFetchNext, iplFetchNow, Cpu.mapRegs]
      split_ifs <;> exact ⟨rfl, rfl, rfl, id, id, id⟩
  simp only [UaeCpu.dointWith]
  generalize (if c.regs.ipl.pin = ipl then c else updateIpl p ipl c) = x at hu
  split_ifs
  · exact hspc x _ hu
  · exact hu
  · exact hspc x _ hu
  · exact hspc x _ hu
  · exact hu

theorem doint : Stays R (doint h) :=
  .bind hf.intlev fun ipl => hf.update (dointWith h.prefs ipl)

/-! ### Address and bus errors raised on the way -/

section Nested

variable {nested : Nat → FaultM (Cpu μ) Unit}
  (hne : ∀ n, n = 2 ∨ n = 3 → Stays R (nested n))
include hne

omit [Std.Refl R] in
theorem exception3f (op addr : Long) (w i ni : Bool) (pc : Option Long) (size : Int)
    (fc : Option Word) (sr : Word) :
    Stays R (exception3f h nested op addr w i ni pc size fc sr) :=
  hf.update_bind (fun _ => ⟨rfl, rfl, rfl, id, id, id⟩) (hne 3 (.inr rfl))

omit [Std.Refl R] in
theorem exception3Notinstruction (op addr : Long) :
    Stays R (exception3Notinstruction h nested op addr) :=
  hf.update_bind (fun _ => ⟨rfl, rfl, rfl, id, id, id⟩) (hf.exception3f hne _ _ _ _ _ _ _ _ _)

omit hf hne [Std.Refl R] [IsTrans (Cpu μ) R] in
theorem xDoCycles (n : Int) (c : Cpu μ) : FrameKept c (c.xDoCycles h.prefs n) := by
  simp only [Cpu.xDoCycles]
  split <;> exact ⟨rfl, rfl, rfl, id, id, id⟩

theorem exception3ReadAccess (op addr : Long) (fc : Word) :
    Stays R (exception3ReadAccess h nested op addr fc) :=
  hf.update_bind (xDoCycles _) (.reads_bind fun _ => hf.update_bind (fun _ => ⟨rfl, rfl, rfl, id, id, id⟩)
    (hf.exception3f hne _ _ _ _ _ _ _ _ _))

omit [Std.Refl R] in
theorem exception2Fetch (op off pcoff : Long) :
    Stays R (exception2Fetch h nested op off pcoff) :=
  hf.update_bind (fun _ => ⟨rfl, rfl, rfl, id, id, id⟩) (hne 2 (.inl rfl))

theorem oddVector (nr vec : Nat) (g1 : Bool) (newpc : Long) :
    Stays R (oddVector h nested nr vec g1 newpc) := by
  refine .reads_bind fun ir => ?_
  split
  · refine hf.update_bind (fun _ => ⟨rfl, rfl, rfl, nofun, id, id⟩) ?_
    refine hf.update_bind (fun _ => ⟨rfl, rfl, rfl, id, id, id⟩) ?_
    refine .ite (fun _ => hf.update_bind (fun _ => ⟨rfl, rfl, rfl, id, id, id⟩) ?_) fun _ => ?_
    · exact hf.exception3ReadAccess hne _ _ _
    · exact hf.exception3ReadAccess hne _ _ _
  · refine hf.update_bind (fun _ => ⟨rfl, rfl, rfl, nofun, id, id⟩) ?_
    refine hf.update_bind (fun _ => ⟨rfl, rfl, rfl, id, id, id⟩) ?_
    refine hf.update_bind (fun _ => ⟨rfl, rfl, rfl, id, id, id⟩) ?_
    exact .reads_bind fun _ => hf.exception3ReadAccess hne _ _ _
  · exact hf.update_bind (fun _ => ⟨rfl, rfl, rfl, nofun, nofun, id⟩)
      (hf.exception3Notinstruction hne _ _)

omit hne in
theorem addCycles (nr : Nat) : Stays R (addApproximateExceptionCycles h nr) := by
  simp only [addApproximateExceptionCycles]
  split
  · exact hf.update_bind (fun _ => ⟨rfl, rfl, rfl, id, id, id⟩) (hf.update (xDoCycles _))
  · exact .pure _

omit hf hne [Std.Refl R] [IsTrans (Cpu μ) R] in
theorem resetClock (c : Cpu μ) : FrameKept c (ce000ResetClock c) := ⟨rfl, rfl, rfl, id, id, id⟩

theorem ce000Frame (nr frameId : Nat) (pc : Long) :
    Stays R (ce000Frame h nested nr frameId pc) := by
  refine hf.update_bind (fun _ => ⟨rfl, rfl, rfl, id, id, id⟩)
    (.reads_bind fun c => .ite (fun _ => ?_) fun _ => ?_)
  · exact .bind (hf.exception3Notinstruction hne _ _) fun _ => .pure _
  · refine hf.update_bind (fun _ => ⟨rfl, rfl, rfl, id, id, id⟩) (.bind (hf.putWord _ _) fun _ => ?_)
    have hrest : ∀ vec : Nat, Stays R (do
        h.port.putWord c.regs.sp.a7 c.regs.sr
        h.port.putWord (c.regs.sp.a7 + 2) (pc.extractLsb' 16 16)
        if h.prefs.cpuModel = .m68010 then
          h.port.putWord (c.regs.sp.a7 + 6)
            (BitVec.ofNat 16 (frameId * 4096) ||| BitVec.ofNat 16 (vec * 4))
        return some vec) := fun vec =>
      .bind (hf.putWord _ _) fun _ => .bind (hf.putWord _ _) fun _ =>
        .ite (fun _ => .bind (hf.putWord _ _) fun _ => .pure _) fun _ => .pure _
    exact .ite (fun _ => .bind (hf.iackCycle nr) hrest) fun _ => .bind (.pure nr) hrest

theorem ce000Prefetch (nr : Nat) : Stays R (ce000Prefetch h nested nr) := by
  refine .reads_bind fun pc => .bind (hf.getWord _) fun ir =>
    hf.update_bind (fun _ => ⟨rfl, rfl, rfl, id, id, id⟩) (.reads_bind fun c => .ite (fun _ => ?_) ?_)
  · exact .ite (fun _ => .pure _) fun _ => hf.exception2Fetch hne _ _ _
  intro _
  refine hf.update_bind (fun _ => ⟨rfl, rfl, rfl, id, id, id⟩)
    (hf.update_bind (xDoCycles _) (hf.update_bind (xDoCycles _) (hf.update_bind resetClock ?_)))
  have hend : Stays R (do
      let irc ← h.port.getWord (pc + 2)
      FaultM.update fun c => c.mapRegs fun r => { r with irc := irc }
      let c ← reads id
      if c.latch.hardwareBusError then
        if nr = 2 ∨ nr = 3 then cpuHalt else UaeCpu.exception2Fetch h nested (c.regs.ir.setWidth 32) 0 2
      else
        FaultM.update fun c => c.mapRegs fun r => exceptionCheckTrace h.prefs nr (endCompile h.prefs r)
        FaultM.update ce000ResetClock) := by
    refine .bind (hf.getWord _) fun irc => hf.update_bind (fun _ => ⟨rfl, rfl, rfl, id, id, id⟩)
      (.reads_bind fun c => .ite (fun _ => ?_) fun _ => ?_)
    · exact .ite (fun _ => .pure _) fun _ => hf.exception2Fetch hne _ _ _
    · refine hf.update_bind (fun c => ?_) (hf.update resetClock)
      simp only [endCompile, Cpu.mapRegs]
      split <;> exact ⟨rfl, rfl, rfl, fun h => absurd h Bool.false_ne_true,
        fun h => absurd h Bool.false_ne_true, id⟩
  refine .ite (fun _ => hf.update_bind (fun c => ?_) hend) fun _ => hend
  simp only [iplFetchNext, Cpu.mapRegs]
  split
  · exact ⟨rfl, rfl, rfl, id, id, id⟩
  · split <;> exact ⟨rfl, rfl, rfl, id, id, id⟩

end Nested

end Framing

/-! ## What an engine does to the mask -/

/-- The mask behind exception `nr`. -/
def maskAfter (nr : Nat) (m : Level) : Level := if isInterrupt nr then BitVec.ofNat 3 (nr - 24) else m

/-- The exception has set the mask. -/
structure Masked (nr : Nat) (c c' : Cpu μ) : Prop where
  intmask : c'.regs.intmask = maskAfter nr c.regs.intmask
  halted : c'.regs.halted = c.regs.halted
  vbr : c'.regs.vbr = c.regs.vbr

/-- It has set it or left it. -/
structure HalfMasked (nr : Nat) (c c' : Cpu μ) : Prop where
  intmask : c'.regs.intmask = c.regs.intmask ∨ c'.regs.intmask = maskAfter nr c.regs.intmask
  halted : c'.regs.halted = c.regs.halted
  vbr : c'.regs.vbr = c.regs.vbr

section Masks

variable {nr : Nat} {c x y : Cpu μ}

theorem MaskKept.half (h : MaskKept c x) : HalfMasked nr c x := ⟨.inl h.intmask, h.halted, h.vbr⟩

theorem Masked.half (h : Masked nr c x) : HalfMasked nr c x := ⟨.inr h.intmask, h.halted, h.vbr⟩

theorem Masked.trans (h : Masked nr c x) (h' : MaskKept x y) : Masked nr c y :=
  ⟨h'.intmask.trans h.intmask, h'.halted.trans h.halted, h'.vbr.trans h.vbr⟩

theorem HalfMasked.kept (hn : isInterrupt nr = false) (h : HalfMasked nr c x) : MaskKept c x := by
  refine ⟨?_, h.halted, h.vbr⟩
  rcases h.intmask with he | he
  · exact he
  · simpa [maskAfter, hn] using he

theorem MaskKept.masked (hn : isInterrupt nr = false) (h : MaskKept c x) : Masked nr c x :=
  ⟨by simpa [maskAfter, hn] using h.intmask, h.halted, h.vbr⟩

/-- `m`, in the middle of exception `nr` that began in `c`, comes back, and has set the mask if
`ok`. -/
def Masking (nr : Nat) (ok : Prop) (c : Cpu μ) (m : FaultM (Cpu μ) α) (x : Cpu μ) : Prop :=
  Settles m x (fun _ c' => HalfMasked nr c c' ∧ (ok → Masked nr c c')) (HalfMasked nr c)

variable {ok : Prop} {m : FaultM (Cpu μ) α} {f : α → FaultM (Cpu μ) β}

theorem Masking.weaken {ok' : Prop} (h : Masking nr ok c m x) (ho : ok' → ok) :
    Masking nr ok' c m x :=
  Settles.mono h (fun _ _ hh => ⟨hh.1, fun h' => hh.2 (ho h')⟩) fun _ hh => hh

/-- Something that keeps the mask, before it is set. -/
theorem Masking.after (hm : Stays MaskKept m) (hx : MaskKept c x)
    (hf : ∀ a y, MaskKept c y → Masking nr ok c (f a) y) : Masking nr ok c (m >>= f) x := by
  refine Settles.bind (P := fun _ => MaskKept c) ?_ hf
  exact (hm x).mono (fun _ _ h => Trans.trans hx h) fun _ h => MaskKept.half (Trans.trans hx h)

theorem Masking.update {g : Cpu μ → Cpu μ} {f : Unit → FaultM (Cpu μ) β} (hx : MaskKept c x)
    (hg : ∀ y, MaskKept y (g y)) (hf : MaskKept c (g x) → Masking nr ok c (f ()) (g x)) :
    Masking nr ok c (FaultM.update g >>= f) x :=
  settles_update_bind.mpr (hf (Trans.trans hx (hg x)))

theorem Masking.ite {p : Prop} [Decidable p] {m m' : FaultM (Cpu μ) α} (h : p → Masking nr ok c m x)
    (h' : ¬ p → Masking nr ok c m' x) : Masking nr ok c (if p then m else m') x := Settles.ite h h'

theorem Masking.reads {g : Cpu μ → α} (h : Masking nr ok c (f (g x)) x) :
    Masking nr ok c (FaultM.reads g >>= f) x := h

theorem Masking.of_eq {m' : FaultM (Cpu μ) α} (he : m x = m' y) (h : Masking nr ok c m' y) :
    Masking nr ok c m x := by
  simp only [Masking, Settles, he]
  exact h

/-- The same as `after`, with the outcome known to what comes next. -/
theorem Masking.fetch (hm : Stays MaskKept m) (hx : MaskKept c x)
    (hf : ∀ a y, m x = .ret a y → MaskKept c y → Masking nr ok c (f a) y) :
    Masking nr ok c (m >>= f) x := by
  have hk := hm x
  simp only [Settles] at hk
  simp only [Masking, Settles, bind_apply]
  cases hr : m x with
  | ret a y =>
    rw [hr] at hk
    exact hf a y hr (Trans.trans hx hk)
  | thrown e y =>
    rw [hr] at hk
    exact MaskKept.half (Trans.trans hx hk)
  | diverge =>
    rw [hr] at hk
    exact hk.elim

/-- What is left once it is set. -/
theorem Masking.rest (hm : Stays MaskKept m) (hx : Masked nr c x) : Masking nr ok c m x :=
  (hm x).mono (fun _ _ h => ⟨(hx.trans h).half, fun _ => hx.trans h⟩) fun _ h => (hx.trans h).half

/-- A path that does not set it. -/
theorem Masking.skip (hm : Stays MaskKept m) (hx : MaskKept c x) (hok : isInterrupt nr = true → ¬ ok) :
    Masking nr ok c m x := by
  refine (hm x).mono (fun _ y h => ?_) fun _ h => MaskKept.half (Trans.trans hx h)
  have hy : MaskKept c y := Trans.trans hx h
  refine ⟨hy.half, fun ho => ⟨?_, hy.halted, hy.vbr⟩⟩
  cases hi : isInterrupt nr with
  | true => exact absurd ho (hok hi)
  | false => simpa [maskAfter, hi] using hy.intmask

/-- The mask is set, and then the rest. -/
theorem Masking.raise {f : Unit → FaultM (Cpu μ) β} (hx : MaskKept c x)
    (hf : Stays MaskKept (f ())) : Masking nr ok c (if isInterrupt nr = true then
      FaultM.update (fun c => c.mapRegs fun r => { r with intmask := BitVec.ofNat 3 (nr - 24) }) >>= f
      else f ()) x := by
  by_cases hi : isInterrupt nr = true
  · rw [if_pos hi]
    refine settles_update_bind.mpr (Masking.rest hf ⟨?_, hx.halted, hx.vbr⟩)
    simp [maskAfter, hi, Cpu.mapRegs]
  · rw [if_neg hi]
    refine Masking.rest hf ⟨?_, hx.halted, hx.vbr⟩
    simpa [maskAfter, hi] using hx.intmask

/-- Any other exception leaves the mask. -/
theorem Masking.kept {ok' : Prop} (hn : isInterrupt nr = false) (h : Masking nr ok' c m x) :
    Masking nr ok c m x :=
  Settles.mono h (fun _ _ hh => ⟨hh.1, fun _ => (hh.1.kept hn).masked hn⟩) fun _ hh => hh

end Masks

/-- The engines that look at the parity of the stack pointer and of VBR. -/
def Prefs.checksStack (p : Prefs) : Bool :=
  decide (p.cpuModel.num < 68020) && (p.cpuCycleExact || !p.mmuModel)

/-- An MMU engine. -/
def Prefs.mmuEngine (p : Prefs) : Bool :=
  p.mmuModel && !(p.cpuCycleExact && decide (p.cpuModel.num ≤ 68010))

section Engines

variable {h : Host μ} (hc : h.Calm) {nested : Nat → FaultM (Cpu μ) Unit}
  (hne : ∀ n, n = 2 ∨ n = 3 → Stays MaskKept (nested n)) {nr : Nat} {c x : Cpu μ}

/-- The vector the MMU engines fetch. -/
def engineVector (h : Host μ) (nr : Nat) : FaultM (Cpu μ) Long := do
  let vectorNr ← if isInterrupt nr then iackCycle h nr else pure nr
  update fun c => c.makeSR
  update fun c => c.mapRegs (enterSupervisor h.prefs)
  let c ← reads id
  h.port.getLong (vectorAddr c.regs vectorNr)

/-- The vector is even, where it can be fetched. -/
def VectorEven (h : Host μ) (nr : Nat) (c : Cpu μ) : Prop :=
  ∀ newpc c', engineVector h nr c = .ret newpc c' → newpc.getLsbD 0 = false

theorem enterSupervisor_kept (p : Prefs) (c : Cpu μ) :
    MaskKept c (c.mapRegs (enterSupervisor p)) := by
  simp only [enterSupervisor, Cpu.mapRegs]
  split <;> exact ⟨rfl, rfl, rfl⟩

include hc hne

theorem normalVector_masking (vec : Nat) (g1 : Bool) (hx : MaskKept c x) :
    Masking nr (h.prefs.cpuModel.num ≤ 68010 → c.regs.vbr.getLsbD 0 = false) c
      (normalVector h nested nr vec g1) x := by
  refine Masking.reads (Masking.ite (fun hv => ?_) fun hv => Masking.raise hx ?_)
  · refine Masking.skip (.pure _) hx fun _ ho => ?_
    have hev := ho hv.2
    rw [← hx.vbr] at hev
    exact absurd hv.1 (by simpa using hev)
  · refine .bind (hc.getLong _) fun newpc => .update_bind (fun _ => ⟨rfl, rfl, rfl⟩) ?_
    refine .ite (fun _ => .ite (fun _ => .pure _) fun _ => ?_) fun _ => ?_
    · exact .update_bind (fun c => (Framing.xDoCycles _ c).maskKept) (hc.framing.oddVector hne _ _ _ _)
    · refine .bind (hc.framing.addCycles _) fun _ => .update_bind (fun c => ?_) ?_
      · simp only [endCompile, Cpu.mapRegs]
        split <;> exact ⟨rfl, rfl, rfl⟩
      · exact .bind hc.framing.intlev fun ipl => .update_bind (fun _ => ⟨rfl, rfl, rfl⟩)
          (.bind hc.fillPrefetch fun _ => .update fun _ => ⟨rfl, rfl, rfl⟩)

omit hne in
/-- The vector number, and what the rest of the exception sees of the hook that supplies it. -/
theorem vectorNr_answers (nr : Nat) (c : Cpu μ) : ∃ vec c',
    (∀ {β : Type} (f : Nat → FaultM (Cpu μ) β), (if isInterrupt nr = true then iackCycle h nr >>= f
      else pure nr >>= f) c = f vec c') ∧ c'.regs = { c.regs with spc := c'.regs.spc } := by
  by_cases hi : isInterrupt nr = true
  · cases hk : h.intAck with
    | none => exact ⟨nr, c, fun f => by simp [hi, iackCycle, hk], rfl⟩
    | some hook =>
      obtain ⟨v, c', hr, hregs⟩ := hc.intAck hook hk (BitVec.ofNat 3 (nr - 24)) c
      refine ⟨if 0 ≤ v then v.toNat else nr, c', fun f => ?_, hregs⟩
      rw [if_pos hi, iackCycle]
      simp only [hk, bind_apply, hr, pure_apply]
  · exact ⟨nr, c, fun f => by simp [hi], rfl⟩

/-- `Exception_normal`. -/
theorem exceptionNormal_masking : Masking nr ((h.prefs.cpuModel.num < 68020 →
      (entryStack h.prefs c.regs).getLsbD 0 = false) ∧
      (h.prefs.cpuModel.num ≤ 68010 → c.regs.vbr.getLsbD 0 = false)) c
    (exceptionNormal h nested nr) c := by
  obtain ⟨vec, c₁, he, hr⟩ := vectorNr_answers hc nr c
  have h₁ : MaskKept c c₁ := ⟨by rw [hr], by rw [hr], by rw [hr]⟩
  refine Masking.reads (Masking.of_eq (he _) ?_)
  refine Masking.update h₁ (fun _ => ⟨rfl, rfl, rfl⟩) fun h₂ =>
    Masking.update h₂ (enterSupervisor_kept h.prefs) fun h₃ => Masking.reads ?_
  have ha7 : ((c₁.makeSR).mapRegs (enterSupervisor h.prefs)).regs.sp.a7 =
      entryStack h.prefs c.regs :=
    entryStack_congr (show c₁.regs.sp = c.regs.sp by rw [hr]) (show c₁.regs.s = c.regs.s by rw [hr])
      (show c₁.regs.m = c.regs.m by rw [hr])
  refine Masking.ite (fun hodd => ?_) fun _ => Masking.ite (fun hd => ?_) fun _ => ?_
  · rw [id_eq, ha7] at hodd
    have hbad : ∀ {p : Prop}, ((h.prefs.cpuModel.num < 68020 →
        (entryStack h.prefs c.regs).getLsbD 0 = false) ∧ p) → False := fun ho =>
      absurd hodd.1 (by simpa using ho.1 hodd.2)
    refine Masking.skip ?_ h₃ fun _ ho => hbad ho
    exact .ite (fun _ => .pure _) fun _ => hc.framing.exception3Notinstruction hne _ _
  · have hni : isInterrupt nr = false := by
      rcases hd.1 with rfl | rfl <;> rfl
    exact Masking.skip (.pure _) h₃ fun hi => by rw [hni] at hi; cases hi
  · exact Masking.after (hc.framing.normalFrame _ _ _ _) h₃ fun f y hy =>
      Masking.after (hc.framing.finishFrame _ _ f) hy fun _ z hz =>
        (normalVector_masking hc hne _ _ hz).weaken fun ho => ho.2

omit hc hne in
/-- The end of the MMU engines. -/
theorem mmuEnd_masking {newpc : Long} {m m' : FaultM (Cpu μ) Unit} (hx : MaskKept c x)
    (hodd : newpc.getLsbD 0 = true → Stays MaskKept m)
    (heven : Masking nr (newpc.getLsbD 0 = false) c m' x) :
    Masking nr (newpc.getLsbD 0 = false) c (if newpc.getLsbD 0 = true then m else m') x :=
  Masking.ite (fun ho => Masking.skip (hodd ho) hx fun _ he => by rw [he] at ho; cases ho) fun _ => heven

theorem exceptionMmu_masking (oldpc : Long) :
    Masking nr (VectorEven h nr c) c (exceptionMmu h nested nr oldpc) c := by
  have hb := fun a b d n f => hc.framing.buildStackFrame a b d n f
  obtain ⟨vec, c₁, he, hr⟩ := vectorNr_answers hc nr c
  have h₁ : MaskKept c c₁ := ⟨by rw [hr], by rw [hr], by rw [hr]⟩
  refine Masking.reads (Masking.of_eq (he _) ?_)
  refine Masking.update h₁ (fun _ => ⟨rfl, rfl, rfl⟩) fun h₂ =>
    Masking.update h₂ (enterSupervisor_kept h.prefs) fun h₃ => Masking.reads ?_
  have hvec : engineVector h nr c = h.port.getLong
      (vectorAddr ((c₁.makeSR).mapRegs (enterSupervisor h.prefs)).regs vec)
      ((c₁.makeSR).mapRegs (enterSupervisor h.prefs)) := he _
  refine Masking.fetch (hc.getLong _) h₃ fun newpc y hg hy => ?_
  suffices hgo : Masking nr (newpc.getLsbD 0 = false) c _ y from
    Masking.weaken hgo fun ho => ho newpc y (hvec.trans hg)
  extract_lets _ jp
  have hend : Stays MaskKept (do
      h.port.fillPrefetch
      update fun c => c.mapRegs (exceptionCheckTrace h.prefs nr)) :=
    .bind hc.fillPrefetch fun _ => .update fun _ => ⟨rfl, rfl, rfl⟩
  have hjp : ∀ (u : Unit) (z : Cpu μ), MaskKept c z →
      Masking nr (newpc.getLsbD 0 = false) c (jp u) z := fun u z hz =>
    mmuEnd_masking hz
      (fun _ => .ite (fun _ => .pure _) fun _ => hc.framing.exception3f hne _ _ _ _ _ _ _ _ _)
      (Masking.update hz (fun _ => ⟨rfl, rfl, rfl⟩) fun hz' => Masking.raise hz' hend)
  refine Masking.ite (fun _ => Masking.ite (fun _ => ?_) fun _ => ?_) fun _ =>
    Masking.ite (fun _ => ?_) fun _ => Masking.ite (fun _ => ?_) fun _ => ?_
  · exact Masking.after (hb _ _ _ _ _) hy hjp
  · exact Masking.after (hb _ _ _ _ _) hy hjp
  · exact Masking.after (hb _ _ _ _ _) hy fun _ _ hz =>
      Masking.after (hc.physGetLong _) hz fun _ z hz' => hjp () z hz'
  · refine Masking.after (hb _ _ _ _ _) hy fun _ _ hz =>
      Masking.update hz (fun _ => ⟨rfl, rfl, rfl⟩) fun hz' =>
        Masking.update hz' (fun _ => ⟨rfl, rfl, rfl⟩) fun hz'' =>
          Masking.ite (fun _ => ?_) fun _ => hjp () _ hz''
    exact Masking.update hz'' (fun _ => ⟨rfl, rfl, rfl⟩) fun hw => Masking.after (hb _ _ _ _ _) hw hjp
  · exact Masking.after (hc.framing.buildStackFrameCommon _ _ _ _) hy hjp

omit hc hne in
/-- The switch to the supervisor stack as `Exception_mmu030` has it. -/
theorem enterSupervisor_030 {p : Prefs} (hm : p.cpuModel = .m68030) :
    enterSupervisor p = fun r => if r.s then r
      else { r with
        sp := { r.sp with usp := r.sp.a7, a7 := if r.m then r.sp.msp else r.sp.isp }, s := true } := by
  funext r
  simp [enterSupervisor, hm, Model.num]

theorem exceptionMmu030_masking (hm : h.prefs.cpuModel = .m68030) (oldpc : Long) :
    Masking nr (VectorEven h nr c) c (exceptionMmu030 h nested nr oldpc) c := by
  have hb := fun a b d n f => hc.framing.buildStackFrame a b d n f
  obtain ⟨vec, c₁, he, hr⟩ := vectorNr_answers hc nr c
  have h₁ : MaskKept c c₁ := ⟨by rw [hr], by rw [hr], by rw [hr]⟩
  refine Masking.reads (Masking.of_eq (he _) ?_)
  refine Masking.update h₁ (fun _ => ⟨rfl, rfl, rfl⟩) fun h₂ => ?_
  rw [← enterSupervisor_030 hm]
  refine Masking.update h₂ (enterSupervisor_kept h.prefs) fun h₃ => Masking.reads ?_
  have hvec : engineVector h nr c = h.port.getLong
      (vectorAddr ((c₁.makeSR).mapRegs (enterSupervisor h.prefs)).regs vec)
      ((c₁.makeSR).mapRegs (enterSupervisor h.prefs)) := he _
  refine Masking.fetch (hc.getLong _) h₃ fun newpc y hg hy => ?_
  suffices hgo : Masking nr (newpc.getLsbD 0 = false) c _ y from
    Masking.weaken hgo fun ho => ho newpc y (hvec.trans hg)
  extract_lets _ jp
  have hend : Stays MaskKept (do
      update fun c => c.mapRegs fun r => r.setpc newpc
      h.port.fillPrefetch
      update fun c => c.mapRegs (exceptionCheckTrace h.prefs nr)) :=
    .update_bind (fun _ => ⟨rfl, rfl, rfl⟩)
      (.bind hc.fillPrefetch fun _ => .update fun _ => ⟨rfl, rfl, rfl⟩)
  have hjp : ∀ (u : Unit) (z : Cpu μ), MaskKept c z →
      Masking nr (newpc.getLsbD 0 = false) c (jp u) z := fun u z hz =>
    mmuEnd_masking hz
      (fun _ => .ite (fun _ => .pure _) fun _ => hc.framing.exception3f hne _ _ _ _ _ _ _ _ _)
      (Masking.raise hz hend)
  refine Masking.ite (fun _ => ?_) fun _ => Masking.ite (fun _ => ?_) fun _ =>
    Masking.ite (fun _ => ?_) fun _ => ?_
  · exact Masking.after (hb _ _ _ _ _) hy fun _ _ hz =>
      Masking.update hz (fun _ => ⟨rfl, rfl, rfl⟩) fun hz' =>
        Masking.update hz' (fun _ => ⟨rfl, rfl, rfl⟩) fun hw => Masking.after (hb _ _ _ _ _) hw hjp
  · exact Masking.after (hb _ _ _ _ _) hy hjp
  · exact Masking.update hy (fun _ => ⟨rfl, rfl, rfl⟩) fun hz => Masking.after (hb _ _ _ _ _) hz hjp
  · exact Masking.after (hc.framing.buildStackFrameCommon _ _ _ _) hy hjp

theorem ce000Vector_masking (vec : Nat) (g1 : Bool) (hx : MaskKept c x) :
    Masking nr (c.regs.vbr.getLsbD 0 = false) c (ce000Vector h nested nr vec g1) x := by
  refine Masking.reads (Masking.ite (fun hv => ?_) fun hv => Masking.raise hx ?_)
  · refine Masking.skip (.pure _) hx fun _ ho => ?_
    rw [id_eq, hx.vbr, ho] at hv
    cases hv
  · refine .bind (hc.getWord _) fun hi => .bind (hc.getWord _) fun lo =>
      .update_bind (fun _ => ⟨rfl, rfl, rfl⟩) ?_
    refine .ite (fun _ => .ite (fun _ => .pure _) fun _ => hc.framing.oddVector hne _ _ _ _)
      fun _ => ?_
    exact .update_bind (fun _ => ⟨rfl, rfl, rfl⟩) (hc.framing.ce000Prefetch hne nr)

omit hc hne in
theorem getLsbD_zero_sub_even {a d : Long} (hd : d.getLsbD 0 = false) :
    (a - d).getLsbD 0 = a.getLsbD 0 := by
  simp only [BitVec.getLsbD, Nat.testBit_zero, decide_eq_false_iff_not] at *
  rw [BitVec.toNat_sub]
  exact decide_eq_decide.mpr (by omega)

omit hc hne in
/-- Only an odd stack keeps the frame from being built. -/
theorem ce000Frame_built {id : Nat} {pc : Long} (heven : x.regs.sp.a7.getLsbD 0 = false) :
    Ends (ce000Frame h nested nr id pc) x (fun v _ => v ≠ none) fun _ => True := by
  have hsize : (if h.prefs.cpuModel = .m68010 then 8 else 6 : Long).getLsbD 0 = false := by
    split <;> rfl
  have heven' : (x.regs.sp.a7 - if h.prefs.cpuModel = .m68010 then 8 else 6).getLsbD 0 = false :=
    (getLsbD_zero_sub_even hsize).trans heven
  refine ends_update_bind.mpr (ends_reads_bind.mpr (.ite (fun ho => ?_) fun _ => ?_))
  · exact absurd (heven'.symm.trans ho) (by decide)
  · refine ends_update_bind.mpr ((Ends.any _ _).bind fun _ y _ => ?_)
    have hrest : ∀ (vec : Nat) (y : Cpu μ), Ends (do
        let a7 := (x.setA7 (x.regs.sp.a7 - if h.prefs.cpuModel = .m68010 then 8 else 6)).regs.sp.a7
        h.port.putWord a7 x.regs.sr
        h.port.putWord (a7 + 2) (pc.extractLsb' 16 16)
        if h.prefs.cpuModel = .m68010 then
          h.port.putWord (a7 + 6) (BitVec.ofNat 16 (id * 4096) ||| BitVec.ofNat 16 (vec * 4))
        return some vec) y (fun v _ => v ≠ none) fun _ => True := fun vec y =>
      (Ends.any _ _).bind fun _ _ _ => (Ends.any _ _).bind fun _ _ _ => .ite
        (fun _ => (Ends.any _ _).bind fun _ _ _ => nofun) fun _ => nofun
    exact .ite (fun _ => (Ends.any _ _).bind fun vec y _ => hrest vec y) fun _ => hrest nr y

/-- The frame of an interrupt, and the rest of `Exception_ce000` where the stack is even. -/
theorem ce000Frame_masking {id : Nat} {pc : Long} {f : Option Nat → FaultM (Cpu μ) Unit} {g1 : Bool}
    (hsome : ∀ vec, f (some vec) = ce000Vector h nested nr vec g1) (hnone : f none = pure ())
    (hx : MaskKept c x) : Masking nr (x.regs.sp.a7.getLsbD 0 = false ∧
      c.regs.vbr.getLsbD 0 = false) c (ce000Frame h nested nr id pc >>= f) x := by
  refine Masking.fetch (hc.framing.ce000Frame hne nr id pc) hx fun v y hr hy => ?_
  cases v with
  | some vec =>
    rw [hsome]
    exact (ce000Vector_masking hc hne vec g1 hy).weaken fun ho => ho.2
  | none =>
    rw [hnone]
    exact Masking.skip (.pure _) hy fun _ ho => (ce000Frame_built ho.1).of_ret hr rfl

omit hc hne in
/-- The switch to the supervisor stack as `Exception_ce000` has it. -/
theorem enterSupervisor_000 {p : Prefs} (hm : p.cpuModel.num ≤ 68010) :
    enterSupervisor p = fun r => if r.s then r
      else { r with sp := { r.sp with usp := r.sp.a7, a7 := r.sp.isp }, s := true } := by
  funext r
  have h20 : ¬ 68020 ≤ p.cpuModel.num := by omega
  simp [enterSupervisor, h20]

/-- `Exception_ce000`. -/
theorem exceptionCe000_masking (hm : h.prefs.cpuModel.num ≤ 68010) :
    Masking nr ((entryStack h.prefs c.regs).getLsbD 0 = false ∧ c.regs.vbr.getLsbD 0 = false) c
      (exceptionCe000 h nested nr) c := by
  have h₁ : MaskKept c c := ⟨rfl, rfl, rfl⟩
  refine Masking.reads (Masking.update h₁ (fun c => (Framing.xDoCycles _ c).maskKept) fun h₂ =>
    Masking.update h₂ (fun _ => ⟨rfl, rfl, rfl⟩) fun h₃ => Masking.reads ?_)
  rw [← enterSupervisor_000 hm]
  refine Masking.update h₃ (enterSupervisor_kept h.prefs) fun h₄ => Masking.reads ?_
  have ha7 : (((c.xDoCycles h.prefs (ce000Start h.prefs.cpuModel nr * cpuCycleUnit)).makeSR).mapRegs
      (enterSupervisor h.prefs)).regs.sp.a7 = entryStack h.prefs c.regs := by
    have hregs : ∀ n, (c.xDoCycles h.prefs n).regs.sp = c.regs.sp ∧
        (c.xDoCycles h.prefs n).regs.s = c.regs.s ∧ (c.xDoCycles h.prefs n).regs.m = c.regs.m := by
      intro n
      simp only [Cpu.xDoCycles]
      split <;> exact ⟨rfl, rfl, rfl⟩
    exact entryStack_congr (hregs _).1 (hregs _).2.1 (hregs _).2.2
  refine Masking.ite (fun h23 => ?_) fun _ => ?_
  · have hni : isInterrupt nr = false := by
      rcases h23 with rfl | rfl <;> rfl
    refine Masking.ite (fun _ => Masking.skip (.pure _) h₄ fun hi => by rw [hni] at hi; cases hi)
      fun _ => Masking.ite (fun _ => ?_) fun _ => ?_
    · exact Masking.update h₄ (fun _ => ⟨rfl, rfl, rfl⟩) fun h₅ =>
        Masking.update h₅ (fun _ => ⟨rfl, rfl, rfl⟩) fun h₆ =>
          Masking.after (hc.framing.putWordsAt _ _) h₆ fun _ y hy =>
            (ce000Vector_masking hc hne _ _ hy).kept hni
    · exact Masking.update h₄ (fun _ => ⟨rfl, rfl, rfl⟩) fun h₅ =>
        Masking.update h₅ (fun _ => ⟨rfl, rfl, rfl⟩) fun h₆ =>
          Masking.after (hc.framing.putWordsAt _ _) h₆ fun _ y hy =>
            (ce000Frame_masking hc hne (fun _ => rfl) rfl hy).kept hni
  · refine (ce000Frame_masking hc hne (fun _ => rfl) rfl h₄).weaken fun ho => ⟨?_, ho.2⟩
    rw [ha7]
    exact ho.1

/-- An engine sets the mask from this state. -/
structure EngineOk (h : Host μ) (nr : Nat) (c : Cpu μ) : Prop where
  stack : h.prefs.checksStack = true →
    (entryStack h.prefs c.regs).getLsbD 0 = false ∧ c.regs.vbr.getLsbD 0 = false
  vector : h.prefs.mmuEngine = true → VectorEven h nr c

theorem exceptionEngine_masking :
    Masking nr (EngineOk h nr c) c (exceptionEngine h nested nr) c := by
  refine Masking.ite (fun hce => ?_) fun hce => Masking.ite (fun hm => Masking.reads ?_) fun hm => ?_
  · have h20 : h.prefs.cpuModel.num < 68020 := by omega
    exact (exceptionCe000_masking hc hne hce.2).weaken fun ho =>
      ho.stack (by simp [Prefs.checksStack, h20, hce.1])
  · have hmmu : h.prefs.mmuEngine = true := by
      simp only [Prefs.mmuEngine, hm, Bool.true_and, Bool.not_eq_true', Bool.and_eq_false_iff,
        decide_eq_false_iff_not]
      by_cases he : h.prefs.cpuCycleExact = true
      · exact .inr fun hle => hce ⟨he, hle⟩
      · exact .inl (by simpa using he)
    refine Masking.ite (fun h30 => ?_) fun _ => ?_
    · exact (exceptionMmu030_masking hc hne h30 _).weaken fun ho => ho.vector hmmu
    · exact (exceptionMmu_masking hc hne _).weaken fun ho => ho.vector hmmu
  · refine (exceptionNormal_masking hc hne).weaken fun ho => ?_
    have hchk : h.prefs.cpuModel.num < 68020 → h.prefs.checksStack = true := fun h20 => by
      simp [Prefs.checksStack, h20, hm]
    exact ⟨fun h20 => (ho.stack (hchk h20)).1, fun h10 => (ho.stack (hchk (by omega))).2⟩

end Engines

/-! ## A whole exception -/

/-- What `ExceptionX` does before it enters an engine. -/
def beginException (h : Host μ) (nr : Nat) (oldpc : Option Long) : FaultM (Cpu μ) Unit := do
  let c ← reads id
  noteException h nr (if isInterrupt nr then c.regs.pc else oldpc.getD c.regs.instructionPc)
  update fun c' => c'.mapRegs fun r => { r with
    exception := nr, loopMode := 0,
    instructionPcUserException := if r.s then r.instructionPcUserException else c.regs.pc
    instructionPc := oldpc.getD r.instructionPc }
  update fun c => c.mapRegs resumeStopped

/-- The registers an entry is decided by are as they were. -/
structure EntryKept (c c' : Cpu μ) : Prop where
  sp : c'.regs.sp = c.regs.sp
  s : c'.regs.s = c.regs.s
  m : c'.regs.m = c.regs.m
  kept : MaskKept c c'
  ipl0 : c'.regs.ipl.ipl0 = c.regs.ipl.ipl0

section Exception

variable {h : Host μ} (hc : h.Calm) {nested : Nat → FaultM (Cpu μ) Unit} {nr : Nat}
  {oldpc : Option Long} {c c₁ : Cpu μ}

theorem EntryKept.trans {c₂ : Cpu μ} (h : EntryKept c c₁) (h' : EntryKept c₁ c₂) : EntryKept c c₂ :=
  ⟨h'.sp.trans h.sp, h'.s.trans h.s, h'.m.trans h.m, Trans.trans h.kept h'.kept,
    h'.ipl0.trans h.ipl0⟩

theorem EntryKept.stack (hk : EntryKept c c₁) (p : Prefs) :
    entryStack p c₁.regs = entryStack p c.regs := entryStack_congr hk.sp hk.s hk.m

/-- Where a hook or MakeSR changes no more than that. -/
theorem EntryKept.of_regs {spc : SpcFlags} {sr : Word}
    (hr : c₁.regs = { c.regs with spc := spc, sr := sr }) : EntryKept c c₁ := by
  constructor
  · rw [hr]
  · rw [hr]
  · rw [hr]
  · exact ⟨by rw [hr], by rw [hr], by rw [hr]⟩
  · rw [hr]

include hc in
theorem beginException_answers (nr : Nat) (oldpc : Option Long) (c : Cpu μ) :
    ∃ c₁, beginException h nr oldpc c = .ret () c₁ ∧ EntryKept c c₁ := by
  have hresume : ∀ c : Cpu μ, EntryKept c (c.mapRegs resumeStopped) := by
    intro c
    simp only [resumeStopped, Cpu.mapRegs]
    split <;> exact ⟨rfl, rfl, rfl, ⟨rfl, rfl, rfl⟩, rfl⟩
  have hnote : ∀ pc, ∃ c₁, noteException h nr pc c = .ret () c₁ ∧ EntryKept c c₁ := by
    intro pc
    simp only [noteException]
    cases hk : h.exception with
    | none => exact ⟨c, rfl, ⟨rfl, rfl, rfl, ⟨rfl, rfl, rfl⟩, rfl⟩⟩
    | some hook =>
      obtain ⟨_, c₁, hr, hregs⟩ := hc.exception hook hk
        { vector := nr, faultPc := pc, currentPc := c.makeSR.regs.pc, opcode := c.makeSR.regs.opcode
          sr := c.makeSR.regs.sr, interrupt := isInterrupt nr } c.makeSR
      exact ⟨c₁, hr, .of_regs hregs⟩
  obtain ⟨c₁, hn, hk⟩ := hnote (if isInterrupt nr then c.regs.pc else oldpc.getD c.regs.instructionPc)
  have hmid : EntryKept c₁ (c₁.mapRegs fun r => { r with
      exception := nr, loopMode := 0,
      instructionPcUserException := if r.s then r.instructionPcUserException else c.regs.pc
      instructionPc := oldpc.getD r.instructionPc }) := ⟨rfl, rfl, rfl, ⟨rfl, rfl, rfl⟩, rfl⟩
  exact ⟨_, bind_ret hn, hk.trans (hmid.trans (hresume _))⟩

theorem exceptionXBody_apply (hb : beginException h nr oldpc c = .ret () c₁) :
    exceptionXBody h nested nr oldpc c = (do
      exceptionEngine h nested nr
      update fun c => c.mapRegs fun r => { r with exception := 0 }) c₁ := by
  simp only [beginException, reads_bind_apply] at hb
  obtain ⟨_, c₂, hn, hrest⟩ := ret_of_bind hb
  simp only [exceptionXBody, reads_bind_apply]
  rw [bind_ret hn]
  cases hrest
  rfl

/-- Exceptions outside the TRAP range build their frame whatever the host does. -/
theorem exceptionXWith_apply (hn : ¬ (32 ≤ nr ∧ nr < 48)) (c : Cpu μ) :
    exceptionXWith h nested nr oldpc c = exceptionXBody h nested nr oldpc c := by
  simp only [exceptionXWith]
  cases h.trap with
  | none => rfl
  | some hook => simp only [if_neg hn]

/-- An exception sets the mask from this state. -/
structure EntryOk (h : Host μ) (nr : Nat) (c : Cpu μ) : Prop where
  stack : h.prefs.checksStack = true →
    (entryStack h.prefs c.regs).getLsbD 0 = false ∧ c.regs.vbr.getLsbD 0 = false
  vector : h.prefs.mmuEngine = true → ∀ c₁, beginException h nr none c = .ret () c₁ →
    VectorEven h nr c₁

include hc in
theorem exceptionXWith_masking (hne : ∀ n, n = 2 ∨ n = 3 → Stays MaskKept (nested n))
    (hn : ¬ (32 ≤ nr ∧ nr < 48)) (c : Cpu μ) :
    Masking nr (EntryOk h nr c) c (exceptionXWith h nested nr none) c := by
  obtain ⟨c₁, hb, hk⟩ := beginException_answers hc nr none c
  refine Masking.of_eq ((exceptionXWith_apply hn c).trans (exceptionXBody_apply hb)) ?_
  have hm := hk.kept
  refine Settles.bind (P := fun _ c' => HalfMasked nr c c' ∧ (EntryOk h nr c → Masked nr c c')) ?_
    fun _ y hy => ⟨⟨hy.1.intmask, hy.1.halted, hy.1.vbr⟩, fun ho =>
      ⟨(hy.2 ho).intmask, (hy.2 ho).halted, (hy.2 ho).vbr⟩⟩
  have hhalf : ∀ y, HalfMasked nr c₁ y → HalfMasked nr c y := fun y hy =>
    ⟨by rw [← hm.intmask]; exact hy.intmask, hy.halted.trans hm.halted, hy.vbr.trans hm.vbr⟩
  refine Settles.mono (exceptionEngine_masking hc hne) (fun _ y hy => ⟨hhalf y hy.1, fun ho => ?_⟩) hhalf
  have hset : Masked nr c₁ y := hy.2 ⟨fun h₁ => by
    rw [hk.stack, hm.vbr]
    exact ho.stack h₁, fun h₁ => ho.vector h₁ c₁ hb⟩
  exact ⟨by rw [← hm.intmask]; exact hset.intmask, hset.halted.trans hm.halted,
    hset.vbr.trans hm.vbr⟩

include hc in
/-- An address or bus error raised on the way leaves the mask. -/
theorem nested_kept (n : Nat) (hn : n = 2 ∨ n = 3) :
    Stays MaskKept (exceptionXWith h (fun _ => pure ()) n none) := by
  have hni : isInterrupt n = false := by rcases hn with rfl | rfl <;> rfl
  have hnt : ¬ (32 ≤ n ∧ n < 48) := by omega
  exact fun c => (exceptionXWith_masking hc (fun _ _ => .pure ()) hnt c).mono
    (fun _ _ hy => hy.1.kept hni) fun _ hy => hy.kept hni

include hc in
theorem exception_masking (hn : ¬ (32 ≤ nr ∧ nr < 48)) (c : Cpu μ) :
    Masking nr (EntryOk h nr c) c (exception h nr) c :=
  exceptionXWith_masking hc (nested_kept hc) hn c

end Exception

/-! ## Rounds -/

/-- The rounds of `do_interrupt nr` in `c`: the level taken and the state it is taken in. -/
inductive Entries (h : Host μ) (nr : Level) (c : Cpu μ) : Level → Cpu μ → Prop where
  | first : Entries h nr c nr c
  | next {l l' : Level} {c₀ c₁ : Cpu μ} : Entries h nr c l c₀ →
      interruptRound h l c₀ = .ret (some l') c₁ → Entries h nr c l' c₁

/-- A 68000 or 68010 finds its supervisor stack odd. -/
def OddStack (h : Host μ) (c : Cpu μ) : Prop :=
  h.prefs.checksStack = true ∧ (entryStack h.prefs c.regs).getLsbD 0 = true

/-- The entry itself raises an address error: for an odd stack, or an MMU engine's odd vector. -/
def EntryFaults (h : Host μ) (l : Level) (c : Cpu μ) : Prop :=
  OddStack h c ∨ ∃ c₁, beginException h (l.toNat + 24) none c = .ret () c₁ ∧
    ¬ VectorEven h (l.toNat + 24) c₁

/-! Entries are watched through hosts that stop them: at their first get, which is that of the
vector, or where they raise another exception. The codes are none that a memory throws. -/

def stopCode (addr : Long) : Int := -1 - (addr.toNat : Int)

def nestedCode (nr : Nat) : Int := -2 ^ 32 - 1 - (nr : Int)

def Host.stopAtGet (h : Host μ) : Host μ :=
  { h with port := { h.port with
    getLong := fun a => throwCode (stopCode a), getWord := fun a => throwCode (stopCode a) } }

/-- The entry to exception `nr` in `c` comes to fetch its vector, from `addr`, in `y`. -/
def ComesToVector (h : Host μ) (nr : Nat) (c : Cpu μ) (addr : Long) (y : Cpu μ) : Prop :=
  exceptionXWith h.stopAtGet (fun _ => pure ()) nr none c = .thrown (stopCode addr) y

/-- The exceptions entered on the way to taking level `l` in `c₀`: the interrupt, and what an entry
raises itself. -/
inductive EntryMade (h : Host μ) (l : Level) (c₀ : Cpu μ) : Nat → Cpu μ → Prop
  | interrupt : EntryMade h l c₀ (l.toNat + 24) c₀
  | nested {nr n : Nat} {c y : Cpu μ} : EntryMade h l c₀ nr c →
      exceptionXWith h (fun n => throwCode (nestedCode n)) nr none c = .thrown (nestedCode n) y →
      EntryMade h l c₀ n y

/-- The fetch of a vector: two words in `Exception_ce000`. -/
def vectorFetch (h : Host μ) (addr : Long) : FaultM (Cpu μ) Long :=
  if h.prefs.cpuCycleExact ∧ h.prefs.cpuModel.num ≤ 68010 then do
    let hi ← h.port.getWord addr
    let lo ← h.port.getWord (addr + 2)
    return hi ++ lo
  else h.port.getLong addr

/-- An access faults: it throws, or it leaves `hardware_bus_error` set. -/
def Faults (m : FaultM (Cpu μ) Long) (c : Cpu μ) : Prop :=
  (∃ e c', m c = .thrown e c') ∨
    c.latch.hardwareBusError = false ∧ ∃ v c', m c = .ret v c' ∧ c'.latch.hardwareBusError = true

/-- An entry on the way to taking level `l` in `c` faults on the fetch of its vector. -/
def FetchFaults (h : Host μ) (l : Level) (c : Cpu μ) : Prop :=
  ∃ nr c₁ addr y, EntryMade h l c nr c₁ ∧ ComesToVector h nr c₁ addr y ∧
    Faults (vectorFetch h addr) y

/-- However the round ends. -/
def EndsIn (m : FaultM (Cpu μ) α) (c c' : Cpu μ) : Prop :=
  (∃ a, m c = .ret a c') ∨ ∃ e, m c = .thrown e c'

/-- Interrupt service as it should be: the call comes back, the mask is then the level taken last,
unless its entry faulted or halted the CPU, and an entry that cannot stack anything or cannot fetch
a vector halts it. -/
structure InterruptServed (h : Host μ) (nr : Level) (c : Cpu μ) : Prop where
  returns : ∃ fuel, doInterrupt h fuel nr c ≠ .diverge
  masked : ∀ l c₀ c₁ c₂, Entries h nr c l c₀ → interruptRound h l c₀ = .ret none c₁ →
    doint h c₁ = .ret () c₂ → c₂.regs.intmask = l ∨ EntryFaults h l c₀ ∨ c₂.regs.halted ≠ 0
  halts : ∀ l c₀ c₁, Entries h nr c l c₀ → OddStack h c₀ →
    exception h (l.toNat + 24) c₀ = .ret () c₁ → c₁.regs.halted ≠ 0
  fetchHalts : ∀ l c₀ c₁, Entries h nr c l c₀ → FetchFaults h l c₀ →
    EndsIn (exception h (l.toNat + 24)) c₀ c₁ → c₁.regs.halted ≠ 0

/-- The condition on a round: an even stack and VBR where the engine checks them, in an MMU engine
that will look for more an even vector, and no fault on a vector. -/
structure RoundOk (h : Host μ) (l : Level) (c : Cpu μ) : Prop where
  stack : h.prefs.checksStack = true →
    (entryStack h.prefs c.regs).getLsbD 0 = false ∧ c.regs.vbr.getLsbD 0 = false
  vector : h.prefs.cpuCompatible = true → h.prefs.cpuModel ≠ .m68060 → h.prefs.mmuEngine = true →
    ∀ c₁, beginException h (l.toNat + 24) none c = .ret () c₁ → VectorEven h (l.toNat + 24) c₁
  fetch : ¬ FetchFaults h l c

section Rounds

variable {h : Host μ} (hc : h.Calm) {nr l l' : Level} {c c₀ c₁ : Cpu μ}

theorem Entries.cons (hr : interruptRound h nr c = .ret (some l) c₁) (he : Entries h l c₁ l' c₀) :
    Entries h nr c l' c₀ := by
  induction he with
  | first => exact .next .first hr
  | next _ hl ih => exact .next ih hl

theorem maskAfter_level (l m : Level) : maskAfter (l.toNat + 24) m = l := by
  simp [maskAfter, isInterrupt_level]

theorem level_not_trap (l : Level) : ¬ (32 ≤ l.toNat + 24 ∧ l.toNat + 24 < 48) := by
  have := l.isLt
  omega

/-- The loop looks for another level. -/
def Prefs.serviceLoops (p : Prefs) : Bool := p.cpuCompatible && p.cpuModel != .m68060

/-- The level with which the loop goes on. -/
def nextLevel (h : Host μ) : FaultM (Cpu μ) Level :=
  if h.prefs.interruptDelay then reads (·.regs.ipl.ipl0) else intlev h

theorem interruptRound_apply (hr : exception h (nr.toNat + 24) c = .ret () c₁) :
    interruptRound h nr c = if h.prefs.serviceLoops then (do
      let nr ← nextLevel h
      let mask ← reads (·.regs.intmask)
      return if nr = 0 ∨ nr ≤ mask then none else some nr) c₁
    else .ret none c₁ := by
  have hloops : ((!h.prefs.cpuCompatible) = true ∨ h.prefs.cpuModel = .m68060) ↔
      ¬ h.prefs.serviceLoops = true := by
    cases hcc : h.prefs.cpuCompatible <;> simp [Prefs.serviceLoops, hcc]
  rw [interruptRound, bind_ret hr]
  by_cases hl : h.prefs.serviceLoops = true
  · rw [if_neg fun hn => hloops.mp hn hl, if_pos hl, nextLevel]
    by_cases hd : h.prefs.interruptDelay = true
    · rw [if_pos hd, if_pos hd]
    · rw [if_neg hd, if_neg hd]
  · rw [if_pos (hloops.mpr hl), if_neg hl]
    rfl

include hc

theorem nextLevel_answers (c : Cpu μ) : ∃ l c', nextLevel h c = .ret l c' ∧ EntryKept c c' := by
  rw [nextLevel]
  split
  · exact ⟨_, c, rfl, ⟨rfl, rfl, rfl, ⟨rfl, rfl, rfl⟩, rfl⟩⟩
  · rw [intlev]
    cases hk : h.getIrq with
    | none => exact ⟨_, c, rfl, ⟨rfl, rfl, rfl, ⟨rfl, rfl, rfl⟩, rfl⟩⟩
    | some hook =>
      obtain ⟨v, c', hr, hregs⟩ := hc.getIrq hook hk c
      exact ⟨_, c', bind_ret hr, .of_regs hregs⟩

/-- What a round comes to. -/
theorem interruptRound_settles (nr : Level) (c : Cpu μ) : Settles (interruptRound h nr) c
    (fun o c' => c'.regs.halted = c.regs.halted ∧ (EntryOk h (nr.toNat + 24) c → c'.regs.intmask = nr) ∧
      ∀ l, o = some l → h.prefs.serviceLoops = true ∧ c'.regs.intmask < l)
    (fun c' => c'.regs.halted = c.regs.halted) := by
  have hexc := exception_masking hc (level_not_trap nr) c
  simp only [Masking, Settles] at hexc
  cases hr : exception h (nr.toNat + 24) c with
  | ret u c₁ =>
    rw [hr] at hexc
    have hmask : EntryOk h (nr.toNat + 24) c → c₁.regs.intmask = nr := fun ho => by
      rw [(hexc.2 ho).intmask, maskAfter_level]
    simp only [Settles, interruptRound_apply hr]
    by_cases hl : h.prefs.serviceLoops = true
    · obtain ⟨l, c₂, hn, hk⟩ := nextLevel_answers hc c₁
      rw [if_pos hl, bind_ret hn]
      refine ⟨hk.kept.halted.trans hexc.1.halted, fun ho => hk.kept.intmask.trans (hmask ho), ?_⟩
      intro l' he
      dsimp only at he
      split at he
      · cases he
      · next hgo =>
        obtain rfl := Option.some.inj he
        exact ⟨hl, BitVec.not_le.mp fun hle => hgo (.inr hle)⟩
    · rw [if_neg hl]
      exact ⟨hexc.1.halted, hmask, nofun⟩
  | thrown e c₁ =>
    rw [hr] at hexc
    simp only [Settles, interruptRound, bind_thrown hr]
    exact hexc.halted
  | diverge =>
    rw [hr] at hexc
    exact hexc.elim

omit hc in
theorem RoundOk.entryOk (ho : RoundOk h l c) (hl : h.prefs.serviceLoops = true) :
    EntryOk h (l.toNat + 24) c := by
  simp only [Prefs.serviceLoops, Bool.and_eq_true, bne_iff_ne, ne_eq] at hl
  exact ⟨ho.stack, ho.vector hl.1 hl.2⟩

/-- The mask rises with every round, so a level above it leaves room for seven at most. -/
theorem interruptLoop_returns : ∀ (fuel : Nat) (nr : Level) (c : Cpu μ), 8 ≤ fuel + nr.toNat →
    (∀ l c₀, Entries h nr c l c₀ → RoundOk h l c₀) → interruptLoop h fuel nr c ≠ .diverge
  | 0, nr, c, hf, _ => by
    have := nr.isLt
    omega
  | fuel + 1, nr, c, hf, hok => by
    have hset := interruptRound_settles hc nr c
    cases hr : interruptRound h nr c with
    | ret o c₁ =>
      simp only [Settles, hr] at hset
      rw [interruptLoop, bind_ret hr]
      cases o with
      | none =>
        intro h
        cases h
      | some l =>
        obtain ⟨hl, hlt⟩ := hset.2.2 l rfl
        rw [hset.2.1 ((hok nr c .first).entryOk hl)] at hlt
        have hlt' : nr.toNat < l.toNat := hlt
        exact interruptLoop_returns fuel l c₁ (by omega)
          fun l' c₀ he => hok l' c₀ (he.cons hr)
    | thrown e c₁ =>
      rw [interruptLoop, bind_thrown hr]
      intro h
      cases h
    | diverge =>
      simp only [Settles, hr] at hset

/-- Where every round finds its condition met, interrupt service does what it should. -/
theorem doInterrupt_serviced (hok : ∀ l c₀, Entries h nr c l c₀ → RoundOk h l c₀) :
    InterruptServed h nr c := by
  refine ⟨⟨8, ?_⟩, fun l c₀ c₁ c₂ he hr hd => ?_, fun l c₀ c₁ he ho => ?_,
    fun l c₀ c₁ he hf => absurd hf (hok l c₀ he).fetch⟩
  · have hloop := interruptLoop_returns hc 8 nr c (by omega) hok
    rw [doInterrupt, bind_apply]
    cases hr : interruptLoop h 8 nr c with
    | ret u c₁ =>
      have hd := hc.framing.doint c₁
      intro hdiv
      simp only [Settles, hdiv] at hd
    | thrown e c₁ =>
      intro h
      cases h
    | diverge => exact absurd hr hloop
  · have hset := interruptRound_settles hc l c₀
    have hkept := hc.framing.doint c₁
    simp only [Settles, hr] at hset
    simp only [Settles, hd] at hkept
    by_cases hv : h.prefs.mmuEngine = true → ∀ c₁,
        beginException h (l.toNat + 24) none c₀ = .ret () c₁ → VectorEven h (l.toNat + 24) c₁
    · exact .inl (hkept.intmask.trans (hset.2.1 ⟨(hok l c₀ he).stack, hv⟩))
    · simp only [not_forall] at hv
      obtain ⟨-, c', hb, hne⟩ := hv
      exact .inr (.inl (.inr ⟨c', hb, hne⟩))
  · exact absurd (((hok l c₀ he).stack ho.1).1.symm.trans ho.2) Bool.false_ne_true

end Rounds

/-! ## An odd supervisor stack -/

/-- The CPU is left with an odd stack and everything the loop looks at as it was. -/
structure StuckOdd (h : Host μ) (c c' : Cpu μ) : Prop where
  odd : (entryStack h.prefs c'.regs).getLsbD 0 = true
  kept : MaskKept c c'
  ipl0 : c'.regs.ipl.ipl0 = c.regs.ipl.ipl0

section OddStack

variable {h : Host μ} (hc : h.Calm) {nested : Nat → FaultM (Cpu μ) Unit} {nr : Nat}
  {c x : Cpu μ}

theorem StuckOdd.trans {y : Cpu μ} (h₁ : StuckOdd h c x) (h₂ : StuckOdd h x y) : StuckOdd h c y :=
  ⟨h₂.odd, Trans.trans h₁.kept h₂.kept, h₂.ipl0.trans h₁.ipl0⟩

/-- Once it runs on the supervisor stack, an exception goes to the stack it is on. -/
theorem entryStack_entered {r : Regs} (p : Prefs) (hs : r.s = true) : entryStack p r = r.sp.a7 := by
  simp [entryStack, enterSupervisor, hs]

theorem enterSupervisor_s (p : Prefs) (r : Regs) : (enterSupervisor p r).s = true := by
  cases hs : r.s <;> simp [enterSupervisor, hs]

/-- What the engine tests. -/
theorem entered_odd (hk : EntryKept c x) (hodd : (entryStack h.prefs c.regs).getLsbD 0 = true) :
    (x.mapRegs (enterSupervisor h.prefs)).regs.sp.a7.getLsbD 0 = true := by
  rw [← hodd, ← hk.stack]
  rfl

/-- Behind the switch of stacks. -/
theorem StuckOdd.entered (hk : EntryKept c x) (hodd : (entryStack h.prefs c.regs).getLsbD 0 = true) :
    StuckOdd h c (x.mapRegs (enterSupervisor h.prefs)) := by
  refine ⟨?_, Trans.trans hk.kept (enterSupervisor_kept h.prefs x), ?_⟩
  · have hs := enterSupervisor_s h.prefs x.regs
    rw [← hodd, ← hk.stack]
    exact congrArg (BitVec.getLsbD · 0) (entryStack_entered _ hs)
  · have hi : (enterSupervisor h.prefs x.regs).ipl = x.regs.ipl := by
      cases hs : x.regs.s <;> simp [enterSupervisor, hs]
    exact (congrArg IplState.ipl0 hi).trans hk.ipl0

/-- An address error finds the stack odd as well, and `cpu_halt` does nothing. -/
def HaltsInVain (h : Host μ) (nested : Nat → FaultM (Cpu μ) Unit) : Prop :=
  ∀ x, (entryStack h.prefs x.regs).getLsbD 0 = true → Returns (nested 3) x fun _ y => StuckOdd h x y

theorem exception3Notinstruction_odd (hn : HaltsInVain h nested) (op addr : Long)
    (hx : StuckOdd h c x) :
    Returns (exception3Notinstruction h nested op addr) x fun _ y => StuckOdd h c y :=
  returns_update_bind.mpr (returns_update_bind.mpr (Returns.mono (hn _ hx.odd) fun _ _ hy =>
    hx.trans ⟨hy.odd, ⟨hy.kept.intmask, hy.kept.halted, hy.kept.vbr⟩, hy.ipl0⟩))

include hc

theorem exceptionNormal_odd (hm : h.prefs.cpuModel.num < 68020)
    (hn : ¬ (nr = 2 ∨ nr = 3) → HaltsInVain h nested)
    (hodd : (entryStack h.prefs c.regs).getLsbD 0 = true) :
    Returns (exceptionNormal h nested nr) c fun _ y => StuckOdd h c y := by
  obtain ⟨vec, c₁, he, hr⟩ := vectorNr_answers hc nr c
  refine returns_reads_bind.mpr (.of_apply_eq (he _) ?_)
  have hk : EntryKept c c₁.makeSR := .trans (.of_regs hr) (.of_regs rfl)
  have hx := StuckOdd.entered hk hodd
  have ha7 := entered_odd hk hodd
  refine returns_update_bind.mpr (returns_update_bind.mpr (returns_reads_bind.mpr ?_))
  rw [if_pos ⟨ha7, hm⟩]
  by_cases h23 : nr = 2 ∨ nr = 3
  · rw [if_pos h23]
    exact returns_pure.mpr hx
  · rw [if_neg h23]
    exact exception3Notinstruction_odd (hn h23) _ _ hx

omit hc in
theorem xDoCycles_kept (p : Prefs) (n : Int) (c : Cpu μ) : EntryKept c (c.xDoCycles p n) := by
  simp only [Cpu.xDoCycles]
  split <;> exact ⟨rfl, rfl, rfl, ⟨rfl, rfl, rfl⟩, rfl⟩

omit hc in
theorem ce000Frame_odd {id : Nat} {pc : Long} (hn : HaltsInVain h nested) (hx : StuckOdd h c x)
    (hs : x.regs.s = true) : Returns (ce000Frame h nested nr id pc) x fun v y =>
      v = none ∧ StuckOdd h c y := by
  have hsize : (if h.prefs.cpuModel = .m68010 then 8 else 6 : Long).getLsbD 0 = false := by
    split <;> rfl
  generalize hz : x.setA7 (x.regs.sp.a7 - if h.prefs.cpuModel = .m68010 then 8 else 6) = z
  have hodd : z.regs.sp.a7.getLsbD 0 = true := by
    have hxo := hx.odd
    rw [entryStack_entered _ hs] at hxo
    rw [← hz, ← hxo]
    exact getLsbD_zero_sub_even hsize
  have hsz : StuckOdd h c z := by
    refine hx.trans ⟨?_, ?_, ?_⟩
    · rw [entryStack_entered _ (by rw [← hz]; exact hs), hodd]
    · rw [← hz]
      exact ⟨rfl, rfl, rfl⟩
    · rw [← hz]
      rfl
  refine returns_update_bind.mpr (returns_reads_bind.mpr ?_)
  rw [hz]
  simp only [id_eq]
  rw [if_pos hodd]
  exact (exception3Notinstruction_odd hn _ _ hsz).bind fun _ y hy => returns_pure.mpr ⟨rfl, hy⟩

omit hc in
theorem exceptionCe000_odd (hm : h.prefs.cpuModel.num ≤ 68010)
    (hn : ¬ (nr = 2 ∨ nr = 3) → HaltsInVain h nested)
    (hodd : (entryStack h.prefs c.regs).getLsbD 0 = true) :
    Returns (exceptionCe000 h nested nr) c fun _ y => StuckOdd h c y := by
  refine returns_reads_bind.mpr (returns_update_bind.mpr (returns_update_bind.mpr
    (returns_reads_bind.mpr ?_)))
  rw [← enterSupervisor_000 hm]
  have hk : EntryKept c (c.xDoCycles h.prefs (ce000Start h.prefs.cpuModel nr * cpuCycleUnit)).makeSR :=
    .trans (xDoCycles_kept _ _ c) (.of_regs rfl)
  generalize (c.xDoCycles h.prefs (ce000Start h.prefs.cpuModel nr * cpuCycleUnit)).makeSR = x at hk
  have hx := StuckOdd.entered hk hodd
  have ha7 := entered_odd hk hodd
  refine returns_update_bind.mpr (returns_reads_bind.mpr ?_)
  by_cases h23 : nr = 2 ∨ nr = 3
  · rw [if_pos h23, if_pos (.inl ha7)]
    exact returns_pure.mpr hx
  · rw [if_neg h23]
    exact (ce000Frame_odd (hn h23) hx (enterSupervisor_s _ _)).bind fun v y hy => by
      rw [hy.1]
      exact returns_pure.mpr hy.2

theorem exceptionEngine_odd (ho : OddStack h c) (hn : ¬ (nr = 2 ∨ nr = 3) → HaltsInVain h nested) :
    Returns (exceptionEngine h nested nr) c fun _ y => StuckOdd h c y := by
  obtain ⟨hchk, hodd⟩ := ho
  simp only [Prefs.checksStack, Bool.and_eq_true, Bool.or_eq_true, Bool.not_eq_true',
    decide_eq_true_eq] at hchk
  rw [exceptionEngine]
  by_cases hce : h.prefs.cpuCycleExact = true ∧ h.prefs.cpuModel.num ≤ 68010
  · rw [if_pos hce]
    exact exceptionCe000_odd hce.2 hn hodd
  · have h10 : h.prefs.cpuModel.num ≤ 68010 := by
      have h20 := hchk.1
      cases hm : h.prefs.cpuModel <;> simp_all [Model.num]
    have hmmu : ¬ h.prefs.mmuModel = true := by
      rcases hchk.2 with he | he
      · exact absurd ⟨he, h10⟩ hce
      · simp [he]
    rw [if_neg hce, if_neg hmmu]
    exact exceptionNormal_odd hc hchk.1 hn hodd

/-- Two nested address errors end in `cpu_halt`, which leaves everything as it was. -/
theorem exceptionX_odd (hn : ¬ (nr = 2 ∨ nr = 3) → HaltsInVain h nested)
    (hnt : ¬ (32 ≤ nr ∧ nr < 48)) (ho : OddStack h c) :
    Returns (exceptionXWith h nested nr none) c fun _ y => StuckOdd h c y := by
  obtain ⟨c₁, hb, hk⟩ := beginException_answers hc nr none c
  refine .of_apply_eq ((exceptionXWith_apply hnt c).trans (exceptionXBody_apply hb)) ?_
  have ho₁ : OddStack h c₁ := ⟨ho.1, by rw [hk.stack]; exact ho.2⟩
  refine (exceptionEngine_odd hc ho₁ hn).bind fun _ y hy => returns_update.mpr ?_
  have hx : StuckOdd h c c₁ := ⟨ho₁.2, hk.kept, hk.ipl0⟩
  have hodd : entryStack h.prefs { y.regs with exception := 0 } = entryStack h.prefs y.regs :=
    entryStack_congr rfl rfl rfl
  exact hx.trans ⟨(congrArg (BitVec.getLsbD · 0) hodd).trans hy.odd,
    ⟨hy.kept.intmask, hy.kept.halted, hy.kept.vbr⟩, hy.ipl0⟩

theorem exception_odd (l : Level) (ho : OddStack h c) :
    Returns (exception h (l.toNat + 24)) c fun _ y => StuckOdd h c y :=
  exceptionX_odd hc (fun _ _ hodd => exceptionX_odd hc (fun h23 => absurd (.inr rfl) h23) (by omega)
    ⟨ho.1, hodd⟩) (level_not_trap l) ho

/-- With an odd supervisor stack a prefetching 68000 or 68010 never leaves the loop once the level
it looks at is above the mask. -/
theorem interruptLoop_never_ends (hl : h.prefs.serviceLoops = true)
    (hd : h.prefs.interruptDelay = true) : ∀ (fuel : Nat) (nr : Level) (c : Cpu μ), OddStack h c →
      c.regs.intmask < c.regs.ipl.ipl0 → interruptLoop h fuel nr c = .diverge
  | 0, _, _, _, _ => rfl
  | fuel + 1, nr, c, ho, hlt => by
    obtain ⟨_, c₁, hr, hs⟩ := exception_odd hc nr ho
    rw [← hs.kept.intmask, ← hs.ipl0] at hlt
    have hround : interruptRound h nr c = .ret (some c₁.regs.ipl.ipl0) c₁ := by
      rw [interruptRound_apply hr, if_pos hl, nextLevel, if_pos hd, reads_bind_apply,
        reads_bind_apply, if_neg]
      · rfl
      · rintro (h0 | hle)
        · rw [h0] at hlt
          exact absurd hlt (by simp)
        · exact absurd hlt (BitVec.not_lt.mpr hle)
    rw [interruptLoop, bind_ret hround]
    exact interruptLoop_never_ends hl hd fuel _ c₁ ⟨ho.1, hs.odd⟩ hlt

end OddStack

/-- A prefetching 68000 that has lowered its mask, with a level 6 request fetched. -/
def requestedAt (ssp : Long) : Cpu (Long → Byte) :=
  (Cpu.reset { Prefs.plain .m68000 with cpuCompatible := true } ssp 0x400 fun _ => 0).mapRegs fun r =>
    { r with intmask := 0, ipl := { r.ipl with ipl0 := 6, pin := 6 } }

/-- With its stack pointer at `$1001` it is never out of `do_interrupt` again. -/
theorem oddStack_never_serviced : ¬ ∃ fuel,
    doInterrupt (Host.ram { Prefs.plain .m68000 with cpuCompatible := true } Mem.ofFun fun _ => opNop)
      fuel 6 (requestedAt 0x1001) ≠ .diverge := by
  rintro ⟨fuel, hne⟩
  refine hne ?_
  have hl := interruptLoop_never_ends (c := requestedAt 0x1001) (h := Host.ram
    { Prefs.plain .m68000 with cpuCompatible := true } Mem.ofFun fun _ => opNop) ram_calm rfl rfl
    fuel 6 ⟨rfl, rfl⟩ (by decide)
  rw [doInterrupt, bind_apply, hl]

theorem ram_fetch {p : Prefs} {M : Mem.ByteMem μ} {tbl : Word → FaultM (Cpu μ) Long} (l : Level)
    (c : Cpu μ) : ¬ FetchFaults (Host.ram p M tbl) l c := by
  rintro ⟨nr, c₁, addr, y, -, -, ⟨e, c', hf⟩ | ⟨hclear, v, c', hf, hset⟩⟩
  · unfold vectorFetch at hf
    split at hf <;> cases hf
  · unfold vectorFetch at hf
    split at hf
    all_goals
      cases hf
      rw [hclear] at hset
      cases hset

/-- A round that ends the service is the only one. -/
theorem entries_single {h : Host μ} {nr : Level} {c : Cpu μ}
    (hend : (interruptRound h nr c).result = some (.ok none)) {l : Level} {c₀ : Cpu μ}
    (he : Entries h nr c l c₀) : l = nr ∧ c₀ = c := by
  induction he with
  | first => exact ⟨rfl, rfl⟩
  | next _ hr ih =>
    obtain ⟨rfl, rfl⟩ := ih
    rw [hr] at hend
    cases hend

/-- The same 68000 with its stack at `$1000`, and a 68030 with its MMU on and an even vector. -/
theorem doInterrupt_serviced_even :
    InterruptServed (Host.ram { Prefs.plain .m68000 with cpuCompatible := true } Mem.ofFun
      fun _ => opNop) 6 (requestedAt 0x1000) ∧
    InterruptServed (Host.ram { Prefs.plain .m68030 with cpuCompatible := true, mmuModel := true }
      Mem.ofFun fun _ => opNop) 6 (requestedAt 0x1000) := by
  refine ⟨doInterrupt_serviced ram_calm fun l c₀ he => ?_,
    doInterrupt_serviced ram_calm fun l c₀ he => ?_⟩
  · obtain ⟨rfl, rfl⟩ := entries_single rfl he
    refine ⟨fun _ => ⟨by decide, by decide⟩, fun _ _ hm => ?_, ram_fetch _ _⟩
    cases hm
  · obtain ⟨rfl, rfl⟩ := entries_single rfl he
    refine ⟨fun hm => ?_, fun _ _ _ c₁ hb newpc c' hv => ?_, ram_fetch _ _⟩
    · cases hm
    · cases hb
      cases hv
      decide

end UaeCpu
