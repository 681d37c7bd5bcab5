import UaeCpu.System
import UaeCpu.Ram

/-!
# UaeCpu.Simulation

Exception processing as runs of the transition system.

* `Moves h P c c'` — inside any stack of calls that satisfies `P`, the system can go from `c`
                     to `c'` and back to the same stack.
* `Host.Parts`     — the hooks, handlers and access functions of a host do what the system
                     lets them do.
* `exception_moves` — and then so does every exception.
-/

namespace UaeCpu

open Fault FaultM Trans

variable {μ : Type} {h : Host μ}

/-! ## Runs between stacks of calls -/

/-- `g_execute_depth` counts the calls in progress. -/
def Sys.Nested (s : Sys μ) : Prop := s.calls.length = s.cpu.executeDepth

theorem jitBlock_depth (n : Nat) (c : Cpu μ) : (c.jitBlock n).executeDepth = c.executeDepth := by
  simp only [Cpu.jitBlock]
  split <;> rfl

theorem promote_depth (spc : SpcFlags) (c : Cpu μ) :
    (c.promote spc).executeDepth = c.executeDepth := by
  simp only [Cpu.promote]
  split <;> rfl

theorem setIrq_depth (l : Long) (c : Cpu μ) : (setIrq l c).executeDepth = c.executeDepth := by
  simp only [setIrq]
  split <;> rfl

theorem setVirq_depth (l : Long) (a : Bool) (c : Cpu μ) :
    (setVirq l a c).executeDepth = c.executeDepth := by
  simp only [setVirq]
  split <;> split <;> rfl

theorem enterRun_depth (c : Cpu μ) : (enterRun h c).executeDepth = c.executeDepth + 1 := by
  simp only [enterRun]
  split <;> rfl

theorem close_depth (k : CallKind) (c : Cpu μ) :
    (k.close c).executeDepth = c.executeDepth - 1 := by
  cases k <;> rfl

theorem CallStep.depth {k k' : Call} {s : Sys μ} {e : Event} {c' : Cpu μ} {w : Option Nat}
    (hs : CallStep h k s e k' c' w) : c'.executeDepth = s.cpu.executeDepth := by
  cases hs <;> first | rfl | exact promote_depth _ _

theorem Step.nested {s s' : Sys μ} {e : Event} (hn : s.Nested) (hs : Step h s e s') :
    s'.Nested := by
  simp only [Sys.Nested] at *
  cases hs with
  | quiet hin hq => exact hn.trans hq.depth.symm
  | ticks n hin => exact hn
  | exactTicks n hin he => exact hn
  | resetClock hin he hp => exact hn
  | block n hin ha h0 hn' => exact hn.trans (jitBlock_depth n _).symm
  | writeSR k v hin => exact hn
  | setIrq l hin => exact hn.trans (setIrq_depth l _).symm
  | setVirq l a hin => exact hn.trans (setVirq_depth l a _).symm
  | endTimeslice hin => exact hn
  | raiseMask hc => exact hn
  | enterRun cycles hin hj => rw [enterRun_depth]; simpa using hn
  | enterJit cycles hc hj =>
    rw [hc] at hn
    simp only [Cpu.jitStart, enterRun_depth, ← hn]
    rfl
  | enterStep hin => simpa using hn
  | call hc hk => rw [hc] at hn; rw [hk.depth]; exact hn
  | leave hc =>
    rw [hc] at hn
    rw [close_depth, ← hn]
    rfl

/-- From the calls `k` with CPU `c`, some run ends with calls in `K` and CPU `c'`. -/
def Sim (h : Host μ) (k : List Call) (K : List Call → Prop) (c c' : Cpu μ) : Prop :=
  ∀ s : Sys μ, s.cpu = c → s.calls = k → s.Nested →
    ∃ es s', Run (Step h) s es s' ∧ s'.cpu = c' ∧ K s'.calls

theorem Run.nested {s s' : Sys μ} {es : List Event} (hr : Run (Step h) s es s') (hn : s.Nested) :
    s'.Nested := hr.invariant hn Step.nested

theorem Sim.refl {k : List Call} {K : List Call → Prop} (hk : K k) (c : Cpu μ) :
    Sim h k K c c :=
  fun s hc hs _ => ⟨[], s, .nil, hc, hs ▸ hk⟩

theorem Sim.trans {k : List Call} {K K' : List Call → Prop} {c c₁ c₂ : Cpu μ}
    (h₁ : Sim h k K c c₁) (h₂ : ∀ k₁, K k₁ → Sim h k₁ K' c₁ c₂) : Sim h k K' c c₂ := by
  intro s hc hs hn
  obtain ⟨es, s₁, hr, hc₁, hk₁⟩ := h₁ s hc hs hn
  obtain ⟨es', s₂, hr', hc₂, hk₂⟩ := h₂ _ hk₁ s₁ hc₁ rfl (Run.nested hr hn)
  exact ⟨es ++ es', s₂, hr.append hr', hc₂, hk₂⟩

theorem Sim.mono {k : List Call} {K K' : List Call → Prop} {c c' : Cpu μ} (hs : Sim h k K c c')
    (hK : ∀ k', K k' → K' k') : Sim h k K' c c' :=
  hs.trans fun k₁ hk => .refl (hK k₁ hk) c'

/-- A step of the innermost call. -/
theorem Sim.call (e : Event) {k : Call} (k' : Call) {rest : List Call} {K : List Call → Prop}
    {c c' : Cpu μ} (hK : K (k' :: rest))
    (hs : ∀ s : Sys μ, s.cpu = c → ∃ w, CallStep h k s e k' c' w) :
    Sim h (k :: rest) K c c' := by
  intro s hc hk _
  obtain ⟨w, hw⟩ := hs s hc
  exact ⟨[e], _, .single (.call hk hw), rfl, hK⟩

/-- Inside every stack of calls that satisfies `P`, the system gets from `c` to `c'`. -/
def Moves (h : Host μ) (P : List Call → Prop) (c c' : Cpu μ) : Prop :=
  ∀ k, Inside k → P k → Sim h k (· = k) c c'

instance (P : List Call → Prop) : Std.Refl (Moves h P) where
  refl c k _ _ := .refl (K := (· = k)) rfl c

instance (P : List Call → Prop) : IsTrans (Cpu μ) (Moves h P) where
  trans c₁ c₂ c₃ h₁ h₂ := fun k hi hp => (h₁ k hi hp).trans fun k₁ hk => by
    subst hk; exact h₂ k₁ hi hp

section Moves

variable {P : List Call → Prop} {c c' : Cpu μ}

theorem Moves.weaken {P' : List Call → Prop} (hm : Moves h P c c') (hp : ∀ k, P' k → P k) :
    Moves h P' c c' :=
  fun k hi hk => hm k hi (hp k hk)

/-- A step that leaves the stack alone. -/
theorem Moves.of_step (e : Event)
    (hs : ∀ s : Sys μ, s.cpu = c → Inside s.calls → P s.calls →
      ∃ s', Step h s e s' ∧ s'.cpu = c' ∧ s'.calls = s.calls) : Moves h P c c' := by
  intro k hi hp s hc hk _
  subst hk
  obtain ⟨s', hw, hc', hk'⟩ := hs s hc hi hp
  exact ⟨[e], s', .single hw, hc', hk'⟩

theorem Quiet.moves (hq : Quiet c c') : Moves h P c c' := by
  refine .of_step .quiet fun s hc hi _ => ⟨_, .quiet hi ?_, rfl, rfl⟩
  rw [hc]; exact hq

theorem moves_doCycles {n : Int} (hn : 0 ≤ n) (c : Cpu μ) : Moves h P c (c.doCycles n) := by
  obtain ⟨n, rfl⟩ := Int.eq_ofNat_of_zero_le hn
  exact .of_step (.ticks n) fun s hc hi _ => ⟨_, .ticks n hi, by rw [← hc]; rfl, rfl⟩

theorem moves_xDoCycles {n : Int} (hn : 0 ≤ n) (c : Cpu μ) :
    Moves h P c (c.xDoCycles h.prefs n) := by
  simp only [Cpu.xDoCycles]
  split
  · rename_i he
    obtain ⟨n, rfl⟩ := Int.eq_ofNat_of_zero_le hn
    exact .of_step (.exactTicks n) fun s hc hi _ => ⟨_, .exactTicks n hi he, by rw [← hc]; rfl, rfl⟩
  · exact moves_doCycles hn c

theorem moves_resetClock (he : h.prefs.cpuCycleExact = true) (hp : h.prefs.cpuModel.num ≤ 68010)
    (c : Cpu μ) : Moves h P c (ce000ResetClock c) :=
  .of_step .resetClock fun s hc hi _ => ⟨_, .resetClock hi he hp, by rw [← hc]; rfl, rfl⟩

/-- The innermost call is taking an interrupt of level `l`. -/
def Taking (l : Level) (k : List Call) : Prop := ∃ kd spc rest, k = ⟨kd, .taking spc l⟩ :: rest

theorem moves_raiseMask {l : Level} (hP : ∀ k, P k → Taking l k) (c : Cpu μ) :
    Moves h P c (c.mapRegs fun r => { r with intmask := l }) := by
  refine .of_step (.raiseMask l) fun s hc _ hp => ?_
  obtain ⟨kd, spc, rest, hk⟩ := hP _ hp
  exact ⟨_, .raiseMask hk, by rw [← hc], rfl⟩

end Moves

/-! ## Quiet updates -/

section Quiet

variable {α : Type} {P : List Call → Prop}

theorem quiet_mapRegs {f : Regs → Regs} {c : Cpu μ} (hm : (f c.regs).intmask = c.regs.intmask)
    (hb : (f c.regs).spc.brk = c.regs.spc.brk)
    (hi : c.regs.spc.int = true → (f c.regs).spc.int = true)
    (hd : c.regs.spc.doInt = true → (f c.regs).spc.doInt = true) : Quiet c (c.mapRegs f) :=
  ⟨rfl, rfl, rfl, hm, hb, hi, hd⟩

theorem quiet_mapLatch (f : Latch → Latch) (c : Cpu μ) : Quiet c (c.mapLatch f) :=
  ⟨rfl, rfl, rfl, rfl, rfl, id, id⟩

theorem quiet_setA7 (v : Long) (c : Cpu μ) : Quiet c (c.setA7 v) :=
  ⟨rfl, rfl, rfl, rfl, rfl, id, id⟩

theorem quiet_makeSR (c : Cpu μ) : Quiet c c.makeSR := ⟨rfl, rfl, rfl, rfl, rfl, id, id⟩

theorem quiet_update {f : Cpu μ → Cpu μ} (hf : ∀ c, Quiet c (f c)) :
    Within (Moves h P) (update f) := fun c => (hf c).moves

theorem quiet_bind {g : Cpu μ → Cpu μ} {f : Unit → FaultM (Cpu μ) α} (hg : ∀ c, Quiet c (g c))
    (hf : Within (Moves h P) (f ())) : Within (Moves h P) (update g >>= f) :=
  .update_bind (fun c => (hg c).moves) hf

end Quiet

/-! ## The parts of a host -/

/-- A computation that does only what the system lets hooks and handlers do. -/
def Inner (h : Host μ) {α : Type} (m : FaultM (Cpu μ) α) : Prop :=
  Within (Moves h fun _ => True) m

theorem Inner.moves {α : Type} {m : FaultM (Cpu μ) α} (hm : Inner h m) (P : List Call → Prop) :
    Within (Moves h P) m :=
  hm.mono fun _ _ hs => hs.weaken fun _ _ => trivial

/-- What the core relies on: every way out of its own code leads back in with the calls as they
were. -/
structure Host.Parts (h : Host μ) : Prop where
  getLong : ∀ a, Inner h (h.port.getLong a)
  getWord : ∀ a, Inner h (h.port.getWord a)
  getIword : Inner h h.port.getIword
  physGetLong : ∀ a, Inner h (h.port.physGetLong a)
  putLong : ∀ a v, Inner h (h.port.putLong a v)
  putWord : ∀ a v, Inner h (h.port.putWord a v)
  fillPrefetch : Inner h h.port.fillPrefetch
  getIrq : ∀ m, h.getIrq = some m → Inner h m
  intAck : ∀ m, h.intAck = some m → ∀ l, Inner h (m l)
  trap : ∀ m, h.trap = some m → ∀ n, Inner h (m n)
  instr : ∀ m, h.instr = some m → ∀ pc, Inner h (m pc)
  exception : ∀ m, h.exception = some m → ∀ i, Inner h (m i)
  cpufunctbl : ∀ op, Inner h (h.cpufunctbl op)
  compiled : Inner h h.compiled
  /-- A fault in translated code has the number of an exception, never of an interrupt. -/
  compiledCode : ∀ c e c', h.compiled c = .thrown e c' → isInterrupt e.toNat = false

theorem opNop_inner : Inner h (opNop (μ := μ)) :=
  quiet_bind (fun _ => quiet_mapRegs rfl rfl id id) (.pure _)

/-- RAM and an opcode table are all a host needs. -/
theorem ram_parts {p : Prefs} {M : Mem.ByteMem μ} {tbl : Word → FaultM (Cpu μ) Long}
    (htbl : ∀ op, Inner (Host.ram p M tbl) (tbl op)) : (Host.ram p M tbl).Parts where
  getLong _ := .reads _
  getWord _ := .reads _
  getIword := .reads _
  physGetLong _ := .reads _
  putLong _ _ := quiet_update fun _ => ⟨rfl, rfl, rfl, rfl, rfl, id, id⟩
  putWord _ _ := quiet_update fun _ => ⟨rfl, rfl, rfl, rfl, rfl, id, id⟩
  fillPrefetch := .pure ()
  getIrq _ hm := by cases hm
  intAck _ hm := by cases hm
  trap _ hm := by cases hm
  instr _ hm := by cases hm
  exception _ hm := by cases hm
  cpufunctbl := htbl
  compiled := .pure ()
  compiledCode _ _ _ hm := by cases hm

section Exceptions

variable {P : List Call → Prop} (hp : h.Parts)
include hp

theorem pushWord_moves (v : Word) : Within (Moves h P) (pushWord h v) :=
  quiet_bind (fun _ => quiet_setA7 _ _) (.reads_bind fun a => (hp.putWord a v).moves P)

theorem pushLong_moves (v : Long) : Within (Moves h P) (pushLong h v) :=
  quiet_bind (fun _ => quiet_setA7 _ _) (.reads_bind fun a => (hp.putLong a v).moves P)

theorem pushAll_moves : ∀ xs : List Push, Within (Moves h P) (pushAll h xs)
  | [] => .pure ()
  | x :: xs => by
    refine .bind ?_ fun _ => pushAll_moves xs
    cases x with
    | word v => exact pushWord_moves hp v
    | long v => exact pushLong_moves hp v
    | skip => exact quiet_update fun _ => quiet_setA7 _ _
    | clearWb2 => exact quiet_update fun _ => quiet_mapLatch _ _
    | clearWb3 => exact quiet_update fun _ => quiet_mapLatch _ _

theorem buildStackFrame_moves (oldpc currpc ssw : Long) (nr : Nat) (f : FrameFormat) :
    Within (Moves h P) (exceptionBuildStackFrame h oldpc currpc ssw nr f) := by
  simp only [exceptionBuildStackFrame]
  have hrest : Within (Moves h P) (do
      let c ← reads id
      pushAll h (frameBody oldpc ssw c.regs.irc c.latch f ++ frameTail currpc c.regs.sr nr f)) :=
    .reads_bind fun c => pushAll_moves hp _
  split
  · exact quiet_bind (fun _ => quiet_mapLatch _ _) hrest
  · exact hrest

theorem buildStackFrameCommon_moves (oldpc currpc : Long) (nr vectorNr : Nat) :
    Within (Moves h P) (exceptionBuildStackFrameCommon h oldpc currpc nr vectorNr) := by
  have hb := fun a b d n f => buildStackFrame_moves (P := P) hp a b d n f
  simp only [exceptionBuildStackFrameCommon]
  refine .reads_bind fun c => ?_
  refine .ite (fun _ => hb _ _ _ _ _) fun _ => .ite (fun _ => hb _ _ _ _ _) fun _ => ?_
  refine .ite (fun _ => ?_) fun _ => .ite (fun _ => ?_) fun _ => hb _ _ _ _ _
  · exact .ite (fun _ => .ite (fun _ => hb _ _ _ _ _) fun _ => hb _ _ _ _ _)
      fun _ => .ite (fun _ => hb _ _ _ _ _) fun _ => hb _ _ _ _ _
  · exact quiet_bind (fun _ => quiet_mapLatch _ _)
      (.ite (fun _ => hb _ _ _ _ _) fun _ => hb _ _ _ _ _)

theorem intlev_moves : Within (Moves h P) (intlev h) := by
  simp only [intlev]
  split
  · rename_i hook hg
    exact .bind ((hp.getIrq hook hg).moves P) fun _ => .pure _
  · exact .reads _

theorem iackCycle_moves (nr : Nat) : Within (Moves h P) (iackCycle h nr) := by
  simp only [iackCycle]
  split
  · rename_i hook hg
    exact .bind ((hp.intAck hook hg _).moves P) fun _ => .pure _
  · exact .pure _

/-- The vector of an exception, before something else. -/
theorem vectorNr_moves {α : Type} {nr : Nat} {f : Nat → FaultM (Cpu μ) α}
    (hf : ∀ vec, Within (Moves h P) (f vec)) :
    Within (Moves h P) (if isInterrupt nr = true then iackCycle h nr >>= f else pure nr >>= f) :=
  .ite (fun _ => .bind (iackCycle_moves hp nr) hf) fun _ => .bind (.pure nr) hf

/-! ### Address and bus errors raised on the way -/

section Nested

variable {nested : Nat → FaultM (Cpu μ) Unit}
  (hne : ∀ n, isInterrupt n = false → Within (Moves h P) (nested n))
include hne

omit hp in
theorem exception3f_moves (op addr : Long) (w i ni : Bool) (pc : Option Long) (size : Int)
    (fc : Option Word) (sr : Word) :
    Within (Moves h P) (exception3f h nested op addr w i ni pc size fc sr) :=
  quiet_bind (fun _ => quiet_mapLatch _ _) (hne 3 rfl)

omit hp in
theorem exception3Notinstruction_moves (op addr : Long) :
    Within (Moves h P) (exception3Notinstruction h nested op addr) :=
  quiet_bind (fun _ => quiet_mapLatch _ _) (exception3f_moves hne _ _ _ _ _ _ _ _ _)

omit hp in
theorem exception3ReadAccess_moves (op addr : Long) (fc : Word) :
    Within (Moves h P) (exception3ReadAccess h nested op addr fc) :=
  .update_bind (fun c => moves_xDoCycles (by decide) c)
    (.reads_bind fun _ => quiet_bind (fun _ => quiet_mapLatch _ _)
      (exception3f_moves hne _ _ _ _ _ _ _ _ _))

omit hp in
theorem exception3ReadSpecial_moves (op addr : Long) (size : Int) (fc : Word) :
    Within (Moves h P) (exception3ReadSpecial h nested op addr size fc) :=
  exception3f_moves hne _ _ _ _ _ _ _ _ _

omit hp in
theorem exception2Fetch_moves (op off pcoff : Long) :
    Within (Moves h P) (exception2Fetch h nested op off pcoff) :=
  quiet_bind (fun _ => quiet_mapLatch _ _) (hne 2 rfl)

/-! ### The engines -/

omit hp hne in
theorem approximateExceptionCycles_nonneg {m : Model} {nr : Nat} {n : Int}
    (hn : approximateExceptionCycles m nr = some n) : 0 ≤ n := by
  cases m <;> simp only [approximateExceptionCycles, Option.some.injEq, reduceCtorEq] at hn
  all_goals
    subst hn
    split
    · decide
    · split
      · decide
      · split <;> decide

omit hp hne in
theorem addApproximateExceptionCycles_moves (nr : Nat) :
    Within (Moves h P) (addApproximateExceptionCycles h nr) := by
  simp only [addApproximateExceptionCycles]
  split
  · rename_i n hn
    have h0 := approximateExceptionCycles_nonneg hn
    have h1 : 0 ≤ n * cycleUnit / 2 := by simp only [cycleUnit]; omega
    exact .update_bind (fun c => moves_doCycles h0 c) (.update fun c => moves_xDoCycles h1 c)
  · exact .pure _

omit hne in
theorem addressErrorFrame_moves (mode : Word) (f : LastFault) :
    Within (Moves h P) (exceptionBuild68000AddressErrorStackFrame h mode f) :=
  quiet_bind (fun _ => quiet_setA7 _ _) <| .reads_bind fun _ =>
    .bind ((hp.putWord _ _).moves P) fun _ => .bind ((hp.putLong _ _).moves P) fun _ =>
    .bind ((hp.putWord _ _).moves P) fun _ => .bind ((hp.putWord _ _).moves P) fun _ =>
    (hp.putLong _ _).moves P

omit hne in
theorem masterInterruptFrame_moves (pc : Long) (vec : Nat) :
    Within (Moves h P) (masterInterruptFrame h pc vec) := by
  refine .bind (pushWord_moves hp _) fun _ => .ite (fun _ => ?_) fun _ => .pure _
  refine .bind (pushLong_moves hp _) fun _ => .reads_bind fun sr =>
    .bind (pushWord_moves hp _) fun _ => quiet_bind (fun _ => ?_) (pushWord_moves hp _)
  exact quiet_mapRegs rfl rfl id id

omit hne in
theorem normalFrame_moves (nr vec : Nat) (pc : Long) (sv : Bool) :
    Within (Moves h P) (normalFrame h nr vec pc sv) := by
  have hb := fun a b d n f => buildStackFrame_moves (P := P) hp a b d n f
  refine .reads_bind fun c => .ite (fun _ => .ite (fun _ => ?_) fun _ => .pure _) fun _ =>
    .ite (fun _ => .ite (fun _ => .ite (fun _ => ?_) fun _ => ?_) fun _ =>
      .ite (fun _ => ?_) fun _ => ?_) fun _ => .ite (fun _ => ?_) fun _ => ?_
  · exact quiet_bind (fun _ => quiet_mapLatch _ _)
      (.bind (addressErrorFrame_moves hp _ _) fun _ => .pure _)
  · exact .bind (pushAll_moves hp _) fun _ => .pure _
  · exact .bind (hb _ _ _ _ _) fun _ => .pure _
  · exact quiet_bind (fun _ => quiet_mapLatch _ _) (.bind (hb _ _ _ _ _) fun _ => .pure _)
  · exact quiet_bind (fun _ => quiet_mapLatch _ _) (.bind (hb _ _ _ _ _) fun _ => .pure _)
  · exact .bind (masterInterruptFrame_moves hp _ _) fun _ => .pure _
  · exact .bind (buildStackFrameCommon_moves hp _ _ _ _) fun _ => .pure _

omit hne in
theorem finishFrame_moves (nr : Nat) (pc : Long) (f : Option Bool) :
    Within (Moves h P) (finishFrame h nr pc f) := by
  cases f with
  | none => exact .pure _
  | some used =>
    have hlast : Within (Moves h P) (do
        let c ← reads id
        if h.prefs.cpuModel = .m68040 ∧ nr = 3 ∧ c.latch.last.op &&& 0x10000 ≠ 0 then
          h.port.putWord c.regs.sp.a7 c.latch.last.sr) :=
      .reads_bind fun c => .ite (fun _ => (hp.putWord _ _).moves P) fun _ => .pure _
    have hmid : Within (Moves h P) (do
        if h.prefs.cpuModel = .m68060 ∧ isInterrupt nr then
          update fun c => c.mapRegs fun r => { r with m := false }
        let c ← reads id
        if h.prefs.cpuModel = .m68040 ∧ nr = 3 ∧ c.latch.last.op &&& 0x10000 ≠ 0 then
          h.port.putWord c.regs.sp.a7 c.latch.last.sr) :=
      .ite (fun _ => quiet_bind (fun _ => quiet_mapRegs rfl rfl id id) hlast) fun _ => hlast
    refine .ite (fun _ => ?_) fun _ => hmid
    exact .bind (pushLong_moves hp _) fun _ => .reads_bind fun sr =>
      .bind (pushWord_moves hp _) fun _ => hmid

omit hp in
theorem oddVector_moves (nr vec : Nat) (g1 : Bool) (newpc : Long) :
    Within (Moves h P) (oddVector h nested nr vec g1 newpc) := by
  have hsr : ∀ c : Cpu μ, Quiet c (c.mapRegs fun r => { r with t1 := false }).makeSR :=
    fun _ => ⟨rfl, rfl, rfl, rfl, rfl, id, id⟩
  refine .reads_bind fun ir => ?_
  split
  · refine quiet_bind hsr (quiet_bind (fun _ => quiet_mapRegs rfl rfl id id) ?_)
    refine .ite (fun _ => quiet_bind (fun _ => quiet_mapRegs rfl rfl id id) ?_) fun _ => ?_
    · exact exception3ReadAccess_moves hne _ _ _
    · exact exception3ReadAccess_moves hne _ _ _
  · refine quiet_bind hsr (quiet_bind (fun _ => quiet_mapLatch _ _)
      (quiet_bind (fun _ => quiet_mapRegs rfl rfl id id) ?_))
    exact .reads_bind fun _ => exception3ReadAccess_moves hne _ _ _
  · exact quiet_bind (fun _ => quiet_mapRegs rfl rfl id id) (exception3Notinstruction_moves hne _ _)

section Mask

variable {nr : Nat}
  (hmask : isInterrupt nr = true → ∀ k, P k → Taking (BitVec.ofNat 3 (nr - 24)) k)
include hmask

omit hp hne in
/-- The mask of an interrupt, before something else. -/
theorem raiseMask_moves {α : Type} {f : Unit → FaultM (Cpu μ) α}
    (hf : Within (Moves h P) (f ())) :
    Within (Moves h P) (if isInterrupt nr = true then
      update (fun c => c.mapRegs fun r => { r with intmask := BitVec.ofNat 3 (nr - 24) }) >>= f
      else f ()) :=
  .ite (fun hi => .update_bind (fun c => moves_raiseMask (hmask hi) c) hf) fun _ => hf

theorem normalVector_moves (vec : Nat) (g1 : Bool) :
    Within (Moves h P) (normalVector h nested nr vec g1) := by
  refine .reads_bind fun c => .ite (fun _ => .pure _) fun _ => raiseMask_moves hmask ?_
  refine .bind ((hp.getLong _).moves P) fun newpc => quiet_bind (fun _ => quiet_mapLatch _ _) ?_
  refine .ite (fun _ => .ite (fun _ => .pure _) fun _ => ?_) fun _ => ?_
  · exact .update_bind (fun c => moves_xDoCycles (by decide) c) (oddVector_moves hne _ _ _ _)
  · refine .bind (addApproximateExceptionCycles_moves _) fun _ => quiet_bind (fun c => ?_) ?_
    · simp only [endCompile]
      split <;> exact ⟨rfl, rfl, rfl, rfl, rfl, id, id⟩
    · refine .bind (intlev_moves hp) fun ipl => quiet_bind (fun _ => quiet_mapRegs rfl rfl id id) ?_
      exact .bind (hp.fillPrefetch.moves P) fun _ =>
        quiet_update fun _ => quiet_mapRegs rfl rfl id id

theorem exceptionNormal_moves : Within (Moves h P) (exceptionNormal h nested nr) := by
  refine .reads_bind fun c => vectorNr_moves hp fun vec =>
    quiet_bind (fun c => quiet_makeSR c) (quiet_bind (fun c => ?_) (.reads_bind fun c' => ?_))
  · simp only [enterSupervisor, Cpu.mapRegs]
    split <;> exact ⟨rfl, rfl, rfl, rfl, rfl, id, id⟩
  · refine .ite (fun _ => .ite (fun _ => .pure _) fun _ => ?_) fun _ =>
      .ite (fun _ => .pure _) fun _ => ?_
    · exact exception3Notinstruction_moves hne _ _
    · exact .bind (normalFrame_moves hp _ _ _ _) fun f => .bind (finishFrame_moves hp _ _ f)
        fun _ => normalVector_moves hp hne hmask _ _

theorem exceptionMmu030_moves (oldpc : Long) :
    Within (Moves h P) (exceptionMmu030 h nested nr oldpc) := by
  have hb := fun a b d n f => buildStackFrame_moves (P := P) hp a b d n f
  refine .reads_bind fun pc => vectorNr_moves hp fun vec => quiet_bind (fun c => quiet_makeSR c)
    (quiet_bind (fun c => ?_) (.reads_bind fun c => .bind ((hp.getLong _).moves P) fun newpc => ?_))
  · simp only [Cpu.mapRegs]
    split <;> exact ⟨rfl, rfl, rfl, rfl, rfl, id, id⟩
  extract_lets _ jp
  have hend : Within (Moves h P) (do
      update fun c => c.mapRegs fun r => r.setpc newpc
      h.port.fillPrefetch
      update fun c => c.mapRegs (exceptionCheckTrace h.prefs nr)) :=
    quiet_bind (fun _ => quiet_mapRegs rfl rfl id id) (.bind (hp.fillPrefetch.moves P) fun _ =>
      quiet_update fun _ => quiet_mapRegs rfl rfl id id)
  have hjp : ∀ u, Within (Moves h P) (jp u) := fun u =>
    .ite (fun _ => .ite (fun _ => .pure _) fun _ => exception3ReadSpecial_moves hne _ _ _ _)
      fun _ => raiseMask_moves hmask hend
  refine .ite (fun _ => ?_) fun _ => .ite (fun _ => ?_) fun _ => .ite (fun _ => ?_) fun _ => ?_
  · refine .bind (hb _ _ _ _ _) fun _ => quiet_bind (fun c => quiet_makeSR c)
      (quiet_bind (fun _ => quiet_mapRegs rfl rfl id id) (.bind (hb _ _ _ _ _) hjp))
  · exact .bind (hb _ _ _ _ _) hjp
  · exact quiet_bind (fun _ => quiet_mapLatch _ _) (.bind (hb _ _ _ _ _) hjp)
  · exact .bind (buildStackFrameCommon_moves hp _ _ _ _) hjp

theorem exceptionMmu_moves (oldpc : Long) :
    Within (Moves h P) (exceptionMmu h nested nr oldpc) := by
  have hb := fun a b d n f => buildStackFrame_moves (P := P) hp a b d n f
  refine .reads_bind fun pc => vectorNr_moves hp fun vec => quiet_bind (fun c => quiet_makeSR c)
    (quiet_bind (fun c => ?_) (.reads_bind fun c => .bind ((hp.getLong _).moves P) fun newpc => ?_))
  · simp only [enterSupervisor, Cpu.mapRegs]
    split <;> exact ⟨rfl, rfl, rfl, rfl, rfl, id, id⟩
  extract_lets _ jp
  have hend : Within (Moves h P) (do
      h.port.fillPrefetch
      update fun c => c.mapRegs (exceptionCheckTrace h.prefs nr)) :=
    .bind (hp.fillPrefetch.moves P) fun _ => quiet_update fun _ => quiet_mapRegs rfl rfl id id
  have hjp : ∀ u, Within (Moves h P) (jp u) := fun u =>
    .ite (fun _ => .ite (fun _ => .pure _) fun _ => exception3ReadSpecial_moves hne _ _ _ _)
      fun _ => quiet_bind (fun _ => quiet_mapRegs rfl rfl id id) (raiseMask_moves hmask hend)
  refine .ite (fun _ => .ite (fun _ => ?_) fun _ => ?_) fun _ => .ite (fun _ => ?_) fun _ =>
    .ite (fun _ => ?_) fun _ => ?_
  · exact .bind (hb _ _ _ _ _) hjp
  · exact .bind (hb _ _ _ _ _) hjp
  · exact .bind (hb _ _ _ _ _) fun _ => .bind ((hp.physGetLong _).moves P) fun _ => hjp ()
  · refine .bind (hb _ _ _ _ _) fun _ => quiet_bind (fun c => quiet_makeSR c)
      (quiet_bind (fun _ => quiet_mapRegs rfl rfl id id) (.ite (fun _ => ?_) fun _ => hjp ()))
    exact quiet_bind (fun _ => quiet_mapRegs rfl rfl id id) (.bind (hb _ _ _ _ _) hjp)
  · exact .bind (buildStackFrameCommon_moves hp _ _ _ _) hjp

omit hne hmask in
theorem putWordsAt_moves (a7 : Long) :
    ∀ ws : List (Nat × Word), Within (Moves h P) (putWordsAt h a7 ws)
  | [] => .pure ()
  | (_, _) :: ws => .bind ((hp.putWord _ _).moves P) fun _ => putWordsAt_moves a7 ws

omit hmask in
theorem ce000Frame_moves (nr id : Nat) (pc : Long) :
    Within (Moves h P) (ce000Frame h nested nr id pc) := by
  refine quiet_bind (fun _ => quiet_setA7 _ _) (.reads_bind fun c => .ite (fun _ => ?_) fun _ => ?_)
  · exact .bind (exception3Notinstruction_moves hne _ _) fun _ => .pure _
  · refine quiet_bind (fun _ => quiet_mapLatch _ _) (.bind ((hp.putWord _ _).moves P) fun _ => ?_)
    refine vectorNr_moves hp fun vec => .bind ((hp.putWord _ _).moves P) fun _ =>
      .bind ((hp.putWord _ _).moves P) fun _ => .ite (fun _ => ?_) fun _ => .pure _
    exact .bind ((hp.putWord _ _).moves P) fun _ => .pure _

section Exact

variable (hce : h.prefs.cpuCycleExact = true) (hmod : h.prefs.cpuModel.num ≤ 68010)
include hce hmod

omit hmask in
theorem ce000Prefetch_moves : Within (Moves h P) (ce000Prefetch h nested nr) := by
  have hreset : ∀ c : Cpu μ, Moves h P c (ce000ResetClock c) := moves_resetClock hce hmod
  refine .reads_bind fun pc => .bind ((hp.getWord _).moves P) fun ir =>
    quiet_bind (fun _ => quiet_mapRegs rfl rfl id id) (.reads_bind fun c => .ite (fun _ => ?_) ?_)
  · exact .ite (fun _ => .pure _) fun _ => exception2Fetch_moves hne _ _ _
  intro _
  refine quiet_bind (fun _ => quiet_mapRegs rfl rfl id id)
    (.update_bind (fun c => moves_xDoCycles (by decide) c)
      (.update_bind (fun c => moves_xDoCycles (by decide) c) (.update_bind hreset ?_)))
  have hend : Within (Moves h P) (do
      let irc ← h.port.getWord (pc + 2)
      update fun c => c.mapRegs fun r => { r with irc := irc }
      let c ← reads id
      if c.latch.hardwareBusError then
        if nr = 2 ∨ nr = 3 then cpuHalt else exception2Fetch h nested (c.regs.ir.setWidth 32) 0 2
      else
        update fun c => c.mapRegs fun r => exceptionCheckTrace h.prefs nr (endCompile h.prefs r)
        update ce000ResetClock) := by
    refine .bind ((hp.getWord _).moves P) fun irc =>
      quiet_bind (fun _ => quiet_mapRegs rfl rfl id id) (.reads_bind fun c => .ite (fun _ => ?_) ?_)
    · exact .ite (fun _ => .pure _) fun _ => exception2Fetch_moves hne _ _ _
    · intro _
      refine quiet_bind (fun c => ?_) (.update hreset)
      simp only [endCompile, Cpu.mapRegs]
      split <;> exact ⟨rfl, rfl, rfl, rfl, rfl, id, id⟩
  refine .ite (fun _ => quiet_bind (fun c => ?_) hend) fun _ => hend
  simp only [iplFetchNext, Cpu.mapRegs]
  split
  · exact ⟨rfl, rfl, rfl, rfl, rfl, id, id⟩
  · split <;> exact ⟨rfl, rfl, rfl, rfl, rfl, id, id⟩

theorem ce000Vector_moves (vec : Nat) (g1 : Bool) :
    Within (Moves h P) (ce000Vector h nested nr vec g1) := by
  refine .reads_bind fun c => .ite (fun _ => .pure _) fun _ => raiseMask_moves hmask ?_
  refine .bind ((hp.getWord _).moves P) fun hi => .bind ((hp.getWord _).moves P) fun lo =>
    quiet_bind (fun _ => quiet_mapLatch _ _)
      (.ite (fun _ => .ite (fun _ => .pure _) fun _ => ?_) ?_)
  · exact oddVector_moves hne _ _ _ _
  · exact fun _ => quiet_bind (fun _ => quiet_mapRegs rfl rfl id id)
      (ce000Prefetch_moves hp hne hce hmod)

theorem exceptionCe000_moves : Within (Moves h P) (exceptionCe000 h nested nr) := by
  have hstart : 0 ≤ ce000Start h.prefs.cpuModel nr * cpuCycleUnit := by
    have h0 : 0 ≤ ce000Start h.prefs.cpuModel nr := by
      simp only [ce000Start]
      repeat' split
      all_goals decide
    simp only [cpuCycleUnit]
    omega
  have hvec := fun vec g1 => ce000Vector_moves hp hne hmask hce hmod vec g1
  refine .reads_bind fun c => .update_bind (fun c => moves_xDoCycles hstart c)
    (quiet_bind (fun c => quiet_makeSR c) (.reads_bind fun g1 => quiet_bind (fun c => ?_)
      (.reads_bind fun c' => ?_)))
  · simp only [Cpu.mapRegs]
    split <;> exact ⟨rfl, rfl, rfl, rfl, rfl, id, id⟩
  have hframe : ∀ id pc (f : Option Nat → FaultM (Cpu μ) Unit),
      (∀ vec, f (some vec) = ce000Vector h nested nr vec g1) → f none = pure () →
      Within (Moves h P) (ce000Frame h nested nr id pc >>= f) := by
    intro id pc f hsome hnone
    refine .bind (ce000Frame_moves hp hne _ _ _) fun v => ?_
    cases v with
    | some vec => rw [hsome]; exact hvec vec g1
    | none => rw [hnone]; exact .pure ()
  refine .ite (fun _ => .ite (fun _ => .pure _) fun _ => .ite (fun _ => ?_) fun _ => ?_) fun _ => ?_
  · exact quiet_bind (fun _ => quiet_setA7 _ _) (quiet_bind (fun _ => quiet_mapLatch _ _)
      (.bind (putWordsAt_moves hp _ _) fun _ => hvec _ _))
  · exact quiet_bind (fun _ => quiet_setA7 _ _) (quiet_bind (fun _ => quiet_mapLatch _ _)
      (.bind (putWordsAt_moves hp _ _) fun _ => hframe _ _ _ (fun _ => rfl) rfl))
  · exact hframe _ _ _ (fun _ => rfl) rfl

end Exact

theorem exceptionEngine_moves : Within (Moves h P) (exceptionEngine h nested nr) := by
  refine .ite (fun hce => exceptionCe000_moves hp hne hmask hce.1 hce.2) fun _ => ?_
  refine .ite (fun _ => .reads_bind fun pc => .ite (fun _ => ?_) fun _ => ?_) fun _ => ?_
  · exact exceptionMmu030_moves hp hne hmask pc
  · exact exceptionMmu_moves hp hne hmask pc
  · exact exceptionNormal_moves hp hne hmask

theorem exceptionXWith_moves (oldpc : Option Long) :
    Within (Moves h P) (exceptionXWith h nested nr oldpc) := by
  have hbody : Within (Moves h P) (exceptionXBody h nested nr oldpc) := by
    refine .reads_bind fun c => .bind ?_ fun _ => quiet_bind (fun _ => quiet_mapRegs rfl rfl id id)
      (quiet_bind (fun c => ?_) (.bind (exceptionEngine_moves hp hne hmask) fun _ => ?_))
    · simp only [noteException]
      split
      · rename_i hook hg
        exact quiet_bind (fun c => quiet_makeSR c)
          (.reads_bind fun c => (hp.exception hook hg _).moves P)
      · exact .pure ()
    · simp only [resumeStopped, Cpu.mapRegs]
      split <;> exact ⟨rfl, rfl, rfl, rfl, rfl, id, id⟩
    · exact quiet_update fun _ => quiet_mapRegs rfl rfl id id
  simp only [exceptionXWith]
  split
  · rename_i hook hg
    refine .ite (fun _ => .bind ((hp.trap hook hg _).moves P) fun b => ?_) fun _ => hbody
    exact .ite (fun _ => hp.fillPrefetch.moves P) fun _ => hbody
  · exact hbody

end Mask

end Nested

/-- An exception that is not an interrupt happens inside any stack of calls; an interrupt while
its level is being taken. -/
theorem exception_moves {nr : Nat}
    (hmask : isInterrupt nr = true → ∀ k, P k → Taking (BitVec.ofNat 3 (nr - 24)) k) :
    Within (Moves h P) (exception h nr) := by
  refine exceptionXWith_moves hp (fun n hn => ?_) hmask none
  refine exceptionXWith_moves hp (fun _ _ => .pure ()) (fun hi => ?_) none
  rw [hn] at hi; cases hi

theorem exception_inner {nr : Nat} (hn : isInterrupt nr = false) : Inner h (exception h nr) :=
  exception_moves hp fun hi => by rw [hn] at hi; cases hi

end Exceptions

end UaeCpu
