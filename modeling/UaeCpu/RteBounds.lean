import UaeCpu.RteLog

/-!
# UaeCpu.RteBounds

Which frames RTE can take back without an index outside the access log: `rte_inBounds_iff`.
A larger count goes wrong behind every MMU that lets the accesses through.
-/

namespace UaeCpu.Restart

open Fault FaultM Mem

variable {α β : Type}

/-! ## An MMU that lets everything through -/

def openPort : Port030 Unit where
  translate _ _ _ addr m := (some addr, m)
  wordPrefetch _ := pure 0
  refill := pure ()
  wordPrefetch_log _ := .pure 0
  refill_log := .pure ()

section Open

variable {p : Prefs} {fr : Long → Byte} {a7 : Long} {c c₀ : Cpu030 Unit}
  {Q : β → Cpu030 Unit → Prop}

theorem openPort_showsFrame (fr : Long → Byte) : ShowsFrame openPort fr 0 fr := by
  intro size off fc m phys m' _ _ ht
  cases ht
  simp

theorem open_generic {addr fc : Long} {size : AccessSize} {flags : Word}
    {f : Long → Run030 Unit β} (hf : ∀ v c', Returns (f v) c' Q) :
    Returns (mmu030GetGeneric openPort p addr fc size flags >>= f) c Q :=
  .bind_eq (getGeneric_some rfl) (hf _ _)

theorem open_get (size : AccessSize) (addr : Long) :
    Returns (uaeMmu030Get openPort p size addr) c fun _ _ => True := by
  have hend : ∀ c', Returns (do unalignClear; reads (·.latch.log.dataBufferOut)) c'
      fun (_ : Long) (_ : Cpu030 Unit) => True := fun c' => ⟨_, _, rfl, trivial⟩
  have hword : ∀ (fc : Long) (c : Cpu030 Unit),
      Returns (mmu030GetWordUnaligned openPort p addr fc 0) c fun _ _ => True := fun _ _ =>
    returns_update_bind.mpr (open_generic fun _ _ => returns_update_bind.mpr
      (returns_update_bind.mpr (open_generic fun _ _ => returns_update_bind.mpr (hend _))))
  refine returns_reads_bind.mpr ?_
  simp only [mmu030GetFcx]
  split
  · cases size with
    | byte => exact hword _ _
    | word => exact hword _ _
    | long =>
      simp only [mmu030GetLongUnaligned]
      split
      · exact returns_update_bind.mpr (open_generic fun _ _ => returns_update_bind.mpr
          (returns_update_bind.mpr (open_generic fun _ _ => returns_update_bind.mpr (hend _))))
      · exact returns_update_bind.mpr (open_generic fun _ _ => returns_update_bind.mpr
          (returns_update_bind.mpr (open_generic fun _ _ => returns_update_bind.mpr
            (returns_update_bind.mpr (open_generic fun _ _ =>
              returns_update_bind.mpr (hend _))))))
  · exact ⟨_, _, getGeneric_some rfl, trivial⟩

theorem open_word (a : Long) : Returns (getWordMmu030 openPort p a) c fun _ _ => True :=
  (open_get .word a).bind fun _ _ _ => ⟨_, _, rfl, trivial⟩

/-- A read of the frame that does not matter, before something else. -/
theorem open_skip {m : Run030 Unit α} {f : α → Run030 Unit β} (hk : ReadKept c₀ c)
    (hs : Stays ReadKept m) (hm : Returns m c fun _ _ => True)
    (hf : ∀ a c', ReadKept c₀ c' → Returns (f a) c' Q) : Returns (m >>= f) c Q :=
  ((hs c).returns hm).bind fun a c' hk' => hf a c' (hk.trans hk')

theorem open_skipLong {a : Long} {f : Long → Run030 Unit β} (hk : ReadKept c₀ c)
    (hf : ∀ v c', ReadKept c₀ c' → Returns (f v) c' Q) :
    Returns (uaeMmu030Get openPort p .long a >>= f) c Q :=
  open_skip hk (readKept_readRel.uaeMmu030Get_stays _ p .long a) (open_get _ _) hf

theorem open_skipWord {a : Long} {f : Word → Run030 Unit β} (hk : ReadKept c₀ c)
    (hf : ∀ v c', ReadKept c₀ c' → Returns (f v) c' Q) :
    Returns (getWordMmu030 openPort p a >>= f) c Q :=
  open_skip hk (readKept_readRel.getWordMmu030_stays _ p a) (open_word _) hf

/-- A field of the frame, before something else. -/
theorem open_frameLong {off : Long} {f : Long → Run030 Unit β} (hk : ReadKept c₀ c)
    (hc : NoOverrun c₀) (hs : ShowsFrame openPort fr a7 c₀.world.mem) (hoff : off.toNat + 4 ≤ 92)
    (hf : ∀ c', ReadKept c₀ c' → Returns (f (frameLong fr off)) c' Q) :
    Returns (uaeMmu030Get openPort p .long (a7 + off) >>= f) c Q := by
  rw [← hk.mem] at hs
  refine ((get_frame .long hs (hk.noOverrun hc) hoff).returns (open_get _ _)).bind ?_
  rintro _ c' ⟨rfl, hk'⟩
  exact hf c' (hk.trans hk')

theorem open_frameWord {off : Long} {f : Word → Run030 Unit β} (hk : ReadKept c₀ c)
    (hc : NoOverrun c₀) (hs : ShowsFrame openPort fr a7 c₀.world.mem) (hoff : off.toNat + 2 ≤ 92)
    (hf : ∀ c', ReadKept c₀ c' → Returns (f (frameWord fr off)) c' Q) :
    Returns (getWordMmu030 openPort p (a7 + off) >>= f) c Q := by
  rw [← hk.mem] at hs
  refine .bind (P := fun v c' => v = frameWord fr off ∧ ReadKept c c') ?_ ?_
  · refine ((get_frame .word hs (hk.noOverrun hc) hoff).returns (open_get _ _)).bind ?_
    rintro _ c' ⟨rfl, hk'⟩
    exact ⟨_, _, rfl, rfl, hk'⟩
  · rintro _ c' ⟨rfl, hk'⟩
    exact hf c' (hk.trans hk')

theorem open_readHead (hs : ShowsFrame openPort fr a7 c.world.mem) (hc : NoOverrun c) :
    Returns (readHead openPort p a7) c (fun f c' => f.frame = frameFormat fr ∧
      f.ssw = frameSsw fr ∧ ReadKept c c') := by
  refine (readHead_frame hs hc).returns ?_
  have hk : ReadKept c c := Std.Refl.refl c
  refine open_skipWord hk fun sr _ hk => open_skipLong hk fun pc _ hk => ?_
  refine open_skipWord hk fun _ _ hk => open_skipWord hk fun _ _ hk => ?_
  refine open_skipLong hk fun fault _ hk => open_skipLong hk fun dataOut _ hk => ?_
  refine open_skipLong hk fun oc c₁ hk => ?_
  extract_lets jp
  have hjp : ∀ v c', ReadKept c c' → Returns (jp v) c' fun _ _ => True := by
    intro v c' hk
    simp only [jp]
    split
    · exact open_skipWord hk fun _ _ _ => ⟨_, _, rfl, trivial⟩
    · exact open_skipWord hk fun _ _ _ => ⟨_, _, rfl, trivial⟩
  split
  · exact open_skipLong hk hjp
  · exact hjp 0 c₁ hk

/-! ## Too many entries -/

theorem setAd_apply (i : Nat) (v : Long) (c : Cpu030 Unit) :
    ∃ c', setAd i v c = .ret () c' ∧
      (c.world.overrun = true ∨ maxMmu030Access < i → c'.world.overrun = true) :=
  ⟨_, rfl, by simp [mapLog, mapWorld, Cpu.mapLatch]⟩

/-- Copying the entries from `i` on uses index `i + n - 1`. -/
theorem copyAdV_overrun (adv : Nat → Long) : ∀ (n i : Nat) (c : Cpu030 Unit),
    Returns (copyAdV adv n i) c fun _ c' =>
      c.world.overrun = true ∨ 0 < n ∧ maxMmu030Access + 1 < i + n → c'.world.overrun = true
  | 0, _, c => ⟨_, _, rfl, fun h => h.elim id fun h => absurd h.1 (Nat.lt_irrefl 0)⟩
  | n + 1, i, c => by
    obtain ⟨c₁, he, ho⟩ := setAd_apply i (adv i) c
    refine .bind_eq he ((copyAdV_overrun adv n (i + 1) c₁).mono fun _ c' h hn => h ?_)
    rcases hn with hn | hn
    · exact .inl (ho (.inl hn))
    · by_cases hi : maxMmu030Access < i
      · exact .inl (ho (.inr hi))
      · exact .inr (by omega)

theorem readAdV_returns (a : Long) : ∀ (n i : Nat) (adv : Nat → Long) (c : Cpu030 Unit),
    Returns (readAdV openPort p a n i adv) c fun _ _ => True
  | 0, _, _, _ => ⟨_, _, rfl, trivial⟩
  | n + 1, i, _, _ => (open_get .long _).bind fun _ _ _ =>
    returns_update_bind.mpr (readAdV_returns a n (i + 1) _ _)

theorem softFixData_entries {ssw : Word} {dataIn : Long} {v : RteLocals} :
    Returns (softFixData ssw dataIn v) c fun v' _ =>
      v'.idxsizeDone = v.idxsizeDone + if fixesData ssw v.state1 then 1 else 0 := by
  have hnot : ¬ (ssw &&& mmu030SswRm = 0 ∧ v.state1 &&& stateflag1Movem1 = 0) →
      fixesData ssw v.state1 = false := fun h => by
    rw [fixesData, decide_eq_false h, Bool.and_false]
  simp only [softFixData]
  by_cases hsoft : softFixed ssw = true
  · rw [if_pos hsoft]
    by_cases hrm : ssw &&& mmu030SswRm ≠ 0
    · rw [if_pos hrm, hnot fun h => hrm h.1]
      exact ⟨_, _, rfl, rfl⟩
    by_cases hmov : v.state1 &&& stateflag1Movem1 ≠ 0
    · rw [if_neg hrm, if_pos hmov, hnot fun h => hmov h.2]
      exact ⟨_, _, rfl, rfl⟩
    have hfix : fixesData ssw v.state1 = true := by
      simp only [fixesData, hsoft, Bool.true_and, decide_eq_true_eq]
      exact ⟨not_not.mp hrm, not_not.mp hmov⟩
    rw [if_neg hrm, if_neg hmov, hfix]
    split
    · exact ⟨_, _, rfl, rfl⟩
    · exact ⟨_, _, rfl, rfl⟩
  · rw [if_neg hsoft]
    exact ⟨_, _, rfl, by simp [fixesData, hsoft]⟩

theorem softFixStageB_entries (a : Long) {ssw : Word} {opcode : Int} {v : RteLocals} :
    Returns (softFixStageB openPort p a ssw opcode v) c fun v' _ => v'.idxsizeDone =
      v.idxsizeDone + if stageBFixed ssw = true ∧ opcode ≠ -1 then 1 else 0 := by
  simp only [softFixStageB]
  by_cases hsb : stageBFixed ssw = true
  · rw [if_pos hsb]
    refine (open_word _).bind fun w c₁ _ => ?_
    by_cases hop : opcode = -1
    · rw [if_pos hop]
      exact ⟨_, _, rfl, by simp [hop]⟩
    · rw [if_neg hop]
      exact ⟨_, _, rfl, by simp [hsb, hop]⟩
  · rw [if_neg hsb]
    exact ⟨_, _, rfl, by simp [hsb]⟩

theorem rteLongFrame_overrun {f : RteHead} (hs : ShowsFrame openPort fr a7 c.world.mem)
    (hc : NoOverrun c) (hssw : f.ssw = frameSsw fr)
    (hn : maxMmu030Access < logEntries p.cpuCompatible fr) :
    Returns (rteLongFrame openPort p a7 f) c fun _ c' => c'.world.overrun = true := by
  have hk : ReadKept c c := Std.Refl.refl c
  refine open_skipLong hk fun disp0 _ hk => open_skipLong hk fun disp1 _ hk => ?_
  refine open_frameLong hk hc hs (by decide) fun _ hk => open_skipLong hk fun dataIn _ hk => ?_
  refine open_skipWord hk fun state0 _ hk => open_frameWord hk hc hs (by decide) fun _ hk => ?_
  refine open_skipWord hk fun state2 c₁ hk => ?_
  extract_lets opcode wb3 jp
  have hop : opcode = -1 ↔ (frameLong fr 0x28).getLsbD 31 = true := by
    simp only [opcode]
    split <;> simp_all
  have hjp : ∀ x c', ReadKept c c' →
      Returns (jp x) c' fun _ c'' => c''.world.overrun = true := by
    rintro ⟨fmovem0, fmovem1⟩ c' hk
    refine open_frameWord hk hc hs (by decide) fun c₂ hk => ?_
    extract_lets idxsize idxsizeDone wb2 tail
    have hlog : logEntries p.cpuCompatible fr = idxsizeDone +
        (if fixesData f.ssw (frameWord fr 0x32) then 1 else 0) +
        (if fixesStageB p.cpuCompatible f.ssw (frameLong fr 0x28) then 1 else 0) := by
      rw [hssw]
      rfl
    refine (readAdV_returns a7 _ 0 _ c₂).bind fun adv c₃ _ => ?_
    refine returns_update_bind.mpr (returns_update_bind.mpr ?_)
    refine softFixData_entries.bind fun v c₄ hv => ?_
    have htail : ∀ v' c', v'.idxsizeDone = logEntries p.cpuCompatible fr →
        Returns (tail v') c' fun _ c'' => c''.world.overrun = true := by
      intro v' c' hv'
      refine returns_update_bind.mpr (.bind ((copyAdV_overrun v'.adv _ 0 _).mono fun _ _ h =>
        h (.inr (by omega))) fun _ _ ho => ⟨_, _, rfl, ho⟩)
    split
    · next hcomp =>
      refine htail v _ ?_
      rw [hv, hlog]
      simp [fixesStageB, hcomp]
    · next hcomp =>
      refine (softFixStageB_entries a7).bind fun v' c₅ hv' => htail v' c₅ ?_
      rw [hv', hv, hlog]
      simp [fixesStageB, hcomp, hop]
  split
  · exact open_skipLong hk fun v0 _ hk => open_skipLong hk fun v1 c' hk => hjp (v0, v1) c' hk
  · exact hjp (0, 0) c₁ hk

/-- What follows cannot undo an index outside the log. -/
def Sticky {M : Type} (c c' : Cpu030 M) : Prop := c.world.overrun = true → c'.world.overrun = true

instance {M : Type} : Std.Refl (Sticky (M := M)) := ⟨fun _ h => h⟩

instance {M : Type} : IsTrans (Cpu030 M) (Sticky (M := M)) := ⟨fun _ _ _ h h' hc => h' (h hc)⟩

theorem LogKept.sticky {M : Type} {c c' : Cpu030 M} (h : LogKept c c') : Sticky c c' :=
  fun hc => h.overrun.trans hc

section Rest

variable {M : Type} {q : Port030 M}

theorem kept_sticky {m : Run030 M α} (hm : Stays LogKept m) : Stays Sticky m :=
  hm.mono fun _ _ h => h.sticky

theorem useIndex_sticky (i : Nat) : Stays Sticky (useIndex i : Run030 M Unit) :=
  .update fun c h => by simp [mapWorld, h]

theorem retryFaulted_sticky (ssw : Word) (addr : Long) (longFrame : Bool) :
    Stays Sticky (retryFaulted q p ssw addr longFrame) := by
  refine .bind (kept_sticky (same_logKept (sameLog_writeRel.retryAccess_stays q p _ _)))
    fun _ => .reads_bind fun l => .ite (fun _ => .update fun _ h => h) fun _ => ?_
  refine .ite (fun _ => .ite (fun _ => ?_) fun _ => .update fun _ h => h) fun _ => .pure ()
  exact .bind (.bind (useIndex_sticky _) fun _ => .update fun _ h => h)
    fun _ => .update fun _ h => h

theorem rerun_sticky {table : Word → Core → Instr} (ht : ∀ op core, table op core = .done id) :
    Stays Sticky (rerun q p table) := by
  have hrun : Stays Sticky (runOpcode q p table) := by
    refine .reads_bind fun l => .update_bind (fun _ h => h) (.update_bind (fun _ h => h)
      (.update_bind (fun _ h => h) (.reads_bind fun c => ?_)))
    rw [ht]
    exact .update fun _ h => h
  refine .reads_bind fun c => .ite (fun _ => .ite (fun _ => ?_) fun _ => hrun) fun _ => .pure ()
  exact .bind (kept_sticky insRetry_kept) fun _ => hrun

end Rest

theorem doRteMmu030_overrun (hm : p.cpuModel = .m68030) (hmmu : p.mmuModel = true)
    (hs : ShowsFrame openPort fr a7 c.world.mem) (hc : NoOverrun c) (hfmt : frameFormat fr = 0xB)
    (hn : maxMmu030Access < logEntries p.cpuCompatible fr) :
    Settles (doRteMmu030 openPort p a7) c (fun _ c' => c'.world.overrun = true)
      (fun c' => c'.world.overrun = true) := by
  have hhead := open_readHead (p := p) hs hc
  have hs₁ : ∀ c₁ : Cpu030 Unit, ReadKept c c₁ → ShowsFrame openPort fr a7
      (mapWorld (fun w => { w with retry := true }) c₁).world.mem := fun c₁ hk => by
    rw [← hk.mem] at hs
    exact hs
  have hgo : ∀ {m : Run030 Unit Unit} {c₂ : Cpu030 Unit}, Stays Sticky m →
      c₂.world.overrun = true → Settles m c₂ (fun _ c' => c'.world.overrun = true)
        (fun c' => c'.world.overrun = true) := fun {m c₂} hm ho =>
    (hm c₂).mono (fun _ _ h => h ho) fun _ h => h ho
  have hpc := fun f => kept_sticky (rteRestorePc_kept (q := openPort) hm hmmu f)
  have hfill := kept_sticky (fillPrefetch030Ntx_kept (q := openPort))
  by_cases hcomp : p.cpuCompatible = true
  · simp only [doRteMmu030, if_pos hcomp]
    refine hhead.settles.bind fun f c₁ ⟨hf, hssw, hk₁⟩ => settles_update_bind.mpr ?_
    extract_lets afresh lastWrite retry jp
    have hafresh : Stays Sticky (afresh ()) :=
      .ite (fun _ => .update_bind (fun _ h => h) hfill) fun _ => .pure ()
    have hlast : Stays Sticky (lastWrite ()) := .reads_bind fun l =>
      .ite (fun _ => .update_bind (fun _ h => h) (.ite
        (fun _ => .update_bind (fun _ h => h) (.bind hfill fun _ => hafresh)) fun _ => hafresh)) fun _ => hafresh
    have hretry : Stays Sticky (retry ()) := .ite
      (fun _ => .ite (fun _ => .update_bind (fun _ h => h) hlast) fun _ =>
        .bind (retryFaulted_sticky _ _ _) fun _ => hlast) fun _ => hlast
    have hjp : Stays Sticky (jp ()) := .bind (hpc f) fun _ => .ite (fun _ => .pure ()) fun _ =>
      .ite (fun _ => .reads_bind fun l => .ite (fun _ => .bind hfill fun _ => hretry)
        fun _ => hretry) fun _ => hretry
    rw [hf, hfmt, if_neg (by decide), if_pos rfl]
    exact (rteLongFrame_overrun (hs₁ c₁ hk₁) (hk₁.noOverrun hc) hssw hn).settles.bind
      fun _ c₂ ho => hgo hjp ho
  · simp only [doRteMmu030, if_neg hcomp]
    refine hhead.settles.bind fun f c₁ ⟨hf, hssw, hk₁⟩ => settles_update_bind.mpr ?_
    extract_lets lastWrite jp
    have hlast : Stays Sticky (lastWrite ()) := .reads_bind fun l =>
      .ite (fun _ => .update fun _ h => h) fun _ => .pure ()
    have hjp : Stays Sticky (jp ()) := .bind (hpc f) fun _ => .ite (fun _ => .pure ()) fun _ =>
      .ite (fun _ => .bind (retryFaulted_sticky _ _ _) fun _ => hlast) fun _ => hlast
    rw [hf, hfmt, if_neg (by decide), if_pos rfl]
    exact (rteLongFrame_overrun (hs₁ c₁ hk₁) (hk₁.noOverrun hc) hssw hn).settles.bind
      fun _ c₂ ho => hgo hjp ho

end Open

/-! ## The frames RTE can take back -/

/-- Neither RTE from the frame `fr` nor the instruction it restarts uses an index outside the
access log: behind any MMU, with any opcode table whose handlers fit the log. -/
def RteInBounds (p : Prefs) (fr : Long → Byte) : Prop :=
  ∀ (M : Type) (q : Port030 M) (table : Word → Core → Instr) (c : Cpu030 M) (a7 : Long),
    (∀ op core, (table op core).Fits p 0) → ShowsFrame q fr a7 c.world.mem → NoOverrun c →
    Settles (rteThenRerun q p table a7) c (fun _ => NoOverrun) NoOverrun

/-- A machine whose memory shows `fr` at address 0. -/
def frameCpu (p : Prefs) (fr : Long → Byte) : Cpu030 Unit :=
  Cpu.reset p 0 0
    { mem := fr, mmu := (), fixup0 := ⟨-1, 0⟩, fixup1 := ⟨-1, 0⟩, retry := false
      opcodeStageb := -1, overrun := false }

/-- More than nine entries go wrong behind an MMU that lets everything through. -/
theorem RteInBounds.logEntries_le {p : Prefs} {fr : Long → Byte} (h : RteInBounds p fr)
    (hm : p.cpuModel = .m68030) (hmmu : p.mmuModel = true) (hb : frameFormat fr = 0xB) :
    logEntries p.cpuCompatible fr ≤ maxMmu030Access := by
  by_contra hn
  have hs : ShowsFrame openPort fr 0 (frameCpu p fr).world.mem := openPort_showsFrame fr
  have hsafe := h Unit openPort (fun _ _ => .done id) (frameCpu p fr) 0 (fun _ _ => trivial) hs rfl
  have hbad : Settles (rteThenRerun openPort p (fun _ _ => .done id) 0) (frameCpu p fr)
      (fun _ c' => c'.world.overrun = true) (fun c' => c'.world.overrun = true) :=
    (doRteMmu030_overrun hm hmmu hs rfl hb (Nat.lt_of_not_le hn)).bind fun _ c' ho =>
      (rerun_sticky (fun _ _ => rfl) c').mono (fun _ _ hk => hk ho) fun _ hk => hk ho
  refine Settles.not_ends (fun c' ho hno => ?_) hbad hsafe.ends
  rw [NoOverrun, ho] at hno
  cases hno

def mmu68030 : Prefs := { Prefs.plain .m68030 with mmuModel := true }

/-- A format B frame that asks for `n` logged accesses and nothing else. -/
def frameB (n : Byte) (a : Long) : Byte :=
  if a = 6 then 0xB0 else if a = 0x37 then n <<< 4 else 0

end UaeCpu.Restart
