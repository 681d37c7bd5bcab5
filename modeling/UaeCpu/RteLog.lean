import UaeCpu.RestartLog

/-!
# UaeCpu.RteLog

The access log as a format A or B frame restores it: how many entries the frame asks for, and
that RTE and the instruction it restarts stay within the log when these are at most nine.
-/

namespace UaeCpu.Restart

open Fault FaultM Mem

variable {M α β : Type}

/-! ## The fields of a frame -/

def frameWord (fr : Long → Byte) (off : Long) : Word := (readMem .word fr off).setWidth 16

def frameLong (fr : Long → Byte) (off : Long) : Long := readMem .long fr off

def frameFormat (fr : Long → Byte) : Word := frameWord fr 6 >>> 12

def frameSsw (fr : Long → Byte) : Word := frameWord fr 10

/-- The accesses the instruction had begun. -/
def frameIdx (fr : Long → Byte) : Nat := (frameWord fr 0x36 &&& 0xF).toNat

/-- A data fault the handler has fixed, whose access enters the log. -/
def fixesData (ssw state1 : Word) : Bool :=
  softFixed ssw && decide (ssw &&& mmu030SswRm = 0 ∧ state1 &&& stateflag1Movem1 = 0)

/-- A fault on stage B of the pipeline the handler has fixed: the plain core logs the word, unless
it is an opcode. -/
def fixesStageB (compatible : Bool) (ssw : Word) (ps : Long) : Bool :=
  !compatible && stageBFixed ssw && !ps.getLsbD 31

/-- The entries of the log a format B frame makes use of. -/
def logEntries (compatible : Bool) (fr : Long → Byte) : Nat :=
  ((frameWord fr 0x36 >>> 4) &&& 0xF).toNat +
    (if fixesData (frameSsw fr) (frameWord fr 0x32) then 1 else 0) +
    (if fixesStageB compatible (frameSsw fr) (frameLong fr 0x28) then 1 else 0)

/-! ## Reading the frame -/

section Reads

variable {q : Port030 M} {p : Prefs} {fr : Long → Byte} {a7 : Long} {c : Cpu030 M}
  {Q : β → Cpu030 M → Prop}

instance : Std.Refl (ReadKept (M := M)) := ⟨fun c => ⟨.refl c, rfl⟩⟩

instance : IsTrans (Cpu030 M) (ReadKept (M := M)) := ⟨fun _ _ _ => .trans⟩

theorem notePageFault_mem (p : Prefs) (addr : Long) (read : Bool) (flags : Word) (fc : Long)
    (c : Cpu030 M) : (notePageFault p addr read flags fc c).world.mem = c.world.mem := by
  unfold notePageFault
  extract_lets data c₁ c₂ ssw
  have h₂ : c₂.world.mem = c.world.mem := by
    simp only [c₂, noteFixups, mmu030fixupmod]
    split
    · split <;> split <;> rfl
    · rfl
  exact h₂

theorem readKept_readRel : ReadRel (ReadKept (M := M)) where
  state1 _ _ _ := ⟨⟨rfl, rfl, rfl⟩, rfl⟩
  dataBufferOut _ _ := ⟨⟨rfl, rfl, rfl⟩, rfl⟩
  mmu _ _ := ⟨⟨rfl, rfl, rfl⟩, rfl⟩
  pageFault p addr read flags fc c :=
    ⟨notePageFault_sameLog p addr read flags fc c, notePageFault_mem p addr read flags fc c⟩

variable {c₀ : Cpu030 M}

namespace ReadKept

/-- A read of the frame whose value does not matter, before something else. -/
theorem skip {m : Run030 M α} {f : α → Run030 M β} (hk : ReadKept c₀ c) (hc : NoOverrun c₀)
    (hm : Stays ReadKept m) (hf : ∀ a c', ReadKept c₀ c' → Settles (f a) c' Q NoOverrun) :
    Settles (m >>= f) c Q NoOverrun :=
  .bind ((hm c).mono (fun _ _ hs => hk.trans hs) fun _ hs => (hk.trans hs).noOverrun hc) hf

theorem skipLong {a : Long} {f : Long → Run030 M β} (hk : ReadKept c₀ c) (hc : NoOverrun c₀)
    (hf : ∀ v c', ReadKept c₀ c' → Settles (f v) c' Q NoOverrun) :
    Settles (uaeMmu030Get q p .long a >>= f) c Q NoOverrun :=
  hk.skip hc (readKept_readRel.uaeMmu030Get_stays q p .long a) hf

theorem skipWord {a : Long} {f : Word → Run030 M β} (hk : ReadKept c₀ c) (hc : NoOverrun c₀)
    (hf : ∀ v c', ReadKept c₀ c' → Settles (f v) c' Q NoOverrun) :
    Settles (getWordMmu030 q p a >>= f) c Q NoOverrun :=
  hk.skip hc (readKept_readRel.getWordMmu030_stays q p a) hf

/-- A field of the frame, before something else. -/
theorem long {off : Long} {f : Long → Run030 M β} (hk : ReadKept c₀ c) (hc : NoOverrun c₀)
    (hs : ShowsFrame q fr a7 c₀.world.mem) (hoff : off.toNat + 4 ≤ 92)
    (hf : ∀ c', ReadKept c₀ c' → Settles (f (frameLong fr off)) c' Q NoOverrun) :
    Settles (uaeMmu030Get q p .long (a7 + off) >>= f) c Q NoOverrun := by
  rw [← hk.mem] at hs
  refine .bind (get_frame .long hs (hk.noOverrun hc) hoff) ?_
  rintro _ c' ⟨rfl, hk'⟩
  exact hf c' (hk.trans hk')

theorem word {off : Long} {f : Word → Run030 M β} (hk : ReadKept c₀ c) (hc : NoOverrun c₀)
    (hs : ShowsFrame q fr a7 c₀.world.mem) (hoff : off.toNat + 2 ≤ 92)
    (hf : ∀ c', ReadKept c₀ c' → Settles (f (frameWord fr off)) c' Q NoOverrun) :
    Settles (getWordMmu030 q p (a7 + off) >>= f) c Q NoOverrun := by
  rw [← hk.mem] at hs
  refine .bind (P := fun v c' => v = frameWord fr off ∧ ReadKept c c') ?_ ?_
  · refine .bind (get_frame .word hs (hk.noOverrun hc) hoff) ?_
    rintro _ c' ⟨rfl, hk'⟩
    exact ⟨rfl, hk'⟩
  · rintro _ c' ⟨rfl, hk'⟩
    exact hf c' (hk.trans hk')

end ReadKept

theorem readHead_frame (hs : ShowsFrame q fr a7 c.world.mem) (hc : NoOverrun c) :
    Settles (readHead q p a7) c (fun f c' => f.frame = frameFormat fr ∧ f.ssw = frameSsw fr ∧
      ReadKept c c') NoOverrun := by
  have hk : ReadKept c c := Std.Refl.refl c
  refine hk.skipWord hc fun sr _ hk => hk.skipLong hc fun pc _ hk => ?_
  refine hk.word hc hs (by decide) fun _ hk => hk.word hc hs (by decide) fun _ hk => ?_
  refine hk.skipLong hc fun fault _ hk => hk.skipLong hc fun dataOut _ hk => ?_
  refine hk.skipLong hc fun oc c₁ hk => ?_
  extract_lets jp
  have hjp : ∀ v c', ReadKept c c' → Settles (jp v) c' (fun f c' => f.frame = frameFormat fr ∧
      f.ssw = frameSsw fr ∧ ReadKept c c') NoOverrun := fun v c' hk =>
    .ite (fun _ => hk.skipWord hc fun _ _ hk => ⟨rfl, rfl, hk⟩)
      fun _ => hk.skipWord hc fun _ _ hk => ⟨rfl, rfl, hk⟩
  exact .ite (fun _ => hk.skipLong hc hjp) fun _ => hjp 0 c₁ hk

theorem readAdV_kept (a : Long) : ∀ (n i : Nat) (adv : Nat → Long) {c : Cpu030 M}, NoOverrun c →
    i + n ≤ maxMmu030Access + 1 →
    Settles (readAdV q p a n i adv) c (fun _ c' => ReadKept c c') NoOverrun
  | 0, _, _, c, _, _ => Std.Refl.refl (r := ReadKept) c
  | n + 1, i, adv, c, hc, hn => by
    have hk : ReadKept c c := Std.Refl.refl c
    refine hk.skipLong hc fun v c₁ hk => .bind (P := fun _ c' => ReadKept c c')
      (.ret (useIndex_of_le (by omega) c₁) hk) ?_
    intro _ c₂ hk
    exact (readAdV_kept a n (i + 1) _ (hk.noOverrun hc) (by omega)).mono
      (fun _ _ hk' => hk.trans hk') fun _ h => h

theorem copyAdV_log (adv : Nat → Long) : ∀ (n i : Nat) {c : Cpu030 M}, NoOverrun c →
    i + n ≤ maxMmu030Access + 1 → Settles (copyAdV adv n i) c
      (fun _ c' => SameLog c c' ∧ c'.latch.log.state1 = c.latch.log.state1) NoOverrun
  | 0, _, c, _, _ => ⟨.refl c, rfl⟩
  | n + 1, i, c, hc, hn => by
    refine .bind (P := fun _ c' => SameLog c c' ∧ c'.latch.log.state1 = c.latch.log.state1)
      (.ret (setAd_of_le (by omega) (adv i) c) ⟨⟨rfl, rfl, rfl⟩, rfl⟩) fun _ c' hs => ?_
    exact (copyAdV_log adv n (i + 1) (hs.1.noOverrun hc) (by omega)).mono
      (fun _ _ hs' => ⟨hs.1.trans hs'.1, hs'.2.trans hs.2⟩) fun _ h => h

theorem mmu030fixupmod_sameLog (data : Byte) (dir : Bool) (c : Cpu030 M) :
    SameLog c (mmu030fixupmod data dir c) := by
  simp only [mmu030fixupmod]
  split <;> exact ⟨rfl, rfl, rfl⟩

theorem softFixData_log {ssw : Word} {dataIn : Long} {v : RteLocals}
    (hv : v.idxsizeDone + (if fixesData ssw v.state1 then 1 else 0) ≤ maxMmu030Access) :
    Settles (softFixData ssw dataIn v) c (fun v' c' => SameLog c c' ∧
      v'.idxsizeDone = v.idxsizeDone + (if fixesData ssw v.state1 then 1 else 0) ∧
      v'.state1 &&& stateflag1Movem1 = v.state1 &&& stateflag1Movem1) NoOverrun := by
  have hclear : ∀ (v' : RteLocals) (c' : Cpu030 M), SameLog c c' →
      v'.idxsizeDone = v.idxsizeDone + (if fixesData ssw v.state1 then 1 else 0) →
      v'.state1 &&& stateflag1Movem1 = v.state1 &&& stateflag1Movem1 →
      Settles (do unalignClear; pure v') c' (fun v' c' => SameLog c c' ∧
        v'.idxsizeDone = v.idxsizeDone + (if fixesData ssw v.state1 then 1 else 0) ∧
        v'.state1 &&& stateflag1Movem1 = v.state1 &&& stateflag1Movem1) NoOverrun :=
    fun v' c' hs hv' hm => ⟨hs.trans ⟨rfl, rfl, rfl⟩, hv', hm⟩
  have hnot : ¬ (ssw &&& mmu030SswRm = 0 ∧ v.state1 &&& stateflag1Movem1 = 0) →
      fixesData ssw v.state1 = false := fun h => by
    rw [fixesData, decide_eq_false h, Bool.and_false]
  refine .ite (fun hsoft => ?_) fun hsoft => ?_
  · extract_lets w jp
    refine .ite (fun hrm => ?_) fun hrm => .ite (fun hmov => ?_) fun hmov => ?_
    · exact hclear w _ ⟨rfl, rfl, rfl⟩ (by rw [hnot fun h => hrm h.1]; rfl) rfl
    · exact hclear _ _ (.refl c) (by rw [hnot fun h => hmov h.2]; rfl) (or_and_of_apart (by decide) _)
    · have hfix : fixesData ssw v.state1 = true := by
        simp only [fixesData, hsoft, Bool.true_and, decide_eq_true_eq]
        exact ⟨not_not.mp hrm, not_not.mp hmov⟩
      rw [hfix, if_pos rfl] at hv
      refine .ite (fun hrw => ?_) fun hrw => ?_
      · refine .bind (P := fun _ c' => SameLog c c') (.ret (useIndex_of_le ?_ c) (.refl c)) ?_
        · exact Nat.le_of_succ_le hv
        · exact fun _ c' hs => hclear _ c' hs (by simp [hfix, w]) rfl
      · exact hclear _ _ (.refl c) (by simp [hfix, w]) rfl
  · exact ⟨.refl c, by simp [fixesData, hsoft], rfl⟩

theorem softFixStageB_log (a : Long) {ssw : Word} {opcode : Int} {v : RteLocals}
    (hc : NoOverrun c)
    (hv : stageBFixed ssw = true → opcode ≠ -1 → v.idxsizeDone ≤ maxMmu030Access) :
    Settles (softFixStageB q p a ssw opcode v) c (fun v' c' => SameLog c c' ∧
      v'.idxsizeDone = v.idxsizeDone + (if stageBFixed ssw = true ∧ opcode ≠ -1 then 1 else 0) ∧
      v'.state1 = v.state1) NoOverrun := by
  refine .ite (fun hsb => ?_) fun hsb => ?_
  · refine same_bind (sameLog_readRel.getWordMmu030_stays q p _) hc fun w c₁ hs => ?_
    refine .ite (fun hop => ?_) fun hop => ?_
    · exact ⟨hs.trans ⟨rfl, rfl, rfl⟩, by simp [hop], rfl⟩
    · exact .bind (P := fun _ c' => SameLog c c') (.ret (useIndex_of_le (hv hsb hop) c₁) hs)
        fun _ c' hs => ⟨hs, by simp [hsb, hop], rfl⟩
  · exact ⟨.refl c, by simp [hsb], rfl⟩

theorem softFixPipe_sameLog (ps : Long) (f : RteHead) (c : Cpu030 M) :
    SameLog c (softFixPipe ps f c) := ⟨rfl, rfl, rfl⟩

/-- What a frame leaves of the log: at most `n` entries, and no index has left the array. -/
structure Restored (n : Nat) (c : Cpu030 M) : Prop where
  overrun : NoOverrun c
  idxDone : c.latch.log.idxDone ≤ n

/-- What the format B branch leaves in the log. -/
structure LogRestored (compatible : Bool) (fr : Long → Byte) (c : Cpu030 M) : Prop where
  overrun : NoOverrun c
  idxDone : c.latch.log.idxDone = logEntries compatible fr
  idx : c.latch.log.idx = frameIdx fr
  movem : c.latch.log.state1 &&& stateflag1Movem1 = frameWord fr 0x32 &&& stateflag1Movem1

theorem rteLongFrame_log {f : RteHead} (hs : ShowsFrame q fr a7 c.world.mem) (hc : NoOverrun c)
    (hssw : f.ssw = frameSsw fr) (hn : logEntries p.cpuCompatible fr ≤ maxMmu030Access) :
    Settles (rteLongFrame q p a7 f) c (fun _ => LogRestored p.cpuCompatible fr) NoOverrun := by
  have hk : ReadKept c c := Std.Refl.refl c
  refine hk.skipLong hc fun disp0 _ hk => hk.skipLong hc fun disp1 _ hk => ?_
  refine hk.long hc hs (by decide) fun _ hk => hk.skipLong hc fun dataIn _ hk => ?_
  refine hk.skipWord hc fun state0 _ hk => hk.word hc hs (by decide) fun _ hk => ?_
  refine hk.skipWord hc fun state2 c₁ hk => ?_
  extract_lets opcode wb3 jp
  have hop : opcode = -1 ↔ (frameLong fr 0x28).getLsbD 31 = true := by
    simp only [opcode]
    split <;> simp_all
  have hjp : ∀ x c', ReadKept c c' →
      Settles (jp x) c' (fun _ => LogRestored p.cpuCompatible fr) NoOverrun := by
    rintro ⟨fmovem0, fmovem1⟩ c' hk
    refine hk.word hc hs (by decide) fun c₂ hk => ?_
    extract_lets idxsize idxsizeDone wb2 tail
    have hlog : logEntries p.cpuCompatible fr = idxsizeDone +
        (if fixesData f.ssw (frameWord fr 0x32) then 1 else 0) +
        (if fixesStageB p.cpuCompatible f.ssw (frameLong fr 0x28) then 1 else 0) := by
      rw [hssw]
      rfl
    have hdone : idxsizeDone + 1 ≤ maxMmu030Access + 1 := by omega
    refine .bind (P := fun _ c' => NoOverrun c') ((readAdV_kept a7 _ 0 _ (hk.noOverrun hc)
      (by omega)).mono (fun _ _ hk' => hk'.noOverrun (hk.noOverrun hc)) fun _ h => h) ?_
    intro adv c₃ hc₃
    refine same_bind (fun _ => ⟨rfl, rfl, rfl⟩) hc₃ fun _ c₄ hs₄ => ?_
    have hc₄ := hs₄.noOverrun hc₃
    refine same_bind (fun _ => (mmu030fixupmod_sameLog _ _ _).trans (mmu030fixupmod_sameLog _ _ _))
      hc₄ fun _ c₅ hs₅ => ?_
    have hc₅ := hs₅.noOverrun hc₄
    refine .bind (softFixData_log ?_) ?_
    · exact Nat.le_trans (Nat.le_add_right _ _) (hlog ▸ hn)
    rintro v c₆ ⟨hs₆, hv, hm⟩
    have hc₆ := hs₆.noOverrun hc₅
    have htail : ∀ v' c', NoOverrun c' → v'.idxsizeDone = logEntries p.cpuCompatible fr → v'.state1 = v.state1 →
        Settles (tail v') c' (fun _ => LogRestored p.cpuCompatible fr) NoOverrun := by
      intro v' c' hc' hv' hv₁
      have hn' : 0 + (v'.idxsizeDone + 1) ≤ maxMmu030Access + 1 := by omega
      refine settles_update_bind.mpr (.bind (P := fun _ => LogRestored p.cpuCompatible fr) ?_
        fun _ _ hr => ⟨hr.overrun, hr.idxDone, hr.idx, hr.movem⟩)
      exact (copyAdV_log v'.adv _ 0 (by exact hc') hn').mono
        (fun _ _ hs' => ⟨hs'.1.noOverrun hc', hs'.1.idxDone.trans hv', hs'.1.idx,
          (congrArg (· &&& stateflag1Movem1) (hs'.2.trans hv₁)).trans hm⟩) fun _ h => h
    refine .ite (fun hcomp => ?_) fun hcomp => ?_
    · refine htail v _ ((softFixPipe_sameLog _ f c₆).noOverrun hc₆) ?_ rfl
      rw [hv, hlog]
      simp [fixesStageB, hcomp]
    · refine .bind (softFixStageB_log a7 hc₆ ?_) ?_
      · intro hsb hne
        have hfix : fixesStageB p.cpuCompatible f.ssw (frameLong fr 0x28) = true := by
          have hbit : (frameLong fr 0x28).getLsbD 31 = false :=
            Bool.eq_false_iff.mpr fun h => hne (hop.mpr h)
          simp only [fixesStageB, hsb, hbit, Bool.eq_false_iff.mpr hcomp, Bool.not_false, Bool.and_self]
        rw [hlog, if_pos hfix] at hn
        rw [hv]
        exact Nat.le_of_succ_le hn
      · rintro v' c₇ ⟨hs₇, hv', hm'⟩
        refine htail v' c₇ (hs₇.noOverrun hc₆) ?_ hm'
        rw [hv', hv, hlog]
        simp [fixesStageB, hcomp, hop]
  exact .ite
    (fun _ => hk.skipLong hc fun v0 _ hk => hk.skipLong hc fun v1 c' hk => hjp (v0, v1) c' hk)
    fun _ => hjp (0, 0) c₁ hk

theorem rteShortFrame_log {f : RteHead} (hc : NoOverrun c) :
    Settles (rteShortFrame q p a7 f) c (fun _ => Restored 0) NoOverrun := by
  refine same_bind (sameLog_readRel.getWordMmu030_stays q p _) hc fun state1 c₁ hs => ?_
  have hc₁ := hs.noOverrun hc
  extract_lets jp
  have hjp : ∀ c', NoOverrun c' → Settles (jp ()) c' (fun _ => Restored 0) NoOverrun :=
    fun c' hc' => ⟨hc', le_rfl⟩
  refine .ite (fun _ => ?_) fun _ => ?_
  · refine same_bind (sameLog_readRel.uaeMmu030Get_stays q p _ _) hc₁ fun ps c₂ hs₂ => ?_
    exact .ite
      (fun _ => settles_update_bind.mpr (settles_update_bind.mpr (settles_update_bind.mpr
        (hjp _ (hs₂.noOverrun hc₁)))))
      fun _ => settles_update_bind.mpr (settles_update_bind.mpr (hjp _ (hs₂.noOverrun hc₁)))
  · exact .ite
      (fun _ => settles_update_bind.mpr (settles_update_bind.mpr (hjp _ hc₁)))
      fun _ => settles_update_bind.mpr (hjp _ hc₁)

/-- The log may have been emptied. -/
structure LogKept (c c' : Cpu030 M) : Prop where
  idxDone : c'.latch.log.idxDone ≤ c.latch.log.idxDone
  overrun : c'.world.overrun = c.world.overrun

theorem SameLog.logKept {c c' : Cpu030 M} (h : SameLog c c') : LogKept c c' :=
  ⟨h.idxDone.le, h.overrun⟩

instance : Std.Refl (LogKept (M := M)) := ⟨fun c => (SameLog.refl c).logKept⟩

instance : IsTrans (Cpu030 M) (LogKept (M := M)) :=
  ⟨fun _ _ _ h h' => ⟨h'.idxDone.trans h.idxDone, h'.overrun.trans h.overrun⟩⟩

theorem Restored.kept {n : Nat} {c c' : Cpu030 M} (h : Restored n c) (hk : LogKept c c') :
    Restored n c' := ⟨hk.overrun.trans h.overrun, hk.idxDone.trans h.idxDone⟩

theorem kept_bind {n : Nat} {m : Run030 M α} {f : α → Run030 M β} (hm : Stays LogKept m)
    (hc : Restored n c) (hf : ∀ a c', Restored n c' → Settles (f a) c' Q NoOverrun) :
    Settles (m >>= f) c Q NoOverrun :=
  .bind ((hm c).mono (fun _ _ hk => hc.kept hk) fun _ hk => (hc.kept hk).overrun) hf

theorem same_logKept {m : Run030 M α} (hm : Stays SameLog m) : Stays LogKept m :=
  hm.mono fun _ _ h => h.logKept

theorem fillPrefetch030Ntx_kept : Stays LogKept (fillPrefetch030Ntx q) :=
  .update_bind (fun _ => ⟨Nat.zero_le _, rfl⟩) (same_logKept q.refill_log)

/-- An exception makes the accesses of its frame, and the compatible core may empty the log. -/
theorem host030_exceptional {R : Cpu030 M → Cpu030 M → Prop} [Std.Refl R] [IsTrans (Cpu030 M) R]
    (hsame : ∀ c c', SameLog c c' → R c c')
    (hempty : ∀ c, R c (mapLog (fun l => { l with idx := 0, idxDone := 0 }) c)) (hm : p.cpuModel = .m68030)
    (hmmu : p.mmuModel = true) (tbl : Word → Run030 M Long) : Exceptional (host030 q p tbl) R where
  model := hm
  mmu := hmmu
  kept c c' h := hsame c c' ⟨h.idx, h.idxDone, congrArg World030.overrun h.world⟩
  getLong a := (sameLog_readRel.uaeMmu030Get_stays q p .long a).mono hsame
  putLong a v := (sameLog_writeRel.uaeMmu030Put_stays q p .long a v).mono hsame
  putWord a v := (sameLog_writeRel.uaeMmu030Put_stays q p .word a _).mono hsame
  fillPrefetch := .ite (fun _ => .update_bind hempty (q.refill_log.mono hsame)) fun _ => .pure ()
  intAck _ h := by cases h
  trap _ h := by cases h
  exception _ h := by cases h

theorem rteRestorePc_kept (hm : p.cpuModel = .m68030) (hmmu : p.mmuModel = true) (f : RteHead) :
    Stays LogKept (rteRestorePc q p f) := by
  have hex := host030_exceptional (q := q) (R := LogKept) (fun _ _ h => h.logKept) (fun _ => ⟨Nat.zero_le _, rfl⟩)
    hm hmmu fun _ => pure 0
  refine .update_bind (fun _ => ⟨le_rfl, rfl⟩) (.ite (fun _ => ?_) fun _ => ?_)
  · exact .bind (hex.exception3ReadPrefetch (fun nr => hex.exceptionX nr none) _ _ _)
      fun _ => .pure true
  · refine .update_bind (fun _ => ⟨le_rfl, rfl⟩) (.reads_bind fun l => ?_)
    exact .ite (fun _ => .update_bind (fun _ => ⟨le_rfl, rfl⟩) (.pure false)) fun _ => .pure false

theorem Restored.mono {n k : Nat} (h : Restored n c) (hn : n ≤ k) : Restored k c :=
  ⟨h.overrun, h.idxDone.trans hn⟩

theorem retryFaulted_log {ssw : Word} {addr : Long} {longFrame : Bool}
    (hc : Restored maxMmu030Access c) :
    Settles (retryFaulted q p ssw addr longFrame) c (fun _ => Restored (maxMmu030Access + 1))
      NoOverrun := by
  refine kept_bind (same_logKept (sameLog_writeRel.retryAccess_stays q p _ _)) hc fun _ c' hc' => ?_
  refine settles_reads_bind.mpr (.ite (fun _ => ?_) fun _ => .ite (fun _ => ?_) fun _ => ?_)
  · exact (hc'.mono (Nat.le_succ _)).kept ⟨le_rfl, rfl⟩
  · refine .ite (fun _ => ?_) fun _ => ⟨hc'.overrun, Nat.succ_le_succ hc'.idxDone⟩
    refine .bind (P := fun _ => Restored maxMmu030Access)
      (.ret (setAd_of_le hc'.idxDone _ c') ⟨hc'.overrun, hc'.idxDone⟩) fun _ c'' hc'' => ?_
    exact ⟨hc''.overrun, Nat.succ_le_succ hc''.idxDone⟩
  · exact hc'.mono (Nat.le_succ _)

/-- The frame has been taken back, whatever its format. -/
theorem frame_log {f : RteHead} {k : Unit → Run030 M β}
    (hs : ShowsFrame q fr a7 c.world.mem) (hc : NoOverrun c)
    (hf : f.frame = frameFormat fr) (hssw : f.ssw = frameSsw fr)
    (hfmt : frameFormat fr = 0xA ∨ frameFormat fr = 0xB)
    (hn : frameFormat fr = 0xB → logEntries p.cpuCompatible fr ≤ maxMmu030Access)
    (hk : ∀ c', Restored maxMmu030Access c' → Settles (k ()) c' Q NoOverrun) :
    Settles (if f.frame = 0xA then rteShortFrame q p a7 f >>= k
      else if f.frame = 0xB then rteLongFrame q p a7 f >>= k else k ()) c Q NoOverrun := by
  rw [hf]
  refine .ite (fun _ => ?_) fun ha => .ite (fun hb => ?_) fun hb => ?_
  · exact .bind (rteShortFrame_log hc) fun _ c' h => hk c' (h.mono (Nat.zero_le _))
  · exact .bind (rteLongFrame_log hs hc hssw (hn hb)) fun _ c' h =>
      hk c' ⟨h.overrun, h.idxDone.le.trans (hn hb)⟩
  · exact absurd hfmt (not_or.mpr ⟨ha, hb⟩)

theorem m68kDoRteMmu030_log (hm : p.cpuModel = .m68030) (hmmu : p.mmuModel = true)
    (hs : ShowsFrame q fr a7 c.world.mem) (hc : NoOverrun c)
    (hfmt : frameFormat fr = 0xA ∨ frameFormat fr = 0xB)
    (hn : frameFormat fr = 0xB → logEntries p.cpuCompatible fr ≤ maxMmu030Access) :
    Settles (m68kDoRteMmu030 q p a7) c (fun _ => Restored (maxMmu030Access + 1)) NoOverrun := by
  refine .bind (readHead_frame hs hc) fun f c₁ ⟨hf, hssw, hk₁⟩ => settles_update_bind.mpr ?_
  have hs₁ : ShowsFrame q fr a7 (mapWorld (fun w => { w with retry := true }) c₁).world.mem := by
    rw [← hk₁.mem] at hs
    exact hs
  extract_lets lastWrite jp
  refine frame_log (k := jp) hs₁ (hk₁.noOverrun hc) hf hssw hfmt hn fun c₂ hc₂ => ?_
  refine kept_bind (rteRestorePc_kept hm hmmu f) hc₂ fun odd c₃ hc₃ => ?_
  have hend : ∀ c', Restored (maxMmu030Access + 1) c' →
      Settles (lastWrite ()) c' (fun _ => Restored (maxMmu030Access + 1)) NoOverrun :=
    fun c' hc' => settles_reads_bind.mpr (.ite (fun _ => hc'.kept ⟨le_rfl, rfl⟩) fun _ => hc')
  refine .ite (fun _ => hc₃.mono (Nat.le_succ _)) fun _ => ?_
  exact .ite (fun _ => .bind (retryFaulted_log hc₃) fun _ c' hc' => hend c' hc')
    fun _ => hend c₃ (hc₃.mono (Nat.le_succ _))

theorem m68kDoRteMmu030c_log (hm : p.cpuModel = .m68030) (hmmu : p.mmuModel = true)
    (hs : ShowsFrame q fr a7 c.world.mem) (hc : NoOverrun c)
    (hfmt : frameFormat fr = 0xA ∨ frameFormat fr = 0xB)
    (hn : frameFormat fr = 0xB → logEntries p.cpuCompatible fr ≤ maxMmu030Access) :
    Settles (m68kDoRteMmu030c q p a7) c (fun _ => Restored (maxMmu030Access + 1)) NoOverrun := by
  refine .bind (readHead_frame hs hc) fun f c₁ ⟨hf, hssw, hk₁⟩ => settles_update_bind.mpr ?_
  have hs₁ : ShowsFrame q fr a7 (mapWorld (fun w => { w with retry := true }) c₁).world.mem := by
    rw [← hk₁.mem] at hs
    exact hs
  extract_lets afresh lastWrite retry jp
  refine frame_log (k := jp) hs₁ (hk₁.noOverrun hc) hf hssw hfmt hn fun c₂ hc₂ => ?_
  refine kept_bind (rteRestorePc_kept hm hmmu f) hc₂ fun odd c₃ hc₃ => ?_
  have hfill := fillPrefetch030Ntx_kept (q := q)
  have hafresh : ∀ c', Restored (maxMmu030Access + 1) c' →
      Settles (afresh ()) c' (fun _ => Restored (maxMmu030Access + 1)) NoOverrun := by
    intro c' hc'
    refine .ite (fun _ => settles_update_bind.mpr ?_) fun _ => hc'
    exact (hfill _).mono (fun _ _ hk => hc'.kept ⟨hk.idxDone, hk.overrun⟩)
      fun _ hk => hk.overrun.trans hc'.overrun
  have hend : ∀ c', Restored (maxMmu030Access + 1) c' →
      Settles (lastWrite ()) c' (fun _ => Restored (maxMmu030Access + 1)) NoOverrun := by
    intro c' hc'
    refine settles_reads_bind.mpr (.ite (fun _ => settles_update_bind.mpr ?_) fun _ => hafresh c' hc')
    refine .ite (fun _ => settles_update_bind.mpr ?_) fun _ => hafresh _ (hc'.kept ⟨le_rfl, rfl⟩)
    exact kept_bind hfill (hc'.kept ⟨le_rfl, rfl⟩) fun _ c'' hc'' => hafresh c'' hc''
  have hretry : ∀ c', Restored maxMmu030Access c' →
      Settles (retry ()) c' (fun _ => Restored (maxMmu030Access + 1)) NoOverrun := by
    intro c' hc'
    refine .ite (fun _ => .ite (fun _ => settles_update_bind.mpr ?_) fun _ => ?_) fun _ => ?_
    · exact hend _ ⟨hc'.overrun, Nat.zero_le _⟩
    · exact .bind (retryFaulted_log hc') fun _ c'' hc'' => hend c'' hc''
    · exact hend c' (hc'.mono (Nat.le_succ _))
  refine .ite (fun _ => hc₃.mono (Nat.le_succ _)) fun _ => ?_
  refine .ite (fun _ => settles_reads_bind.mpr (.ite (fun _ => ?_) fun _ => hretry c₃ hc₃))
    fun _ => hretry c₃ hc₃
  exact kept_bind hfill hc₃ fun _ c' hc' => hretry c' hc'

theorem insRetry_kept : Stays LogKept (insRetry q p) := by
  refine .update_bind (fun _ => ⟨le_rfl, rfl⟩) (.update_bind (fun _ => ⟨le_rfl, rfl⟩)
    (.reads_bind fun c => ?_))
  extract_lets jp
  have hjp : ∀ op, Stays LogKept (jp op) := fun op =>
    .update_bind (fun _ => ⟨le_rfl, rfl⟩) (.update fun _ => ⟨Nat.zero_le _, rfl⟩)
  refine .ite (fun _ => .ite (fun _ => hjp _) fun _ => ?_) fun _ => ?_
  · exact .bind (same_logKept (sameLog_readRel.uaeMmu030GetIword_stays q p _)) fun v => hjp _
  · exact .update_bind (fun _ => ⟨le_rfl, rfl⟩) (hjp _)

theorem rerun_log {table : Word → Core → Instr} (ht : ∀ op core, (table op core).Fits p 0)
    (hc : Restored (maxMmu030Access + 1) c) :
    Settles (rerun q p table) c (fun _ => NoOverrun) NoOverrun := by
  have hrun : ∀ c', Restored (maxMmu030Access + 1) c' →
      Settles (runOpcode q p table) c' (fun _ => NoOverrun) NoOverrun := fun c' hc' =>
    settles_reads_bind.mpr (settles_update_bind.mpr (settles_update_bind.mpr
      (settles_update_bind.mpr (settles_reads_bind.mpr ((table _ _).exec_inLog (ht _ _)
        ⟨rfl, hc'.idxDone, hc'.overrun⟩)))))
  refine settles_reads_bind.mpr (.ite (fun _ => .ite (fun _ => ?_) fun _ => hrun c hc)
    fun _ => hc.overrun)
  exact kept_bind insRetry_kept hc fun _ c' hc' => hrun c' hc'

end Reads

end UaeCpu.Restart
