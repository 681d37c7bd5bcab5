import UaeCpu.RteLog

/-!
# UaeCpu.RteCounts

The counters of the access log as RTE leaves them where no run loop clears them behind it.

* `Ordered`             — no access is taken for made that has not been begun.
* `FrameInOrder`        — a format B frame whose counters, as RTE takes them back, are so.
* `doRteMmu030_ordered` — RTE from such a frame, or from one of format A, leaves them so.
-/

namespace UaeCpu.Restart

open Fault FaultM

variable {M α β : Type}

/-! ## The counters -/

/-- No access has been logged that has not been counted, and no index has left the array. -/
structure Ordered (c : Cpu030 M) : Prop where
  counts : c.latch.log.idxDone ≤ c.latch.log.idx
  overrun : NoOverrun c

/-- The counters of the log stay. -/
def SameIdx (c c' : Cpu030 M) : Prop :=
  c'.latch.log.idx = c.latch.log.idx ∧ c'.latch.log.idxDone = c.latch.log.idxDone

/-- They stay, or they are cleared. -/
structure CountsKept (c c' : Cpu030 M) : Prop where
  counts : SameIdx c c' ∨ (c'.latch.log.idx = 0 ∧ c'.latch.log.idxDone = 0)
  overrun : c'.world.overrun = c.world.overrun

/-- The log keeps its counters and the flags `flags` of `mmu030_state[1]`. -/
structure SameFlags (flags : Word) (c c' : Cpu030 M) : Prop extends SameLog c c' where
  state1 : c'.latch.log.state1 &&& flags = c.latch.log.state1 &&& flags

section Relations

variable {c c₁ : Cpu030 M}

instance : Std.Refl (SameIdx (M := M)) := ⟨fun _ => ⟨rfl, rfl⟩⟩

instance : IsTrans (Cpu030 M) (SameIdx (M := M)) := ⟨fun _ _ _ h h' => ⟨h'.1.trans h.1, h'.2.trans h.2⟩⟩

instance : Std.Refl (CountsKept (M := M)) := ⟨fun _ => ⟨.inl ⟨rfl, rfl⟩, rfl⟩⟩

instance : IsTrans (Cpu030 M) (CountsKept (M := M)) where
  trans _ _ _ h h' := by
    refine ⟨?_, h'.overrun.trans h.overrun⟩
    obtain ⟨h₁, h₂⟩ | hzero := h'.counts
    · unfold SameIdx
      rw [h₁, h₂]
      exact h.counts
    · exact .inr hzero

instance (flags : Word) : Std.Refl (SameFlags (M := M) flags) := ⟨fun c => ⟨.refl c, rfl⟩⟩

instance (flags : Word) : IsTrans (Cpu030 M) (SameFlags (M := M) flags) :=
  ⟨fun _ _ _ h h' => ⟨h.toSameLog.trans h'.toSameLog, h'.state1.trans h.state1⟩⟩

theorem SameLog.sameIdx (h : SameLog c c₁) : SameIdx c c₁ := ⟨h.idx, h.idxDone⟩

theorem SameLog.countsKept (h : SameLog c c₁) : CountsKept c c₁ := ⟨.inl h.sameIdx, h.overrun⟩

theorem CountsKept.ordered (h : CountsKept c c₁) (hc : Ordered c) : Ordered c₁ := by
  refine ⟨?_, h.overrun.trans hc.overrun⟩
  obtain ⟨h₁, h₂⟩ | ⟨h₁, h₂⟩ := h.counts
  · rw [h₁, h₂]
    exact hc.counts
  · rw [h₁, h₂]

theorem sameFlags_writeRel {flags : Word} (hf : wholeFlags &&& flags = flags) :
    WriteRel (SameFlags (M := M) flags) where
  state1 f hsub c := by
    refine ⟨⟨rfl, rfl, rfl⟩, ?_⟩
    change f c.latch.log.state1 &&& flags = _
    rw [← hf, ← BitVec.and_assoc, ← BitVec.and_assoc, hsub]
  dataBufferOut _ _ := ⟨⟨rfl, rfl, rfl⟩, rfl⟩
  mmu _ _ := ⟨⟨rfl, rfl, rfl⟩, rfl⟩
  pageFault p addr read flags fc c := by
    refine ⟨notePageFault_sameLog p addr read flags fc c, ?_⟩
    rw [notePageFault_log]
  mem _ _ := ⟨⟨rfl, rfl, rfl⟩, rfl⟩

/-- The exceptions of a 68030 with MMU. -/
theorem host030_counts {q : Port030 M} {p : Prefs} (hm : p.cpuModel = .m68030) (hmmu : p.mmuModel = true)
    (tbl : Word → Run030 M Long) : Exceptional (host030 q p tbl) CountsKept :=
  host030_exceptional (fun _ _ h => h.countsKept) (fun _ => ⟨.inr ⟨rfl, rfl⟩, rfl⟩) hm hmmu tbl

end Relations

/-! ## RTE -/

/-- The frame is restored with an access that RTE makes again and takes for made; a MOVEM is told to
skip its own instead. -/
def retriesLogged (fr : Long → Byte) : Bool :=
  decide (frameSsw fr &&& mmu030SswDf ≠ 0 ∧ frameSsw fr &&& mmu030SswRm = 0 ∧
    frameWord fr 0x32 &&& stateflag1Movem1 = 0)

/-- The accesses a format B frame takes for made fit the log and are among those it takes for begun. The
compatible core empties the log behind the retry. -/
def FrameInOrder (compatible : Bool) (fr : Long → Byte) : Prop :=
  frameFormat fr = 0xB → logEntries compatible fr ≤ maxMmu030Access ∧
    logEntries compatible fr + (if !compatible && retriesLogged fr then 1 else 0) ≤ frameIdx fr

section Rte

variable {q : Port030 M} {p : Prefs} {fr : Long → Byte} {a7 : Long} {c c₀ : Cpu030 M}
  {Q : β → Cpu030 M → Prop}

/-- What leaves the counters alone, before something else. -/
theorem idx_bind {m : Run030 M α} {f : α → Run030 M β} (hc : SameIdx c₀ c) (hm : Stays SameIdx m)
    (hf : ∀ a c', SameIdx c₀ c' → Ends (f a) c' Q (SameIdx c₀)) : Ends (m >>= f) c Q (SameIdx c₀) :=
  .bind ((hm c).ends.mono (fun _ _ h => Trans.trans hc h) fun _ h => Trans.trans hc h) hf

theorem sameIdx_readRel : ReadRel (SameIdx (M := M)) where
  state1 _ _ _ := ⟨rfl, rfl⟩
  dataBufferOut _ _ := ⟨rfl, rfl⟩
  mmu _ _ := ⟨rfl, rfl⟩
  pageFault p addr read flags fc c := (notePageFault_sameLog p addr read flags fc c).sameIdx

theorem readHead_stays {R : Cpu030 M → Cpu030 M → Prop} [Std.Refl R] [IsTrans (Cpu030 M) R] (hr : ReadRel R) :
    Stays R (readHead q p a7) := by
  have hlong : ∀ a, Stays R (uaeMmu030Get q p .long a) := hr.uaeMmu030Get_stays q p .long
  have hword : ∀ a, Stays R (getWordMmu030 q p a) := hr.getWordMmu030_stays q p
  refine .bind (hword _) fun sr => .bind (hlong _) fun pc => .bind (hword _) fun format => ?_
  refine .bind (hword _) fun ssw => .bind (hlong _) fun fault => .bind (hlong _) fun dataOut => ?_
  refine .bind (hlong _) fun oc => ?_
  extract_lets jp
  have hjp : ∀ v, Stays R (jp v) := fun v =>
    .ite (fun _ => .bind (hword _) fun _ => .pure _) fun _ => .bind (hword _) fun _ => .pure _
  exact .ite (fun _ => .bind (hlong _) hjp) fun _ => hjp 0

theorem useIndex_idx (i : Nat) : Stays SameIdx (useIndex i : Run030 M Unit) := fun _ => ⟨rfl, rfl⟩

theorem readAdV_idx (a : Long) : ∀ (n i : Nat) (adv : Nat → Long), Stays SameIdx (readAdV q p a n i adv)
  | 0, _, _ => .pure _
  | n + 1, i, _ => .bind (sameIdx_readRel.uaeMmu030Get_stays q p .long _) fun _ =>
    .bind (useIndex_idx i) fun _ => readAdV_idx a n (i + 1) _

theorem softFixData_idx (ssw : Word) (dataIn : Long) (v : RteLocals) :
    Stays SameIdx (softFixData ssw dataIn v : Run030 M RteLocals) := by
  have hclear : ∀ v' : RteLocals, Stays SameIdx (do unalignClear; pure v' : Run030 M RteLocals) := fun v' =>
    .bind sameIdx_readRel.unalignClear_stays fun _ => .pure v'
  refine .ite (fun _ => .ite (fun _ => ?_) fun _ => .ite (fun _ => hclear _) fun _ => .ite (fun _ => ?_)
    fun _ => hclear _) fun _ => .pure v
  · exact .update_bind (fun _ => ⟨rfl, rfl⟩) (hclear _)
  · exact .bind (useIndex_idx _) fun _ => hclear _

theorem softFixStageB_idx (a : Long) (ssw : Word) (opcode : Int) (v : RteLocals) :
    Stays SameIdx (softFixStageB q p a ssw opcode v) := by
  refine .ite (fun _ => .bind (sameIdx_readRel.getWordMmu030_stays q p _) fun w => ?_) fun _ => .pure v
  exact .ite (fun _ => .update_bind (fun _ => ⟨rfl, rfl⟩) (.pure v))
    fun _ => .bind (useIndex_idx _) fun _ => .pure _

theorem copyAdV_returns (adv : Nat → Long) : ∀ (n i : Nat) (c : Cpu030 M),
    Returns (copyAdV adv n i) c fun _ _ => True
  | 0, _, _ => ⟨_, _, rfl, trivial⟩
  | n + 1, i, c => .bind_eq (show setAd i (adv i) c = .ret () _ from rfl) (copyAdV_returns adv n (i + 1) _)

/-- The counters are taken back when the frame has been read. -/
theorem rteLongFrame_throws (f : RteHead) (c : Cpu030 M) :
    Ends (rteLongFrame q p a7 f) c (fun _ _ => True) (SameIdx c) := by
  have hlong : ∀ a, Stays SameIdx (uaeMmu030Get q p .long a) := sameIdx_readRel.uaeMmu030Get_stays q p .long
  have hword : ∀ a, Stays SameIdx (getWordMmu030 q p a) := sameIdx_readRel.getWordMmu030_stays q p
  refine idx_bind ⟨rfl, rfl⟩ (hlong _) fun disp0 _ hc => idx_bind hc (hlong _) fun disp1 _ hc => ?_
  refine idx_bind hc (hlong _) fun ps _ hc => idx_bind hc (hlong _) fun dataIn _ hc => ?_
  refine idx_bind hc (hword _) fun state0 _ hc => idx_bind hc (hword _) fun state1 _ hc => ?_
  refine idx_bind hc (hword _) fun state2 c₁ hc => ?_
  extract_lets opcode wb3 jp
  have hjp : ∀ x c', SameIdx c c' → Ends (jp x) c' (fun _ _ => True) (SameIdx c) := by
    rintro ⟨fmovem0, fmovem1⟩ c' hc
    refine idx_bind hc (hword _) fun w c₂ hc => ?_
    extract_lets idxsize idxsizeDone wb2 tail
    refine idx_bind hc (readAdV_idx a7 _ 0 _) fun adv c₃ hc => ends_update_bind.mpr (ends_update_bind.mpr ?_)
    have hfixup : ∀ (c' : Cpu030 M), SameIdx c' (mmu030fixupmod wb3 true (mmu030fixupmod wb2 true c')) := fun c' =>
      ((mmu030fixupmod_sameLog wb2 true c').trans (mmu030fixupmod_sameLog wb3 true _)).sameIdx
    have hwb : SameIdx c₃ (c₃.mapLatch fun l => { l with mmu := { l.mmu with
        wb2Status := wb2, wb3Status := wb3 } }) := ⟨rfl, rfl⟩
    refine idx_bind (Trans.trans hc (Trans.trans hwb (hfixup _))) (softFixData_idx _ _ _) fun v c₄ hc => ?_
    have htail : ∀ v' c', Ends (tail v') c' (fun _ _ => True) (SameIdx c) := fun v' c' =>
      ends_update_bind.mpr (((copyAdV_returns v'.adv _ 0 _).bind fun _ _ _ => ⟨_, _, rfl, trivial⟩).settles.ends)
    refine .ite (fun _ => htail v _) fun _ => ?_
    exact idx_bind hc (softFixStageB_idx a7 _ _ _) fun v' c₅ _ => htail v' c₅
  exact .ite (fun _ => idx_bind hc (hlong _) fun v0 _ hc => idx_bind hc (hlong _) fun v1 c' hc => hjp (v0, v1) c' hc)
    fun _ => hjp (0, 0) c₁ hc

/-- What keeps the counters, before something else. -/
theorem Ordered.bind {m : Run030 M α} {f : α → Run030 M β} (hc : Ordered c) (hm : Stays CountsKept m)
    (hf : ∀ a c', Ordered c' → Settles (f a) c' Q Ordered) : Settles (m >>= f) c Q Ordered :=
  .bind ((hm c).mono (fun _ _ h => h.ordered hc) fun _ h => h.ordered hc) hf

theorem same_countsKept {m : Run030 M α} (hm : Stays SameLog m) : Stays CountsKept m :=
  hm.mono fun _ _ h => h.countsKept

/-- A frame has been taken back, and there is room for the access that is made again. -/
structure TakenBack (p : Prefs) (f : RteHead) (c : Cpu030 M) : Prop extends Ordered c where
  room : f.frame = 0xB → c.latch.log.idxDone ≤ maxMmu030Access
  pending : f.frame = 0xB → p.cpuCompatible = false → f.ssw &&& mmu030SswDf ≠ 0 → f.ssw &&& mmu030SswRm = 0 →
    c.latch.log.state1 &&& stateflag1Movem1 = 0 → c.latch.log.idxDone < c.latch.log.idx

theorem TakenBack.of_log {f : RteHead} {c' : Cpu030 M} (h : TakenBack p f c) (hlog : c'.latch.log = c.latch.log)
    (ho : c'.world.overrun = c.world.overrun) : TakenBack p f c' where
  counts := hlog ▸ h.counts
  overrun := ho.trans h.overrun
  room := hlog ▸ h.room
  pending := hlog ▸ h.pending

/-- A format A frame takes the counters back empty. -/
theorem rteShortFrame_takenBack {f : RteHead} (hf : f.frame ≠ 0xB) (hc : Ordered c) :
    Settles (rteShortFrame q p a7 f) c (fun _ => TakenBack p f) Ordered := by
  refine hc.bind (same_countsKept (sameLog_readRel.getWordMmu030_stays q p _)) fun state1 c₁ hc₁ => ?_
  extract_lets jp
  have hjp : ∀ c', Ordered c' → Settles (jp ()) c' (fun _ => TakenBack p f) Ordered := fun c' hc' =>
    ⟨⟨le_rfl, hc'.overrun⟩, fun h => absurd h hf, fun h => absurd h hf⟩
  have hclear : Stays CountsKept (unalignClear : Run030 M Unit) :=
    same_countsKept sameLog_readRel.unalignClear_stays
  refine .ite (fun _ => ?_) fun _ => ?_
  · refine hc₁.bind (same_countsKept (sameLog_readRel.uaeMmu030Get_stays q p _ _)) fun ps c₂ hc₂ => ?_
    have hrest : ∀ c', Ordered c' → Settles (do
        update (restorePipe ps f.oc f.stagesbc)
        update (mapWorld fun w => { w with opcodeStageb := (f.oc.setWidth 16).toNat })
        jp ()) c' (fun _ => TakenBack p f) Ordered := fun c' hc' =>
      hc'.bind (.update fun _ => ⟨.inl ⟨rfl, rfl⟩, rfl⟩) fun _ c' hc' =>
        hc'.bind (.update fun _ => ⟨.inl ⟨rfl, rfl⟩, rfl⟩) fun _ c' hc' => hjp c' hc'
    exact .ite (fun _ => hc₂.bind hclear fun _ c' hc' => hrest c' hc') fun _ => hrest c₂ hc₂
  · have hrest : ∀ c', Ordered c' → Settles (do
        update (mapLog fun l => { l with opcode := f.oc.toInt })
        jp ()) c' (fun _ => TakenBack p f) Ordered := fun c' hc' =>
      hc'.bind (.update fun _ => ⟨.inl ⟨rfl, rfl⟩, rfl⟩) fun _ c' hc' => hjp c' hc'
    exact .ite (fun _ => hc₁.bind hclear fun _ c' hc' => hrest c' hc') fun _ => hrest c₁ hc₁

theorem rteLongFrame_takenBack {f : RteHead} (hs : ShowsFrame q fr a7 c.world.mem) (hc : Ordered c)
    (hssw : f.ssw = frameSsw fr) (hb : frameFormat fr = 0xB)
    (hfr : FrameInOrder p.cpuCompatible fr) :
    Settles (rteLongFrame q p a7 f) c (fun _ => TakenBack p f) Ordered := by
  obtain ⟨hn, hidx⟩ := hfr hb
  refine ((rteLongFrame_log hs hc.overrun hssw hn).and_ends (rteLongFrame_throws f c)).mono ?_ ?_
  · rintro _ c' ⟨hr, -⟩
    have hcounts : c'.latch.log.idxDone ≤ c'.latch.log.idx := by
      rw [hr.idxDone, hr.idx]
      exact Nat.le_trans (Nat.le_add_right _ _) hidx
    refine ⟨⟨hcounts, hr.overrun⟩, fun _ => hr.idxDone.le.trans hn, fun _ hcomp hdf hrm hmovem => ?_⟩
    have hretries : retriesLogged fr = true := by
      rw [hssw] at hdf hrm
      rw [hr.movem] at hmovem
      exact decide_eq_true ⟨hdf, hrm, hmovem⟩
    rw [hr.idxDone, hr.idx, hcomp]
    rwa [hcomp, hretries] at hidx
  · rintro c' ⟨ho, hsame⟩
    exact (CountsKept.mk (.inl hsame) (ho.trans hc.overrun.symm)).ordered hc

theorem rteRestorePc_counts (hm : p.cpuModel = .m68030) (hmmu : p.mmuModel = true) (f : RteHead) (c : Cpu030 M) :
    Settles (rteRestorePc q p f) c (fun odd c' => CountsKept c c' ∧
      (odd = false → c'.latch.log = c.latch.log ∧ c'.world.overrun = c.world.overrun)) (CountsKept c) := by
  have hex : Exceptional (host030 q p fun _ => pure 0) CountsKept := host030_counts hm hmmu _
  refine settles_update_bind.mpr (.ite (fun _ => ?_) fun _ => ?_)
  · have hkept : ∀ {c'}, CountsKept (Cpu.writeSR p .t0 f.sr c) c' → CountsKept c c' := fun h =>
      Trans.trans (⟨.inl ⟨rfl, rfl⟩, rfl⟩ : CountsKept c (Cpu.writeSR p .t0 f.sr c)) h
    refine .bind ((hex.exception3ReadPrefetch (fun nr => hex.exceptionX nr none) _ _ _ _).mono
      (fun _ _ h => hkept h) fun _ h => hkept h) fun _ c' h => ?_
    exact ⟨h, fun h => absurd h (by decide)⟩
  · have hsame : CountsKept c c := ⟨.inl ⟨rfl, rfl⟩, rfl⟩
    refine settles_update_bind.mpr (settles_reads_bind.mpr (.ite (fun _ => settles_update_bind.mpr ?_) fun _ => ?_))
    · exact ⟨⟨hsame.counts, rfl⟩, fun _ => ⟨rfl, rfl⟩⟩
    · exact ⟨⟨hsame.counts, rfl⟩, fun _ => ⟨rfl, rfl⟩⟩

/-- The faulted access enters the log of a format B frame, unless it is one of MOVEM. -/
theorem retryFaulted_ordered (hc : Ordered c) {ssw : Word} {addr : Long} {longFrame : Bool}
    (hd : longFrame = true → c.latch.log.idxDone ≤ maxMmu030Access) :
    Settles (retryFaulted q p ssw addr longFrame) c (fun _ c' => NoOverrun c' ∧
      ((longFrame = true → c.latch.log.state1 &&& stateflag1Movem1 = 0 → c.latch.log.idxDone < c.latch.log.idx) →
        Ordered c')) Ordered := by
  have hretry : Stays (SameFlags stateflag1Movem1) (retryAccess q p ssw addr) :=
    (sameFlags_writeRel (by decide)).retryAccess_stays q p ssw addr
  have hkept : ∀ {c'}, SameFlags stateflag1Movem1 c c' → Ordered c' := fun h => h.toSameLog.countsKept.ordered hc
  refine .bind ((hretry c).mono (fun _ _ h => h) fun _ h => hkept h) fun _ c₁ h₁ => settles_reads_bind.mpr ?_
  have hc₁ := hkept h₁
  refine .ite (fun _ => ⟨hc₁.overrun, fun _ => ⟨hc₁.counts, hc₁.overrun⟩⟩) fun hmovem => ?_
  refine .ite (fun hlong => ?_) fun _ => ⟨hc₁.overrun, fun _ => hc₁⟩
  have hadd : ∀ c', SameLog c₁ c' → Settles (update (mapLog fun l => { l with idxDone := l.idxDone + 1 })) c'
      (fun _ c' => NoOverrun c' ∧ ((longFrame = true → c.latch.log.state1 &&& stateflag1Movem1 = 0 →
        c.latch.log.idxDone < c.latch.log.idx) → Ordered c')) Ordered := by
    intro c' hs
    have hno : NoOverrun c' := hs.noOverrun hc₁.overrun
    refine ⟨hno, fun hlt => ⟨?_, hno⟩⟩
    change c'.latch.log.idxDone + 1 ≤ c'.latch.log.idx
    rw [hs.idxDone, hs.idx, h₁.idxDone, h₁.idx]
    exact hlt hlong (h₁.state1.symm.trans (not_not.mp hmovem))
  have hroom : c₁.latch.log.idxDone ≤ maxMmu030Access := h₁.idxDone ▸ hd hlong
  refine .ite (fun _ => .bind (P := fun _ => SameLog c₁) (.ret (setAd_of_le hroom _ c₁) ⟨rfl, rfl, rfl⟩)
    fun _ c' hs => hadd c' hs) fun _ => hadd c₁ (.refl c₁)

/-- The prefetch empties the log. -/
theorem fillPrefetch030Ntx_ordered (hc : NoOverrun c) :
    Settles (fillPrefetch030Ntx q) c (fun _ c' => Ordered c' ∧ c'.latch.log.idxDone = 0) Ordered := by
  have hempty : Ordered (mapLog (fun l => { l with idx := 0, idxDone := 0 }) c) := ⟨le_rfl, hc⟩
  exact settles_update_bind.mpr ((q.refill_log _).mono
    (fun _ _ h => ⟨h.countsKept.ordered hempty, h.idxDone⟩) fun _ h => h.countsKept.ordered hempty)

theorem frame_takenBack {f : RteHead} {k : Unit → Run030 M β} (hs : ShowsFrame q fr a7 c.world.mem) (hc : Ordered c)
    (hf : f.frame = frameFormat fr) (hssw : f.ssw = frameSsw fr) (hfr : FrameInOrder p.cpuCompatible fr)
    (hk : ∀ c', TakenBack p f c' → Settles (k ()) c' Q Ordered) :
    Settles (if f.frame = 0xA then rteShortFrame q p a7 f >>= k
      else if f.frame = 0xB then rteLongFrame q p a7 f >>= k else k ()) c Q Ordered := by
  refine .ite (fun ha => ?_) fun _ => .ite (fun hb => ?_) fun hb => ?_
  · have hne : f.frame ≠ 0xB := by
      rw [ha]
      decide
    exact .bind (rteShortFrame_takenBack hne hc) fun _ c' h => hk c' h
  · exact .bind (rteLongFrame_takenBack hs hc hssw (hf ▸ hb) hfr) fun _ c' h => hk c' h
  · exact hk c ⟨hc, fun h => absurd h hb, fun h => absurd h hb⟩

/-- The fields of a frame, read. -/
theorem readHead_ordered (hs : ShowsFrame q fr a7 c.world.mem) (hc : Ordered c) :
    Settles (readHead q p a7) c (fun f c' => f.frame = frameFormat fr ∧ f.ssw = frameSsw fr ∧
      ShowsFrame q fr a7 c'.world.mem ∧ Ordered c') Ordered := by
  refine ((readHead_frame hs hc.overrun).and_ends (readHead_stays sameIdx_readRel c).ends).mono ?_ ?_
  · rintro f c' ⟨⟨hf, hssw, hk⟩, -⟩
    refine ⟨hf, hssw, ?_, hk.toSameLog.countsKept.ordered hc⟩
    rw [hk.mem]
    exact hs
  · rintro c' ⟨ho, hsame⟩
    exact (CountsKept.mk (.inl hsame) (ho.trans hc.overrun.symm)).ordered hc

/-- The program counter taken back, before something else. -/
theorem TakenBack.restorePc (hm : p.cpuModel = .m68030) (hmmu : p.mmuModel = true) {f : RteHead}
    {k : Bool → Run030 M Unit} (hc : TakenBack p f c)
    (hodd : ∀ c', Ordered c' → Settles (k true) c' (fun _ => Ordered) Ordered)
    (heven : ∀ c', TakenBack p f c' → Settles (k false) c' (fun _ => Ordered) Ordered) :
    Settles (rteRestorePc q p f >>= k) c (fun _ => Ordered) Ordered := by
  refine .bind ((rteRestorePc_counts hm hmmu f c).mono (fun _ _ h => h) fun _ h => h.ordered hc.toOrdered) ?_
  rintro odd c' ⟨hk, hlog⟩
  cases odd with
  | true => exact hodd c' (hk.ordered hc.toOrdered)
  | false => exact heven c' (hc.of_log (hlog rfl).1 (hlog rfl).2)

theorem m68kDoRteMmu030_ordered (hm : p.cpuModel = .m68030) (hmmu : p.mmuModel = true)
    (hcomp : p.cpuCompatible = false) (hs : ShowsFrame q fr a7 c.world.mem) (hc : Ordered c)
    (hfr : FrameInOrder p.cpuCompatible fr) : Settles (m68kDoRteMmu030 q p a7) c (fun _ => Ordered) Ordered := by
  refine .bind (readHead_ordered hs hc) fun f c₁ ⟨hf, hssw, hs₁, hc₁⟩ => settles_update_bind.mpr ?_
  extract_lets lastWrite jp
  have hend : ∀ c', Ordered c' → Settles (lastWrite ()) c' (fun _ => Ordered) Ordered := fun c' hc' =>
    settles_reads_bind.mpr (.ite (fun _ => ⟨hc'.counts, hc'.overrun⟩) fun _ => hc')
  refine frame_takenBack (k := jp) (by exact hs₁) ⟨hc₁.counts, hc₁.overrun⟩ hf hssw hfr fun c₂ hc₂ => ?_
  refine hc₂.restorePc hm hmmu (fun c' hc' => .ite (fun _ => hc') fun h => absurd rfl h) fun c₃ hc₃ => ?_
  refine .ite (fun h => absurd h (by decide)) fun _ => .ite (fun hdata => ?_) fun _ => hend c₃ hc₃.toOrdered
  refine .bind (retryFaulted_ordered hc₃.toOrdered fun h => hc₃.room (of_decide_eq_true h)) fun _ c' h => hend c' ?_
  exact h.2 fun hlong hmovem => hc₃.pending (of_decide_eq_true hlong) hcomp hdata.1 hdata.2 hmovem

/-- The compatible core empties the log behind a format B frame, so the retry may log what has not been
begun. -/
theorem m68kDoRteMmu030c_ordered (hm : p.cpuModel = .m68030) (hmmu : p.mmuModel = true)
    (hs : ShowsFrame q fr a7 c.world.mem) (hc : Ordered c) (hfr : FrameInOrder p.cpuCompatible fr) :
    Settles (m68kDoRteMmu030c q p a7) c (fun _ => Ordered) Ordered := by
  refine .bind (readHead_ordered hs hc) fun f c₁ ⟨hf, hssw, hs₁, hc₁⟩ => settles_update_bind.mpr ?_
  extract_lets afresh lastWrite retry jp
  refine frame_takenBack (k := jp) (by exact hs₁) ⟨hc₁.counts, hc₁.overrun⟩ hf hssw hfr fun c₂ hc₂ => ?_
  have hfill : ∀ c', NoOverrun c' → Settles (fillPrefetch030Ntx q) c' (fun _ => Ordered) Ordered := fun c' ho =>
    (fillPrefetch030Ntx_ordered ho).mono (fun _ _ h => h.1) fun _ h => h
  have hafresh : ∀ c', NoOverrun c' → (f.frame ≠ 0xB → Ordered c') →
      Settles (afresh ()) c' (fun _ => Ordered) Ordered := fun c' ho hc' =>
    .ite (fun _ => settles_update_bind.mpr (hfill _ ho)) fun hb => hc' hb
  have hend : ∀ c', NoOverrun c' → (f.frame ≠ 0xB → Ordered c') →
      Settles (lastWrite ()) c' (fun _ => Ordered) Ordered := by
    intro c' ho hc'
    refine settles_reads_bind.mpr (.ite (fun _ => settles_update_bind.mpr ?_) fun _ => hafresh c' ho hc')
    refine .ite (fun _ => settles_update_bind.mpr ?_) fun _ => hafresh _ ho fun hb => ⟨(hc' hb).counts, ho⟩
    exact .bind (hfill _ ho) fun _ c'' hc'' => hafresh c'' hc''.overrun fun _ => hc''
  have hretry : ∀ c', Ordered c' → (f.frame = 0xB → c'.latch.log.idxDone ≤ maxMmu030Access) →
      Settles (retry ()) c' (fun _ => Ordered) Ordered := by
    intro c' hc' hroom
    refine .ite (fun _ => .ite (fun _ => settles_update_bind.mpr ?_) fun _ => ?_) fun _ => ?_
    · exact hend _ hc'.overrun fun _ => ⟨Nat.zero_le _, hc'.overrun⟩
    · refine .bind (retryFaulted_ordered hc' fun h => hroom (of_decide_eq_true h)) fun _ c'' h => ?_
      exact hend c'' h.1 fun hb => h.2 fun hlong => absurd (of_decide_eq_true hlong) hb
    · exact hend c' hc'.overrun fun _ => hc'
  refine hc₂.restorePc hm hmmu (fun c' hc' => .ite (fun _ => hc') fun h => absurd rfl h) fun c₃ hc₃ => ?_
  refine .ite (fun h => absurd h (by decide)) fun _ => .ite (fun _ => settles_reads_bind.mpr (.ite (fun _ => ?_)
    fun _ => hretry c₃ hc₃.toOrdered hc₃.room)) fun _ => hretry c₃ hc₃.toOrdered hc₃.room
  refine .bind (fillPrefetch030Ntx_ordered hc₃.overrun) fun _ c' h => hretry c' h.1 fun _ => ?_
  exact h.2.le.trans (Nat.zero_le _)

/-- RTE from a frame that is in order, or from one of format A, leaves the counters in order; so does
an access of its own that faults. -/
theorem doRteMmu030_ordered (hm : p.cpuModel = .m68030) (hmmu : p.mmuModel = true)
    (hs : ShowsFrame q fr a7 c.world.mem) (hc : Ordered c) (hfr : FrameInOrder p.cpuCompatible fr) :
    Settles (doRteMmu030 q p a7) c (fun _ => Ordered) Ordered :=
  .ite (fun _ => m68kDoRteMmu030c_ordered hm hmmu hs hc hfr)
    fun h => m68kDoRteMmu030_ordered hm hmmu (Bool.eq_false_iff.mpr h) hs hc hfr

end Rte

end UaeCpu.Restart
