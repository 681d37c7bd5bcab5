import UaeCpu.RestartFrame
import UaeCpu.Exception030

/-!
# UaeCpu.RestartLog

Which entries of the access log RTE and the instruction it restarts use.
-/

namespace UaeCpu.Restart

open Fault FaultM Mem

variable {M α : Type}

/-! ## What leaves the log alone -/

namespace SameLog

theorem refl (c : Cpu030 M) : SameLog c c := ⟨rfl, rfl, rfl⟩

theorem trans {c₁ c₂ c₃ : Cpu030 M} (h : SameLog c₁ c₂) (h' : SameLog c₂ c₃) : SameLog c₁ c₃ :=
  ⟨h'.idx.trans h.idx, h'.idxDone.trans h.idxDone, h'.overrun.trans h.overrun⟩

instance : Std.Refl (SameLog (M := M)) := ⟨refl⟩

instance : IsTrans (Cpu030 M) (SameLog (M := M)) := ⟨fun _ _ _ => trans⟩

end SameLog

theorem noteFixups_sameLog (c : Cpu030 M) : SameLog c (noteFixups c) := by
  simp only [noteFixups, mmu030fixupmod]
  split <;> split <;> exact ⟨rfl, rfl, rfl⟩

theorem notePageFault_sameLog (p : Prefs) (addr : Long) (read : Bool) (flags : Word) (fc : Long)
    (c : Cpu030 M) : SameLog c (notePageFault p addr read flags fc c) := by
  unfold notePageFault
  extract_lets data c₁ c₂ ssw
  have h₁ : SameLog c c₁ := ⟨rfl, rfl, rfl⟩
  have h₂ : SameLog c c₂ := by
    simp only [c₂]
    split
    · exact h₁.trans (noteFixups_sameLog c₁)
    · exact h₁
  exact h₂.trans ⟨rfl, rfl, rfl⟩

theorem notePageFault_log (p : Prefs) (addr : Long) (read : Bool) (flags : Word) (fc : Long) (c : Cpu030 M) :
    (notePageFault p addr read flags fc c).latch.log = { c.latch.log with stagebAddress := addr } := by
  unfold notePageFault
  extract_lets data c₁ c₂ ssw
  have hlog : c₂.latch.log = c.latch.log := by
    simp only [c₂, noteFixups, mmu030fixupmod]
    split
    · split <;> split <;> rfl
    · rfl
  exact congrArg (fun l : Mmu030Log => { l with stagebAddress := addr }) hlog

theorem sameLog_writeRel : WriteRel (SameLog (M := M)) where
  state1 _ _ _ := ⟨rfl, rfl, rfl⟩
  dataBufferOut _ _ := ⟨rfl, rfl, rfl⟩
  mmu _ _ := ⟨rfl, rfl, rfl⟩
  pageFault := notePageFault_sameLog
  mem _ _ := ⟨rfl, rfl, rfl⟩

theorem sameLog_readRel : ReadRel (SameLog (M := M)) := sameLog_writeRel.toReadRel

theorem setState1_sameLog (f : Word → Word) : Stays SameLog (setState1 f : Run030 M Unit) := fun _ => ⟨rfl, rfl, rfl⟩

theorem incPci_sameLog (n : Long) : Stays SameLog (incPci n : Run030 M Unit) :=
  fun _ => ⟨rfl, rfl, rfl⟩

/-! ## The rerun instruction -/

/-- The log has room for what is still to come: `n` accesses have been made since the counters
were reset, and no index has left the array. -/
structure InLog (n : Nat) (c : Cpu030 M) : Prop where
  idx : c.latch.log.idx = n
  idxDone : c.latch.log.idxDone ≤ maxMmu030Access + 1
  overrun : c.world.overrun = false

/-- No index has left the array so far. -/
def NoOverrun (c : Cpu030 M) : Prop := c.world.overrun = false

theorem InLog.same {n : Nat} {c c' : Cpu030 M} (h : InLog n c) (hs : SameLog c c') : InLog n c' :=
  ⟨hs.idx.trans h.idx, hs.idxDone ▸ h.idxDone, hs.overrun.trans h.overrun⟩

theorem SameLog.noOverrun {c c' : Cpu030 M} (hs : SameLog c c') (h : NoOverrun c) : NoOverrun c' :=
  hs.overrun.trans h

/-- What leaves the log alone, before something else. -/
theorem same_bind {β : Type} {m : Run030 M α} {f : α → Run030 M β} {Q : β → Cpu030 M → Prop}
    {c : Cpu030 M} (hm : Stays SameLog m) (hc : NoOverrun c)
    (hf : ∀ a c', SameLog c c' → Settles (f a) c' Q NoOverrun) : Settles (m >>= f) c Q NoOverrun :=
  .bind ((hm c).mono (fun _ _ hs => hs) fun _ hs => hs.noOverrun hc) hf

/-- An index of the array can be used. -/
theorem useIndex_of_le {i : Nat} (hi : i ≤ maxMmu030Access) (c : Cpu030 M) :
    useIndex i c = .ret () c := by
  have : decide (maxMmu030Access < i) = false := by simpa using hi
  simp only [useIndex, update_apply, mapWorld, this, Bool.or_false]

section Instr

variable {q : Port030 M} {p : Prefs} {n : Nat} {c : Cpu030 M}

theorem setAd_of_le {i : Nat} (hi : i ≤ maxMmu030Access) (v : Long) (c : Cpu030 M) :
    setAd i v c = .ret () (mapLog (fun l => { l with ad := Function.update l.ad i v }) c) := by
  rw [setAd, bind_ret (useIndex_of_le hi c), update_apply]

/-- `mmu030_ad[mmu030_idx_done++].val = v`, within the array. -/
theorem accessExit_of_le {v : Long} (hd : c.latch.log.idxDone ≤ maxMmu030Access) :
    accessExit v c = .ret () (mapLog (fun l => { l with
      ad := Function.update l.ad l.idxDone v, idxDone := l.idxDone + 1 }) c) := by
  rw [accessExit, reads_bind_apply, bind_ret (setAd_of_le hd v c)]
  rfl

theorem accessExit_inLog {v : Long} (hi : InLog n c) (hd : c.latch.log.idxDone ≤ maxMmu030Access) :
    Settles (accessExit v) c (fun _ c' => InLog n c') NoOverrun :=
  .ret (accessExit_of_le hd) ⟨hi.idx, Nat.succ_le_succ hd, hi.overrun⟩

/-- `mmu030_idx++ < mmu030_idx_done`. -/
theorem accessCheck_apply (c : Cpu030 M) :
    accessCheck c = .ret
      (if c.latch.log.idx < c.latch.log.idxDone then some c.latch.log.idx else none)
      (mapLog (fun l => { l with idx := l.idx + 1 }) c) := rfl

/-- What an access finds when it is checked: an entry of the log, or room for one. -/
theorem accessCheck_inLog {β : Type} {f : Option Nat → Run030 M β} {Q : β → Cpu030 M → Prop}
    {E : Cpu030 M → Prop} (hi : InLog n c) (hn : n ≤ maxMmu030Access)
    (hhit : ∀ c', InLog (n + 1) c' → Settles (f (some n)) c' Q E)
    (hmiss : ∀ c', InLog (n + 1) c' → c'.latch.log.idxDone ≤ maxMmu030Access →
      Settles (f none) c' Q E) : Settles (accessCheck >>= f) c Q E := by
  obtain ⟨c', hc'⟩ : ∃ c', c' = mapLog (fun l => { l with idx := l.idx + 1 }) c := ⟨_, rfl⟩
  have hi' : InLog (n + 1) c' := by
    subst hc'
    exact ⟨congrArg (· + 1) hi.idx, hi.idxDone, hi.overrun⟩
  have hd : c'.latch.log.idxDone = c.latch.log.idxDone := by rw [hc']; rfl
  have hif : Settles (f (if c.latch.log.idx < c.latch.log.idxDone then some c.latch.log.idx
      else none)) c' Q E := by
    split
    · rw [hi.idx]; exact hhit c' hi'
    · rename_i hlt
      refine hmiss c' hi' ?_
      rw [hi.idx] at hlt
      omega
  exact settles_bind.mpr (.ret (by rw [accessCheck_apply, hc']) hif)

/-- A logged read, from a log with room for it. -/
theorem accessGet_inLog {hit miss : Run030 M Unit} {perform : Run030 M Long}
    (hh : Stays SameLog hit) (hm : Stays SameLog miss) (hp : Stays SameLog perform)
    (hi : InLog n c) (hn : n ≤ maxMmu030Access) :
    Settles (accessGet hit miss perform) c (fun _ c' => InLog (n + 1) c') NoOverrun := by
  refine accessCheck_inLog hi hn (fun c' hi' => ?_) fun c' hi' hd => ?_
  · refine .bind (P := fun _ c'' => InLog (n + 1) c'') (.ret (useIndex_of_le hn c') hi') ?_
    intro _ c'' hi''
    exact same_bind hh hi''.overrun fun _ _ hs => hi''.same hs
  · refine same_bind hp hi'.overrun fun v c₁ hs₁ => ?_
    refine same_bind hm (hs₁.noOverrun hi'.overrun) fun _ c₂ hs₂ => ?_
    have hs := hs₁.trans hs₂
    exact .bind (accessExit_inLog (hi'.same hs) (hs.idxDone ▸ hd)) fun _ _ hi => hi

/-- A logged write. -/
theorem accessPut_inLog {v : Long} {perform : Run030 M Unit} (hp : Stays SameLog perform)
    (hi : InLog n c) (hn : n ≤ maxMmu030Access) :
    Settles (accessPut v perform) c (fun _ c' => InLog (n + 1) c') NoOverrun := by
  refine accessCheck_inLog hi hn (fun c' hi' => hi') fun c' hi' hd => ?_
  refine same_bind (sameLog_readRel.setDataBufferOut_stays _) hi'.overrun fun _ c₁ hs₁ => ?_
  refine same_bind hp (hs₁.noOverrun hi'.overrun) fun _ c₂ hs₂ => ?_
  have hs := hs₁.trans hs₂
  exact accessExit_inLog (hi'.same hs) (hs.idxDone ▸ hd)

variable (q p)

theorem getState_inLog (space : DataSpace) (size : AccessSize) (addr : Long) (hi : InLog n c)
    (hn : n ≤ maxMmu030Access) :
    Settles (getState q p space size addr) c (fun _ c' => InLog (n + 1) c') NoOverrun :=
  accessGet_inLog (.pure _) (.pure _) (.reads_bind fun _ => sameLog_readRel.getFcx_stays q p _ _ _ _) hi hn

theorem putState_inLog (space : DataSpace) (size : AccessSize) (addr v : Long) (hi : InLog n c)
    (hn : n ≤ maxMmu030Access) :
    Settles (putState q p space size addr v) c (fun _ c' => InLog (n + 1) c') NoOverrun :=
  accessPut_inLog (.reads_bind fun _ => sameLog_writeRel.putFcx_stays q p _ _ _ _ _) hi hn

theorem nextIwordState_inLog (hi : InLog n c) (hn : n ≤ maxMmu030Access) :
    Settles (nextIwordState q p) c (fun _ c' => InLog (n + 1) c') NoOverrun :=
  accessGet_inLog (incPci_sameLog _) (incPci_sameLog _)
    (.reads_bind fun _ => .ite (fun _ => q.wordPrefetch_log 0)
      fun _ => sameLog_readRel.uaeMmu030GetIword_stays q p _) hi hn

/-- The log entries of a long of the instruction stream. -/
def ilongEntries (p : Prefs) : Nat := if p.cpuCompatible then 2 else 1

theorem nextIlongState_inLog (hi : InLog n c) (hn : n + ilongEntries p ≤ maxMmu030Access + 1) :
    Settles (nextIlongState q p) c (fun _ c' => InLog (n + ilongEntries p) c') NoOverrun := by
  simp only [nextIlongState, ilongEntries] at *
  by_cases hc : p.cpuCompatible = true
  · rw [if_pos hc] at *
    rw [if_pos hc] at *
    refine .bind (nextIwordState_inLog q p hi (by omega)) fun _ c₁ hi₁ => ?_
    exact .bind (nextIwordState_inLog q p hi₁ (by omega)) fun _ c₂ hi₂ => hi₂
  · rw [if_neg hc] at *
    rw [if_neg hc] at *
    exact accessGet_inLog (incPci_sameLog _) (incPci_sameLog _)
      (.reads_bind fun _ => sameLog_readRel.uaeMmu030GetIlong_stays q p _) hi (by omega)

theorem getIwordState_inLog (o : Long) (hi : InLog n c) (hn : n ≤ maxMmu030Access) :
    Settles (getIwordState q p o) c (fun _ c' => InLog (n + 1) c') NoOverrun :=
  accessGet_inLog (.pure _) (.pure _)
    (.reads_bind fun _ => .ite (fun _ => q.wordPrefetch_log o)
      fun _ => sameLog_readRel.uaeMmu030GetIword_stays q p _) hi hn

theorem getIlongState_inLog (o : Long) (hi : InLog n c) (hn : n + ilongEntries p ≤ maxMmu030Access + 1) :
    Settles (getIlongState q p o) c (fun _ c' => InLog (n + ilongEntries p) c') NoOverrun := by
  simp only [getIlongState, ilongEntries] at *
  by_cases hc : p.cpuCompatible = true
  · rw [if_pos hc] at *
    rw [if_pos hc] at *
    refine .bind (getIwordState_inLog q p o hi (by omega)) fun _ c₁ hi₁ => ?_
    exact .bind (getIwordState_inLog q p (o + 2) hi₁ (by omega)) fun _ c₂ hi₂ => hi₂
  · rw [if_neg hc] at *
    rw [if_neg hc] at *
    exact accessGet_inLog (.pure _) (.pure _)
      (.reads_bind fun _ => sameLog_readRel.uaeMmu030GetIlong_stays q p _) hi (by omega)

theorem stateStore_inLog (v : Long) (hi : InLog n c) (hn : n ≤ maxMmu030Access) :
    Settles (stateStoreMmu030 v) c (fun _ c' => InLog (n + 1) c') NoOverrun :=
  accessGet_inLog (.pure _) (.pure _) (.pure v) hi hn

/-- The entries a full format extension word can take before they are dropped. -/
def dispEntries (p : Prefs) : Nat := 2 + 2 * ilongEntries p

/-- At most `k` accesses have been made, within the log. -/
def InLogTo (k : Nat) (c : Cpu030 M) : Prop := ∃ n ≤ k, InLog n c

theorem ilongEntries_pos : 1 ≤ ilongEntries p := by
  unfold ilongEntries
  split <;> decide

theorem nextDisp_inLog {k : Nat} (s : Word) (hi : InLogTo k c)
    (hk : k + ilongEntries p ≤ maxMmu030Access + 1) :
    Settles (nextDisp q p s) c (fun _ c' => InLogTo (k + ilongEntries p) c') NoOverrun := by
  obtain ⟨n, hn, hi⟩ := hi
  have hpos := ilongEntries_pos p
  refine .ite (fun _ => ?_) fun _ => .ite (fun _ => ?_) fun _ => ?_
  · exact .bind (nextIwordState_inLog q p hi (by omega)) fun _ _ hi' => ⟨n + 1, by omega, hi'⟩
  · exact .bind (nextIlongState_inLog q p hi (by omega)) fun _ _ hi' => ⟨_, by omega, hi'⟩
  · exact ⟨n, by omega, hi⟩

theorem fullFormatEa_inLog {k : Nat} (dp : Word) (base regd : Long) (hi : InLogTo k c)
    (hk : k + (1 + 2 * ilongEntries p) ≤ maxMmu030Access + 1) :
    Settles (fullFormatEa q p dp base regd) c (fun _ c' => NoOverrun c') NoOverrun := by
  refine .bind (nextDisp_inLog q p _ hi (by omega)) fun d c₁ hi₁ => ?_
  refine .bind (nextDisp_inLog q p _ hi₁ (by omega)) fun o c₂ hi₂ => ?_
  obtain ⟨n, hn, hi₂⟩ := hi₂
  refine .ite (fun _ => ?_) fun _ => hi₂.overrun
  exact .bind (getState_inLog q p _ _ _ hi₂ (by omega)) fun _ _ hi₃ => hi₃.overrun

theorem getDispEa_inLog (base : Long) (idx : Fin 2) (hi : InLog n c)
    (hn : n + dispEntries p ≤ maxMmu030Access + 1) :
    Settles (getDispEa020Mmu030 q p base idx) c (fun _ c' => InLog n c') NoOverrun := by
  simp only [dispEntries] at hn
  refine .ite (fun _ => ?_) fun _ => ?_
  · exact same_bind (incPci_sameLog _) hi.overrun fun _ _ hs => hi.same hs
  refine .bind (nextIwordState_inLog q p hi (by omega)) fun dp c₁ hi₁ => ?_
  have hext : Settles (extensionEa q p (dp.setWidth 16) base) c₁ (fun _ c' => NoOverrun c')
      NoOverrun :=
    .ite (fun _ => fullFormatEa_inLog q p _ _ _ ⟨n + 1, le_rfl, hi₁⟩ (by omega))
      fun _ => hi₁.overrun
  -- the counters go back to where they were, whatever has been read
  refine .bind hext fun v c₂ ho => ⟨hi.idx, ?_, ho⟩
  have : c.latch.log.idx ≤ maxMmu030Access + 1 := by rw [hi.idx]; omega
  exact this

/-- The log entries of a transfer: the prefetch of the last write. -/
def Transfer.entries : Transfer → Nat
  | .last .. => if p.cpuCompatible then 1 else 0
  | _ => 0

def movemEntries (xs : List Transfer) : Nat := (xs.map (Transfer.entries p)).sum

theorem mapCore_sameLog (f : Core → Core) : Stays SameLog (mapCore f : Run030 M Unit) := fun _ => ⟨rfl, rfl, rfl⟩

theorem setFaultPc_sameLog : Stays SameLog (setFaultPc : Run030 M Unit) := fun _ => ⟨rfl, rfl, rfl⟩

theorem InLogTo.mono {j k : Nat} (h : InLogTo j c) (hjk : j ≤ k) : InLogTo k c := by
  obtain ⟨n, hn, h⟩ := h
  exact ⟨n, hn.trans hjk, h⟩

theorem InLogTo.same {k : Nat} {c' : Cpu030 M} (h : InLogTo k c) (hs : SameLog c c') : InLogTo k c' := by
  obtain ⟨n, hn, h⟩ := h
  exact ⟨n, hn, h.same hs⟩

theorem InLogTo.stays {k : Nat} {m : Run030 M α} (hm : Stays SameLog m) (h : InLogTo k c) :
    Settles m c (fun _ c' => InLogTo k c') NoOverrun := by
  obtain ⟨n, hn, h⟩ := h
  exact (hm c).mono (fun _ _ hs => ⟨n, hn, h.same hs⟩) fun _ hs => hs.noOverrun h.overrun

theorem getPrefetch020_inLog {k : Nat} (o : Long) (hi : InLogTo k c)
    (hk : k + (if p.cpuCompatible then 1 else 0) ≤ maxMmu030Access + 1) :
    Settles (getPrefetch020 q p o) c (fun _ c' => InLogTo (k + if p.cpuCompatible then 1 else 0) c') NoOverrun := by
  unfold getPrefetch020
  by_cases hc : p.cpuCompatible = true
  · simp only [if_pos hc] at hk ⊢
    obtain ⟨n, hn, hi⟩ := hi
    refine .bind (getIwordState_inLog q p o hi (by omega)) fun w c₁ hi₁ => ?_
    exact ⟨n + 1, Nat.succ_le_succ hn, hi₁.same ⟨rfl, rfl, rfl⟩⟩
  · simp only [if_neg hc]
    exact hi

theorem saveBuffer_inLog {j k : Nat} {size : AccessSize} {addr : Long} {v : Core → Long} {before : Run030 M Unit}
    (hb : ∀ c', InLogTo j c' → Settles before c' (fun _ c'' => InLogTo k c'') NoOverrun) (hi : InLogTo j c) :
    Settles (saveBuffer q p size addr v before) c (fun _ c' => InLogTo k c') NoOverrun := by
  have hset : Stays SameLog
      (update fun c => mapLog (fun l => { l with dataBufferOut := v c.toCore }) c : Run030 M Unit) :=
    fun _ => ⟨rfl, rfl, rfl⟩
  refine .bind (hi.stays hset) fun _ c₁ h₁ => .bind (hb c₁ h₁) fun _ c₂ h₂ => ?_
  exact h₂.stays (.reads_bind fun w => sameLog_writeRel.uaeMmu030Put_stays q p size addr w)

theorem move_inLog {k : Nat} (x : Transfer) (hi : InLogTo k c) (hk : k + x.entries p ≤ maxMmu030Access + 1) :
    Settles (x.move q p) c (fun _ c' => InLogTo (k + x.entries p) c') NoOverrun := by
  cases x with
  | load size addr f =>
    exact .bind (hi.stays (sameLog_readRel.uaeMmu030Get_stays q p size addr)) fun v _ h₁ =>
      h₁.stays (mapCore_sameLog (f v))
  | save size addr v => exact saveBuffer_inLog q p (fun _ h => h) hi
  | last size addr v o f =>
    refine saveBuffer_inLog q p (fun c₁ h₁ => .bind (getPrefetch020_inLog q p o h₁ hk) fun _ c₂ h₂ => ?_) hi
    refine h₂.stays (.bind (mapCore_sameLog f) fun _ => .bind setFaultPc_sameLog fun _ => ?_)
    exact setState1_sameLog _

theorem skip_sameLog (x : Transfer) : Stays SameLog (x.skip : Run030 M Unit) := by
  cases x with
  | load size addr f => exact .reads_bind fun v => mapCore_sameLog (f v)
  | _ => exact .pure ()

theorem transferState_inLog {k m : Nat} (x : Transfer) (hi : InLogTo k c)
    (hk : k + x.entries p ≤ maxMmu030Access + 1) :
    Settles (transferState q p m x) c (fun _ c' => InLogTo (k + x.entries p) c') NoOverrun := by
  have hcount : Stays SameLog (update (mapLog fun l => { l with state0 := l.state0 + 1 }) : Run030 M Unit) :=
    fun _ => ⟨rfl, rfl, rfl⟩
  have hmore := hi.mono (Nat.le_add_right k (x.entries p))
  refine settles_reads_bind.mpr (.ite (fun _ => .ite (fun _ => ?_) fun _ => ?_) fun _ => hmore)
  · exact hmore.stays (.bind (setState1_sameLog _) fun _ => .bind (skip_sameLog x) fun _ => hcount)
  · exact .bind (move_inLog q p x hi hk) fun _ _ h₁ => h₁.stays hcount

theorem transfers_inLog (xs : List Transfer) : ∀ {k m : Nat} {c : Cpu030 M}, InLogTo k c →
    k + movemEntries p xs ≤ maxMmu030Access + 1 → Settles (transfers (transferState q p) m xs) c
      (fun _ c' => InLogTo (k + movemEntries p xs) c') NoOverrun := by
  induction xs with
  | nil =>
    intro k m c hi _
    exact hi
  | cons x xs ih =>
    intro k m c hi hk
    rw [movemEntries, List.map_cons, List.sum_cons] at hk ⊢
    rw [← Nat.add_assoc] at hk ⊢
    refine .bind (transferState_inLog q p x hi (Nat.le_trans (Nat.le_add_right _ _) hk)) fun _ c₁ h₁ => ih h₁ hk

end Instr

/-- An instruction that never has more than the whole log in use: at most ten accesses between two
resets of the counters, of which `n` have been made. -/
def Instr.Fits (p : Prefs) : Nat → Instr → Prop
  | _, .done _ => True
  | n, .get _ _ _ k => n ≤ maxMmu030Access ∧ ∀ v, (k v).Fits p (n + 1)
  | n, .put _ _ _ _ k => n ≤ maxMmu030Access ∧ k.Fits p (n + 1)
  | n, .iword _ k => n ≤ maxMmu030Access ∧ ∀ v, (k v).Fits p (n + 1)
  | n, .ilong _ k =>
    n + ilongEntries p ≤ maxMmu030Access + 1 ∧ ∀ v, (k v).Fits p (n + ilongEntries p)
  | n, .nextIword k => n ≤ maxMmu030Access ∧ ∀ v, (k v).Fits p (n + 1)
  | n, .nextIlong k =>
    n + ilongEntries p ≤ maxMmu030Access + 1 ∧ ∀ v, (k v).Fits p (n + ilongEntries p)
  | n, .disp _ _ k => n + dispEntries p ≤ maxMmu030Access + 1 ∧ ∀ v, (k v).Fits p n
  | n, .store _ k => n ≤ maxMmu030Access ∧ ∀ v, (k v).Fits p (n + 1)
  | n, .movem xs k => n + movemEntries p xs ≤ maxMmu030Access + 1 ∧ k.Fits p (n + movemEntries p xs)
  | n, .lastWrite k => k.Fits p n
  | _, .refill k => k.Fits p 0

theorem Instr.Fits.mono {p : Prefs} {i : Instr} : ∀ {n m : Nat}, i.Fits p m → n ≤ m → i.Fits p n := by
  induction i with
  | done f =>
    intro n m _ _
    trivial
  | get space size addr k ih | iword o k ih | nextIword k ih | store v k ih =>
    intro n m h hnm
    exact ⟨hnm.trans h.1, fun v => ih v (h.2 v) (Nat.succ_le_succ hnm)⟩
  | put space size addr v k ih =>
    intro n m h hnm
    exact ⟨hnm.trans h.1, ih h.2 (Nat.succ_le_succ hnm)⟩
  | ilong o k ih | nextIlong k ih =>
    intro n m h hnm
    exact ⟨(Nat.add_le_add_right hnm _).trans h.1, fun v => ih v (h.2 v) (Nat.add_le_add_right hnm _)⟩
  | disp base idx k ih =>
    intro n m h hnm
    exact ⟨(Nat.add_le_add_right hnm _).trans h.1, fun v => ih v (h.2 v) hnm⟩
  | movem xs k ih =>
    intro n m h hnm
    exact ⟨(Nat.add_le_add_right hnm _).trans h.1, ih h.2 (Nat.add_le_add_right hnm _)⟩
  | lastWrite k ih =>
    intro n m h hnm
    exact ih h hnm
  | refill k ih =>
    intro n m h _
    exact h

/-- The step of every constructor kept the log in bounds; so does a whole instruction. -/
theorem Instr.exec_inLog {q : Port030 M} {p : Prefs} (i : Instr) :
    ∀ {n : Nat} {c : Cpu030 M}, i.Fits p n → InLog n c →
      Settles (i.exec q p) c (fun _ c' => NoOverrun c') NoOverrun := by
  induction i with
  | done f =>
    intro n c _ hi
    exact hi.overrun
  | get space size addr k ih =>
    intro n c hf hi
    exact .bind (getState_inLog q p _ _ _ hi hf.1) fun v _ hi' => ih v (hf.2 v) hi'
  | put space size addr v k ih =>
    intro n c hf hi
    exact .bind (putState_inLog q p _ _ _ _ hi hf.1) fun _ _ hi' => ih hf.2 hi'
  | iword o k ih =>
    intro n c hf hi
    exact .bind (getIwordState_inLog q p o hi hf.1) fun v _ hi' => ih v (hf.2 v) hi'
  | ilong o k ih =>
    intro n c hf hi
    exact .bind (getIlongState_inLog q p o hi hf.1) fun v _ hi' => ih v (hf.2 v) hi'
  | nextIword k ih =>
    intro n c hf hi
    exact .bind (nextIwordState_inLog q p hi hf.1) fun v _ hi' => ih v (hf.2 v) hi'
  | nextIlong k ih =>
    intro n c hf hi
    exact .bind (nextIlongState_inLog q p hi hf.1) fun v _ hi' => ih v (hf.2 v) hi'
  | disp base idx k ih =>
    intro n c hf hi
    exact .bind (getDispEa_inLog q p _ _ hi hf.1) fun v _ hi' => ih v (hf.2 v) hi'
  | store v k ih =>
    intro n c hf hi
    exact .bind (stateStore_inLog v hi hf.1) fun v _ hi' => ih v (hf.2 v) hi'
  | movem xs k ih =>
    intro n c hf hi
    refine .bind (m := setState1 _) (P := fun _ c' => InLog n c') (hi.same ⟨rfl, rfl, rfl⟩) fun _ c₁ h₁ => ?_
    refine .bind (transfers_inLog q p xs ⟨n, le_rfl, h₁⟩ hf.1) fun _ c₂ h₂ => ?_
    obtain ⟨m, hm, h₂⟩ := h₂
    exact ih (hf.2.mono hm) h₂
  | lastWrite k ih =>
    intro n c hf hi
    exact .bind (m := setFaultPc) (P := fun _ c' => InLog n c') (hi.same ⟨rfl, rfl, rfl⟩) fun _ c₁ h₁ => ih hf h₁
  | refill k ih =>
    intro n c hf hi
    have hreset : InLog 0 (mapLog (fun l => { l with idx := 0, idxDone := 0 }) c) :=
      ⟨rfl, Nat.zero_le _, hi.overrun⟩
    have hfill : Settles (fillPrefetch030Ntx q) c (fun _ c' => InLog 0 c') NoOverrun :=
      (q.refill_log _).mono (fun _ _ hs => hreset.same hs) fun _ hs => hs.noOverrun hi.overrun
    exact .bind hfill fun _ _ hi' => ih hf hi'

/-! ## What RTE reads -/

/-- Memory shows `fr` at `a7`: every aligned piece of the 92 bytes from `a7` on that the MMU lets a
read through to is that piece of `fr`. -/
def ShowsFrame (q : Port030 M) (fr : Long → Byte) (a7 : Long) (mem : Long → Byte) : Prop :=
  ∀ size off fc m phys m', isUnalignedBus (a7 + off) size = false →
    off.toNat + size.bytes.toNat ≤ 92 →
    q.translate false false fc (a7 + off) m = (some phys, m') →
    readMem size mem phys = readMem size fr off

/-- A read so far: the log, memory and what the frame is read for are as they were. -/
structure ReadKept (c c' : Cpu030 M) : Prop extends SameLog c c' where
  mem : c'.world.mem = c.world.mem

namespace ReadKept

theorem trans {c₁ c₂ c₃ : Cpu030 M} (h : ReadKept c₁ c₂) (h' : ReadKept c₂ c₃) : ReadKept c₁ c₃ :=
  ⟨h.toSameLog.trans h'.toSameLog, h'.mem.trans h.mem⟩

end ReadKept

theorem append_eq_or {n m : Nat} (a : BitVec n) (b : BitVec m) :
    a ++ b = ((a.setWidth (n + m)) <<< m) ||| b.setWidth (n + m) := by
  apply BitVec.eq_of_getLsbD_eq
  intro i hi
  simp only [BitVec.getLsbD_append, BitVec.getLsbD_or, BitVec.getLsbD_shiftLeft,
    BitVec.getLsbD_setWidth]
  by_cases h : i < m
  · simp [h, hi]
  · have := BitVec.getLsbD_of_ge b i (by omega)
    simp [h, hi, this, show i - m < n + m by omega]

/-- A word put together from its bytes. -/
theorem readMem_word (f : Long → Byte) (a : Long) :
    readMem .word f a = (readMem .byte f a <<< 8) ||| readMem .byte f (a + 1) := by
  apply BitVec.eq_of_getLsbD_eq
  intro i hi
  simp only [readMem, rd16, ofFun, BitVec.getLsbD_append, BitVec.getLsbD_or,
    BitVec.getLsbD_shiftLeft, BitVec.getLsbD_setWidth]
  by_cases h : i < 8
  · simp [h, hi]
  · have : (f (a + 1#32)).getLsbD i = false := BitVec.getLsbD_of_ge _ i (by omega)
    simp [h, hi, this, show i - 8 < 32 by omega]

/-- A long put together from its words. -/
theorem readMem_long (f : Long → Byte) (a : Long) :
    readMem .long f a = (readMem .word f a <<< 16) ||| readMem .word f (a + 2) :=
  append_eq_or _ _

/-- An odd long, put together from a byte, a word and a byte. -/
theorem readMem_long_odd (f : Long → Byte) (a : Long) :
    readMem .long f a = (readMem .byte f a <<< 24) ||| (readMem .word f (a + 1) <<< 8) |||
      readMem .byte f (a + 3) := by
  rw [readMem_long, readMem_word, readMem_word, readMem_word]
  have h2 : a + 2 + 1 = a + 3 := by bv_omega
  have h1 : a + 1 + 1 = a + 2 := by bv_omega
  rw [h1, h2]
  simp only [BitVec.shiftLeft_or_distrib, ← BitVec.shiftLeft_add, BitVec.or_assoc]

section Frame

variable {q : Port030 M} {p : Prefs} {fr : Long → Byte} {a7 : Long} {c : Cpu030 M} {β : Type}

/-- One piece of the frame: it is read as it is, or the read faults. -/
theorem piece_settles (size : AccessSize) {off addr fc : Long} {flags : Word}
    (ha : addr = a7 + off) (hs : ShowsFrame q fr a7 c.world.mem) (hc : NoOverrun c)
    (hal : isUnalignedBus addr size = false) (hoff : off.toNat + size.bytes.toNat ≤ 92)
    (hrm : flags &&& mmu030SswRm = 0) :
    Settles (mmu030GetGeneric q p addr fc size flags) c
      (fun v c' => v = readMem size fr off ∧ ∃ u, c' = setMmu u c) NoOverrun := by
  subst ha
  have hd : decide (flags &&& mmu030SswRm ≠ 0) = false := decide_eq_false (not_not.mpr hrm)
  obtain ⟨phys, u, ht⟩ : ∃ phys u,
      q.translate false (flags &&& mmu030SswRm ≠ 0) fc (a7 + off) c.world.mmu = (phys, u) :=
    ⟨_, _, rfl⟩
  cases phys with
  | some a =>
    have hv : readMem size c.world.mem a = readMem size fr off := by
      rw [hd] at ht
      exact hs size off fc _ a u hal hoff ht
    exact .ret (getGeneric_some ht) ⟨hv, u, rfl⟩
  | none =>
    rw [Settles, getGeneric_none ht]
    exact (notePageFault_sameLog p _ true flags fc (setMmu u c)).noOverrun hc

theorem and_one_eq_zero (a : Long) : a &&& 1 = 0 ↔ a.toNat % 2 = 0 := by
  rw [← BitVec.toNat_inj, BitVec.toNat_and]
  exact Nat.and_one_is_mod a.toNat ▸ Iff.rfl

/-- In the middle of an unaligned read: `x` has been put together in the output buffer. -/
structure Reading (c₀ : Cpu030 M) (x : Long) (c : Cpu030 M) : Prop extends ReadKept c₀ c where
  buf : c.latch.log.dataBufferOut = x

section Unaligned

variable {c₀ : Cpu030 M} {x : Long} {Q : β → Cpu030 M → Prop}

theorem Reading.state1 {f : Word → Word} {k : Unit → Run030 M β} (hr : Reading c₀ x c)
    (hk : ∀ c', Reading c₀ x c' → Settles (k ()) c' Q NoOverrun) :
    Settles (setState1 f >>= k) c Q NoOverrun :=
  hk _ ⟨hr.toReadKept.trans ⟨⟨rfl, rfl, rfl⟩, rfl⟩, hr.buf⟩

theorem Reading.set {f : Long → Long} {k : Unit → Run030 M β} (hr : Reading c₀ x c)
    (hk : ∀ c', Reading c₀ (f x) c' → Settles (k ()) c' Q NoOverrun) :
    Settles (setDataBufferOut f >>= k) c Q NoOverrun :=
  hk _ ⟨hr.toReadKept.trans ⟨⟨rfl, rfl, rfl⟩, rfl⟩, congrArg f hr.buf⟩

theorem Reading.piece (size : AccessSize) {off addr fc : Long} {flags : Word}
    {k : Long → Run030 M β} (hr : Reading c₀ x c) (hs : ShowsFrame q fr a7 c₀.world.mem)
    (hc : NoOverrun c₀) (ha : addr = a7 + off) (hal : isUnalignedBus addr size = false)
    (hoff : off.toNat + size.bytes.toNat ≤ 92) (hrm : flags &&& mmu030SswRm = 0)
    (hk : ∀ c', Reading c₀ x c' → Settles (k (readMem size fr off)) c' Q NoOverrun) :
    Settles (mmu030GetGeneric q p addr fc size flags >>= k) c Q NoOverrun := by
  have hs' : ShowsFrame q fr a7 c.world.mem := by rw [hr.mem]; exact hs
  refine .bind (piece_settles size ha hs' (hr.noOverrun hc) hal hoff hrm) ?_
  rintro _ _ ⟨rfl, u, rfl⟩
  exact hk _ ⟨hr.toReadKept.trans ⟨⟨rfl, rfl, rfl⟩, rfl⟩, hr.buf⟩

/-- The end of an unaligned read. -/
theorem Reading.done (hr : Reading c₀ x c) :
    Settles (do unalignClear; reads (·.latch.log.dataBufferOut)) c
      (fun v c' => v = x ∧ ReadKept c₀ c') NoOverrun :=
  hr.state1 fun _ hr' => ⟨hr'.buf, hr'.toReadKept⟩

end Unaligned

theorem Reading.start (c : Cpu030 M) : Reading c c.latch.log.dataBufferOut c :=
  ⟨⟨.refl c, rfl⟩, rfl⟩

theorem wordUnaligned_frame {off fc : Long} (hs : ShowsFrame q fr a7 c.world.mem)
    (hc : NoOverrun c) (hoff : off.toNat + 2 ≤ 92) :
    Settles (mmu030GetWordUnaligned q p (a7 + off) fc 0) c
      (fun v c' => v = readMem .word fr off ∧ ReadKept c c') NoOverrun := by
  have h0 : off.toNat + 1 ≤ 92 := by omega
  have h1 : (off + 1).toNat + 1 ≤ 92 := by bv_omega
  rw [readMem_word]
  refine (Reading.start c).state1 fun _ hr => hr.piece .byte hs hc rfl rfl h0 rfl fun _ hr => ?_
  refine hr.set fun _ hr => hr.state1 fun _ hr => ?_
  refine hr.piece .byte hs hc (BitVec.add_assoc a7 off 1) rfl h1 rfl fun _ hr => ?_
  exact hr.set fun _ hr => hr.done

theorem longUnaligned_frame {off fc : Long} (hs : ShowsFrame q fr a7 c.world.mem)
    (hc : NoOverrun c) (hoff : off.toNat + 4 ≤ 92) :
    Settles (mmu030GetLongUnaligned q p (a7 + off) fc 0) c
      (fun v c' => v = readMem .long fr off ∧ ReadKept c c') NoOverrun := by
  have hal : ∀ b : Long, b &&& 1 = 0 → isUnalignedBus b .word = false := fun b hb =>
    decide_eq_false (not_not.mpr hb)
  refine .ite (fun he => ?_) fun ho => ?_
  · have he2 : (a7 + off + 2) &&& 1 = 0 := by
      rw [and_one_eq_zero] at *
      bv_omega
    have h0 : off.toNat + 2 ≤ 92 := by omega
    have h2 : (off + 2).toNat + 2 ≤ 92 := by bv_omega
    rw [readMem_long]
    refine (Reading.start c).state1 fun _ hr => ?_
    refine hr.piece .word hs hc rfl (hal _ he) h0 rfl fun _ hr => ?_
    refine hr.set fun _ hr => hr.state1 fun _ hr => ?_
    refine hr.piece .word hs hc (BitVec.add_assoc a7 off 2) (hal _ he2) h2 rfl fun _ hr => ?_
    exact hr.set fun _ hr => hr.done
  · have he1 : (a7 + off + 1) &&& 1 = 0 := by
      rw [and_one_eq_zero] at *
      bv_omega
    have h0 : off.toNat + 1 ≤ 92 := by omega
    have h1 : (off + 1).toNat + 2 ≤ 92 := by bv_omega
    have h3 : (off + 3).toNat + 1 ≤ 92 := by bv_omega
    rw [readMem_long_odd]
    refine (Reading.start c).state1 fun _ hr => ?_
    refine hr.piece .byte hs hc rfl rfl h0 rfl fun _ hr => ?_
    refine hr.set fun _ hr => hr.state1 fun _ hr => ?_
    refine hr.piece .word hs hc (BitVec.add_assoc a7 off 1) (hal _ he1) h1 rfl fun _ hr => ?_
    refine hr.set fun _ hr => hr.state1 fun _ hr => ?_
    refine hr.piece .byte hs hc (BitVec.add_assoc a7 off 3) rfl h3 rfl fun _ hr => ?_
    exact hr.set fun _ hr => hr.done

/-- A field of the frame, however it is aligned. -/
theorem get_frame (size : AccessSize) {off : Long} (hs : ShowsFrame q fr a7 c.world.mem)
    (hc : NoOverrun c) (hoff : off.toNat + size.bytes.toNat ≤ 92) :
    Settles (uaeMmu030Get q p size (a7 + off)) c
      (fun v c' => v = readMem size fr off ∧ ReadKept c c') NoOverrun := by
  refine .ite (fun hu => ?_) fun hu => ?_
  · cases size with
    | byte => cases hu
    | word => exact wordUnaligned_frame hs hc hoff
    | long => exact longUnaligned_frame hs hc hoff
  · refine (piece_settles size rfl hs hc (Bool.eq_false_iff.mpr hu) hoff ?_).mono ?_ fun _ h => h
    · cases size <;> rfl
    · rintro _ _ ⟨rfl, u, rfl⟩
      exact ⟨rfl, ⟨rfl, rfl, rfl⟩, rfl⟩

end Frame

end UaeCpu.Restart
