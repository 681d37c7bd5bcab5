import UaeCpu.EffectiveAddress030
import UaeCpu.RteBounds
import UaeCpu.RteCounts
import UaeCpu.Run

/-!
# UaeCpu.HostLog

The access log of the 68030 under `uae_host_run` and `uae_host_step`, which start an instruction
without emptying it.

* `Instr.onBus`    — a handler whose accesses are all made on the bus, with the counters in the array.
* `Instr.Fresh`    — nothing that the handler does is taken for done.
* `HostCall.Ready` — what the log has to look like when an instruction is started.
* `host_log_fresh` — in a run of ready instructions every one of them runs so.
-/

namespace UaeCpu.Restart

open Fault FaultM Ea

variable {M α : Type}

/-! ## On the bus -/

section Bus

variable (q : Port030 M) (p : Prefs)

/-- The counters stand within `mmu030_ad`: elsewhere there is nothing to come back with. -/
def countersFit : Run030 M Unit := fun c =>
  if c.latch.log.idx ≤ maxMmu030Access ∧ c.latch.log.idxDone ≤ maxMmu030Access then .ret () c else .diverge

/-- A `get_*_state` accessor as it is meant for an instruction that has just been started. -/
def busGet (miss : Run030 M Unit) (perform : Run030 M Long) : Run030 M Long := do
  countersFit
  update (mapLog fun l => { l with idx := l.idx + 1 })
  let v ← perform
  miss
  accessExit v
  pure v

/-- A `put_*_state` accessor. -/
def busPut (v : Long) (perform : Run030 M Unit) : Run030 M Unit := do
  countersFit
  update (mapLog fun l => { l with idx := l.idx + 1 })
  setDataBufferOut fun _ => v
  perform
  let d ← reads (·.latch.log.dataBufferOut)
  accessExit d

def busStep (i : Ask) : Run030 M Long := busGet (bump i) (perform q p i)

def busIword (o : Long) : Run030 M Long :=
  busGet (pure ()) do
    let r ← reads (·.regs)
    if p.cpuCompatible then q.wordPrefetch o else uaeMmu030GetIword q p (r.pc + o)

def busIlong (o : Long) : Run030 M Long := do
  if p.cpuCompatible then
    let hi ← busIword q p o
    let lo ← busIword q p (o + 2)
    pure ((hi <<< 16) ||| (lo &&& 0xFFFF))
  else
    busGet (pure ()) do
      let r ← reads (·.regs)
      uaeMmu030GetIlong q p (r.pc + o)

/-- `get_disp_ea_020_mmu030` with an address that is decoded. -/
def busDisp (base : Long) (idx : Fin 2) : Run030 M Long := do
  let l ← reads (·.latch.log)
  let oldidx := l.idx
  let dp ← busStep q p .iword
  let r ← reads (·.regs)
  let (v, pcadd) ← (extTree (longTree p) (reg16 r) (dp.setWidth 16) base).exec (busStep q p)
  update (mapLog fun l => { l with
    state1 := l.state1 ||| (1 <<< idx.val), state2 := l.state2 ||| (pcadd <<< (idx.val * 4))
    dispStore0 := if idx.val = 0 then v else l.dispStore0
    dispStore1 := if idx.val = 0 then l.dispStore1 else v
    idx := oldidx, idxDone := oldidx })
  pure v

def busMove : Transfer → Run030 M Unit
  | .last size addr v o f => saveBuffer q p size addr v do
    if p.cpuCompatible then do
      let w ← busIword q p o
      update fun c => c.mapRegs fun r => { r with irc := w.setWidth 16 }
    mapCore f
    setFaultPc
    setState1 (· &&& ~~~stateflag1Movem1)
  | x => x.move q p

/-- A transfer of MOVEM that is made and counted. -/
def busTransfer (_n : Nat) (x : Transfer) : Run030 M Unit := do
  busMove q p x
  update (mapLog fun l => { l with state0 := l.state0 + 1 })

/-- A handler whose accesses are all made. -/
def Instr.onBus : Instr → Run030 M Unit
  | .done f => update fun c => { c with toCore := f c.toCore }
  | .get space size addr k => do
    let v ← busGet (pure ()) do
      let r ← reads (·.regs)
      mmu030GetFcx q p size addr (space.fc true r) space.rm
    (k v).onBus
  | .put space size addr v k => do
    busPut v do
      let r ← reads (·.regs)
      mmu030PutFcx q p size addr v (space.fc false r) space.rm
    k.onBus
  | .iword o k => do
    let v ← busIword q p o
    (k v).onBus
  | .ilong o k => do
    let v ← busIlong q p o
    (k v).onBus
  | .nextIword k => do
    let v ← busStep q p .iword
    (k v).onBus
  | .nextIlong k => do
    let v ← (longTree p).exec (busStep q p)
    (k v).onBus
  | .disp base idx k => do
    let v ← busDisp q p base idx
    (k v).onBus
  | .store v k => do
    let v ← busGet (pure ()) (pure v)
    (k v).onBus
  | .movem xs k => do
    setState1 (· ||| stateflag1Movem1)
    transfers (busTransfer q p) 0 xs
    k.onBus
  | .lastWrite k => do
    setFaultPc
    k.onBus
  | .refill k => do
    fillPrefetch030Ntx q
    k.onBus

end Bus

/-! ## What an access leaves alone -/

/-- The flags that decide what an instruction finds done: MOVEM2, and the two addresses. -/
def doneFlags : Word := 0x8003

/-- The counters of the log and what else stands for accesses that have been made. -/
structure SameState (c c' : Cpu030 M) : Prop extends SameFlags doneFlags c c' where
  state0 : c'.latch.log.state0 = c.latch.log.state0

section Kept

theorem SameState.refl (c : Cpu030 M) : SameState c c := ⟨Std.Refl.refl c, rfl⟩

theorem SameState.trans {c₁ c₂ c₃ : Cpu030 M} (h : SameState c₁ c₂) (h' : SameState c₂ c₃) : SameState c₁ c₃ :=
  ⟨Trans.trans h.toSameFlags h'.toSameFlags, h'.state0.trans h.state0⟩

instance : Std.Refl (SameState (M := M)) := ⟨.refl⟩

instance : IsTrans (Cpu030 M) (SameState (M := M)) := ⟨fun _ _ _ => .trans⟩

theorem SameState.of_eq {c c' : Cpu030 M} (hlog : c'.latch.log = c.latch.log)
    (ho : c'.world.overrun = c.world.overrun) : SameState c c' := by
  refine ⟨⟨⟨?_, ?_, ho⟩, ?_⟩, ?_⟩
  all_goals rw [hlog]

theorem doneFlags_writeRel : WriteRel (SameFlags (M := M) doneFlags) := sameFlags_writeRel (by decide)

theorem sameState_writeRel : WriteRel (SameState (M := M)) where
  state1 f hf c := ⟨doneFlags_writeRel.state1 f hf c, rfl⟩
  dataBufferOut _ _ := ⟨⟨⟨rfl, rfl, rfl⟩, rfl⟩, rfl⟩
  mmu _ _ := .of_eq rfl rfl
  pageFault p addr read flags fc c := by
    refine ⟨doneFlags_writeRel.pageFault p addr read flags fc c, ?_⟩
    rw [notePageFault_log]
  mem _ _ := .of_eq rfl rfl

theorem sameState_readRel : ReadRel (SameState (M := M)) := sameState_writeRel.toReadRel

/-- What `get_word_030_prefetch` and `fill_prefetch_030_ntx` leave alone. -/
structure Port030.Quiet (q : Port030 M) : Prop where
  wordPrefetch : ∀ o, Stays SameState (q.wordPrefetch o)
  refill : Stays SameState q.refill

variable {q : Port030 M} {p : Prefs}

theorem iword_stays (hq : q.Quiet) (o : Long) (r : Regs) :
    Stays SameState (if p.cpuCompatible then q.wordPrefetch o else uaeMmu030GetIword q p (r.pc + o)) :=
  .ite (fun _ => hq.wordPrefetch o) fun _ => sameState_readRel.uaeMmu030GetIword_stays q p _

theorem perform_stays (hq : q.Quiet) (i : Ask) : Stays SameState (perform q p i) := by
  cases i with
  | iword =>
    exact .reads_bind fun r => .ite (fun _ => hq.wordPrefetch 0)
      fun _ => sameState_readRel.uaeMmu030GetIword_stays q p r.pc
  | ilong => exact .reads_bind fun r => sameState_readRel.uaeMmu030GetIlong_stays q p r.pc
  | long a => exact .reads_bind fun _ => sameState_readRel.getFcx_stays q p _ _ _ _

theorem bump_stays (i : Ask) : Stays SameState (bump i : Run030 M Unit) := by
  cases i with
  | long a => exact .pure ()
  | _ => exact fun _ => .of_eq rfl rfl

theorem mapCore_stays (f : Core → Core) : Stays SameState (mapCore f : Run030 M Unit) := fun _ => .of_eq rfl rfl

theorem setFlag_stays {f : Word → Word} (hf : ∀ s, f s &&& doneFlags = s &&& doneFlags) :
    Stays SameState (setState1 f : Run030 M Unit) := fun c => ⟨⟨⟨rfl, rfl, rfl⟩, hf c.latch.log.state1⟩, rfl⟩

theorem setFaultPc_stays : Stays SameState (setFaultPc : Run030 M Unit) :=
  .update_bind (fun _ => .of_eq rfl rfl) (setFlag_stays (or_and_of_apart (by decide)))

end Kept

/-! ## A handler that finds nothing done -/

/-- `n` accesses have been made since the counters were cleared, and none of them is to come again; `s`
are the flags of what is done, `m` transfers of a MOVEM are through. -/
structure Clean (n m : Nat) (s : Word) (c : Cpu030 M) : Prop where
  idx : c.latch.log.idx = n
  idxDone : c.latch.log.idxDone ≤ n
  through : c.latch.log.state0.toNat = m
  done : c.latch.log.state1 &&& doneFlags = s
  overrun : NoOverrun c

section Handler

variable {q : Port030 M} {p : Prefs} {n m : Nat} {s : Word} {c c' : Cpu030 M}

theorem Clean.same (h : Clean n m s c) (hs : SameState c c') : Clean n m s c' :=
  ⟨hs.idx.trans h.idx, hs.idxDone ▸ h.idxDone, (congrArg BitVec.toNat hs.state0).trans h.through,
    hs.state1.trans h.done, hs.overrun.trans h.overrun⟩

theorem Clean.ordered (h : Clean n m s c) : Ordered c where
  counts := h.idx ▸ h.idxDone
  overrun := h.overrun

/-- The access counted. -/
def counted (c : Cpu030 M) : Cpu030 M := mapLog (fun l => { l with idx := l.idx + 1 }) c

theorem Clean.counted (h : Clean n m s c) : Clean (n + 1) m s (counted c) :=
  ⟨congrArg (· + 1) h.idx, Nat.le_succ_of_le h.idxDone, h.through, h.done, h.overrun⟩

theorem Clean.of_stays {x : Run030 M α} (h : Clean n m s c) (hx : Stays SameState x) :
    Settles x c (fun _ c' => SameState c c' ∧ Clean n m s c') Ordered :=
  (hx c).mono (fun _ _ hs => ⟨hs, h.same hs⟩) fun _ hs => (h.same hs).ordered

/-- What leaves the log alone, in both. -/
theorem Clean.agrees {x : Run030 M α} (h : Clean n m s c) (hx : Stays SameState x) :
    Agrees x x c (fun _ => Clean n m s) Ordered :=
  .same ((h.of_stays hx).mono (fun _ _ h => h.2) fun _ h => h)

theorem accessCheck_of_le (h : c.latch.log.idxDone ≤ c.latch.log.idx) : accessCheck c = .ret none (counted c) := by
  rw [accessCheck_apply, if_neg (Nat.not_lt.mpr h)]
  rfl

theorem countersFit_clean (h : Clean n m s c) (hn : n ≤ maxMmu030Access) : countersFit c = .ret () c :=
  if_pos ⟨h.idx ▸ hn, Nat.le_trans h.idxDone hn⟩

theorem accessExit_settles {v : Long} (h : Clean (n + 1) m s c) (hd : c.latch.log.idxDone ≤ n)
    (hn : n ≤ maxMmu030Access) : Settles (accessExit v) c (fun _ => Clean (n + 1) m s) Ordered :=
  .ret (accessExit_of_le (Nat.le_trans hd hn)) ⟨h.idx, Nat.succ_le_succ hd, h.through, h.done, h.overrun⟩

theorem accessGet_agrees {hit miss : Run030 M Unit} {perform : Run030 M Long} (hp : Stays SameState perform)
    (hm : Stays SameState miss) (h : Clean n m s c) (hn : n ≤ maxMmu030Access) :
    Agrees (accessGet hit miss perform) (busGet miss perform) c (fun _ => Clean (n + 1) m s) Ordered := by
  have hlog : accessGet hit miss perform c = (do let v ← perform; miss; accessExit v; pure v) (counted c) := by
    rw [accessGet, bind_ret (accessCheck_of_le h.ordered.counts)]
  have hbus : busGet miss perform c = (do let v ← perform; miss; accessExit v; pure v) (counted c) := by
    rw [busGet, bind_ret (countersFit_clean h hn)]
    rfl
  refine ⟨hlog.trans hbus.symm, (settles_congr hbus).mpr ?_⟩
  refine Settles.bind (h.counted.of_stays hp) fun v c₁ h₁ => Settles.bind (h₁.2.of_stays hm) fun _ c₂ h₂ => ?_
  have hs : SameState (counted c) c₂ := h₁.1.trans h₂.1
  exact Settles.bind (accessExit_settles h₂.2 (hs.idxDone ▸ h.idxDone) hn) fun _ _ h => h

theorem accessPut_agrees {v : Long} {perform : Run030 M Unit} (hp : Stays SameState perform) (h : Clean n m s c)
    (hn : n ≤ maxMmu030Access) :
    Agrees (accessPut v perform) (busPut v perform) c (fun _ => Clean (n + 1) m s) Ordered := by
  let rest : Run030 M Unit := do
    setDataBufferOut fun _ => v
    perform
    let d ← reads (·.latch.log.dataBufferOut)
    accessExit d
  have hlog : accessPut v perform c = rest (counted c) := by
    rw [accessPut, bind_ret (accessCheck_of_le h.ordered.counts)]
  have hbus : busPut v perform c = rest (counted c) := by
    rw [busPut, bind_ret (countersFit_clean h hn)]
    rfl
  refine ⟨hlog.trans hbus.symm, (settles_congr hbus).mpr ?_⟩
  refine Settles.bind (h.counted.of_stays (sameState_readRel.setDataBufferOut_stays _)) fun _ c₁ h₁ =>
    Settles.bind (h₁.2.of_stays hp) fun _ c₂ h₂ => ?_
  have hs : SameState (counted c) c₂ := h₁.1.trans h₂.1
  exact accessExit_settles h₂.2 (hs.idxDone ▸ h.idxDone) hn

theorem get_agrees (space : DataSpace) (size : AccessSize) (addr : Long) (h : Clean n m s c)
    (hn : n ≤ maxMmu030Access) : Agrees (getState q p space size addr) (busGet (pure ()) do
      let r ← reads (·.regs)
      mmu030GetFcx q p size addr (space.fc true r) space.rm) c (fun _ => Clean (n + 1) m s) Ordered :=
  accessGet_agrees (.reads_bind fun _ => sameState_readRel.getFcx_stays q p _ _ _ _) (.pure ()) h hn

theorem put_agrees (space : DataSpace) (size : AccessSize) (addr v : Long) (h : Clean n m s c)
    (hn : n ≤ maxMmu030Access) : Agrees (putState q p space size addr v) (busPut v do
      let r ← reads (·.regs)
      mmu030PutFcx q p size addr v (space.fc false r) space.rm) c (fun _ => Clean (n + 1) m s) Ordered :=
  accessPut_agrees (.reads_bind fun _ => sameState_writeRel.putFcx_stays q p _ _ _ _ _) h hn

theorem step030_agrees (hq : q.Quiet) (i : Ask) (h : Clean n m s c) (hn : n ≤ maxMmu030Access) :
    Agrees (step030 q p i) (busStep q p i) c (fun _ => Clean (n + 1) m s) Ordered :=
  accessGet_agrees (perform_stays hq i) (bump_stays i) h hn

theorem iword_agrees (hq : q.Quiet) (o : Long) (h : Clean n m s c) (hn : n ≤ maxMmu030Access) :
    Agrees (getIwordState q p o) (busIword q p o) c (fun _ => Clean (n + 1) m s) Ordered :=
  accessGet_agrees (.reads_bind fun r => iword_stays hq o r) (.pure ()) h hn

theorem ilong_agrees (hq : q.Quiet) (o : Long) (h : Clean n m s c) (hn : n + ilongEntries p ≤ maxMmu030Access + 1) :
    Agrees (getIlongState q p o) (busIlong q p o) c (fun _ => Clean (n + ilongEntries p) m s) Ordered := by
  unfold getIlongState busIlong ilongEntries at *
  by_cases hc : p.cpuCompatible = true
  · simp only [if_pos hc] at hn ⊢
    refine (iword_agrees hq o h (by omega)).bind fun hi c₁ h₁ => ?_
    exact (iword_agrees hq (o + 2) h₁ (by omega)).bind fun lo c₂ h₂ => .same h₂
  · simp only [if_neg hc] at hn ⊢
    exact accessGet_agrees (.reads_bind fun r => sameState_readRel.uaeMmu030GetIlong_stays q p _) (.pure ()) h
      (by omega)

theorem nextIlong_agrees (hq : q.Quiet) (h : Clean n m s c) (hn : n + ilongEntries p ≤ maxMmu030Access + 1) :
    Agrees (nextIlongState q p) ((longTree p).exec (busStep q p)) c
      (fun _ => Clean (n + ilongEntries p) m s) Ordered := by
  rw [nextIlongState_exec]
  unfold longTree ilongEntries at *
  by_cases hc : p.cpuCompatible = true
  · simp only [if_pos hc, twoWords, Tree.exec_bind, Tree.exec_query, Tree.exec_pure] at hn ⊢
    refine (step030_agrees hq .iword h (by omega)).bind fun hi c₁ h₁ => ?_
    exact (step030_agrees hq .iword h₁ (by omega)).bind fun lo c₂ h₂ => .same h₂
  · simp only [if_neg hc, oneLong, Tree.exec_query] at hn ⊢
    exact step030_agrees hq .ilong h (by omega)

/-! ### Decoded addresses -/

theorem longTree_atMost : (longTree p).AtMost (ilongEntries p) := by
  unfold longTree ilongEntries
  split
  · exact (Tree.atMost_query _).bind fun _ => (Tree.atMost_query _).bind fun _ => Tree.atMost_pure _ 0
  · exact Tree.atMost_query _

theorem dispTree_atMost (w : Word) : (dispTree (longTree p) w).AtMost (ilongEntries p) := by
  refine .ite (fun _ => ?_) fun _ => .ite (fun _ => ?_) fun _ => Tree.atMost_pure _ _
  · exact ((Tree.atMost_query _).bind fun _ => Tree.atMost_pure _ 0).mono (ilongEntries_pos p)
  · exact longTree_atMost.bind fun _ => Tree.atMost_pure _ 0

theorem extTree_atMost (regs : BitVec 4 → Long) (dp : Word) (base : Long) :
    (extTree (longTree p) regs dp base).AtMost (2 * ilongEntries p + 1) := by
  refine .ite (fun _ => ?_) fun _ => Tree.atMost_pure _ _
  refine ((dispTree_atMost _).bind (m := ilongEntries p + 1) fun x => ?_).mono (by omega)
  refine (dispTree_atMost _).bind (m := 1) fun y => .ite (fun _ => ?_) fun _ => Tree.atMost_pure _ 1
  exact (Tree.atMost_query _).bind (m := 0) fun _ => Tree.atMost_pure _ 0

/-- The flags of the two addresses are among them. -/
theorem done_flag : ∀ idx : Fin 2, doneFlags &&& ((1 <<< idx.val : Nat) : Word) = ((1 <<< idx.val : Nat) : Word) := by
  decide

theorem done_or (idx : Fin 2) {x s : Word} (h : x &&& doneFlags = s) :
    (x ||| (1 <<< idx.val)) &&& doneFlags = s ||| (1 <<< idx.val) := by
  rw [BitVec.and_comm, BitVec.and_or_distrib_left, done_flag, BitVec.and_comm doneFlags x, h]

theorem flag_of_done {x s b : Word} (h : x &&& doneFlags = s) (hb : doneFlags &&& b = b) : x &&& b = s &&& b := by
  rw [← h, BitVec.and_assoc, hb]

theorem disp_agrees (hq : q.Quiet) (base : Long) (idx : Fin 2) (h : Clean n m s c)
    (hn : n + dispEntries p ≤ maxMmu030Access + 1) (hs : s &&& (1 <<< idx.val) = 0) :
    Agrees (getDispEa020Mmu030 q p base idx) (busDisp q p base idx) c
      (fun _ => Clean n m (s ||| (1 <<< idx.val))) Ordered := by
  have hbit : c.latch.log.state1 &&& (1 <<< idx.val) = 0 := (flag_of_done h.done (done_flag idx)).trans hs
  unfold dispEntries at hn
  unfold getDispEa020Mmu030 busDisp
  refine .reads_bind ?_
  rw [if_neg (not_not.mpr hbit)]
  refine (step030_agrees hq .iword h (by omega)).bind fun dp c₁ h₁ => ?_
  rw [extensionEa_exec, bind_assoc]
  refine .reads_bind ?_
  have htree := Tree.exec_agrees (I := fun n => Clean n m s) (l := maxMmu030Access + 1)
    (fun i n c hn h => step030_agrees (p := p) hq i h (Nat.le_of_lt_succ hn))
    (extTree (longTree p) (reg16 c₁.regs) (dp.setWidth 16) base) (extTree_atMost _ _ _) (by omega) h₁
  refine htree.bind fun x c₂ h₂ => ?_
  obtain ⟨k, -, h₂⟩ := h₂
  exact .same ⟨h.idx, Nat.le_of_eq h.idx, h₂.through, done_or idx h₂.done, h₂.overrun⟩

/-! ### MOVEM -/

theorem saveBuffer_agrees {size : AccessSize} {addr : Long} {v : Core → Long} {before before' : Run030 M Unit} {k : Nat}
    (hb : ∀ c', Clean n m s c' → Agrees before before' c' (fun _ => Clean k m s) Ordered) (h : Clean n m s c) :
    Agrees (saveBuffer q p size addr v before) (saveBuffer q p size addr v before') c
      (fun _ => Clean k m s) Ordered := by
  have hset : Stays SameState
      (update fun c => mapLog (fun l => { l with dataBufferOut := v c.toCore }) c : Run030 M Unit) :=
    fun _ => ⟨⟨⟨rfl, rfl, rfl⟩, rfl⟩, rfl⟩
  refine (h.agrees hset).bind fun _ c₁ h₁ => (hb c₁ h₁).bind fun _ c₂ h₂ => ?_
  exact h₂.agrees (.reads_bind fun w => sameState_writeRel.uaeMmu030Put_stays q p size addr w)

theorem move_agrees (hq : q.Quiet) (x : Transfer) (h : Clean n m s c) (hn : n + x.entries p ≤ maxMmu030Access + 1) :
    Agrees (x.move q p) (busMove q p x) c (fun _ => Clean (n + x.entries p) m s) Ordered := by
  cases x with
  | load size addr f =>
    refine h.agrees (.bind (sameState_readRel.uaeMmu030Get_stays q p size addr) fun v => mapCore_stays (f v))
  | save size addr v => exact saveBuffer_agrees (fun _ h => h.agrees (.pure ())) h
  | last size addr v o f =>
    have hrest : Stays SameState (do mapCore f; setFaultPc; setState1 (· &&& ~~~stateflag1Movem1) : Run030 M Unit) :=
      .bind (mapCore_stays f) fun _ => .bind setFaultPc_stays fun _ => setFlag_stays fun s => by
        rw [BitVec.and_assoc]
        rfl
    refine saveBuffer_agrees (fun c₁ h₁ => ?_) h
    simp only [Transfer.entries, getPrefetch020] at hn ⊢
    by_cases hc : p.cpuCompatible = true
    · simp only [if_pos hc] at hn ⊢
      rw [bind_assoc]
      refine (iword_agrees hq o h₁ (by omega)).bind fun w c₂ h₂ => ?_
      have hirc : Stays SameState
          (update fun c => c.mapRegs fun r => { r with irc := w.setWidth 16 } : Run030 M Unit) :=
        fun _ => ⟨⟨⟨rfl, rfl, rfl⟩, rfl⟩, rfl⟩
      exact (h₂.agrees hirc).bind fun _ c₃ h₃ => h₃.agrees hrest
    · simp only [if_neg hc]
      exact h₁.agrees hrest

theorem transfer_agrees (hq : q.Quiet) (x : Transfer) (h : Clean n m s c) (hn : n + x.entries p ≤ maxMmu030Access + 1)
    (hm : m + 1 < 2 ^ 16) (hs : s &&& stateflag1Movem2 = 0) :
    Agrees (transferState q p m x) (busTransfer q p m x) c (fun _ => Clean (n + x.entries p) (m + 1) s) Ordered := by
  have hbit : c.latch.log.state1 &&& stateflag1Movem2 = 0 := (flag_of_done h.done (by decide)).trans hs
  have hrun : transferState q p m x c = (do
      x.move q p
      update (mapLog fun l => { l with state0 := l.state0 + 1 })) c := by
    rw [transferState, reads_bind_apply, if_pos h.through, if_neg (not_not.mpr hbit)]
  have hagrees : Agrees (do x.move q p; update (mapLog fun l => { l with state0 := l.state0 + 1 }))
      (busTransfer q p m x) c (fun _ => Clean (n + x.entries p) (m + 1) s) Ordered := by
    refine (move_agrees hq x h hn).bind fun _ c₁ h₁ => .same ⟨h₁.idx, h₁.idxDone, ?_, h₁.done, h₁.overrun⟩
    change (c₁.latch.log.state0 + 1).toNat = m + 1
    rw [BitVec.toNat_add, h₁.through]
    exact Nat.mod_eq_of_lt hm
  exact ⟨hrun.trans hagrees.1, hagrees.2⟩

theorem transfers_agrees (hq : q.Quiet) (hs : s &&& stateflag1Movem2 = 0) (xs : List Transfer) :
    ∀ {n m : Nat} {c : Cpu030 M}, Clean n m s c → n + movemEntries p xs ≤ maxMmu030Access + 1 → m + xs.length < 2 ^ 16 →
      Agrees (transfers (transferState q p) m xs) (transfers (busTransfer q p) m xs) c
        (fun _ => Clean (n + movemEntries p xs) (m + xs.length) s) Ordered := by
  induction xs with
  | nil =>
    intro n m c h _ _
    exact .same h
  | cons x xs ih =>
    intro n m c h hn hm
    rw [movemEntries, List.map_cons, List.sum_cons, ← Nat.add_assoc] at hn ⊢
    rw [List.length_cons, Nat.add_comm xs.length, ← Nat.add_assoc] at hm ⊢
    refine (transfer_agrees hq x h (Nat.le_trans (Nat.le_add_right _ _) hn) (by omega) hs).bind fun _ c₁ h₁ => ?_
    exact ih h₁ hn hm

/-! ### The whole handler -/

/-- Nothing that an instruction does is taken for done where the flags are `s` and `m` transfers are
through: its two addresses are decoded once each, and a MOVEM starts with the first register. -/
def Instr.Fresh : Nat → Word → Instr → Prop
  | _, _, .done _ => True
  | m, s, .get _ _ _ k => ∀ v, (k v).Fresh m s
  | m, s, .put _ _ _ _ k => k.Fresh m s
  | m, s, .iword _ k => ∀ v, (k v).Fresh m s
  | m, s, .ilong _ k => ∀ v, (k v).Fresh m s
  | m, s, .nextIword k => ∀ v, (k v).Fresh m s
  | m, s, .nextIlong k => ∀ v, (k v).Fresh m s
  | m, s, .disp _ idx k => s &&& (1 <<< idx.val) = 0 ∧ ∀ v, (k v).Fresh m (s ||| (1 <<< idx.val))
  | m, s, .store _ k => ∀ v, (k v).Fresh m s
  | m, s, .movem xs k => m = 0 ∧ s &&& stateflag1Movem2 = 0 ∧ xs.length < 2 ^ 16 ∧ k.Fresh xs.length s
  | m, s, .lastWrite k => k.Fresh m s
  | m, s, .refill k => k.Fresh m s

theorem Instr.exec_agrees (hq : q.Quiet) (i : Instr) : ∀ {n m : Nat} {s : Word} {c : Cpu030 M}, i.Fits p n →
    i.Fresh m s → Clean n m s c → Agrees (i.exec q p) (i.onBus q p) c (fun _ => Ordered) Ordered := by
  induction i with
  | done f =>
    intro n m s c _ _ h
    exact .same ⟨h.ordered.counts, h.overrun⟩
  | get space size addr k ih =>
    intro n m s c hf hd h
    exact (get_agrees space size addr h hf.1).bind fun v c' h' => ih v (hf.2 v) (hd v) h'
  | put space size addr v k ih =>
    intro n m s c hf hd h
    exact (put_agrees space size addr v h hf.1).bind fun _ c' h' => ih hf.2 hd h'
  | iword o k ih =>
    intro n m s c hf hd h
    exact (iword_agrees hq o h hf.1).bind fun v c' h' => ih v (hf.2 v) (hd v) h'
  | ilong o k ih =>
    intro n m s c hf hd h
    exact (ilong_agrees hq o h hf.1).bind fun v c' h' => ih v (hf.2 v) (hd v) h'
  | nextIword k ih =>
    intro n m s c hf hd h
    exact (step030_agrees hq .iword h hf.1).bind fun v c' h' => ih v (hf.2 v) (hd v) h'
  | nextIlong k ih =>
    intro n m s c hf hd h
    exact (nextIlong_agrees hq h hf.1).bind fun v c' h' => ih v (hf.2 v) (hd v) h'
  | disp base idx k ih =>
    intro n m s c hf hd h
    exact (disp_agrees hq base idx h hf.1 hd.1).bind fun v c' h' => ih v (hf.2 v) (hd.2 v) h'
  | store v k ih =>
    intro n m s c hf hd h
    exact (accessGet_agrees (.pure v) (.pure ()) h hf.1).bind fun v c' h' => ih v (hf.2 v) (hd v) h'
  | movem xs k ih =>
    intro n m s c hf hd h
    obtain ⟨rfl, hmovem2, hlen, hk⟩ := hd
    refine (h.agrees (setFlag_stays (or_and_of_apart (by decide)))).bind fun _ c₁ h₁ => ?_
    refine (transfers_agrees hq hmovem2 xs h₁ hf.1 (by omega)).bind fun _ c₂ h₂ => ?_
    rw [Nat.zero_add] at h₂
    exact ih hf.2 hk h₂
  | lastWrite k ih =>
    intro n m s c hf hd h
    exact (h.agrees setFaultPc_stays).bind fun _ c' h' => ih hf hd h'
  | refill k ih =>
    intro n m s c hf hd h
    have hreset : Clean 0 m s (mapLog (fun l => { l with idx := 0, idxDone := 0 }) c) :=
      ⟨rfl, Nat.le_refl 0, h.through, h.done, h.overrun⟩
    have hfill : Settles (fillPrefetch030Ntx q) c (fun _ => Clean 0 m s) Ordered :=
      (hreset.of_stays hq.refill).mono (fun _ _ h => h.2) fun _ h => h
    exact (Agrees.same hfill).bind fun _ c' h' => ih hf hd h'

end Handler

/-! ## The public loops -/

/-- The handlers of an opcode table, and the ticks they return. -/
structure OpcodeTable where
  handler : Word → Core → Instr
  ticks : Word → Long

/-- The loop that executes an instruction: `uae_host_run` or `uae_host_step`. -/
inductive HostCall where
  | run | step
  deriving DecidableEq, Repr

section Loop

variable (q : Port030 M) (p : Prefs)

/-- `cpufunctbl`, its handlers made to run by `exec`. -/
def OpcodeTable.tbl (exec : Instr → Run030 M Unit) (t : OpcodeTable) (op : Word) : Run030 M Long := do
  let c ← reads id
  exec (t.handler op c.toCore)
  pure (t.ticks op)

def logHost (t : OpcodeTable) : Host (World030 M) := host030 q p (t.tbl (Instr.exec q p))

/-- The same, with every access made. -/
def busHost (t : OpcodeTable) : Host (World030 M) :=
  { host030 q p (t.tbl (Instr.onBus q p)) with
    port := { port030 q p with
      getIword := do
        let r ← reads (·.regs)
        let v ← if p.cpuCompatible then busIword q p 0 else uaeMmu030GetIword q p r.pc
        pure (v.setWidth 16) } }

def HostCall.execute (h : Host (World030 M)) : HostCall → Run030 M Unit
  | .run => executeInstr h
  | .step => stepInstr h

/-- The opcode that is executed. -/
def HostCall.fetch (h : Host (World030 M)) : HostCall → Run030 M Word
  | .run => h.port.getIword
  | .step => if h.prefs.cpuCompatible then reads (·.regs.irc) else h.port.getIword

/-- The registers a handler starts with. -/
def entered (op : Word) (c : Cpu030 M) : Cpu030 M :=
  c.mapRegs fun r => { r with instructionPc := r.pc, opcode := op }

/-- The log entry `uae_host_run` takes for the opcode. -/
def fetchEntries (call : HostCall) : Nat := if p.cpuCompatible ∧ call = .run then 1 else 0

/-- The instruction has room in the log behind what it holds, and none of the flags it goes by is set. -/
structure HostCall.Ready (call : HostCall) (t : OpcodeTable) (c : Cpu030 M) : Prop where
  fetch : c.latch.log.idx + fetchEntries p call ≤ maxMmu030Access + 1
  handler : ∀ op c', call.fetch (logHost q p t) c = .ret op c' →
    (t.handler op (entered op c').toCore).Fits p (c.latch.log.idx + fetchEntries p call) ∧
      (t.handler op (entered op c').toCore).Fresh c.latch.log.state0.toNat (c.latch.log.state1 &&& doneFlags)

/-- The instruction makes every access, with the counters in the array. -/
def OnBus (call : HostCall) (t : OpcodeTable) (c : Cpu030 M) : Prop :=
  call.execute (logHost q p t) c = call.execute (busHost q p t) c ∧ call.execute (busHost q p t) c ≠ .diverge

end Loop

section Executed

variable {q : Port030 M} {p : Prefs} {c : Cpu030 M} {call : HostCall} {t : OpcodeTable} {n m : Nat} {s : Word}

/-- What the loops do behind an instruction. -/
def HostCall.charge (call : HostCall) (v : Long) (c : Cpu030 M) : Cpu030 M :=
  (c.doCycles (match call with
    | .run => chargedTicks c v
    | .step => (v &&& 0xFFFF).toNat)).mapRegs fun r => { r with instructionCnt := r.instructionCnt + 1 }

theorem execute_eq {h : Host (World030 M)} (hm : h.prefs.cpuModel = .m68030) (hhook : h.instr = none)
    (call : HostCall) : call.execute h = (do
      let op ← call.fetch h
      update (entered op)
      let v ← h.cpufunctbl op
      update (call.charge v)) := by
  have hmodel : ¬ h.prefs.cpuModel.num ≤ 68010 := by
    rw [hm]
    decide
  have hnohook : callInstrHook h = pure () := by
    rw [callInstrHook, hhook]
  cases call with
  | run =>
    rw [HostCall.execute, executeInstr, hnohook, if_neg fun h => hmodel h.2]
    rfl
  | step =>
    by_cases hc : h.prefs.cpuCompatible = true
    · simp only [HostCall.execute, HostCall.fetch, stepInstr, hnohook, if_pos hc, if_neg hmodel]
      rfl
    · simp only [HostCall.execute, HostCall.fetch, stepInstr, hnohook, if_neg hc]
      rfl

theorem fetch_agrees (hq : q.Quiet) (h : Clean n m s c) (hn : n + fetchEntries p call ≤ maxMmu030Access + 1) :
    Agrees (call.fetch (logHost q p t)) (call.fetch (busHost q p t)) c
      (fun _ => Clean (n + fetchEntries p call) m s) Ordered := by
  have hiword : Stays SameState (do
      let r ← reads (·.regs)
      let v ← uaeMmu030GetIword q p r.pc
      pure (v.setWidth 16)) :=
    .reads_bind fun r => .bind (sameState_readRel.uaeMmu030GetIword_stays q p r.pc) fun _ => .pure _
  by_cases hc : p.cpuCompatible = true
  · cases call with
    | run =>
      rw [fetchEntries, if_pos ⟨hc, rfl⟩] at hn ⊢
      refine .reads_bind ?_
      simp only [if_pos hc]
      exact (iword_agrees hq 0 h (by omega)).bind fun v c₁ h₁ => .same h₁
    | step =>
      rw [fetchEntries, if_neg fun h => absurd h.2 (by decide)]
      have hlog : HostCall.step.fetch (logHost q p t) = reads (·.regs.irc) := if_pos hc
      have hbus : HostCall.step.fetch (busHost q p t) = reads (·.regs.irc) := if_pos hc
      rw [hlog, hbus]
      exact h.agrees (.reads _)
  · have hentries : fetchEntries p call = 0 := if_neg fun h => hc h.1
    have hlog : call.fetch (logHost q p t) = (do
        let r ← reads (·.regs)
        let v ← uaeMmu030GetIword q p r.pc
        pure (v.setWidth 16)) := by
      cases call <;> simp only [HostCall.fetch, logHost, host030, port030, if_neg hc]
    have hbus : call.fetch (busHost q p t) = call.fetch (logHost q p t) := by
      cases call <;> simp only [HostCall.fetch, logHost, busHost, host030, port030, if_neg hc]
    rw [hentries, hbus, hlog]
    exact h.agrees hiword

/-- A ready instruction is executed on the bus, and does not log more than it counts. -/
theorem execute_agrees (hq : q.Quiet) (hm : p.cpuModel = .m68030) (hc : Ordered c) (h : HostCall.Ready q p call t c) :
    Agrees (call.execute (logHost q p t)) (call.execute (busHost q p t)) c (fun _ => Ordered) Ordered := by
  have hclean : Clean c.latch.log.idx c.latch.log.state0.toNat (c.latch.log.state1 &&& doneFlags) c :=
    ⟨rfl, hc.counts, rfl, rfl, hc.overrun⟩
  rw [execute_eq (h := logHost q p t) hm rfl, execute_eq (h := busHost q p t) hm rfl]
  refine (fetch_agrees hq hclean h.fetch).with_eq.bind fun op c₁ h₁ => ?_
  obtain ⟨hfetch, h₁⟩ := h₁
  obtain ⟨hfits, hfresh⟩ := h.handler op c₁ hfetch
  have hentered : Clean _ _ _ (entered op c₁) := h₁.same (.of_eq rfl rfl)
  have hhandler : Agrees ((logHost q p t).cpufunctbl op) ((busHost q p t).cpufunctbl op) (entered op c₁)
      (fun _ => Ordered) Ordered :=
    .reads_bind ((Instr.exec_agrees hq _ hfits hfresh hentered).bind fun _ _ h => .same h)
  refine Agrees.bind (m := update (entered op)) (P := fun _ c' => c' = entered op c₁) (.same rfl) fun _ c₂ h₂ => ?_
  subst h₂
  exact hhandler.bind fun v c₃ h₃ => .same ⟨h₃.counts, h₃.overrun⟩

end Executed

/-! ## Runs -/

/-- What a public loop does: an instruction, anything that does not advance the log (hooks, interrupts
and other exceptions), or what the handler of RTE does with a fault frame at `a7` behind the accesses
that read its format. -/
inductive HostEvent (M : Type) where
  | instr (call : HostCall) (t : OpcodeTable)
  | aside (m : Run030 M Unit) (hm : Within CountsKept m)
  | rte (a7 : Long)

section Runs

variable (q : Port030 M) (p : Prefs)

def HostEvent.body : HostEvent M → Run030 M Unit
  | .instr call t => call.execute (logHost q p t)
  | .aside m _ => m
  | .rte a7 => doRteMmu030 q p a7

/-- An event ends, or it throws and the loop goes on behind its `CATCH`. -/
def hostStep (c : Cpu030 M) (e : HostEvent M) (c' : Cpu030 M) : Prop :=
  e.body q p c = .ret () c' ∨ ∃ code, e.body q p c = .thrown code c'

/-- An instruction is ready; a frame has its counters in order. -/
def HostEvent.Safe (c : Cpu030 M) : HostEvent M → Prop
  | .instr call t => HostCall.Ready q p call t c
  | .aside _ _ => True
  | .rte a7 => ∃ fr, ShowsFrame q fr a7 c.world.mem ∧ FrameInOrder p.cpuCompatible fr

variable {q p} {c c₁ : Cpu030 M}

/-- The exceptions of a 68030 with MMU. -/
theorem exceptionX_counts (hm : p.cpuModel = .m68030) (hmmu : p.mmuModel = true) (tbl : Word → Run030 M Long) (nr : Nat)
    (oldpc : Option Long) : Stays CountsKept (exceptionX (host030 q p tbl) nr oldpc) :=
  (host030_counts hm hmmu tbl).exceptionX nr oldpc

theorem aside_step {m : Run030 M Unit} (hm : Stays CountsKept m) (c : Cpu030 M) :
    ∃ c', hostStep q p c (.aside m hm.within) c' ∧ CountsKept c c' := by
  have h := hm c
  cases hc : m c with
  | ret u c' =>
    rw [Settles, hc] at h
    exact ⟨c', .inl hc, h⟩
  | thrown code c' =>
    rw [Settles, hc] at h
    exact ⟨c', .inr ⟨code, hc⟩, h⟩
  | diverge =>
    rw [Settles, hc] at h
    exact h.elim

theorem hostStep_ordered (hq : q.Quiet) (hm : p.cpuModel = .m68030) (hmmu : p.mmuModel = true) {e : HostEvent M}
    (hc : Ordered c) (hsafe : e.Safe q p c) (h : hostStep q p c e c₁) : Ordered c₁ := by
  have hends : Ends (e.body q p) c (fun _ => Ordered) Ordered := by
    cases e with
    | instr call t =>
      have h := execute_agrees hq hm hc hsafe
      exact ((settles_congr h.1).mpr h.2).ends
    | aside m hm => exact (hm c).mono (fun _ _ h => h.ordered hc) fun _ h => h.ordered hc
    | rte a7 =>
      obtain ⟨fr, hs, hfr⟩ := hsafe
      exact (doRteMmu030_ordered hm hmmu hs hc hfr).ends
  obtain h | ⟨code, h⟩ := h
  · exact hends.of_ret h
  · exact hends.of_thrown h

end Runs

/-! ## Small programs -/

theorem openPort_quiet : openPort.Quiet where
  wordPrefetch _ := .pure 0
  refill := .pure ()

def nextInstr (c : Core) : Core := { c with regs := { c.regs with pc := c.regs.pc + 4 } }

/-- `ORI.B #0,D0`: what memory is full of where it is clear. -/
def oriByte : OpcodeTable where
  handler _ _ := .iword 2 fun _ => .done nextInstr
  ticks _ := 4

/-- `LEA (d8,An,D0.W),A0` where An is `base`. -/
def leaIndexed (base : Long) : OpcodeTable where
  handler _ _ := .disp base ⟨0, Nat.two_pos⟩ fun a => .done fun c => { c with regs := c.regs.setAreg 0 a }
  ticks _ := 4

/-- `MOVEM.L D0-D1,(A0)`. -/
def movemSave : OpcodeTable where
  handler _ c := .movem [.save .long (c.regs.areg 0) (fun c => c.regs.d.get 0),
    .last .long (c.regs.areg 0 + 4) (fun c => c.regs.d.get 1) 2 id] (.done id)
  ticks _ := 8

def bootCpu : Cpu030 Unit := frameCpu mmu68030 fun _ => 0

theorem oriByte_ready {c : Cpu030 Unit} (hc : c.latch.log.idx ≤ maxMmu030Access) (call : HostCall) :
    HostCall.Ready openPort mmu68030 call oriByte c where
  fetch := Nat.le_succ_of_le hc
  handler _ _ _ := ⟨⟨hc, fun _ => trivial⟩, fun _ => trivial⟩

/-- What is read of an outcome. -/
def seen {α : Type} (f : Cpu030 Unit → α) : Outcome (Cpu030 Unit) Unit → Option α
  | .ret _ c => some (f c)
  | _ => none

theorem seen_eq_some {α : Type} {f : Cpu030 Unit → α} {o : Outcome (Cpu030 Unit) Unit} {x : α} (h : seen f o = some x) :
    ∃ c, o = .ret () c ∧ f c = x := by
  cases o with
  | ret u c => exact ⟨c, rfl, Option.some.inj h⟩
  | thrown code c => cases h
  | diverge => cases h

theorem movemSave_ready : HostCall.Ready openPort mmu68030 .run movemSave bootCpu where
  fetch := by decide
  handler _ _ _ := ⟨⟨Nat.zero_le _, trivial⟩, rfl, by decide, (by decide : 2 < 2 ^ 16), trivial⟩

def traceEvent : HostEvent Unit :=
  .aside _ (exceptionX_counts (q := openPort) (p := mmu68030) rfl rfl (fun _ => pure 0) 9 none).within

/-- A format B frame of an instruction with two accesses begun, one of them made. -/
def frameTwo (a : Long) : Byte := frameB 1 a ||| (if a = 0x37 then 2 else 0)

theorem rte_frameTwo : ∃ c, hostStep openPort mmu68030 (frameCpu mmu68030 frameTwo) (.rte 0) c ∧
    c.latch.log.idx = 2 := by
  have h : seen (·.latch.log.idx) (doRteMmu030 openPort mmu68030 0 (frameCpu mmu68030 frameTwo)) = some 2 := by
    decide +kernel
  obtain ⟨c, hrte, hidx⟩ := seen_eq_some h
  exact ⟨c, .inl hrte, hidx⟩

theorem frameTwo_safe : HostEvent.Safe openPort mmu68030 (frameCpu mmu68030 frameTwo) (.rte 0) :=
  ⟨frameTwo, openPort_showsFrame frameTwo, fun _ => by decide⟩

/-- `ORI.B` takes an entry and leaves it in the log. -/
theorem oriByte_step {c : Cpu030 Unit} (hc : c.latch.log.idxDone ≤ c.latch.log.idx) : ∃ c₁,
    hostStep openPort mmu68030 c (.instr .run oriByte) c₁ ∧ c₁.latch.log.idxDone ≤ c₁.latch.log.idx ∧
      c₁.latch.log.idx = c.latch.log.idx + 1 := by
  obtain ⟨op, hfetch⟩ : ∃ op, HostCall.run.fetch (logHost openPort mmu68030 oriByte) c = .ret op c := ⟨_, rfl⟩
  let rest : Run030 Unit Long := do
    let r ← reads (·.regs)
    let v ← uaeMmu030GetIword openPort mmu68030 (r.pc + 2)
    accessExit v
    pure v
  have hmiss : getIwordState openPort mmu68030 2 (entered op c) = rest (counted (entered op c)) := by
    rw [getIwordState, accessGet, bind_ret (accessCheck_of_le (c := entered op c) hc)]
    rfl
  obtain ⟨v, c₁, hrest, hcounts, hidx⟩ : ∃ v c₁, rest (counted (entered op c)) = .ret v c₁ ∧
      c₁.latch.log.idxDone ≤ c₁.latch.log.idx ∧ c₁.latch.log.idx = c.latch.log.idx + 1 :=
    ⟨_, _, rfl, Nat.succ_le_succ hc, rfl⟩
  let c₂ : Cpu030 Unit := { c₁ with toCore := nextInstr c₁.toCore }
  have hrun : (oriByte.handler op (entered op c).toCore).exec openPort mmu68030 (entered op c) = .ret () c₂ :=
    bind_ret (f := fun _ => (Instr.done nextInstr).exec openPort mmu68030) (hmiss.trans hrest)
  have htbl : (logHost openPort mmu68030 oriByte).cpufunctbl op (entered op c) = .ret 4 c₂ :=
    bind_ret (f := fun _ => pure 4) hrun
  have hexec : HostCall.run.execute (logHost openPort mmu68030 oriByte) c = .ret () (HostCall.run.charge 4 c₂) := by
    rw [execute_eq rfl rfl, bind_ret hfetch]
    exact bind_ret htbl
  exact ⟨_, .inl hexec, hcounts, hidx⟩

theorem oriByte_run : ∀ (n : Nat) {c : Cpu030 Unit}, c.latch.log.idxDone ≤ c.latch.log.idx → ∃ c₁,
    Trans.Run (hostStep openPort mmu68030) c (List.replicate n (.instr .run oriByte)) c₁ ∧
      c₁.latch.log.idx = c.latch.log.idx + n
  | 0, c, _ => ⟨c, .nil, rfl⟩
  | n + 1, c, hc => by
    obtain ⟨c₁, hstep, hcounts, hidx⟩ := oriByte_step hc
    obtain ⟨c₂, hrun, hidx'⟩ := oriByte_run n hcounts
    exact ⟨c₂, .cons hstep hrun, by rw [hidx', hidx, Nat.add_assoc, Nat.add_comm 1 n]⟩

/-- The counters outside the array, no access is made. -/
theorem oriByte_offBus {c : Cpu030 Unit} (hc : maxMmu030Access < c.latch.log.idx) :
    ¬ OnBus openPort mmu68030 .run oriByte c := by
  intro h
  refine h.2 ?_
  obtain ⟨op, hfetch⟩ : ∃ op, HostCall.run.fetch (busHost openPort mmu68030 oriByte) c = .ret op c := ⟨_, rfl⟩
  have hout : (countersFit : Run030 Unit Unit) (entered op c) = .diverge :=
    if_neg fun h => absurd h.1 (Nat.not_le.mpr hc)
  have hword : busIword openPort mmu68030 2 (entered op c) = .diverge := bind_diverge hout
  have hrun : (oriByte.handler op (entered op c).toCore).onBus openPort mmu68030 (entered op c) = .diverge :=
    bind_diverge hword
  have htbl : (busHost openPort mmu68030 oriByte).cpufunctbl op (entered op c) = .diverge :=
    bind_diverge (f := fun _ => pure 4) hrun
  rw [execute_eq rfl rfl, bind_ret hfetch]
  exact bind_diverge (f := fun v => update (HostCall.run.charge v)) htbl

/-- An address that has been decoded is taken for the next one. -/
theorem leaIndexed_offBus : ∃ c₁, hostStep openPort mmu68030 bootCpu (.instr .run (leaIndexed 0x1000)) c₁ ∧
    ¬ OnBus openPort mmu68030 .run (leaIndexed 0x2000) c₁ := by
  obtain ⟨c₁, hstep, hlog, hbus⟩ : ∃ c₁, hostStep openPort mmu68030 bootCpu (.instr .run (leaIndexed 0x1000)) c₁ ∧
      seen (·.regs.areg 0) (HostCall.run.execute (logHost openPort mmu68030 (leaIndexed 0x2000)) c₁) = some 0x1000 ∧
      seen (·.regs.areg 0) (HostCall.run.execute (busHost openPort mmu68030 (leaIndexed 0x2000)) c₁) = some 0x2000 :=
    ⟨_, .inl rfl, rfl, rfl⟩
  refine ⟨c₁, hstep, fun h => ?_⟩
  rw [h.1, hbus] at hlog
  exact absurd hlog (by decide)

end UaeCpu.Restart
