import UaeCpu.EffectiveAddress
import UaeCpu.Misaligned030

/-!
# UaeCpu.EffectiveAddress030

The decoder of the 68030 with MMU, which is started over after every fault: its accesses are in the
log, and once the address is known it is kept itself. The compatible core empties the log first.

* `Keeps`                       — what an access leaves alone.
* `At`                          — where the decoder is in its log.
* `getDispEa020Mmu030_settles`  — each try goes on where the log ends.
-/

namespace UaeCpu.Restart.Ea

open Fault FaultM

variable {M α β : Type}

/-! ## What an access leaves alone -/

/-- The log, but for the flags of an access in parts. -/
structure SameRun (c c' : Cpu030 M) : Prop where
  idx : c'.latch.log.idx = c.latch.log.idx
  idxDone : c'.latch.log.idxDone = c.latch.log.idxDone
  ad : c'.latch.log.ad = c.latch.log.ad
  state1 : c'.latch.log.state1 &&& 3 = c.latch.log.state1 &&& 3
  state2 : c'.latch.log.state2 = c.latch.log.state2
  dispStore0 : c'.latch.log.dispStore0 = c.latch.log.dispStore0
  dispStore1 : c'.latch.log.dispStore1 = c.latch.log.dispStore1

theorem SameRun.refl (c : Cpu030 M) : SameRun c c := ⟨rfl, rfl, rfl, rfl, rfl, rfl, rfl⟩

theorem SameRun.trans {c₁ c₂ c₃ : Cpu030 M} (h : SameRun c₁ c₂) (h' : SameRun c₂ c₃) : SameRun c₁ c₃ :=
  ⟨h'.idx.trans h.idx, h'.idxDone.trans h.idxDone, h'.ad.trans h.ad, h'.state1.trans h.state1,
    h'.state2.trans h.state2, h'.dispStore0.trans h.dispStore0, h'.dispStore1.trans h.dispStore1⟩

structure SameRegs (c c' : Cpu030 M) : Prop where
  pc : c'.regs.pc = c.regs.pc
  regs : ∀ i, reg16 c'.regs i = reg16 c.regs i

/-- The log stays, and where it returns the registers too. -/
def Keeps (m : Run030 M α) : Prop :=
  ∀ c, Ends m c (fun _ c' => SameRun c c' ∧ SameRegs c c') (SameRun c)

namespace Keeps

theorem pure (a : α) : Keeps (Pure.pure a : Run030 M α) := fun c => ⟨.refl c, rfl, fun _ => rfl⟩

theorem reads (f : Cpu030 M → α) : Keeps (FaultM.reads f) := fun c => ⟨.refl c, rfl, fun _ => rfl⟩

theorem bind {m : Run030 M α} {f : α → Run030 M β} (hm : Keeps m) (hf : ∀ a, Keeps (f a)) : Keeps (m >>= f) := by
  intro c
  refine Ends.bind (hm c) fun a c₁ h₁ => (hf a c₁).mono (fun _ c₂ h₂ => ?_) fun c₂ h₂ => h₁.1.trans h₂
  exact ⟨h₁.1.trans h₂.1, h₂.2.pc.trans h₁.2.pc, fun i => (h₂.2.regs i).trans (h₁.2.regs i)⟩

theorem reads_bind {g : Cpu030 M → α} {f : α → Run030 M β} (hf : ∀ a, Keeps (f a)) : Keeps (FaultM.reads g >>= f) :=
  .bind (.reads g) hf

theorem ite {p : Prop} [Decidable p] {m m' : Run030 M α} (h : p → Keeps m) (h' : ¬ p → Keeps m') :
    Keeps (if p then m else m') := fun c => Ends.ite (fun hp => h hp c) fun hp => h' hp c

end Keeps

section Accesses

variable (q : Port030 M) (p : Prefs)

theorem notePageFault_sameRun (addr : Long) (read : Bool) (flags : Word) (fc : Long) (c : Cpu030 M) :
    SameRun c (notePageFault p addr read flags fc c) := by
  constructor <;> rw [notePageFault_log]

theorem getGeneric_keeps (addr fc : Long) (size : AccessSize) (flags : Word) :
    Keeps (mmu030GetGeneric q p addr fc size flags) := by
  intro c
  cases ht : q.translate false (flags &&& mmu030SswRm ≠ 0) fc addr c.world.mmu with
  | mk phys mmu =>
    cases phys with
    | some a => exact .ret (getGeneric_some ht) ⟨⟨rfl, rfl, rfl, rfl, rfl, rfl, rfl⟩, rfl, fun _ => rfl⟩
    | none =>
      refine .thrown (getGeneric_none ht) (SameRun.trans ?_ (notePageFault_sameRun p addr true flags fc _))
      exact ⟨rfl, rfl, rfl, rfl, rfl, rfl, rfl⟩

theorem setState1_keeps {f : Word → Word} (hf : OnlySubaccess f) : Keeps (setState1 f : Run030 M Unit) := by
  have hlow : ∀ s : Word, f s &&& 3 = s &&& 3 := fun s => by
    rw [show (3 : Word) = wholeFlags &&& 3 from rfl, ← BitVec.and_assoc, ← BitVec.and_assoc, hf s]
  exact fun c => ⟨⟨rfl, rfl, rfl, hlow c.latch.log.state1, rfl, rfl, rfl⟩, rfl, fun _ => rfl⟩

theorem setDataBufferOut_keeps (f : Long → Long) : Keeps (setDataBufferOut f : Run030 M Unit) :=
  fun _ => ⟨⟨rfl, rfl, rfl, rfl, rfl, rfl, rfl⟩, rfl, fun _ => rfl⟩

theorem unalignInit_keeps (l l2 : Bool) : Keeps (unalignInit l l2 : Run030 M Unit) :=
  setState1_keeps (unalignInit_only l l2)

theorem unalignSet_keeps (i : Nat) (hi : ((1 <<< i) <<< 3 : Word) &&& wholeFlags = 0) :
    Keeps (unalignSet i : Run030 M Unit) := setState1_keeps (onlySubaccess_or hi)

theorem unalignClear_keeps : Keeps (unalignClear : Run030 M Unit) := setState1_keeps unalignClear_only

theorem getWordUnaligned_keeps (addr fc : Long) (flags : Word) : Keeps (mmu030GetWordUnaligned q p addr fc flags) :=
  .bind (unalignInit_keeps _ _) fun _ => .bind (getGeneric_keeps q p _ _ _ _) fun _ =>
    .bind (setDataBufferOut_keeps _) fun _ => .bind (unalignSet_keeps 0 (by decide)) fun _ =>
    .bind (getGeneric_keeps q p _ _ _ _) fun _ => .bind (setDataBufferOut_keeps _) fun _ =>
    .bind unalignClear_keeps fun _ => .reads _

theorem getLongUnaligned_keeps (addr fc : Long) (flags : Word) : Keeps (mmu030GetLongUnaligned q p addr fc flags) := by
  have hend : Keeps (do unalignClear; reads (·.latch.log.dataBufferOut) : Run030 M Long) :=
    .bind unalignClear_keeps fun _ => .reads _
  refine .ite (fun _ => ?_) fun _ => ?_
  · exact .bind (unalignInit_keeps _ _) fun _ => .bind (getGeneric_keeps q p _ _ _ _) fun _ =>
      .bind (setDataBufferOut_keeps _) fun _ => .bind (unalignSet_keeps 0 (by decide)) fun _ =>
      .bind (getGeneric_keeps q p _ _ _ _) fun _ => .bind (setDataBufferOut_keeps _) fun _ => hend
  · exact .bind (unalignInit_keeps _ _) fun _ => .bind (getGeneric_keeps q p _ _ _ _) fun _ =>
      .bind (setDataBufferOut_keeps _) fun _ => .bind (unalignSet_keeps 0 (by decide)) fun _ =>
      .bind (getGeneric_keeps q p _ _ _ _) fun _ => .bind (setDataBufferOut_keeps _) fun _ =>
      .bind (unalignSet_keeps 1 (by decide)) fun _ => .bind (getGeneric_keeps q p _ _ _ _) fun _ =>
      .bind (setDataBufferOut_keeps _) fun _ => hend

theorem getFcx_keeps (size : AccessSize) (addr fc : Long) (rm : Word) : Keeps (mmu030GetFcx q p size addr fc rm) := by
  refine .ite (fun _ => ?_) fun _ => getGeneric_keeps q p _ _ _ _
  cases size with
  | long => exact getLongUnaligned_keeps q p addr fc rm
  | _ => exact getWordUnaligned_keeps q p addr fc rm

theorem getIword_keeps (addr : Long) : Keeps (uaeMmu030GetIword q p addr) :=
  .reads_bind fun _ => getGeneric_keeps q p _ _ _ _

theorem getIlong_keeps (addr : Long) : Keeps (uaeMmu030GetIlong q p addr) :=
  .ite (fun _ => .bind (getIword_keeps q p _) fun _ => .bind (getIword_keeps q p _) fun _ => .pure _)
    fun _ => .reads_bind fun _ => getGeneric_keeps q p _ _ _ _

/-! ## The questions in the log -/

/-- What performs a question. -/
def perform : Ask → Run030 M Long
  | .iword => do
    let r ← reads (·.regs)
    if p.cpuCompatible then q.wordPrefetch 0 else uaeMmu030GetIword q p r.pc
  | .ilong => do
    let r ← reads (·.regs)
    uaeMmu030GetIlong q p r.pc
  | .long a => do
    let r ← reads (·.regs)
    mmu030GetFcx q p .long a (DataSpace.data.fc true r) DataSpace.data.rm

def bump : Ask → Run030 M Unit
  | .iword => incPci 2
  | .ilong => incPci 4
  | .long _ => pure ()

/-- A question by way of the log. -/
def step030 (i : Ask) : Run030 M Long := accessGet (bump i) (bump i) (perform q p i)

theorem perform_keeps (hq : p.cpuCompatible = true → Keeps (q.wordPrefetch 0)) (i : Ask) : Keeps (perform q p i) := by
  cases i with
  | iword => exact .reads_bind fun r => .ite hq fun _ => getIword_keeps q p r.pc
  | ilong => exact .reads_bind fun r => getIlong_keeps q p r.pc
  | long a => exact .reads_bind fun r => getFcx_keeps q p .long a _ _

/-- How the core fetches a long of the instruction. -/
def longTree : Tree Ask Long Long := if p.cpuCompatible then twoWords else oneLong

theorem longTree_fetches : FetchesLong (longTree p) := by
  rw [longTree]
  split
  · exact twoWords_fetches
  · exact oneLong_fetches

theorem nextIlongState_exec : nextIlongState q p = (longTree p).exec (step030 q p) := by
  rw [nextIlongState, longTree]
  split
  · rfl
  · rw [oneLong, Tree.exec_query]
    rfl

theorem nextDisp_exec (s : Word) : nextDisp q p s = (dispTree (longTree p) s).exec (step030 q p) := by
  rw [nextDisp, dispTree, Tree.exec_ite, Tree.exec_ite, nextIlongState_exec]
  simp only [Tree.exec_bind, Tree.exec_query, Tree.exec_pure]
  rfl

theorem fullFormatEa_exec (dp : Word) (base regd : Long) :
    fullFormatEa q p dp base regd = (fullTree (longTree p) dp base regd).exec (step030 q p) := by
  simp only [fullFormatEa, fullTree, Tree.exec_bind, nextDisp_exec]
  congr 1
  funext x
  obtain ⟨disp, n⟩ := x
  congr 1
  funext y
  obtain ⟨outer, k⟩ := y
  rw [Tree.exec_ite]
  simp only [Tree.exec_bind, Tree.exec_query, Tree.exec_pure]
  rfl

theorem extensionEa_exec (dp : Word) (base : Long) : extensionEa q p dp base =
    reads (·.regs) >>= fun r => (extTree (longTree p) (reg16 r) dp base).exec (step030 q p) := by
  rw [extensionEa]
  congr 1
  funext r
  simp only [extTree, Tree.exec_ite, fullFormatEa_exec, Tree.exec_pure]

end Accesses

/-! ## The log of a decoder -/

section Log

variable (p : Prefs) (regs : BitVec 4 → Long) (mem : Long → Long) (stream : Nat → Word) (pc₀ : Long) (i₀ : Nat)
  (idx : Fin 2) (World : List Ask → Cpu030 M → Prop)

/-- What is known where no try is under way: the log holds the questions `as` with their answers from
entry `i₀` on, and the address is not known yet. -/
structure Logged (as : List (Ask × Long)) (done : List Ask) (c : Cpu030 M) : Prop where
  world : World done c
  asked : done = as.map Prod.fst
  entries : ∀ {j i v}, as[j]? = some (i, v) → c.latch.log.ad (i₀ + j) = v
  idxDone : c.latch.log.idxDone = i₀ + as.length
  state1 : c.latch.log.state1 &&& (1 <<< idx.val) = 0
  state2 : (c.latch.log.state2 >>> (idx.val * 4)) &&& 15 = 0

/-- .. and in a try, where `n` of them have been asked again. -/
structure At (as : List (Ask × Long)) (n : Nat) (done : List Ask) (_r : Option (Ask × Unit)) (c : Cpu030 M) : Prop
    extends Logged i₀ idx World as done c where
  idx : c.latch.log.idx = i₀ + n
  pc : c.regs.pc = pc₀ + BitVec.ofNat 32 (2 * words ((as.take n).map Prod.fst))
  regs : ∀ i, reg16 c.regs i = regs i

/-- In `World done` the questions of `done` have been asked: the next one is answered from the
instruction or from memory, unless it faults, and then it has not been asked. The log has no part in it. -/
structure Performs (q : Port030 M) : Prop where
  perform : ∀ i done c, (i = .ilong → p.cpuCompatible = false) → World done c → (∀ j, reg16 c.regs j = regs j) →
    c.regs.pc = pc₀ + BitVec.ofNat 32 (2 * words done) →
    Settles (perform q p i) c (fun v c' => v = (answer mem stream i done).1 ∧ World (done ++ [i]) c') (World done)
  log : ∀ done f c, World done c → World done (mapLog f c)
  pc : ∀ done a c, World done c → World done (c.mapRegs fun r => { r with pc := a })
  overrun : ∀ done b c, World done c → World done (mapWorld (fun w => { w with overrun := b }) c)
  prefetch : p.cpuCompatible = true → Keeps (q.wordPrefetch 0)

end Log

section Steps

variable {q : Port030 M} {p : Prefs} {regs : BitVec 4 → Long} {mem : Long → Long} {stream : Nat → Word} {pc₀ : Long}
  {i₀ : Nat} {idx : Fin 2} {World : List Ask → Cpu030 M → Prop} {as : List (Ask × Long)} {n : Nat} {i : Ask} {a : Long}
  {done : List Ask} {r : Option (Ask × Unit)} {c : Cpu030 M}

theorem words_snoc (as : List (Ask × Long)) {n : Nat} {i : Ask} {a : Long} (h : as[n]? = some (i, a)) :
    words ((as.take (n + 1)).map Prod.fst) = words ((as.take n).map Prod.fst) + i.words := by
  rw [List.take_add_one, h, Option.toList_some, List.map_append, List.map_singleton, words_append]

theorem pc_add (pc₀ : Long) (w k : Nat) :
    pc₀ + BitVec.ofNat 32 (2 * w) + BitVec.ofNat 32 (2 * k) = pc₀ + BitVec.ofNat 32 (2 * (w + k)) := by
  rw [Paged.ofNat_assoc, Nat.mul_add]

/-- The program counter behind a question. -/
def bumped (i : Ask) (c : Cpu030 M) : Cpu030 M :=
  match i with
  | .long _ => c
  | _ => c.mapRegs fun r => { r with pc := r.pc + BitVec.ofNat 32 (2 * i.words) }

theorem bump_apply (i : Ask) (c : Cpu030 M) : bump i c = .ret () (bumped i c) := by
  cases i <;> rfl

theorem bumped_pc (i : Ask) (c : Cpu030 M) : (bumped i c).regs.pc = c.regs.pc + BitVec.ofNat 32 (2 * i.words) := by
  cases i with
  | long a => exact (BitVec.add_zero c.regs.pc).symm
  | _ => rfl

theorem bumped_world (hw : Performs p regs mem stream pc₀ World q) (i : Ask) (h : World done c) :
    World done (bumped i c) := by
  cases i with
  | long a => exact h
  | _ => exact hw.pc done _ c h

theorem bumped_log (i : Ask) (c : Cpu030 M) : (bumped i c).latch = c.latch := by
  cases i <;> rfl

theorem bumped_regs (i : Ask) (c : Cpu030 M) (j : BitVec 4) : reg16 (bumped i c).regs j = reg16 c.regs j := by
  cases i <;> rfl

theorem bit_low (idx : Fin 2) {s s' : Word} (h : s' &&& 3 = s &&& 3) :
    s' &&& (1 <<< idx.val) = s &&& (1 <<< idx.val) := by
  have hlow : ((1 <<< idx.val : Nat) : Word) = (3 : Word) &&& ((1 <<< idx.val : Nat) : Word) := by
    revert idx
    decide
  rw [hlow, ← BitVec.and_assoc, ← BitVec.and_assoc, h]

/-- What keeps the log keeps what is known of it. -/
theorem Logged.sameRun {c c' : Cpu030 M} (h : Logged i₀ idx World as done c) (hworld : World done c')
    (hs : SameRun (mapLog (fun l => { l with idx := l.idx + 1 }) c) c') : Logged i₀ idx World as done c' where
  world := hworld
  asked := h.asked
  entries hj := by rw [hs.ad]; exact h.entries hj
  idxDone := hs.idxDone.trans h.idxDone
  state1 := (bit_low idx hs.state1).trans h.state1
  state2 := by rw [hs.state2]; exact h.state2

/-- A question that is in the log. -/
theorem step030_hit (hw : Performs p regs mem stream pc₀ World q) (hi : as[n]? = some (i, a))
    (h : At regs pc₀ i₀ idx World as n done r c) :
    Returns (step030 q p i) c fun v c' => v = a ∧ At regs pc₀ i₀ idx World as (n + 1) done r c' := by
  have hlt : n < as.length := by
    rw [List.getElem?_eq_some_iff] at hi
    exact hi.1
  have hlogged : c.latch.log.idx < c.latch.log.idxDone := by
    rw [h.idx, h.idxDone]
    omega
  let c₁ : Cpu030 M := mapWorld (fun w => { w with overrun := w.overrun || decide (maxMmu030Access < c.latch.log.idx) })
    (mapLog (fun l => { l with idx := l.idx + 1 }) c)
  have hcheck : accessCheck c = .ret (some c.latch.log.idx) (mapLog (fun l => { l with idx := l.idx + 1 }) c) := by
    simp only [accessCheck, reads_bind_apply, update_bind_apply, pure_apply, if_pos hlogged]
  have hrun : step030 q p i c = .ret ((bumped i c₁).latch.log.ad c.latch.log.idx) (bumped i c₁) := by
    rw [step030, accessGet, bind_ret hcheck]
    exact bind_ret (bump_apply i c₁)
  have hlatch : (bumped i c₁).latch = c₁.latch := bumped_log i c₁
  refine .of_eq hrun ⟨?_, ⟨?_, h.asked, ?_, ?_, ?_, ?_⟩, ?_, ?_, ?_⟩
  · rw [hlatch, h.idx]
    exact h.entries hi
  · exact bumped_world hw i (hw.overrun _ _ _ (hw.log _ _ _ h.world))
  · rw [hlatch]
    exact h.entries
  · rw [hlatch]
    exact h.idxDone
  · rw [hlatch]
    exact h.state1
  · rw [hlatch]
    exact h.state2
  · rw [hlatch]
    exact congrArg (· + 1) h.idx
  · rw [bumped_pc, words_snoc as hi, ← pc_add, ← h.pc]
    rfl
  · exact fun j => (bumped_regs i c₁ j).trans (h.regs j)

/-- A question behind the log. -/
theorem step030_miss (hw : Performs p regs mem stream pc₀ World q) (hi : i = .ilong → p.cpuCompatible = false)
    (h : At regs pc₀ i₀ idx World as as.length done r c) :
    Settles (step030 q p i) c
      (fun v c' => v = (answer mem stream i done).1 ∧
        At regs pc₀ i₀ idx World (as ++ [(i, v)]) (as.length + 1) (done ++ [i]) none c')
      (Logged i₀ idx World as done) := by
  let c₁ : Cpu030 M := mapLog (fun l => { l with idx := l.idx + 1 }) c
  have hnew : ¬ c.latch.log.idx < c.latch.log.idxDone := by
    rw [h.idx, h.idxDone]
    omega
  have hcheck : accessCheck c = .ret none c₁ := by
    simp only [accessCheck, reads_bind_apply, update_bind_apply, pure_apply, if_neg hnew]
    rfl
  have hpc : c₁.regs.pc = pc₀ + BitVec.ofNat 32 (2 * words done) := by
    have hpc := h.pc
    rw [List.take_length, ← h.asked] at hpc
    exact hpc
  have hrun : step030 q p i c = (do
      let v ← perform q p i
      bump i
      accessExit v
      pure v) c₁ := by
    rw [step030, accessGet, bind_ret hcheck]
  rw [settles_congr hrun]
  refine Settles.bind (((hw.perform i done c₁ hi (hw.log _ _ _ h.world) h.regs hpc).and_ends
    (perform_keeps q p hw.prefetch i c₁)).mono (fun _ _ h => h) fun c' he => ?_) fun v c₂ h₂ => ?_
  · exact h.toLogged.sameRun he.1 he.2
  · obtain ⟨⟨hv, hworld⟩, hsame, hregs⟩ := h₂
    let c₃ := bumped i c₂
    have hbump : bump i c₂ = .ret () c₃ := bump_apply i c₂
    rw [settles_congr (bind_ret hbump)]
    have hlatch : c₃.latch = c₂.latch := bumped_log i c₂
    have hlen : c₃.latch.log.idxDone = i₀ + as.length := by
      rw [hlatch]
      exact hsame.idxDone.trans h.idxDone
    refine ⟨hv, ⟨?_, ?_, ?_, ?_, ?_, ?_⟩, ?_, ?_, ?_⟩
    · exact hw.log _ _ _ (hw.log _ _ _ (hw.overrun _ _ _ (bumped_world hw i hworld)))
    · rw [h.asked, List.map_append, List.map_singleton]
    · intro j i' v' hj
      change Function.update c₃.latch.log.ad c₃.latch.log.idxDone v (i₀ + j) = v'
      rw [hlen]
      by_cases hlast : j = as.length
      · subst hlast
        rw [Function.update_self]
        simp at hj
        exact hj.2
      · have hlt : j < as.length := by
          have hbound := (List.getElem?_eq_some_iff.mp hj).1
          rw [List.length_append, List.length_singleton] at hbound
          omega
        rw [Function.update_of_ne (by omega), hlatch, hsame.ad]
        rw [List.getElem?_append_left hlt] at hj
        exact h.entries hj
    · change c₃.latch.log.idxDone + 1 = _
      rw [hlen, List.length_append, List.length_singleton, Nat.add_assoc]
    · change c₃.latch.log.state1 &&& _ = 0
      rw [hlatch]
      exact (bit_low idx hsame.state1).trans h.state1
    · change (c₃.latch.log.state2 >>> _) &&& 15 = 0
      rw [hlatch, hsame.state2]
      exact h.state2
    · change c₃.latch.log.idx = _
      rw [hlatch, hsame.idx]
      exact congrArg (· + 1) h.idx
    · change c₃.regs.pc = _
      have htake : (as ++ [(i, v)]).take (as.length + 1) = as ++ [(i, v)] := by
        rw [List.take_of_length_le (by rw [List.length_append, List.length_singleton])]
      rw [htake, List.map_append, List.map_singleton, words_append, ← h.asked, ← pc_add, ← hpc, ← hregs.pc]
      exact bumped_pc i c₂
    · exact fun j => (bumped_regs i c₂ j).trans ((hregs.regs j).trans (h.regs j))

/-- A core fetches a long in one only if it does not take it from its pipeline. -/
def Asked (p : Prefs) (i : Ask) : Prop := i = .ilong → p.cpuCompatible = false

theorem longTree_asks : (longTree p).Asks (Asked p) := by
  rw [longTree]
  refine Tree.Asks.ite (fun _ => ?_) fun hc => ?_
  · have hword : Asked p .iword := fun h => by cases h
    exact (Tree.asks_query hword).bind fun _ => (Tree.asks_query hword).bind fun _ => trivial
  · exact Tree.asks_query fun _ => Bool.eq_false_iff.mpr hc

theorem dispTree_asks (s : Word) : (dispTree (longTree p) s).Asks (Asked p) := by
  refine Tree.Asks.ite (fun _ => ?_) fun _ => Tree.Asks.ite (fun _ => ?_) fun _ => trivial
  · exact (Tree.asks_query fun h => by cases h).bind fun _ => trivial
  · exact longTree_asks.bind fun _ => trivial

theorem eaTree_asks (base : Long) : (eaTree (longTree p) regs base).Asks (Asked p) := by
  refine (Tree.asks_query fun h => by cases h).bind fun dp => Tree.Asks.ite (fun _ => ?_) fun _ => trivial
  refine (dispTree_asks _).bind fun bd => (dispTree_asks _).bind fun od => ?_
  refine Tree.Asks.ite (fun _ => ?_) fun _ => trivial
  exact (Tree.asks_query fun h => by cases h).bind fun _ => trivial

theorem replays (hw : Performs p regs mem stream pc₀ World q) :
    Replay (Asked p) (step030 q p) (answer mem stream) (At regs pc₀ i₀ idx World)
      fun as _ done c => Logged i₀ idx World as done c where
  hit hi h := step030_hit hw hi h
  miss hi _ h := step030_miss hw hi h

end Steps

/-! ## The decoder -/

section Decoder

variable {q : Port030 M} {p : Prefs} {regs : BitVec 4 → Long} {mem : Long → Long} {stream : Nat → Word} {pc₀ : Long}
  {i₀ : Nat} {idx : Fin 2} {World : List Ask → Cpu030 M → Prop} {c : Cpu030 M}

/-- `mmu030_disp_store[idx]`. -/
def dispStore (idx : Fin 2) (l : Mmu030Log) : Long := if idx.val = 0 then l.dispStore0 else l.dispStore1

/-- The log knows the address and the words it stands in. -/
structure Known (idx : Fin 2) (e : Address) (l : Mmu030Log) : Prop where
  state1 : l.state1 &&& (1 <<< idx.val) ≠ 0
  state2 : (l.state2 >>> (idx.val * 4)) &&& 15 = BitVec.ofNat 16 e.words
  store : dispStore idx l = e.addr

/-- What the decoder leaves: the log as it found it but for the address, and every question asked once
since it was last empty. -/
structure Decoded (pc₀ : Long) (i₀ : Nat) (idx : Fin 2) (World : List Ask → Cpu030 M → Prop) (e : Address) (v : Long)
    (c : Cpu030 M) : Prop where
  addr : v = e.addr
  known : Known idx e c.latch.log
  pc : c.regs.pc = pc₀ + BitVec.ofNat 32 (2 * e.words)
  idx : c.latch.log.idx = i₀
  idxDone : c.latch.log.idxDone = i₀
  asked : ∃ done, World done c ∧ words done = e.words ∧ readsOf done = e.reads

theorem step030_regs (hq : p.cpuCompatible = true → Keeps (q.wordPrefetch 0)) (i : Ask) (c : Cpu030 M) :
    Ends (step030 q p i) c (fun _ c' => reg16 c'.regs = reg16 c.regs) fun _ => True := by
  have hbump : ∀ (c₁ : Cpu030 M), reg16 (bumped i c₁).regs = reg16 c₁.regs := fun c₁ => funext (bumped_regs i c₁)
  let c₁ : Cpu030 M := mapLog (fun l => { l with idx := l.idx + 1 }) c
  have hcheck : Ends (accessCheck : Run030 M _) c (fun _ c' => c' = c₁) fun _ => True := rfl
  refine Ends.bind hcheck fun o c' hc' => ?_
  subst hc'
  cases o with
  | some j => exact .ret (bind_ret (bump_apply i _)) (hbump _)
  | none =>
    refine Ends.bind ((perform_keeps q p hq i c₁).mono (fun _ _ h => h.2) fun _ _ => trivial) fun v c₂ h₂ => ?_
    exact .ret (bind_ret (bump_apply i c₂)) ((hbump c₂).trans (funext h₂.regs))

theorem or_and_self (s b : Word) : (s ||| b) &&& b = b := by
  ext i hi
  simp only [BitVec.getElem_and, BitVec.getElem_or]
  cases b[i] <;> simp

theorem bit_ne_zero : ∀ idx : Fin 2, ((1 <<< idx.val : Nat) : Word) ≠ 0 := by decide

/-- The words of an address have room beside those of the other. -/
theorem nibble_set (idx : Fin 2) {s : Word} {n : Nat} (hn : n ≤ 5) (h : (s >>> (idx.val * 4)) &&& 15 = 0) :
    ((s ||| BitVec.ofNat 16 n <<< (idx.val * 4)) >>> (idx.val * 4)) &&& 15 = BitVec.ofNat 16 n := by
  have hshift : ∀ (idx : Fin 2) (n : Fin 6),
      (BitVec.ofNat 16 n.val <<< (idx.val * 4)) >>> (idx.val * 4) &&& (15 : Word) = BitVec.ofNat 16 n.val := by decide
  rw [BitVec.ushiftRight_or_distrib, BitVec.and_comm, BitVec.and_or_distrib_left, BitVec.and_comm _ (s >>> _), h,
    BitVec.and_comm, hshift idx ⟨n, by omega⟩]
  exact BitVec.zero_or

/-- One try of the decoder. -/
theorem getDispEa020Mmu030_settles (hw : Performs p regs mem stream pc₀ World q) (base : Long)
    (h : Replay.Waiting (answer mem stream) (At regs pc₀ i₀ idx World) (eaTree (longTree p) regs base) [] c) :
    Settles (getDispEa020Mmu030 q p base idx) c (Decoded pc₀ i₀ idx World (ea regs mem stream base))
      (Replay.Broken (answer mem stream) (fun as _ done c => Logged i₀ idx World as done c)
        (eaTree (longTree p) regs base) []) := by
  have hat : ∃ as done r, At regs pc₀ i₀ idx World as 0 done r c := by
    obtain ⟨as, _, done, r, -, -, hat⟩ := h
    exact ⟨as, done, r, hat⟩
  obtain ⟨as, done, r, hat⟩ := hat
  have hgives : Gives mem stream (eaTree (longTree p) regs base) [] _ _ _ := eaTree_gives (longTree_fetches p) base
  obtain ⟨done', hrun, hwords, hreads⟩ := hgives
  have htree : (nextIwordState q p >>= fun dp => extensionEa q p (dp.setWidth 16) base) c =
      (eaTree (longTree p) regs base).exec (step030 q p) c := by
    have hsplit : (eaTree (longTree p) regs base).exec (step030 q p) = nextIwordState q p >>= fun dp =>
        (extTree (longTree p) regs (dp.setWidth 16) base).exec (step030 q p) := by
      rw [eaTree, Tree.exec_bind, Tree.exec_query]
      rfl
    rw [hsplit]
    refine bind_congr_ret fun dp c' hdp => ?_
    have hregs : reg16 c'.regs = regs := ((step030_regs hw.prefetch .iword c).of_ret hdp).trans (funext hat.regs)
    rw [extensionEa_exec, reads_bind_apply, hregs]
  rw [getDispEa020Mmu030, settles_reads_bind, if_neg (not_not.mpr hat.state1), ← bind_assoc]
  refine Settles.bind ((settles_congr htree).mpr ((replays hw).settles (eaTree_asks base) h)) fun x c₁ h₁ => ?_
  obtain ⟨hx, as', -, hat'⟩ := h₁
  rw [hrun] at hx hat'
  subst hx
  have hpc := hat'.pc
  rw [List.take_length, ← hat'.asked, hwords] at hpc
  refine ⟨rfl, ⟨?_, ?_, ?_⟩, ?_, hat.idx, hat.idx, done', hw.log _ _ _ hat'.world, ?_, ?_⟩
  · change (c₁.latch.log.state1 ||| _) &&& _ ≠ 0
    rw [or_and_self]
    exact bit_ne_zero idx
  · change ((c₁.latch.log.state2 ||| _) >>> (idx.val * 4)) &&& 15 = _
    exact nibble_set idx (ea_words_le base) hat'.state2
  · change (if idx.val = 0 then if idx.val = 0 then _ else _ else if idx.val = 0 then _ else _) = _
    by_cases hzero : idx.val = 0
    · rw [if_pos hzero, if_pos hzero]
    · rw [if_neg hzero, if_neg hzero]
  · exact hpc.trans (by rw [show words [] = 0 from rfl, Nat.zero_add])
  · exact hwords.trans (Nat.zero_add _)
  · exact hreads

/-- What a handler and RTE make of a decoder that was broken off: everything is as at its start. The
plain core keeps the log, which may have got the question that was broken off; the compatible core
starts the instruction on an empty one, and everything is asked again. -/
def Restarts (p : Prefs) (regs : BitVec 4 → Long) (mem : Long → Long) (stream : Nat → Word) (pc₀ : Long) (i₀ : Nat)
    (idx : Fin 2) (World : List Ask → Cpu030 M → Prop) (base : Long) (f : Cpu030 M → Cpu030 M) : Prop :=
  ∀ as i k done c, Tree.Answers (answer mem stream) (eaTree (longTree p) regs base) [] as (.ask i k) done →
    Logged i₀ idx World as done c →
    if p.cpuCompatible then At regs pc₀ i₀ idx World [] 0 [] none (f c)
    else At regs pc₀ i₀ idx World as 0 done none (f c) ∨
      At regs pc₀ i₀ idx World (as ++ [(i, (answer mem stream i done).1)]) 0 (done ++ [i]) none (f c)

/-- The decoder, started over after any number of faults. -/
theorem getDispEa020Mmu030_retries (hw : Performs p regs mem stream pc₀ World q) (base : Long)
    (restarts : List (Cpu030 M → Cpu030 M)) (hr : ∀ f ∈ restarts, Restarts p regs mem stream pc₀ i₀ idx World base f)
    (h : At regs pc₀ i₀ idx World [] 0 [] none c) :
    Settles (retries (fun _ s => s) (fun f s => f s) id (getDispEa020Mmu030 q p base idx) restarts) c
      (Decoded pc₀ i₀ idx World (ea regs mem stream base)) fun _ => True := by
  have hstart : ∀ {s}, At regs pc₀ i₀ idx World [] 0 [] none s →
      Replay.Waiting (answer mem stream) (At regs pc₀ i₀ idx World) (eaTree (longTree p) regs base) [] s :=
    fun hs => ⟨[], _, [], none, .nil _ _, .inl rfl, hs⟩
  refine (retries_settles (fun s hs => getDispEa020Mmu030_settles hw base hs) restarts (fun f hf s hs => ?_)
    (hstart h)).mono (fun _ _ h => h) fun _ _ => trivial
  obtain ⟨as, i, k, done, hall, hlogged⟩ := hs
  have hat := hr f hf as i k done s hall hlogged
  split at hat
  · exact hstart hat
  · rcases hat with hat | hat
    · exact ⟨as, _, done, none, hall, .inl rfl, hat⟩
    · exact ⟨_, _, _, none, hall.snoc, .inl rfl, hat⟩

/-- Once the address is known, the decoder asks nothing. -/
theorem getDispEa020Mmu030_known {e : Address} (he : e.words ≤ 5) (h : Known idx e c.latch.log) (base : Long) :
    getDispEa020Mmu030 q p base idx c =
      .ret e.addr (c.mapRegs fun r => { r with pc := r.pc + BitVec.ofNat 32 (2 * e.words) }) := by
  have hpc : ∀ n : Fin 6, ((BitVec.ofNat 16 n.val).setWidth 32 : Long) * 2 = BitVec.ofNat 32 (2 * n.val) := by decide
  rw [getDispEa020Mmu030, reads_bind_apply, if_pos h.state1, h.state2, hpc ⟨e.words, by omega⟩, ← h.store]
  rfl

end Decoder

/-! ## Behind a page mapping -/

section Mapped

open Restart.Misaligned UaeCpu.Misaligned Paged

variable {q : Port030 M} {p : Prefs} {regs : BitVec 4 → Long} {m : Long → Byte} {mem : Long → Long}
  {stream : Nat → Word} {pc₀ : Long} {n : Nat} {frame : Nat → Option Long} {c : Cpu030 M} {addr : Long}

theorem even_add {a : Long} (ha : a &&& 1 = 0) (k : Nat) : (a + BitVec.ofNat 32 (2 * k)) &&& 1 = 0 := by
  have hbit : ∀ x : Long, x &&& 1 = 0 ↔ x.toNat % 2 = 0 := fun x => by
    rw [← Nat.and_one_is_mod, ← BitVec.toNat_inj, BitVec.toNat_and]
    rfl
  rw [hbit] at ha ⊢
  rw [BitVec.toNat_add, BitVec.toNat_ofNat]
  omega

/-- The two words of a long of the instruction. -/
theorem getIlong_words (hf : ∀ fc, Follows030 q false 0 fc n frame fun _ => True) (hn : 2 ≤ n) (hn' : n ≤ 32)
    (heven : addr &&& 1 = 0) (hc : c.world.mem = m) : Settles (uaeMmu030GetIlong q p addr) c
      (fun v c' => c'.world.mem = m ∧ ∃ hi lo, Loads (physical n frame) m addr 2 hi ∧
        Loads (physical n frame) m (addr + 2) 2 lo ∧ v = hi <<< 16 ||| lo)
      (fun c' => c'.world.mem = m) :=
  (getIlong_settles (hf _) hn hn' (.inl heven) ⟨trivial, hc, rfl, rfl⟩).mono
    (fun _ _ h => ⟨h.1.mem, h.2.split⟩) fun _ h => h.choose_spec.2.2.2.1

/-- An MMU that keeps to a page mapping performs the questions of an instruction in memory, if the
pipeline of a compatible core delivers the words there. -/
theorem follows_performs (hf : ∀ fc, Follows030 q false 0 fc n frame fun _ => True)
    (hn : 2 ≤ n) (hn' : n ≤ 32) (heven : pc₀ &&& 1 = 0)
    (hstream : ∀ k v, Loads (physical n frame) m (pc₀ + BitVec.ofNat 32 (2 * k)) 2 v → v = (stream k).setWidth 32)
    (hmem : ∀ a v, Loads (physical n frame) m a 4 v → v = mem a)
    (hkeeps : p.cpuCompatible = true → Keeps (q.wordPrefetch 0))
    (hword : p.cpuCompatible = true → ∀ k c, c.world.mem = m → c.regs.pc = pc₀ + BitVec.ofNat 32 (2 * k) →
      Settles (q.wordPrefetch 0) c (fun v c' => v = (stream k).setWidth 32 ∧ c'.world.mem = m)
        fun c' => c'.world.mem = m) :
    Performs p regs mem stream pc₀ (fun _ c => c.world.mem = m) q where
  perform i done c hi hc _ hpc := by
    cases i with
    | iword =>
      rw [perform, settles_reads_bind]
      refine Settles.ite (fun hcompat => hword hcompat _ c hc hpc) fun _ => ?_
      rw [hpc]
      exact (getIword_settles (hf _) hn' (inPage_even (by omega) hn' (even_add heven _)) ⟨trivial, hc, rfl, rfl⟩).mono
        (fun v c' h => ⟨hstream _ v h.2.2, h.1.mem⟩) fun _ h => h.2.1
    | ilong =>
      rw [perform, settles_reads_bind, hpc]
      refine (getIlong_words hf hn hn' (even_add heven _) hc).mono (fun v c' h => ?_) fun _ h => h
      obtain ⟨hw, hi, lo, hhi, hlo, rfl⟩ := h
      rw [show (2 : Long) = BitVec.ofNat 32 (2 * 1) from rfl, pc_add] at hlo
      rw [hstream _ _ hhi, hstream _ _ hlo]
      exact ⟨(long_words _ _).symm, hw⟩
    | long a =>
      rw [perform, settles_reads_bind]
      exact (getFcx_settles (hf _) hn hn' ⟨trivial, hc, rfl, rfl⟩).mono (fun v c' h => ⟨hmem a v h.2, h.1⟩)
        fun _ h => h.choose_spec.2.2.2.1
  log _ _ _ h := h
  pc _ _ _ h := h
  overrun _ _ _ h := h
  prefetch := hkeeps

end Mapped

end UaeCpu.Restart.Ea
