import UaeCpu.InBounds

/-!
# UaeCpu.DirectFetch

Instruction fetch through a host pointer. `m68k_setpc` translates the new PC once; from then on
the moves of the PC move the pointer `pc_p`, and the words at `pc_p` are taken for the words at
the PC. Where the PC has no host address, `pc_p` is `NULL` and fetches go to the bus.

* `Tracks`                 — the pointer is the translation of the PC last set, moved as far.
* `run_tracks`             — every operation on the PC keeps this.
* `direct_fetch_agrees_iff`— when the word fetched is the word on the bus.
-/

namespace UaeCpu

open Fault FaultM Trans

variable {ω : Type}

/-! ## Operations -/

/-- The PC in the three forms the code keeps it, with A7 and memory. The pointers are 0 when
`NULL`, and may be moved out of any buffer. -/
structure FetchState (ω : Type) where
  pc : Long
  instructionPc : Long
  pcP : Int
  pcOldp : Int
  a7 : Long
  mem : MemWorld ω

abbrev Fetch (ω α : Type) := FaultM (FetchState ω) α

/-- An access made by the CPU. -/
def onMem {α : Type} (m : Acc ω α) : Fetch ω α := fun s =>
  match m s.mem with
  | .ret a w => .ret a { s with mem := w }
  | .thrown c w => .thrown c { s with mem := w }
  | .diverge => .diverge

def m68kGetpc (s : FetchState ω) : Long :=
  if s.pcP ≠ 0 ∧ s.pcOldp ≠ 0 then s.pc + BitVec.ofInt 32 (s.pcP - s.pcOldp) else s.pc

def m68kIncpc (o : Int) : Fetch ω Unit := update fun s =>
  if s.pcP ≠ 0 then { s with pcP := s.pcP + o } else { s with pc := s.pc + BitVec.ofInt 32 o }

/-- `do_get_mem_word` at a pointer that was moved. -/
def doGetMemWordAt (p : Int) : Acc ω Word := if p < 0 then crash else doGetMemWord p.toNat

section Ops

variable (env : MemEnv ω)

def m68kSetpc (newpc : Long) : Fetch ω Unit := update fun s =>
  { s with
    instructionPc := newpc
    pc := newpc
    pcP := getRealAddress env newpc
    pcOldp := getRealAddress env newpc }

def getDiword (o : Int) : Fetch ω Word := do
  if (← reads fun s => s.pcP) ≠ 0 then
    onMem (doGetMemWordAt ((← reads fun s => s.pcP) + o))
  else
    onMem (getWord env ((← reads fun s => s.pc) + BitVec.ofInt 32 o))

def nextDiword : Fetch ω Word := do
  if (← reads fun s => s.pcP) ≠ 0 then
    let r ← onMem (doGetMemWordAt (← reads fun s => s.pcP))
    m68kIncpc 2
    pure r
  else
    let r ← onMem (getWord env (← reads fun s => s.pc))
    update fun s => { s with pc := s.pc + 2 }
    pure r

def m68kDoBsr (oldpc : Long) (offset : Int) : Fetch ω Unit := do
  update fun s => { s with a7 := s.a7 - 4 }
  onMem (putLong env (← reads fun s => s.a7) oldpc)
  m68kIncpc offset

def m68kDoRts : Fetch ω Unit := do
  let newpc ← onMem (getLong env (← reads fun s => s.a7))
  m68kSetpc env newpc
  update fun s => { s with a7 := s.a7 + 4 }

end Ops

/-! ## Runs -/

/-- What can happen to the PC. `other` is whatever instructions do besides: to A7, to memory and
to the devices. -/
inductive PcOp (ω : Type) where
  | setpc (newpc : Long)
  | incpc (o : Int)
  | doBsr (oldpc : Long) (offset : Int)
  | doRts
  | nextDiword
  | other (a7 : Long) (mem : MemWorld ω)

/-- The PC last set, and how far it has been moved since. -/
structure Pos where
  base : Long
  moved : Int

def Pos.by (p : Pos) (o : Int) : Pos := { p with moved := p.moved + o }

/-- The operations, with the PC followed beside them. A bus error leaves the PC where it is. -/
def pcStep (env : MemEnv ω) (t : FetchState ω × Pos) (op : PcOp ω) (t' : FetchState ω × Pos) :
    Prop :=
  match op with
  | .setpc newpc => m68kSetpc env newpc t.1 = .ret () t'.1 ∧ t'.2 = ⟨newpc, 0⟩
  | .incpc o => m68kIncpc o t.1 = .ret () t'.1 ∧ t'.2 = t.2.by o
  | .doBsr oldpc offset =>
    m68kDoBsr env oldpc offset t.1 = .ret () t'.1 ∧ t'.2 = t.2.by offset ∨
      ∃ c, m68kDoBsr env oldpc offset t.1 = .thrown c t'.1 ∧ t'.2 = t.2
  | .doRts =>
    m68kDoRts env t.1 = .ret () t'.1 ∧ t'.2 = ⟨t'.1.pc, 0⟩ ∨
      ∃ c, m68kDoRts env t.1 = .thrown c t'.1 ∧ t'.2 = t.2
  | .nextDiword =>
    (∃ v, nextDiword env t.1 = .ret v t'.1) ∧ t'.2 = t.2.by 2 ∨
      ∃ c, nextDiword env t.1 = .thrown c t'.1 ∧ t'.2 = t.2
  | .other a7 mem => t'.1 = { t.1 with a7 := a7, mem := mem } ∧ t'.2 = t.2

/-- How far the operation moves a pointer. -/
def PcOp.offset : PcOp ω → Int
  | .incpc o | .doBsr _ o => o
  | .nextDiword => 2
  | _ => 0

/-- The operation does not move `pc_p` to `NULL`, which C leaves undefined. -/
def NotToNull (t : FetchState ω × Pos) (op : PcOp ω) : Prop :=
  t.1.pcP ≠ 0 → t.1.pcP + op.offset ≠ 0

/-! ## The invariant -/

/-- The pointers belong to the PC last set: without a translation `regs.pc` itself is moved,
otherwise `pc_p` is. -/
structure Tracks (env : MemEnv ω) (t : FetchState ω × Pos) : Prop where
  old : t.1.pcOldp = getRealAddress env t.2.base
  bus : getRealAddress env t.2.base = 0 →
    t.1.pcP = 0 ∧ t.1.pc = t.2.base + BitVec.ofInt 32 t.2.moved
  direct : getRealAddress env t.2.base ≠ 0 →
    t.1.pcP ≠ 0 ∧ t.1.pc = t.2.base ∧ t.1.pcP = getRealAddress env t.2.base + t.2.moved

variable {env : MemEnv ω} {s s' : FetchState ω} {p : Pos}

/-- Only the three forms of the PC matter. -/
theorem Tracks.of_pc (h : Tracks env (s, p)) (hpc : s'.pc = s.pc) (hp : s'.pcP = s.pcP)
    (hold : s'.pcOldp = s.pcOldp) : Tracks env (s', p) where
  old := hold.trans h.old
  bus := fun hx => by
    obtain ⟨h1, h2⟩ := h.bus hx
    exact ⟨hp.trans h1, hpc.trans h2⟩
  direct := fun hx => by
    obtain ⟨h1, h2, h3⟩ := h.direct hx
    exact ⟨fun h0 => h1 (hp.symm.trans h0), hpc.trans h2, hp.trans h3⟩

theorem setpc_tracks (newpc : Long) (hs : m68kSetpc env newpc s = .ret () s') :
    Tracks env (s', ⟨newpc, 0⟩) := by
  cases hs
  refine ⟨rfl, fun hx => ⟨?_, ?_⟩, fun hx => ⟨?_, rfl, ?_⟩⟩
  · exact Int.ofNat_eq_zero.mpr hx
  · exact (BitVec.add_zero newpc).symm
  · exact fun h0 => hx (Int.ofNat_eq_zero.mp h0)
  · exact (Int.add_zero _).symm

theorem m68kIncpc_direct (o : Int) (h : s.pcP ≠ 0) :
    m68kIncpc o s = .ret () { s with pcP := s.pcP + o } := by
  unfold m68kIncpc
  rw [update_apply, if_pos h]

theorem m68kIncpc_bus (o : Int) (h : s.pcP = 0) :
    m68kIncpc o s = .ret () { s with pc := s.pc + BitVec.ofInt 32 o } := by
  unfold m68kIncpc
  rw [update_apply, if_neg (not_not.mpr h)]

theorem incpc_tracks {o : Int} (h : Tracks env (s, p)) (hn : s.pcP ≠ 0 → s.pcP + o ≠ 0)
    (hs : m68kIncpc o s = .ret () s') : Tracks env (s', p.by o) := by
  by_cases hx : getRealAddress env p.base = 0
  · obtain ⟨hp, hpc⟩ := h.bus hx
    rw [m68kIncpc_bus o hp] at hs
    cases hs
    refine ⟨h.old, fun _ => ⟨hp, ?_⟩, fun hx' => absurd hx hx'⟩
    show s.pc + BitVec.ofInt 32 o = p.base + BitVec.ofInt 32 (p.moved + o)
    rw [show s.pc = p.base + BitVec.ofInt 32 p.moved from hpc, BitVec.add_assoc,
      ← BitVec.ofInt_add]
  · obtain ⟨hp, hpc, hat⟩ := h.direct hx
    rw [m68kIncpc_direct o hp] at hs
    cases hs
    refine ⟨h.old, fun hx' => absurd hx' hx, fun _ => ⟨hn hp, hpc, ?_⟩⟩
    show s.pcP + o = getRealAddress env p.base + (p.moved + o)
    rw [show s.pcP = getRealAddress env p.base + p.moved from hat, Int.add_assoc]

theorem onMem_ret {α : Type} {m : Acc ω α} {a : α} (h : onMem m s = .ret a s') :
    ∃ w, m s.mem = .ret a w ∧ s' = { s with mem := w } := by
  unfold onMem at h
  cases hm : m s.mem with
  | ret b w => rw [hm] at h; cases h; exact ⟨w, rfl, rfl⟩
  | thrown c w => rw [hm] at h; cases h
  | diverge => rw [hm] at h; cases h

theorem onMem_thrown {α : Type} {m : Acc ω α} {c : Int} (h : onMem m s = .thrown c s') :
    ∃ w, m s.mem = .thrown c w ∧ s' = { s with mem := w } := by
  unfold onMem at h
  cases hm : m s.mem with
  | ret b w => rw [hm] at h; cases h
  | thrown d w => rw [hm] at h; cases h; exact ⟨w, rfl, rfl⟩
  | diverge => rw [hm] at h; cases h

theorem doBsr_ret {oldpc : Long} {o : Int} (h : m68kDoBsr env oldpc o s = .ret () s') :
    ∃ w, m68kIncpc o { s with a7 := s.a7 - 4, mem := w } = .ret () s' := by
  obtain ⟨_, t, hput, hinc⟩ := ret_of_bind (m := onMem (putLong env (s.a7 - 4) oldpc)) h
  obtain ⟨w, -, rfl⟩ := onMem_ret hput
  exact ⟨w, hinc⟩

theorem doBsr_thrown {oldpc : Long} {o c : Int} (h : m68kDoBsr env oldpc o s = .thrown c s') :
    ∃ w, s' = { s with a7 := s.a7 - 4, mem := w } := by
  rcases thrown_of_bind (m := onMem (putLong env (s.a7 - 4) oldpc)) h with hput | ⟨_, t, -, hinc⟩
  · obtain ⟨w, -, rfl⟩ := onMem_thrown hput
    exact ⟨w, rfl⟩
  · cases hinc

theorem doRts_ret (h : m68kDoRts env s = .ret () s') :
    ∃ newpc w t, m68kSetpc env newpc { s with mem := w } = .ret () t ∧
      s' = { t with a7 := t.a7 + 4 } := by
  obtain ⟨newpc, t, hget, hset⟩ := ret_of_bind (m := onMem (getLong env s.a7)) h
  obtain ⟨w, -, rfl⟩ := onMem_ret hget
  cases hset
  exact ⟨newpc, w, _, rfl, rfl⟩

theorem doRts_thrown {c : Int} (h : m68kDoRts env s = .thrown c s') :
    ∃ w, s' = { s with mem := w } := by
  rcases thrown_of_bind (m := onMem (getLong env s.a7)) h with hget | ⟨_, t, -, hset⟩
  · obtain ⟨w, -, rfl⟩ := onMem_thrown hget
    exact ⟨w, rfl⟩
  · cases hset

theorem getDiword_direct (o : Int) (h : s.pcP ≠ 0) :
    getDiword env o s = onMem (doGetMemWordAt (s.pcP + o)) s := by
  unfold getDiword
  rw [reads_bind_apply, if_pos h, reads_bind_apply]

theorem getDiword_bus (o : Int) (h : s.pcP = 0) :
    getDiword env o s = onMem (getWord env (s.pc + BitVec.ofInt 32 o)) s := by
  unfold getDiword
  rw [reads_bind_apply, if_neg (not_not.mpr h), reads_bind_apply]

theorem onMem_keeps {α : Type} {m : Acc ω α} {a : α} (h : onMem m s = .ret a s') :
    s'.pcP = s.pcP := by
  obtain ⟨w, -, rfl⟩ := onMem_ret h
  rfl

/-- `next_diword` is `get_diword(0)` followed by `m68k_incpc(2)`. -/
theorem nextDiword_apply (env : MemEnv ω) (s : FetchState ω) :
    nextDiword env s = (getDiword env 0 >>= fun r => do m68kIncpc 2; pure r) s := by
  unfold nextDiword
  rw [reads_bind_apply]
  by_cases h : s.pcP = 0
  · rw [if_neg (not_not.mpr h), reads_bind_apply, bind_apply, bind_apply, getDiword_bus 0 h]
    rw [show s.pc + BitVec.ofInt 32 0 = s.pc from BitVec.add_zero s.pc]
    cases hm : onMem (getWord env s.pc) s with
    | ret r t =>
      dsimp only
      rw [update_bind_apply, bind_ret (m68kIncpc_bus 2 ((onMem_keeps hm).trans h))]
      rfl
    | _ => rfl
  · rw [if_pos h, reads_bind_apply, bind_apply, bind_apply, getDiword_direct 0 h, Int.add_zero]

theorem getDiword_ret {o : Int} {v : Word} (h : getDiword env o s = .ret v s') :
    ∃ w, s' = { s with mem := w } := by
  by_cases hp : s.pcP = 0
  · rw [getDiword_bus o hp] at h
    obtain ⟨w, -, hw⟩ := onMem_ret h
    exact ⟨w, hw⟩
  · rw [getDiword_direct o hp] at h
    obtain ⟨w, -, hw⟩ := onMem_ret h
    exact ⟨w, hw⟩

theorem getDiword_thrown {o c : Int} (h : getDiword env o s = .thrown c s') :
    ∃ w, s' = { s with mem := w } := by
  by_cases hp : s.pcP = 0
  · rw [getDiword_bus o hp] at h
    obtain ⟨w, -, hw⟩ := onMem_thrown h
    exact ⟨w, hw⟩
  · rw [getDiword_direct o hp] at h
    obtain ⟨w, -, hw⟩ := onMem_thrown h
    exact ⟨w, hw⟩

theorem nextDiword_ret {v : Word} (h : nextDiword env s = .ret v s') :
    ∃ w, m68kIncpc 2 { s with mem := w } = .ret () s' := by
  rw [nextDiword_apply] at h
  obtain ⟨r, t, hget, hinc⟩ := ret_of_bind h
  obtain ⟨w, rfl⟩ := getDiword_ret hget
  cases hinc
  exact ⟨w, rfl⟩

theorem nextDiword_thrown {c : Int} (h : nextDiword env s = .thrown c s') :
    ∃ w, s' = { s with mem := w } := by
  rw [nextDiword_apply] at h
  rcases thrown_of_bind h with hget | ⟨r, t, -, hinc⟩
  · exact getDiword_thrown hget
  · cases hinc

theorem pcStep_tracks {t t' : FetchState ω × Pos} {op : PcOp ω} (h : Tracks env t)
    (hs : Guarded (pcStep env) NotToNull t op t') : Tracks env t' := by
  obtain ⟨s, p⟩ := t
  obtain ⟨s', p'⟩ := t'
  obtain ⟨hn, hstep⟩ := hs
  unfold pcStep at hstep
  dsimp only at hstep
  cases op with
  | setpc newpc =>
    obtain ⟨hset, rfl⟩ := hstep
    exact setpc_tracks newpc hset
  | incpc o =>
    obtain ⟨hinc, rfl⟩ := hstep
    exact incpc_tracks h hn hinc
  | doBsr oldpc o =>
    rcases hstep with ⟨hret, rfl⟩ | ⟨c, hthrown, rfl⟩
    · obtain ⟨w, hinc⟩ := doBsr_ret hret
      have hw : Tracks env ({ s with a7 := s.a7 - 4, mem := w }, p) := h.of_pc rfl rfl rfl
      exact incpc_tracks hw hn hinc
    · obtain ⟨w, rfl⟩ := doBsr_thrown hthrown
      exact h.of_pc rfl rfl rfl
  | doRts =>
    rcases hstep with ⟨hret, rfl⟩ | ⟨c, hthrown, rfl⟩
    · obtain ⟨newpc, w, t, hset, rfl⟩ := doRts_ret hret
      have ht := setpc_tracks newpc hset
      cases hset
      exact ht.of_pc rfl rfl rfl
    · obtain ⟨w, rfl⟩ := doRts_thrown hthrown
      exact h.of_pc rfl rfl rfl
  | nextDiword =>
    rcases hstep with ⟨⟨v, hret⟩, rfl⟩ | ⟨c, hthrown, rfl⟩
    · obtain ⟨w, hinc⟩ := nextDiword_ret hret
      have hw : Tracks env ({ s with mem := w }, p) := h.of_pc rfl rfl rfl
      exact incpc_tracks hw hn hinc
    · obtain ⟨w, rfl⟩ := nextDiword_thrown hthrown
      exact h.of_pc rfl rfl rfl
  | other a7 mem =>
    obtain ⟨rfl, rfl⟩ := hstep
    exact h.of_pc rfl rfl rfl

theorem run_tracks {t t' : FetchState ω × Pos} {ops : List (PcOp ω)} (h : Tracks env t)
    (hrun : Run (Guarded (pcStep env) NotToNull) t ops t') : Tracks env t' :=
  hrun.invariant h pcStep_tracks

/-- The PC is the one last set, moved. -/
theorem m68kGetpc_eq (h : Tracks env (s, p)) :
    m68kGetpc s = p.base + BitVec.ofInt 32 p.moved := by
  unfold m68kGetpc
  by_cases hx : getRealAddress env p.base = 0
  · obtain ⟨hp, hpc⟩ := h.bus hx
    rw [if_neg fun hc => hc.1 hp]
    exact hpc
  · obtain ⟨hp, hpc, hat⟩ := h.direct hx
    have hold : s.pcOldp = getRealAddress env p.base := h.old
    have hne : s.pcOldp ≠ 0 := fun h0 => hx (Int.ofNat_eq_zero.mp (hold.symm.trans h0))
    rw [if_pos ⟨hp, hne⟩, show s.pc = p.base from hpc, hold,
      show s.pcP = getRealAddress env p.base + p.moved from hat, Int.add_comm,
      Int.add_sub_cancel]

/-! ## Words -/

/-- Host memory `host` in place of the present one. -/
def MemWorld.withHost (w : MemWorld ω) (host : HostPtr → Byte) : MemWorld ω :=
  { w with host := host }

/-- What a word read gives that does not end in RAM: the same for every contents of host memory,
or never a zero word. -/
theorem getWord_not_ram {addr : Long} {b : Addrbank (Callbacks ω)}
    (hb : env.map.bankAt addr = some b) (hram : b.handlers ≠ .ram) (w : MemWorld ω) :
    (∀ host, (getWord env addr (w.withHost host)).result = (getWord env addr w).result) ∨
      ∀ host, (getWord env addr (w.withHost host)).result ≠ some (.ok 0) := by
  unfold getWord
  simp only [hb]
  cases hh : b.handlers with
  | ram => exact absurd hh hram
  | musashi => exact .inl fun _ => rfl
  | testdev => exact .inl fun _ => rfl
  | custom =>
    left
    intro host
    dsimp only
    unfold customWget
    cases b.callbacks.r16 with
    | some r16 => rfl
    | none => cases b.callbacks.r8 <;> rfl
  | dummy =>
    dsimp only
    unfold dummyWget dummyAccess
    cases env.musashiMode with
    | true => exact .inl fun _ => rfl
    | false =>
      cases env.unmappedBusError with
      | false => exact .inl fun _ => rfl
      | true =>
        -- the bus error may be thrown or not, but the bus floats high
        right
        intro host
        rw [if_neg Bool.false_ne_true, if_pos rfl, bind_apply]
        unfold uaeHostRaiseBusError
        obtain ⟨code, d⟩ := env.raiseBusError addr false 2 (w.withHost host).dev
        cases code <;> exact fun h => nomatch h

theorem getWord_ram {addr : Long} {b : Addrbank (Callbacks ω)}
    (hb : env.map.bankAt addr = some b) (hram : b.handlers = .ram) :
    getWord env addr = doGetMemWord (b.hostAddr addr) := by
  simp only [getWord, hb, hram, ramWget]

theorem doGetMemWord_result (q : HostPtr) (w : MemWorld ω) :
    (doGetMemWord q w).result = some (.ok (w.host q ++ w.host (q + 1))) := rfl

theorem doGetMemWordAt_ofNat (q : HostPtr) :
    doGetMemWordAt (q : Int) = (doGetMemWord q : Acc ω Word) := by
  unfold doGetMemWordAt
  rw [if_neg (Int.not_lt.mpr (Int.natCast_nonneg q)), Int.toNat_natCast]

/-- A word at one host address is the word at another whatever memory holds only if the two are
the same. -/
theorem hostWord_ne {q r : HostPtr} (hne : q ≠ r) :
    ∃ host : HostPtr → Byte, host q ++ host (q + 1) ≠ host r ++ host (r + 1) := by
  refine ⟨fun x => if x = q then 1 else 0, ?_⟩
  dsimp only
  rw [if_pos rfl, if_neg (Nat.succ_ne_self q), if_neg hne.symm]
  split <;> decide

/-- A word read always comes back, with a value or a bus error. -/
theorem getWord_comes_back {addr : Long} {b : Addrbank (Callbacks ω)}
    (hb : env.map.bankAt addr = some b) (w : MemWorld ω) : (getWord env addr w).result ≠ none := by
  unfold getWord
  simp only [hb]
  cases b.handlers with
  | ram | musashi | testdev => exact fun h => nomatch h
  | custom =>
    dsimp only
    unfold customWget
    cases b.callbacks.r16 with
    | some r16 => exact fun h => nomatch h
    | none => cases b.callbacks.r8 <;> exact fun h => nomatch h
  | dummy =>
    dsimp only
    unfold dummyWget dummyAccess
    split
    · exact fun h => nomatch h
    split
    · rw [bind_apply]
      unfold uaeHostRaiseBusError
      obtain ⟨code, d⟩ := env.raiseBusError addr false 2 w.dev
      cases code <;> exact fun h => nomatch h
    · exact fun h => nomatch h

/-- A word at a host address is the word on the bus, whatever memory holds, exactly when that is
where RAM or ROM keeps it. -/
theorem wordAt_agrees_iff {addr : Long} {q : Int} {b : Addrbank (Callbacks ω)}
    (hb : env.map.bankAt addr = some b) (w₀ : MemWorld ω) :
    (∀ w, (doGetMemWordAt q w).result = (getWord env addr w).result) ↔
      b.handlers = .ram ∧ (b.hostAddr addr : Int) = q := by
  constructor
  · intro h
    -- a pointer below the address space is not read at all, where the bus answers
    have hpos : 0 ≤ q := by
      by_contra hneg
      have hw := h w₀
      rw [doGetMemWordAt, if_pos (Int.not_le.mp hneg)] at hw
      exact getWord_comes_back hb w₀ hw.symm
    obtain ⟨n, rfl⟩ := Int.eq_ofNat_of_zero_le hpos
    have hat : ∀ host, some (.ok (host n ++ host (n + 1))) =
        (getWord env addr (w₀.withHost host)).result := by
      intro host
      rw [← h, doGetMemWordAt_ofNat]
      rfl
    by_cases hram : b.handlers = .ram
    · refine ⟨hram, ?_⟩
      by_contra hne
      obtain ⟨host, hhost⟩ := hostWord_ne fun he : n = b.hostAddr addr => hne (by rw [he])
      have hw := hat host
      rw [getWord_ram hb hram, doGetMemWord_result] at hw
      injection hw with hw
      injection hw with hw
      exact hhost hw
    · exfalso
      rcases getWord_not_ram hb hram w₀ with hsame | hne
      · -- a word of zeros and a word of ones cannot both be the one value
        have hzeros := (hat fun _ => 0).trans (hsame _)
        have hones := (hat fun _ => 1).trans (hsame _)
        have hw := hzeros.trans hones.symm
        revert hw
        decide
      · exact hne _ (hat fun _ => 0).symm
  · rintro ⟨hram, rfl⟩ w
    rw [getWord_ram hb hram, doGetMemWordAt_ofNat]

/-! ## Fetches -/

/-- The translation of `base` serves the address `d` bytes further: there is none, so that
fetches go to the bus, or that address lies in RAM or ROM and its host byte lies `d` further. -/
def Serves (env : MemEnv ω) (base : Long) (d : Int) : Prop :=
  getRealAddress env base = 0 ∨
    ∃ b, env.map.bankAt (base + BitVec.ofInt 32 d) = some b ∧ b.handlers = .ram ∧
      (b.hostAddr (base + BitVec.ofInt 32 d) : Int) = getRealAddress env base + d

theorem onMem_result {α : Type} (m : Acc ω α) (s : FetchState ω) :
    (onMem m s).result = (m s.mem).result := by
  unfold onMem
  cases m s.mem <;> rfl

theorem nextDiword_result (env : MemEnv ω) (s : FetchState ω) :
    (nextDiword env s).result = (getDiword env 0 s).result := by
  rw [nextDiword_apply, bind_apply]
  cases getDiword env 0 s <;> rfl

theorem Tracks.fetch_bus (h : Tracks env (s, p)) (hx : getRealAddress env p.base = 0) (o : Int) :
    (getDiword env o s).result =
      (getWord env (p.base + BitVec.ofInt 32 (p.moved + o)) s.mem).result := by
  obtain ⟨hp, hpc⟩ := h.bus hx
  rw [getDiword_bus o hp, onMem_result,
    show s.pc = p.base + BitVec.ofInt 32 p.moved from hpc, BitVec.add_assoc, ← BitVec.ofInt_add]

theorem Tracks.fetch_direct (h : Tracks env (s, p)) (hx : getRealAddress env p.base ≠ 0)
    (o : Int) : (getDiword env o s).result =
      (doGetMemWordAt (getRealAddress env p.base + (p.moved + o)) s.mem).result := by
  obtain ⟨hp, -, hat⟩ := h.direct hx
  rw [getDiword_direct o hp, onMem_result,
    show s.pcP = getRealAddress env p.base + p.moved from hat, Int.add_assoc]

theorem Tracks.getDiword_iff (h : Tracks env (s, p))
    (hbanks : ∀ a, ∃ b, env.map.bankAt a = some b) (o : Int) :
    (∀ w, (getDiword env o { s with mem := w }).result =
        (getWord env (m68kGetpc s + BitVec.ofInt 32 o) w).result) ↔
      Serves env p.base (p.moved + o) := by
  have hw : ∀ w, Tracks env ({ s with mem := w }, p) := fun w => h.of_pc rfl rfl rfl
  rw [m68kGetpc_eq h, BitVec.add_assoc, ← BitVec.ofInt_add]
  by_cases hx : getRealAddress env p.base = 0
  · exact iff_of_true (fun w => (hw w).fetch_bus hx o) (.inl hx)
  · obtain ⟨b, hb⟩ := hbanks (p.base + BitVec.ofInt 32 (p.moved + o))
    have hserves : Serves env p.base (p.moved + o) ↔ b.handlers = .ram ∧
        (b.hostAddr (p.base + BitVec.ofInt 32 (p.moved + o)) : Int) =
          getRealAddress env p.base + (p.moved + o) := by
      unfold Serves
      constructor
      · rintro (h0 | ⟨c, hc, hram, haddr⟩)
        · exact absurd h0 hx
        · cases hc.symm.trans hb
          exact ⟨hram, haddr⟩
      · rintro ⟨hram, haddr⟩
        exact .inr ⟨b, hb, hram, haddr⟩
    rw [hserves, ← wordAt_agrees_iff hb s.mem]
    exact forall_congr' fun w => by rw [(hw w).fetch_direct hx o]

/-- Within the region of the PC last set the translation serves every address. -/
theorem serves_region {base : Long} {d : Int} {b : Addrbank (Callbacks ω)}
    (hb : env.map.bankAt base = some b) (hram : b.handlers = .ram)
    (hd : env.map.bankAt (base + BitVec.ofInt 32 d) = some b)
    (hlow : 0 ≤ (base - b.start).toNat + d) (hhigh : (base - b.start).toNat + d < 2 ^ 32) :
    Serves env base d := by
  refine .inr ⟨b, hd, hram, ?_⟩
  have hoff : ((base + BitVec.ofInt 32 d - b.start).toNat : Int) =
      (base - b.start).toNat + d := by
    have hsub : base + BitVec.ofInt 32 d - b.start = base - b.start + BitVec.ofInt 32 d := by
      rw [BitVec.sub_eq_add_neg, BitVec.sub_eq_add_neg, BitVec.add_assoc, BitVec.add_assoc,
        BitVec.add_comm (BitVec.ofInt 32 d)]
    rw [hsub, BitVec.toNat_add, BitVec.toNat_ofInt]
    omega
  unfold getRealAddress Addrbank.hostAddr
  rw [hb]
  dsimp only
  rw [if_pos hram, Nat.cast_add, Nat.cast_add, hoff, Int.add_assoc]

/-- Where the next address has its host byte elsewhere, the translation does not serve it. -/
theorem not_serves {base : Long} {d : Int} {b c : Addrbank (Callbacks ω)}
    (hb : env.map.bankAt base = some b) (hram : b.handlers = .ram) (hx : b.hostAddr base ≠ 0)
    (hc : env.map.bankAt (base + BitVec.ofInt 32 d) = some c)
    (hne : (c.hostAddr (base + BitVec.ofInt 32 d) : Int) ≠ b.hostAddr base + d) :
    ¬ Serves env base d := by
  have hreal : getRealAddress env base = b.hostAddr base := by
    unfold getRealAddress
    rw [hb]
    exact if_pos hram
  unfold Serves
  rw [hreal]
  rintro (h0 | ⟨c', hc', -, haddr⟩)
  · exact hx h0
  · cases hc'.symm.trans hc
    exact hne haddr

theorem tracks_of_run {s₀ : FetchState ω} {p₀ : Pos} {start : Long} {ops : List (PcOp ω)}
    (hrun : Run (Guarded (pcStep env) NotToNull) (s₀, p₀) (.setpc start :: ops) (s, p)) :
    Tracks env (s, p) := by
  cases hrun with
  | @cons _ t _ _ _ hset hrest =>
    obtain ⟨t, pos⟩ := t
    obtain ⟨-, hset, rfl⟩ := hset
    exact run_tracks (setpc_tracks start hset) hrest

/-- After any operations on the PC, the word at `o` bytes from the PC, and the next word, are
fetched as the bus reads them, whatever memory holds, exactly when the translation of the PC last
set serves their address. -/
theorem direct_fetch_agrees_iff (env : MemEnv ω) (calls : List (MemOp (Callbacks ω)))
    (hmap : env.map = runOps (.init :: calls) .initial) (s₀ s : FetchState ω) (p₀ p : Pos)
    (start : Long) (ops : List (PcOp ω))
    (hrun : Run (Guarded (pcStep env) NotToNull) (s₀, p₀) (.setpc start :: ops) (s, p)) :
    (∀ o, (∀ w, (getDiword env o { s with mem := w }).result =
        (getWord env (m68kGetpc s + BitVec.ofInt 32 o) w).result) ↔
      Serves env p.base (p.moved + o)) ∧
    ((∀ w, (nextDiword env { s with mem := w }).result =
        (getWord env (m68kGetpc s) w).result) ↔ Serves env p.base p.moved) := by
  have ht : Tracks env (s, p) := tracks_of_run hrun
  have hbanks : ∀ a, ∃ b, env.map.bankAt a = some b := by
    rw [hmap]
    exact bankAt_run calls
  refine ⟨ht.getDiword_iff hbanks, ?_⟩
  have h0 := ht.getDiword_iff hbanks 0
  rw [Int.add_zero, show m68kGetpc s + BitVec.ofInt 32 0 = m68kGetpc s from BitVec.add_zero _] at h0
  simp only [nextDiword_result]
  exact h0

/-- The start of a run: nothing set yet. -/
def FetchState.start : FetchState Unit :=
  { pc := 0, instructionPc := 0, pcP := 0, pcOldp := 0, a7 := 0, mem := .holding fun _ => 0 }

theorem MemState.bankAt_congr {δ : Type} {st : MemState δ} {a a' : Long}
    (h : bankIndex a = bankIndex a') : st.bankAt a = st.bankAt a' := by
  unfold MemState.bankAt
  rw [h]

theorem run_setpc_incpc (env : MemEnv Unit) (base : Long) (o : Int) (p₀ : Pos)
    (hn : (getRealAddress env base : Int) ≠ 0 → (getRealAddress env base : Int) + o ≠ 0) :
    ∃ s, Run (Guarded (pcStep env) NotToNull) (.start, p₀) [.setpc base, .incpc o]
      (s, ⟨base, 0 + o⟩) := by
  have hset : Guarded (pcStep env) NotToNull (.start, p₀) (.setpc base) (_, ⟨base, 0⟩) :=
    ⟨fun h => absurd rfl h, rfl, rfl⟩
  exact ⟨_, .cons hset (.single ⟨hn, rfl, rfl⟩)⟩

theorem fetch_after_move :
    let env := MemEnv.bare (runOps [.init, .mapPtr true 0 0x10000 0x100000 0] .initial)
    ∃ s p, Run (Guarded (pcStep env) NotToNull) (.start, ⟨0, 0⟩) [.setpc 0x1000, .incpc 4] (s, p) ∧
      ∀ w, (getDiword env 2 { s with mem := w }).result =
        (getWord env (m68kGetpc s + BitVec.ofInt 32 2) w).result := by
  intro env
  have hc : Covered 0 0x10000 (bankIndex 0x1000) := by unfold Covered Loop.Arc; decide
  obtain ⟨b, hmap, hs⟩ : ∃ b, env.map.bankAt 0x1000 = some b ∧
      b.shape = (ramBank 0 0x10000 0x100000 0).shape := bankAt_mapPtr _ _ _ hc
  have hmap' : env.map.bankAt (0x1000 + BitVec.ofInt 32 (0 + 4 + 2)) = some b := by
    rw [MemState.bankAt_congr (show bankIndex _ = bankIndex 0x1000 by decide)]
    exact hmap
  have hstart : b.start = 0 := congrArg Addrbank.start hs
  obtain ⟨s, hrun⟩ := run_setpc_incpc env 0x1000 4 ⟨0, 0⟩ fun _ => by omega
  refine ⟨s, _, hrun, ?_⟩
  refine ((direct_fetch_agrees_iff env _ rfl _ s _ _ _ _ hrun).1 2).mpr ?_
  refine serves_region hmap (congrArg Addrbank.handlers hs) hmap' ?_ ?_
  · rw [hstart]; decide
  · rw [hstart]; decide

/-- Two regions that adjoin in the guest and not in the host: the word after the first is not
the one at the start of the second. -/
theorem fetch_across_regions :
    let env := MemEnv.bare (runOps [.init, .mapPtr true 0 0x10000 0x100000 0,
      .mapPtr true 0x10000 0x10000 0x300000 0] .initial)
    ∃ s p, Run (Guarded (pcStep env) NotToNull) (.start, ⟨0, 0⟩) [.setpc 0xFFFE, .incpc 0] (s, p) ∧
      ¬ ∀ w, (getDiword env 2 { s with mem := w }).result =
        (getWord env (m68kGetpc s + BitVec.ofInt 32 2) w).result := by
  intro env
  have hfirst : Covered 0 0x10000 (bankIndex 0xFFFE) := by unfold Covered Loop.Arc; decide
  have hother : ¬ Covered 0x10000 0x10000 (bankIndex 0xFFFE) := by
    unfold Covered Loop.Arc; decide
  have hsecond : Covered 0x10000 0x10000 (bankIndex 0x10000) := by
    unfold Covered Loop.Arc; decide
  obtain ⟨b, hmapb, hbs⟩ : ∃ b, env.map.bankAt 0xFFFE = some b ∧
      b.shape = (ramBank 0 0x10000 0x100000 0).shape := bankAt_first_of_two _ _ _ _ hfirst hother
  obtain ⟨c, hc, hcs⟩ : ∃ c, env.map.bankAt 0x10000 = some c ∧
      c.shape = (ramBank 0x10000 0x10000 0x300000 0).shape := bankAt_mapPtr _ _ _ hsecond
  have hmapc : env.map.bankAt (0xFFFE + BitVec.ofInt 32 (0 + 0 + 2)) = some c := by
    rw [MemState.bankAt_congr (show bankIndex _ = bankIndex 0x10000 by decide)]
    exact hc
  obtain ⟨s, hrun⟩ := run_setpc_incpc env 0xFFFE 0 ⟨0, 0⟩ fun h => by omega
  refine ⟨s, _, hrun, ?_⟩
  rw [(tracks_of_run hrun).getDiword_iff (bankAt_run _) 2]
  refine not_serves hmapb (congrArg Addrbank.handlers hbs) ?_ hmapc ?_
  · rw [hostAddr_congr hbs]
    decide
  · rw [hostAddr_congr hbs, hostAddr_congr hcs]
    decide

end UaeCpu
