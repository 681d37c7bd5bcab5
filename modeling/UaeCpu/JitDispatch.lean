import UaeCpu.InterruptService

/-!
# UaeCpu.JitDispatch

`m68k_run_jit` with translated code opened up: blocks that jump to one another until a countdown
runs out, the dispatcher behind them, and the loop that interprets while T0, T1 or M is set.

* `Step`               — the dispatcher, one point of its code after another.
* `runJit_reaches`     — a call that returns goes through these points.
* `RunControl`         — it leaves when it is asked to, and enters no block while a bit is set.
* `runControl_of_meets` — the condition on each step for that.
-/

namespace UaeCpu.Jit

open Fault FaultM Relation

variable {μ : Type}

/-! ## Translated code -/

/-- What `compile_block` made of an instruction: code of its own, a call of the C handler, or a call
behind which the block goes back to the dispatcher. -/
inductive PieceKind where
  | translated | fallback | leaving
  deriving DecidableEq

structure Piece (μ : Type) where
  kind : PieceKind
  run : FaultM (Cpu μ) Unit

/-- A translated block; `ticks` is `scaled_cycles(totcycles)`. -/
structure Block (μ : Type) where
  pieces : List (Piece μ)
  ticks : Nat

/-- What `cache_tags` has for a program counter: a block, or one of the `popall_` routines, which
come back to the dispatcher. -/
inductive Handler (μ : Type) where
  | block (b : Block μ)
  | popall (m : FaultM (Cpu μ) Unit)

/-- The instructions of a block; `true` at its end. The flags are tested behind every C handler but
the last. -/
def runPieces : List (Piece μ) → FaultM (Cpu μ) Bool
  | [] => return true
  | p :: ps => do
    p.run
    match p.kind with
    | .translated => runPieces ps
    | .leaving => return false
    | .fallback =>
      let any ← reads (·.regs.spc.any)
      if any && !ps.isEmpty then return false else runPieces ps

/-- `sub countdown, ticks`. -/
def countdown (n : Nat) (c : Cpu μ) : Cpu μ :=
  { c with clock := { c.clock with pissoff := c.clock.pissoff - BitVec.ofNat 32 n } }

/-- A block; `true` where it jumps to the next, which it does at its end while the countdown is not
below zero. Every other way out is `do_nothing`. -/
def runBlock (b : Block μ) : FaultM (Cpu μ) Bool := do
  let ended ← runPieces b.pieces
  update (countdown b.ticks)
  let below ← reads (·.clock.pissoff.msb)
  if ended && !below then return true
  else
    update fun c => c.doCycles 0
    return false

def Handler.run : Handler μ → FaultM (Cpu μ) Bool
  | .block b => runBlock b
  | .popall m => do m; return false

/-- What translated code may do from a state on, with `code` telling what `cache_tags` may have. -/
inductive Chains (code : Cpu μ → Handler μ → Prop) : Cpu μ → Outcome (Cpu μ) Unit → Prop where
  | back {c c' : Cpu μ} {H : Handler μ} : code c H → H.run c = .ret false c' → Chains code c (.ret () c')
  | next {c c₁ : Cpu μ} {H : Handler μ} {o : Outcome (Cpu μ) Unit} : code c H →
      H.run c = .ret true c₁ → Chains code c₁ o → Chains code c o
  | fault {c c' : Cpu μ} {H : Handler μ} {e : Int} : code c H → H.run c = .thrown e c' →
      Chains code c (.thrown e c')

/-! ## The dispatcher, point by point -/

/-- T0, T1 or M is set. -/
def traced (r : Regs) : Bool := r.t0 || r.t1 || r.m

/-- The points of `m68k_run_jit`: its head, a jump into translated code, the way back, the head of
the inner `while`, behind an instruction it has interpreted, that loop left with `exit`, and the
return. -/
inductive Point where
  | entry | code | back | traced | asked | exit | left
  deriving DecidableEq

/-- What the dispatcher does from a point other than `code` and `left`. -/
def dispatch (h : Host μ) (fuel : Nat) : Point → FaultM (Cpu μ) Point
  | .entry => do if ← checkSpecialties h fuel then return .left else return .code
  | .back => do
    if ← checkSpecialties h fuel then return .left
    else
      let r ← reads (·.regs)
      if traced r then
        update fun c => c.mapSpc fun f => { f with brk := false }
        return .traced
      else return .code
  | .traced => do
    let r ← reads (·.regs)
    if traced r then
      update fun c => c.mapRegs fun r => { r with instructionPc := r.pc }
      let opcode ← h.port.getIword
      update fun c => c.mapRegs fun r => { r with opcode := opcode }
      let _ ← h.cpufunctbl opcode
      update fun c => c.doCycles (4 * cycleUnit)
      return .asked
    else
      update fun c => c.mapSpc fun f => { f with endCompile := false }
      return .code
  | .asked => do if ← checkSpecialties h fuel then return .exit else return .traced
  | .exit => do
    update fun c => c.mapSpc fun f => { f with endCompile := false }
    return .code
  | .code => return .code
  | .left => return .left

/-- One step of the dispatcher. A fault in translated code becomes an exception, and translated code
is entered again. -/
inductive Step (h : Host μ) (code : Cpu μ → Handler μ → Prop) : Point × Cpu μ → Point × Cpu μ → Prop
    where
  | dispatch {n : Nat} {p p' : Point} {c c' : Cpu μ} : p ≠ .code → p ≠ .left →
      dispatch h n p c = .ret p' c' → Step h code (p, c) (p', c')
  | chain {c c' : Cpu μ} {H : Handler μ} : code c H → H.run c = .ret true c' →
      Step h code (.code, c) (.code, c')
  | back {c c' : Cpu μ} {H : Handler μ} : code c H → H.run c = .ret false c' →
      Step h code (.code, c) (.back, c')
  | fault {c c₁ c' : Cpu μ} {H : Handler μ} {e : Int} : code c H → H.run c = .thrown e c₁ →
      exception h e.toNat c₁ = .ret () c' → Step h code (.code, c) (.code, c')

def Reaches (h : Host μ) (code : Cpu μ → Handler μ → Prop) : Point × Cpu μ → Point × Cpu μ → Prop :=
  ReflTransGen (Step h code)

/-- A guest instruction is about to be executed. -/
def Executes (s : Point × Cpu μ) : Prop := s.1 = .code ∨ (s.1 = .traced ∧ traced s.2.regs = true)

/-- What the dispatcher is to do in a call: once `do_specialties` has returned non-zero (it is then
at `exit` or `left`) execute nothing further, and enter no block while T0, T1 or M is set. -/
structure RunControl (h : Host μ) (code : Cpu μ → Handler μ → Prop) (c₀ : Cpu μ) : Prop where
  leaves : ∀ s s', Reaches h code (.entry, c₀) s → s.1 = .exit ∨ s.1 = .left → Reaches h code s s' →
    ¬ Executes s'
  enters : ∀ c b, Reaches h code (.entry, c₀) (.code, c) → code c (.block b) → traced c.regs = false

/-! ## `m68k_run_jit` goes through these points -/

section Refines

variable {h : Host μ} {code : Cpu μ → Handler μ → Prop} {c c' : Cpu μ} {fuel : Nat}

/-- The code that `pushall_call_handler` runs is what the cache holds. -/
def RunsCache (h : Host μ) (code : Cpu μ → Handler μ → Prop) : Prop :=
  ∀ c o, h.compiled c = o → o ≠ .diverge → Chains code c o

theorem Chains.reaches {o : Outcome (Cpu μ) Unit} (hch : Chains code c o) : match o with
    | .ret _ c' => Reaches h code (.code, c) (.back, c')
    | .thrown e c₁ => ∀ c', exception h e.toNat c₁ = .ret () c' →
        Reaches h code (.code, c) (.code, c')
    | .diverge => True := by
  induction hch with
  | back hc hr => exact .single (.back hc hr)
  | fault hc hr => exact fun c' he => .single (.fault hc hr he)
  | @next c c₁ H o hc hr hch ih =>
    cases o with
    | ret u c' => exact .head (.chain hc hr) ih
    | thrown e c₂ => exact fun c' he => .head (.chain hc hr) (ih c' he)
    | diverge => trivial

theorem traced_iff (r : Regs) : (r.t0 = true ∨ r.t1 = true ∨ r.m = true) ↔ traced r = true := by
  simp [traced, or_assoc]

/-- A pass of the inner loop that has something to interpret. -/
theorem tracedPass_ret {b : Bool} (ht : traced c.regs = true) (hp : tracedPass h fuel c = .ret b c') :
    ∃ c₁, dispatch h fuel .traced c = .ret .asked c₁ ∧ checkSpecialties h fuel c₁ = .ret (!b) c' := by
  simp only [tracedPass, reads_bind_apply] at hp
  rw [if_pos ((traced_iff _).mpr ht)] at hp
  simp only [dispatch, reads_bind_apply]
  rw [if_pos ht]
  simp only [update_bind_apply] at hp ⊢
  obtain ⟨opcode, c₂, hop, hp⟩ := ret_of_bind hp
  rw [update_bind_apply] at hp
  obtain ⟨cyc, c₃, htbl, hp⟩ := ret_of_bind hp
  rw [update_bind_apply] at hp
  obtain ⟨b', c₄, hcheck, hp⟩ := ret_of_bind hp
  cases hp
  refine ⟨c₃.doCycles (4 * cycleUnit), ?_, by simpa using hcheck⟩
  rw [bind_ret hop, update_bind_apply, bind_ret htbl]
  rfl

theorem tracedPass_done (ht : traced c.regs = false) : tracedPass h fuel c = .ret false c := by
  simp only [tracedPass, reads_bind_apply]
  rw [if_neg (by rw [traced_iff, ht]; nofun)]
  rfl

/-- The inner loop, with what stands behind it. -/
theorem tracedLoop_reaches : ∀ (n : Nat) {c c' : Cpu μ}, loop (tracedPass h fuel) n c = .ret () c' →
    Reaches h code (.traced, c) (.code, c'.mapSpc fun f => { f with endCompile := false })
  | 0, _, _, hl => nomatch hl
  | n + 1, c, c', hl => by
    by_cases ht : traced c.regs = true
    · rcases ret_of_loop hl with hp | ⟨c₁, hp, hl⟩
      · obtain ⟨c₁, hd, hs⟩ := tracedPass_ret ht hp
        have hexit : dispatch h fuel .asked c₁ = .ret .exit c' := bind_ret hs
        exact .head (.dispatch nofun nofun hd) (.head (.dispatch nofun nofun hexit)
          (.single (.dispatch nofun nofun (p := .exit) (n := 0) rfl)))
      · obtain ⟨c₂, hd, hs⟩ := tracedPass_ret ht hp
        have hon : dispatch h fuel .asked c₂ = .ret .traced c₁ := bind_ret hs
        exact .head (.dispatch nofun nofun hd) (.head (.dispatch nofun nofun hon)
          (tracedLoop_reaches n hl))
    · have ht : traced c.regs = false := by simpa using ht
      have hdone : tracedPass h fuel c = .ret false c := tracedPass_done ht
      rcases ret_of_loop hl with hp | ⟨c₁, hp, -⟩
      · obtain rfl : c = c' := by rw [hdone] at hp; cases hp; rfl
        refine .single (.dispatch nofun nofun (n := 0) ?_)
        simp only [dispatch, reads_bind_apply, ht]
        exact congrFun (if_neg nofun) c
      · rw [hdone] at hp
        cases hp

/-- A round of the dispatcher. -/
theorem jitRound_reaches (hrc : RunsCache h code) {b : Bool} (hr : jitRound h fuel c = .ret b c') :
    Reaches h code (.code, c) (if b then .code else .left, c') := by
  obtain ⟨returned, c₁, ht, hr⟩ := ret_of_bind hr
  rcases ret_of_tryCatch ht with hm | ⟨e, c₂, hm, he⟩
  · obtain ⟨_, c₂, hcomp, hret⟩ := ret_of_bind hm
    cases hret
    have hch : Chains code c (.ret () c₁) := hrc c _ hcomp nofun
    refine hch.reaches.trans ?_
    obtain ⟨asked, c₂, hs, hr⟩ := ret_of_bind hr
    cases asked with
    | true =>
      cases hr
      exact .single (.dispatch nofun nofun (n := fuel) (bind_ret hs))
    | false =>
      simp only [Bool.false_eq_true, if_false, reads_bind_apply] at hr
      by_cases htr : traced c₂.regs = true
      · rw [if_pos ((traced_iff _).mpr htr), update_bind_apply] at hr
        obtain ⟨_, c₃, hl, hr⟩ := ret_of_bind hr
        cases hr
        refine .head (.dispatch nofun nofun (n := fuel) ?_) (tracedLoop_reaches fuel hl)
        rw [dispatch, bind_ret hs]
        simp only [Bool.false_eq_true, if_false, reads_bind_apply]
        rw [if_pos htr]
        rfl
      · rw [if_neg (mt (traced_iff _).mp htr)] at hr
        cases hr
        refine .single (.dispatch nofun nofun (n := fuel) ?_)
        rw [dispatch, bind_ret hs]
        simp only [Bool.false_eq_true, if_false, reads_bind_apply]
        rw [if_neg htr]
        rfl
  · obtain ⟨_, c₃, hexc, hret⟩ := ret_of_bind he
    cases hret
    cases hr
    have hthrow : h.compiled c = .thrown e c₂ := by
      rcases thrown_of_bind hm with hm | ⟨_, _, _, hret⟩
      · exact hm
      · cases hret
    have hch : Chains code c (.thrown e c₂) := hrc c _ hthrow nofun
    exact hch.reaches _ hexc

theorem jitLoop_reaches (hrc : RunsCache h code) : ∀ (n : Nat) {c c' : Cpu μ},
    loop (jitRound h fuel) n c = .ret () c' → Reaches h code (.code, c) (.left, c')
  | 0, _, _, hl => nomatch hl
  | n + 1, c, c', hl => by
    rcases ret_of_loop hl with hr | ⟨c₁, hr, hl⟩
    · exact jitRound_reaches hrc hr
    · exact (jitRound_reaches hrc hr).trans (jitLoop_reaches hrc n hl)

/-- A call of `m68k_run_jit` that returns has gone from the head of the function to its return. -/
theorem runJit_reaches (hrc : RunsCache h code) (hr : runJit h fuel c = .ret () c') :
    Reaches h code (.entry, c) (.left, c') := by
  obtain ⟨asked, c₁, hs, hr⟩ := ret_of_bind hr
  cases asked with
  | true =>
    cases hr
    exact .single (.dispatch nofun nofun (n := fuel) (bind_ret hs))
  | false =>
    exact .head (.dispatch nofun nofun (n := fuel) (bind_ret hs)) (jitLoop_reaches hrc fuel hr)

end Refines

/-! ## What sets none of the bits -/

/-- T0, T1 and M stay clear if they were. -/
def Untraced (c c' : Cpu μ) : Prop := traced c.regs = false → traced c'.regs = false

instance : Std.Refl (Untraced (μ := μ)) where
  refl _ := id

instance : IsTrans (Cpu μ) Untraced where
  trans _ _ _ h h' := fun hc => h' (h hc)

/-- Hooks and memory handlers that answer and set none of the bits. -/
structure Quieted (h : Host μ) : Prop where
  framing : Framing h Untraced
  trap : ∀ m, h.trap = some m → ∀ n, Stays Untraced (m n)

section Quieted

variable {h : Host μ} (hq : Quieted h) {nested : Nat → FaultM (Cpu μ) Unit}
  (hne : ∀ n, n = 2 ∨ n = 3 → Stays Untraced (nested n)) {fuel : Nat}

theorem untraced_of_kept {c c' : Cpu μ} (h : FrameKept c c') : Untraced c c' := by
  intro hc
  simp only [traced, Bool.or_eq_false_iff] at hc ⊢
  refine ⟨⟨?_, ?_⟩, ?_⟩
  · exact Bool.eq_false_iff.mpr fun ht => by rw [h.t0 ht] at hc; exact absurd hc.1.1 nofun
  · exact Bool.eq_false_iff.mpr fun ht => by rw [h.t1 ht] at hc; exact absurd hc.1.2 nofun
  · exact Bool.eq_false_iff.mpr fun ht => by rw [h.m ht] at hc; exact absurd hc.2 nofun

/-- Most registers have nothing to do with the bits. -/
theorem untraced_update {g : Cpu μ → Cpu μ}
    (hg : ∀ c, traced (g c).regs = traced c.regs) :
    Stays Untraced (update g) := .update fun c hc => (hg c).trans hc

theorem untraced_update_bind {α : Type} {g : Cpu μ → Cpu μ} {f : Unit → FaultM (Cpu μ) α}
    (hf : Stays Untraced (f ()))
    (hg : ∀ c, traced (g c).regs = traced c.regs) :
    Stays Untraced (update g >>= f) := .update_bind (fun c hc => (hg c).trans hc) hf

theorem untraced_within {g : Cpu μ → Cpu μ}
    (hg : ∀ c, traced (g c).regs = traced c.regs) :
    Within Untraced (update g) := fun c hc => (hg c).trans hc

include hq hne

theorem normalVector_untraced (nr vec : Nat) (g1 : Bool) :
    Stays Untraced (normalVector h nested nr vec g1) := by
  have hf := hq.framing
  have hgo : ∀ c : Cpu μ, Stays Untraced (do
      let newpc ← h.port.getLong (vectorAddr c.regs vec)
      setExceptionInException 0
      if newpc.getLsbD 0 then
        if nr = 2 ∨ nr = 3 then cpuHalt
        else
          update fun c => c.xDoCycles h.prefs (6 * 4 * cycleUnit / 2)
          oddVector h nested nr vec g1 newpc
      else
        addApproximateExceptionCycles h nr
        update fun c => c.mapRegs fun r => endCompile h.prefs (r.setpc newpc)
        let ipl ← intlev h
        update fun c => c.mapRegs fun r => iplFetchNow { r with ipl := { r.ipl with pin := ipl } }
        h.port.fillPrefetch
        update fun c => c.mapRegs (exceptionCheckTrace h.prefs nr)) := fun c => by
    refine .bind (hf.getLong _) fun newpc => hf.update_bind (fun _ => ⟨rfl, rfl, rfl, id, id, id⟩) ?_
    refine .ite (fun _ => ?_) fun _ => ?_
    · refine .ite (fun _ => .pure _) fun _ => hf.update_bind (Framing.xDoCycles _) ?_
      exact hf.oddVector hne _ _ _ _
    · refine .bind (hf.addCycles _) fun _ => hf.update_bind (fun c => ?_) ?_
      · simp only [endCompile, Cpu.mapRegs]
        split <;> exact ⟨rfl, rfl, rfl, id, id, id⟩
      · refine .bind hf.intlev fun ipl => hf.update_bind (fun _ => ⟨rfl, rfl, rfl, id, id, id⟩) ?_
        refine .bind hf.fillPrefetch fun _ => ?_
        exact hf.update fun _ => ⟨rfl, rfl, rfl, fun h => absurd h Bool.false_ne_true,
          fun h => absurd h Bool.false_ne_true, id⟩
  exact .reads_bind fun c => .ite (fun _ => .pure _) fun _ =>
    .ite (fun _ => untraced_update_bind (hgo _) fun _ => rfl) fun _ => hgo _

theorem exceptionNormal_untraced (nr : Nat) : Stays Untraced (exceptionNormal h nested nr) := by
  have hf := hq.framing
  have hrest : ∀ (c : Cpu μ) (vec : Nat), Stays Untraced (do
      update fun c => c.makeSR
      update fun c => c.mapRegs (enterSupervisor h.prefs)
      let c' ← reads id
      if c'.regs.sp.a7.getLsbD 0 ∧ h.prefs.cpuModel.num < 68020 then
        if nr = 2 ∨ nr = 3 then cpuHalt
        else exception3Notinstruction h nested (c'.regs.ir.setWidth 32) c'.regs.sp.a7
      else if (nr = 2 ∨ nr = 3) ∧ c'.latch.exceptionInException < 0 then cpuHalt
      else
        let nextpc := if h.prefs.cpuModel = .m68000 then c'.regs.pc else exceptionPc nr c'.regs
        let frame ← normalFrame h nr vec c.regs.pc c.regs.s
        finishFrame h nr nextpc frame
        normalVector h nested nr vec (h.group1 c.regs.ir c)) := fun c vec => by
    refine hf.update_bind (fun _ => ⟨rfl, rfl, rfl, id, id, id⟩) ?_
    refine hf.update_bind (fun c => ?_) (.reads_bind fun c' => .ite (fun _ => ?_) ?_)
    · simp only [enterSupervisor, Cpu.mapRegs]
      split <;> exact ⟨rfl, rfl, rfl, id, id, id⟩
    · exact .ite (fun _ => .pure _) fun _ => hf.exception3Notinstruction hne _ _
    · refine fun _ => .ite (fun _ => .pure _) fun _ => ?_
      exact .bind (hf.normalFrame _ _ _ _) fun f => .bind (hf.finishFrame _ _ f) fun _ =>
        normalVector_untraced hq hne _ _ _
  exact .reads_bind fun c => .ite (fun _ => .bind (hf.iackCycle nr) (hrest c)) fun _ =>
    .bind (.pure nr) (hrest c)

/-- The engine of a configuration that runs translated code. -/
theorem exceptionEngine_untraced (hj : h.prefs.jit = true) (nr : Nat) :
    Stays Untraced (exceptionEngine h nested nr) := by
  simp only [Prefs.jit, Bool.and_eq_true, decide_eq_true_eq, Bool.not_eq_true', bne_iff_ne] at hj
  rw [exceptionEngine, if_neg (by omega), if_neg (by simp [hj.2])]
  exact exceptionNormal_untraced hq hne nr

theorem exceptionXWith_untraced (hj : h.prefs.jit = true) (nr : Nat) :
    Stays Untraced (exceptionXWith h nested nr none) := by
  have hbody : Stays Untraced (exceptionXBody h nested nr none) := by
    refine .reads_bind fun c => .bind (hq.framing.noteException _ _) fun _ => ?_
    refine untraced_update_bind (untraced_update_bind ?_ fun c => ?_) fun _ => rfl
    · exact .bind (exceptionEngine_untraced hq hne hj nr) fun _ => untraced_update fun _ => rfl
    simp only [resumeStopped, Cpu.mapRegs]
    split <;> rfl
  rw [exceptionXWith]
  split
  · next hook hk =>
    refine .ite (fun _ => .bind (hq.trap hook hk _) fun b => ?_) fun _ => hbody
    exact .ite (fun _ => hq.framing.fillPrefetch) fun _ => hbody
  · exact hbody

omit hne

theorem exception_untraced (hj : h.prefs.jit = true) (nr : Nat) : Stays Untraced (exception h nr) :=
  exceptionXWith_untraced hq (fun n _ => exceptionXWith_untraced hq (fun _ _ => .pure ()) hj n) hj nr

theorem interruptLoop_untraced (hj : h.prefs.jit = true) :
    ∀ (n : Nat) (nr : Level), Within Untraced (interruptLoop h n nr)
  | 0, _ => fun _ => trivial
  | n + 1, nr => by
    refine .bind (.bind (exception_untraced hq hj _).within fun _ => .ite (fun _ => .pure _) fun _ => ?_)
      fun o => ?_
    · have hrest : ∀ l : Level, Within Untraced (do
          let mask ← reads fun c : Cpu μ => c.regs.intmask
          return if l = 0 ∨ l ≤ mask then none else some l) := fun l => .reads_bind fun _ => .pure _
      exact .ite (fun _ => .bind (.reads _) hrest) fun _ => .bind hq.framing.intlev.within hrest
    · cases o with
      | some nr => exact interruptLoop_untraced hj n nr
      | none => exact .pure ()

theorem doInterrupt_untraced (hj : h.prefs.jit = true) (nr : Level) :
    Within Untraced (doInterrupt h fuel nr) :=
  .bind (interruptLoop_untraced hq hj fuel nr) fun _ => hq.framing.doint.within

theorem serviceInterrupt_untraced (hj : h.prefs.jit = true) (int : Bool) :
    Within Untraced (serviceInterrupt h fuel int) := by
  refine .ite (fun _ => .reads_bind fun ipl => .ite (fun _ => ?_) fun _ => .pure _) fun _ =>
    .ite (fun _ => .bind hq.framing.intlev.within fun intr => ?_) fun _ => .pure _
  · exact .bind (untraced_within fun _ => rfl) fun _ => doInterrupt_untraced hq hj _
  · refine .bind (untraced_within fun _ => rfl) fun _ => .reads_bind fun c => .ite (fun _ => ?_) fun _ => ?_
    · exact .bind (doInterrupt_untraced hq hj _) fun _ => untraced_within fun _ => rfl
    · exact untraced_within fun _ => rfl

theorem doSpecialties_untraced (hj : h.prefs.jit = true) :
    Within Untraced (doSpecialties h fuel) := by
  have hdoTrace : ∀ c : Cpu μ, traced (c.mapRegs (doTrace h.prefs)).regs = traced c.regs := fun c => by
    simp only [doTrace, Cpu.mapRegs]
    repeat' split
    all_goals rfl
  have hend : ∀ spc : SpcFlags, Within Untraced (if spc.brk then do
      update fun c : Cpu μ => c.mapSpc fun f => { f with brk := false }
      return true
    else return false) := fun spc =>
    .ite (fun _ => .bind (untraced_within fun _ => rfl) fun _ => .pure _) fun _ => .pure _
  refine .reads_bind fun spc => .ite (fun _ => .pure _) fun _ => ?_
  refine .bindIf (fun _ => untraced_within fun _ => rfl) fun _ => .bindIf (fun _ => untraced_within fun _ => rfl) fun _ => ?_
  refine .ite (fun _ => .bind (untraced_within fun _ => rfl) fun _ => ?_) fun _ => ?_
  · exact .bindIf (fun _ => untraced_within hdoTrace) fun _ => hend spc
  · refine .bindIf (fun _ => (exception_untraced hq hj 9).within) fun _ => .reads_bind fun trace => ?_
    refine .bindIf (fun _ => untraced_within hdoTrace) fun _ => ?_
    refine .bind (serviceInterrupt_untraced hq hj _) fun _ => ?_
    exact .bindIf (fun _ => untraced_within fun _ => rfl) fun _ => hend spc

theorem checkSpecialties_untraced (hj : h.prefs.jit = true) :
    Within Untraced (checkSpecialties h fuel) :=
  .reads_bind fun _ => .ite (fun _ => doSpecialties_untraced hq hj) fun _ => .pure _

end Quieted

/-! ## The condition -/

/-- What the handlers and the generated code promise. `MakeFromSR` raises `SPCFLAG_END_COMPILE`
where it changes one of the bits, code that is no call of a handler changes none, and what faults
has not set one. -/
structure Honest (code : Cpu μ → Handler μ → Prop) : Prop where
  fallback : ∀ c b p, code c (.block b) → p ∈ b.pieces → p.kind = .fallback → ∀ x y,
    p.run x = .ret () y → Untraced x y ∨ y.regs.spc.endCompile = true
  translated : ∀ c b p, code c (.block b) → p ∈ b.pieces → p.kind = .translated → ∀ x y,
    p.run x = .ret () y → Untraced x y
  throws : ∀ c b p, code c (.block b) → p ∈ b.pieces → ∀ x y e, p.run x = .thrown e y → Untraced x y
  popall : ∀ c m, code c (.popall m) → ∀ x y e, m x = .thrown e y → Untraced x y

/-- The last instruction of a block sets none of the bits, or does not lead to another block. -/
def LastClean (b : Block μ) : Prop :=
  ∀ p, b.pieces.getLast? = some p → p.kind = .leaving ∨ ∀ x y, p.run x = .ret () y → Untraced x y

/-- The condition on a step: `m68k_run_jit` is called with the bits clear, no block ends in an
instruction that sets one, and behind an instruction of the inner loop no request to leave is up. -/
def Meets (code : Cpu μ → Handler μ → Prop) : Point × Cpu μ → Prop
  | (.entry, c) => traced c.regs = false
  | (.code, c) => ∀ b, code c (.block b) → LastClean b
  | (.asked, c) => c.regs.spc.brk = false ∧ c.regs.spc.modeChange = false
  | _ => True

section Control

variable {h : Host μ} {code : Cpu μ → Handler μ → Prop} (ho : Honest code) {c c' : Cpu μ}
  {b : Block μ}

/-- Without a request `do_specialties` returns zero. -/
theorem doSpecialties_quiet (fuel : Nat) (hb : c.regs.spc.brk = false)
    (hm : c.regs.spc.modeChange = false) :
    Ends (doSpecialties h fuel) c (fun b _ => b = false) fun _ => True := by
  have hnext : ∀ {α : Type} {m : FaultM (Cpu μ) α} {f : α → FaultM (Cpu μ) Bool} {c : Cpu μ},
      (∀ a c, Ends (f a) c (fun b _ => b = false) fun _ => True) →
      Ends (m >>= f) c (fun b _ => b = false) fun _ => True := fun hf =>
    Ends.bind (P := fun _ _ => True) (.of_forall (fun _ _ => trivial) fun _ => trivial)
      fun a c _ => hf a c
  simp only [doSpecialties, ends_bind (m := reads _), ends_reads, hb, hm, Bool.false_eq_true, if_false]
  repeat' first
    | exact ends_pure.mpr rfl
    | refine .ite (fun _ => ?_) fun _ => ?_
    | refine hnext fun _ _ => ?_

theorem checkSpecialties_quiet (fuel : Nat) (hb : c.regs.spc.brk = false)
    (hm : c.regs.spc.modeChange = false) :
    Ends (checkSpecialties h fuel) c (fun b _ => b = false) fun _ => True :=
  ends_reads_bind.mpr (.ite (fun _ => doSpecialties_quiet fuel hb hm) fun _ => rfl)

include ho

/-- A block is left clean where it jumps on, and where it faults. -/
theorem runPieces_clean (hc : code c (.block b)) : ∀ {ps : List (Piece μ)} {x : Cpu μ},
    (∀ p ∈ ps, p ∈ b.pieces) →
    (∀ p, ps.getLast? = some p → p.kind = .leaving ∨ ∀ x y, p.run x = .ret () y → Untraced x y) →
    traced x.regs = false → Ends (runPieces ps) x (fun ended y => ended = true → traced y.regs = false)
      fun y => traced y.regs = false
  | [], x, _, _, hx => fun _ => hx
  | p :: ps, x, hmem, hlast, hx => by
    have hp := hmem p List.mem_cons_self
    have hps : ∀ p ∈ ps, p ∈ b.pieces := fun q hq => hmem q (List.mem_cons_of_mem p hq)
    have hlast' : ps ≠ [] → ∀ q, ps.getLast? = some q →
        q.kind = .leaving ∨ ∀ x y, q.run x = .ret () y → Untraced x y := fun hne q hq =>
      hlast q (by rw [List.getLast?_cons_of_ne_nil hne]; exact hq)
    rw [runPieces, ends_bind]
    cases hr : p.run x with
    | diverge => simp only [Ends, hr]
    | thrown e y => exact .thrown hr (ho.throws c b p hc hp x _ _ hr hx)
    | ret u y =>
      refine .ret hr ?_
      cases hk : p.kind with
      | leaving => exact fun h => absurd h Bool.false_ne_true
      | translated =>
        have hy := ho.translated c b p hc hp hk x y hr hx
        by_cases hne : ps = []
        · subst hne
          exact fun _ => hy
        · exact runPieces_clean hc hps (hlast' hne) hy
      | fallback =>
        refine ends_reads_bind.mpr (.ite (fun _ h => absurd h Bool.false_ne_true) fun hgo => ?_)
        simp only [Bool.and_eq_true, Bool.not_eq_true', not_and, Bool.not_eq_false] at hgo
        by_cases hne : ps = []
        · subst hne
          rcases hlast p rfl with hl | hl
          · rw [hk] at hl
            cases hl
          · exact fun _ => hl x y hr hx
        · refine runPieces_clean hc hps (hlast' hne) ?_
          -- Another instruction follows, so no flag is up, `SPCFLAG_END_COMPILE` least of all.
          rcases ho.fallback c b p hc hp hk x y hr with hu | hend
          · exact hu hx
          · have hany : y.regs.spc.any = true := by simp [SpcFlags.any, hend]
            exact absurd (List.isEmpty_iff.mp (hgo hany)) hne

theorem runBlock_clean (hc : code c (.block b)) (hl : LastClean b) (hx : traced c.regs = false) :
    Ends (runBlock b) c (fun on y => on = true → traced y.regs = false) fun y =>
      traced y.regs = false := by
  refine (runPieces_clean ho hc (fun _ hp => hp) hl hx).bind fun ended y hy => ?_
  refine ends_update_bind.mpr (ends_reads_bind.mpr (.ite (fun hon => ?_) fun _ => ?_))
  · simp only [Bool.and_eq_true] at hon
    exact fun _ => hy hon.1
  · exact nofun

variable {c₀ : Cpu μ} (hj : h.prefs.jit = true) (hq : Quieted h)
  (hm : ∀ s, Reaches h code (.entry, c₀) s → Meets code s)
include hj hq hm

/-- The inner loop is not left by a request, and at each jump into translated code the bits are
clear. -/
theorem reaches_clean {s : Point × Cpu μ} (hr : Reaches h code (.entry, c₀) s) :
    s.1 ≠ .exit ∧ (s.1 = .code → traced s.2.regs = false) := by
  induction hr with
  | refl => exact ⟨nofun, nofun⟩
  | @tail s s' hr hs ih =>
    have hmeets := hm s hr
    cases hs with
    | @dispatch fuel p p' c c' hcode hleft hd =>
      cases p with
      | code => exact absurd rfl hcode
      | left => exact absurd rfl hleft
      | exit => exact absurd rfl ih.1
      | entry =>
        obtain ⟨asked, c₁, hs, hd⟩ := ret_of_bind hd
        have hkept := ((checkSpecialties_untraced hq hj) c).of_ret hs hmeets
        cases asked <;> cases hd
        · exact ⟨nofun, fun _ => hkept⟩
        · exact ⟨nofun, nofun⟩
      | back =>
        obtain ⟨asked, c₁, hs, hd⟩ := ret_of_bind hd
        cases asked with
        | true =>
          cases hd
          exact ⟨nofun, nofun⟩
        | false =>
          simp only [Bool.false_eq_true, if_false, reads_bind_apply] at hd
          by_cases ht : traced c₁.regs = true
          · rw [if_pos ht] at hd
            cases hd
            exact ⟨nofun, nofun⟩
          · rw [if_neg ht] at hd
            cases hd
            exact ⟨nofun, fun _ => by simpa using ht⟩
      | traced =>
        simp only [dispatch, reads_bind_apply] at hd
        by_cases ht : traced c.regs = true
        · rw [if_pos ht, update_bind_apply] at hd
          obtain ⟨opcode, c₁, _, hd⟩ := ret_of_bind hd
          rw [update_bind_apply] at hd
          obtain ⟨cyc, c₂, _, hd⟩ := ret_of_bind hd
          cases hd
          exact ⟨nofun, nofun⟩
        · rw [if_neg ht] at hd
          cases hd
          exact ⟨nofun, fun _ => Bool.eq_false_iff.mpr ht⟩
      | asked =>
        obtain ⟨asked, c₁, hs, hd⟩ := ret_of_bind hd
        obtain rfl := (checkSpecialties_quiet fuel hmeets.1 hmeets.2).of_ret hs
        cases hd
        exact ⟨nofun, nofun⟩
    | @chain c c' H hc hrun =>
      cases H with
      | block b => exact ⟨nofun, fun _ => (runBlock_clean ho hc (hmeets b hc) (ih.2 rfl)).of_ret hrun rfl⟩
      | popall m =>
        obtain ⟨_, _, _, hret⟩ := ret_of_bind hrun
        cases hret
    | back hc hrun => exact ⟨nofun, nofun⟩
    | @fault c c₁ c' H e hc hrun he =>
      have hthrown : traced c₁.regs = false := by
        cases H with
        | block b => exact (runBlock_clean ho hc (hmeets b hc) (ih.2 rfl)).of_thrown hrun
        | popall m =>
          rcases thrown_of_bind hrun with hrun | ⟨_, _, _, hret⟩
          · exact ho.popall c m hc c c₁ e hrun (ih.2 rfl)
          · cases hret
      exact ⟨nofun, fun _ => ((exception_untraced hq hj e.toNat).within c₁).of_ret he hthrown⟩

/-- In a call whose steps all meet the condition the dispatcher does as it should. -/
theorem runControl_of_meets : RunControl h code c₀ where
  leaves s s' hr hs hr' := by
    have hleft : s.1 = .left := hs.resolve_left (reaches_clean ho hj hq hm hr).1
    have hstay : s' = s := by
      induction hr' with
      | refl => rfl
      | tail _ hst ih =>
        subst ih
        cases hst with
        | dispatch _ hne _ => exact absurd hleft hne
        | _ => cases hleft
    subst hstay
    rintro (hc | ⟨ht, -⟩)
    · rw [hleft] at hc
      cases hc
    · rw [hleft] at ht
      cases ht
  enters c b hr _ := (reaches_clean ho hj hq hm hr).2 rfl

end Control

/-! ## Two machines -/

/-- RAM without hooks, with the JIT on. -/
def jit68020 : Host (Long → Byte) :=
  .ram { Prefs.plain .m68020 with cachesize := 8 } Mem.ofFun fun _ => opNop

theorem jit68020_quieted : Quieted jit68020 where
  framing := {
    kept := fun _ _ hk => untraced_of_kept hk
    getLong := fun _ => .reads _
    getWord := fun _ => .reads _
    physGetLong := fun _ => .reads _
    putLong := fun _ _ => .update fun _ => id
    putWord := fun _ _ => .update fun _ => id
    fillPrefetch := .pure ()
    getIrq := fun _ hm => by cases hm
    intAck := fun _ hm => by cases hm
    exception := fun _ hm => by cases hm }
  trap _ hm := by cases hm

/-- `uae_host_run(5)` from a reset, where it calls `m68k_run_jit`. -/
def fiveCycles : Cpu (Long → Byte) :=
  { Cpu.reset { Prefs.plain .m68020 with cachesize := 8 } 0x1000 0x400 fun _ => 0 with
    clock := { currcycle := 0, pissoffValue := 2560, pissoff := 2560, jitRunActive := true, jitRunTarget := 2560 } }

/-- `execute_normal` where it comes across `ORI #$1000,SR`. -/
def opSetMaster : FaultM (Cpu (Long → Byte)) Unit := do
  update fun c => c.makeSR
  update fun c => c.writeSR { Prefs.plain .m68020 with cachesize := 8 } .t0 (c.regs.sr ||| 0x1000)
  update fun c => c.mapRegs fun r => { r with pc := r.pc + 4 }
  update fun c => c.doCycles (4 * cycleUnit)

/-- The guest sets M, the inner loop interprets one instruction more, and the budget is spent.
`do_specialties` asks to leave, and translated code is entered again. -/
theorem exit_enters_code : ¬ RunControl jit68020 (fun _ H => H = .popall opSetMaster) fiveCycles := by
  intro hrun
  have hexit : ∃ c, Reaches jit68020 (fun _ H => H = .popall opSetMaster) (.entry, fiveCycles) (.exit, c) :=
    ⟨_, .head (.dispatch (n := 1) nofun nofun rfl) <| .head (.back rfl rfl) <|
      .head (.dispatch (n := 1) nofun nofun rfl) <| .head (.dispatch (n := 1) nofun nofun rfl) <|
      .single (.dispatch (n := 1) nofun nofun rfl)⟩
  obtain ⟨c, hr⟩ := hexit
  exact hrun.leaves _ _ hr (.inl rfl) (.single (.dispatch (n := 0) nofun nofun rfl)) (.inl rfl)

section Untraced

variable {h : Host μ} {code : Cpu μ → Handler μ → Prop} {c₀ : Cpu μ}

/-- Code that sets none of the bits. -/
structure NeverTraced (code : Cpu μ → Handler μ → Prop) : Prop where
  pieces : ∀ c b p, code c (.block b) → p ∈ b.pieces → Within Untraced p.run
  popall : ∀ c m, code c (.popall m) → Within Untraced m

theorem NeverTraced.honest (hn : NeverTraced code) : Honest code where
  fallback c b p hc hp _ x _ hr := .inl fun hx => (hn.pieces c b p hc hp x).of_ret hr hx
  translated c b p hc hp _ x _ hr hx := (hn.pieces c b p hc hp x).of_ret hr hx
  throws c b p hc hp x _ _ hr hx := (hn.pieces c b p hc hp x).of_thrown hr hx
  popall c m hc x _ _ hr hx := (hn.popall c m hc x).of_thrown hr hx

theorem NeverTraced.lastClean (hn : NeverTraced code) {c : Cpu μ} {b : Block μ}
    (hc : code c (.block b)) : LastClean b := fun p hp => .inr fun x _ hr hx =>
  (hn.pieces c b p hc (List.mem_of_getLast? hp) x).of_ret hr hx

theorem runPieces_untraced : ∀ {ps : List (Piece μ)}, (∀ p ∈ ps, Within Untraced p.run) →
    Within Untraced (runPieces ps)
  | [], _ => .pure true
  | p :: ps, hp => by
    have hps := runPieces_untraced fun q hq => hp q (List.mem_cons_of_mem p hq)
    refine .bind (hp p List.mem_cons_self) fun _ => ?_
    cases p.kind with
    | translated => exact hps
    | leaving => exact .pure _
    | fallback => exact .reads_bind fun any => .ite (fun _ => .pure _) fun _ => hps

theorem NeverTraced.run (hn : NeverTraced code) {c : Cpu μ} {H : Handler μ} (hc : code c H) :
    Within Untraced H.run := by
  cases H with
  | popall m => exact .bind (hn.popall c m hc) fun _ => .pure _
  | block b =>
    refine .bind (runPieces_untraced fun p hp => hn.pieces c b p hc hp) fun ended => ?_
    refine .bind (untraced_within fun _ => rfl) fun _ => .reads_bind fun below => ?_
    exact .ite (fun _ => .pure _) fun _ => .bind (untraced_within fun _ => rfl) fun _ => .pure _

/-- A guest that leaves T0, T1 and M alone meets the condition throughout. -/
theorem NeverTraced.meets (hn : NeverTraced code) (hj : h.prefs.jit = true) (hq : Quieted h)
    (h₀ : traced c₀.regs = false) (s : Point × Cpu μ) (hr : Reaches h code (.entry, c₀) s) :
    Meets code s := by
  have hclean : traced s.2.regs = false ∧ s.1 ≠ .asked ∧ s.1 ≠ .exit := by
    induction hr with
    | refl => exact ⟨h₀, nofun, nofun⟩
    | @tail s s' _ hs ih =>
      obtain ⟨hs₀, hasked, hexit⟩ := ih
      cases hs with
      | chain hc hrun => exact ⟨((hn.run hc) _).of_ret hrun hs₀, nofun, nofun⟩
      | back hc hrun => exact ⟨((hn.run hc) _).of_ret hrun hs₀, nofun, nofun⟩
      | fault hc hrun he =>
        have h₁ := ((hn.run hc) _).of_thrown hrun hs₀
        exact ⟨((exception_untraced hq hj _).within _).of_ret he h₁, nofun, nofun⟩
      | @dispatch n p p' c c' hcode hleft hd =>
        cases p with
        | code => exact absurd rfl hcode
        | left => exact absurd rfl hleft
        | exit => exact absurd rfl hexit
        | asked => exact absurd rfl hasked
        | traced =>
          simp only [dispatch, reads_bind_apply] at hd
          rw [if_neg (by rw [hs₀]; nofun)] at hd
          cases hd
          exact ⟨hs₀, nofun, nofun⟩
        | entry =>
          obtain ⟨asked, c₁, hs, hd⟩ := ret_of_bind hd
          have hkept := ((checkSpecialties_untraced hq hj) c).of_ret hs hs₀
          cases asked <;> cases hd <;> exact ⟨hkept, nofun, nofun⟩
        | back =>
          obtain ⟨asked, c₁, hs, hd⟩ := ret_of_bind hd
          have hkept := ((checkSpecialties_untraced hq hj) c).of_ret hs hs₀
          cases asked with
          | true =>
            cases hd
            exact ⟨hkept, nofun, nofun⟩
          | false =>
            simp only [Bool.false_eq_true, if_false, reads_bind_apply] at hd
            rw [if_neg (by rw [hkept]; nofun)] at hd
            cases hd
            exact ⟨hkept, nofun, nofun⟩
  obtain ⟨p, c⟩ := s
  cases p with
  | entry => exact hclean.1
  | code => exact fun b hc => hn.lastClean hc
  | asked => exact absurd rfl hclean.2.1
  | _ => trivial

end Untraced

/-- A guest of NOPs, in blocks of one. -/
theorem nops_controlled : RunControl jit68020
    (fun _ H => H = .block ⟨[⟨.translated, do let _ ← opNop; pure ()⟩], 4⟩) fiveCycles := by
  have hn : NeverTraced fun (_ : Cpu (Long → Byte)) H =>
      H = .block ⟨[⟨.translated, do let _ ← opNop; pure ()⟩], 4⟩ := by
    refine ⟨fun c b p hc hp => ?_, fun c m hc => nomatch hc⟩
    cases hc
    obtain rfl := List.mem_singleton.mp hp
    exact .bind (.bind (untraced_within fun _ => rfl) fun _ => .pure _) fun _ => .pure ()
  exact runControl_of_meets hn.honest rfl jit68020_quieted (hn.meets rfl jit68020_quieted rfl)

end UaeCpu.Jit
