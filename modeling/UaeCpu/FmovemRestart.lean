import UaeCpu.Fmovem

/-!
# UaeCpu.FmovemRestart

FMOVEM.X from its start through its faults: what is in memory and in the FPU registers when it is
done. The frames of the faults stay below the supervisor stack.

* `store_execute`, `load_execute`           — the resumable loops, whatever faults there are.
* `fmovem2mem_plain`, `fmovem2fpp_plain`    — the plain ones.
-/

namespace UaeCpu.Fmovem

open Fault FaultM Mem Fpu

open Resumable (after)

/-! ## The instruction, when it moves something -/

/-- It takes no trap. -/
def Moves (p : FpuPrefs) (opcode extra : Word) (c : FpuCpu) : Prop :=
  faultIfNo6888x p = false ∧ fpExceptionPending p c.fpu = none ∧ fmovemRefused p opcode extra c = none

section Instruction

variable {p : FpuPrefs} {disp : DispEa} {opcode extra : Word} {s : BusState}

theorem Moves.congr {c c' : FpuCpu} (h : Moves p opcode extra c) (hf : c'.fpu = c.fpu) :
    Moves p opcode extra c' := by
  obtain ⟨h6, hpend, href⟩ := h
  refine ⟨h6, by rw [hf]; exact hpend, ?_⟩
  rw [fmovemRefused, hf]
  exact href

/-- The loop an FMOVEM runs. -/
def moveLoop (p : FpuPrefs) (opcode extra : Word) (r : Regs) : Bus Long :=
  let list := fmovemList extra r
  let regdir := fmovemRegdir p opcode extra list
  if toMemory extra then do
    let ad ← fmovem2mem p (r.areg (eaReg opcode)) list (fmovemIncr opcode) regdir
    update (·.mapCpu (·.mapRegs (traceT068040 p)))
    pure ad
  else fmovem2fpp p (r.areg (eaReg opcode)) list (fmovemIncr opcode) regdir

theorem fpuopFmovem_moves (h : Moves p opcode extra s.cpu) (hm : eaMode opcode = 3 ∨ eaMode opcode = 4) :
    fpuopFmovem p disp opcode extra s = (moveLoop p opcode extra s.cpu.regs >>= fun ad =>
      update (·.mapCpu (·.mapRegs (·.setAreg (eaReg opcode) ad))) >>= fun _ => pure none) s := by
  obtain ⟨h6, hpend, href⟩ := h
  have hcpu : s.mapCpu (fun _ => s.cpu) = s := rfl
  rw [fpuopFmovem, reads_bind_apply, if_neg (by rw [h6]; exact Bool.false_ne_true),
    if_neg (by rw [hpend]; exact Bool.false_ne_true)]
  simp only [getFpAd_areg hm, update_bind_apply, hcpu, href, if_pos hm, moveLoop]
  by_cases ht : toMemory extra = true
  · simp only [if_pos ht, bind_assoc]
  · simp only [if_neg ht]

/-! Every variable but the counter's own stays what a step does not name. -/

theorem putUnit_regs (k : Nat) (x : Long × Long) {s' : BusState} (h : putUnit k x s = .ret () s') :
    s'.cpu.regs = s.cpu.regs := by
  by_cases hk : s.vars.state0.toNat = k
  · rw [putUnit, reads_bind_apply, if_pos hk] at h
    cases hmade : s.vars.movem2 with
    | true =>
      rw [hmade] at h
      cases h
      rfl
    | false =>
      cases ha : s.accesses with
      | none =>
        simp only [hmade, xPutLong, access, bind_apply, BusState.mapVars, BusState.mapCpu, ha, update_apply,
          Bool.false_eq_true, if_false] at h
        cases h
        rfl
      | some n =>
        cases n with
        | zero =>
          simp only [hmade, xPutLong, access, bind_apply, BusState.mapVars, BusState.mapCpu, ha, update_apply,
            Bool.false_eq_true, if_false] at h
          cases h
        | succ n =>
          simp only [hmade, xPutLong, access, bind_apply, BusState.mapVars, BusState.mapCpu, ha, update_apply,
            Bool.false_eq_true, if_false] at h
          cases h
          rfl
  · rw [putUnit_skip hk] at h
    cases h
    rfl

def flagPut (s : BusState) : BusState := s.mapVars fun v => { v with movem1 := true }

def flagGet (s : BusState) : BusState := s.mapVars fun v => { v with movem1 := true, fmovem := true }

/-- The units of a list. -/
def putAll (fp : Vector (BitVec 80) 8) (incr regdir : Int) (list ad : Long) : List (Long × Long) :=
  (slots incr (listed regdir allRegs list) ad).flatMap fun x => putUnits fp x.1 x.2

def getAll (incr regdir : Int) (list ad : Long) : List LoadUnit :=
  (slots incr (listed regdir allRegs list) ad).flatMap fun x => getUnits x.1 x.2

theorem fmovem2mem_eq (hp : mmu030 p = true) (ad list : Long) (incr regdir : Int) :
    fmovem2mem p ad list incr regdir s =
      (numbered putUnit 0 (putAll s.cpu.regs.fpu.fp incr regdir list ad) >>= fun _ =>
        pure (endAd incr (listed regdir allRegs list) ad)) (flagPut s) := by
  rw [fmovem2mem, if_pos hp, update_bind_apply]
  refine rounds_numbered putUnit (J := fun t => t.cpu.regs.fpu.fp = s.cpu.regs.fpu.fp) 3 (fun _ _ => rfl)
    (fun reg ad idx t ht => ?_) (fun k x t t' ht hr => ?_) incr regdir allRegs list ad 0 (flagPut s) rfl
  · rw [reads_bind_apply, putUnits, numbered, numbered, numbered_singleton]
    simp only [fpReg, ht]
  · rw [putUnit_regs k x hr, ht]

theorem fmovem2fpp_eq (hp : mmu030 p = true) (ad list : Long) (incr regdir : Int) :
    fmovem2fpp p ad list incr regdir s =
      (numbered getUnit 0 (getAll incr regdir list ad) >>= fun _ =>
        pure (endAd incr (listed regdir allRegs list) ad)) (flagGet s) := by
  rw [fmovem2fpp, if_pos hp, update_bind_apply]
  refine rounds_numbered getUnit (J := fun _ => True) 3
    (show ∀ reg ad, (getUnits reg ad).length = 3 from fun _ _ => rfl) (fun reg ad idx t _ => ?_)
    (fun _ _ _ _ _ _ => trivial) incr regdir allRegs list ad 0 (flagGet s) trivial
  rw [getUnits, numbered, numbered, numbered_singleton]

theorem after_putEff (c : FpuCpu) (xs : List (Long × Long)) :
    (after putEff c xs).regs = c.regs ∧ (after putEff c xs).fpu = c.fpu := by
  induction xs generalizing c with
  | nil => exact ⟨rfl, rfl⟩
  | cons x xs ih => exact ih (putEff x c)

/-- Registers that no long of a load is for stay. -/
def SameBut (U : List LoadUnit) (c : FpuCpu) (F : Vector (BitVec 80) 8) : Prop :=
  ∀ r, (∀ x ∈ U, x.reg ≠ r) → F.get r = c.regs.fpu.fp.get r

theorem SameBut.trans {U : List LoadUnit} {c : FpuCpu} {F F' : Vector (BitVec 80) 8} (h : SameBut U c F)
    (h' : SameBut U (withFp F c) F') : SameBut U c F' := by
  intro r hr
  have hF := h' r hr
  rw [withFp_fp] at hF
  exact hF.trans (h r hr)

theorem after_getEff (q : FpuCpu × (Long × Long)) (xs : List LoadUnit) :
    ∃ F, (after getEff q xs).1 = withFp F q.1 ∧ SameBut xs q.1 F := by
  induction xs generalizing q with
  | nil => exact ⟨q.1.regs.fpu.fp, rfl, fun _ _ => rfl⟩
  | cons x xs ih =>
    obtain ⟨F, hF, hsame⟩ := ih (getEff x q)
    refine ⟨F, hF.trans ?_, fun r hr => (hsame r fun y hy => hr y (.tail x hy)).trans ?_⟩
    · unfold getEff
      split
      · rfl
      · split <;> rfl
    · unfold getEff
      split
      · rfl
      · split
        · rfl
        · exact Vector.getElem_set_ne x.reg.isLt r.isLt fun hval => hr x (.head xs) (Fin.ext hval)

theorem putWaiting_cpu {A : Long → Prop} {c : FpuCpu} {U : List (Long × Long)}
    (h : Resumable.Waiting putEff (PutAt A) (PutPending A) c U s) : s.cpu.regs = c.regs ∧ s.cpu.fpu = c.fpu := by
  obtain ⟨done, _, _, hat | ⟨x, _, _, hpend⟩⟩ := h
  · exact ⟨hat.cpu.regs.trans (after_putEff c done).1, hat.cpu.fpu.trans (after_putEff c done).2⟩
  · exact ⟨hpend.cpu.regs.trans (after_putEff c done).1, hpend.cpu.fpu.trans (after_putEff c done).2⟩

theorem getWaiting_cpu {A : Long → Prop} {q : FpuCpu × (Long × Long)} {U : List LoadUnit}
    (h : Resumable.Waiting getEff (GetAt A) (GetPending A) q U s) : ∃ F, AgreeOff A (withFp F q.1) s.cpu := by
  obtain ⟨done, _, _, hnext⟩ := h
  obtain ⟨F, hF, -⟩ := after_getEff q done
  refine ⟨F, ?_⟩
  rw [← hF]
  obtain hat | ⟨x, _, _, hpend⟩ := hnext
  · exact hat.cpu
  · exact hpend.cpu

theorem allUnits_length {ι : Type} {units : Fin 8 → Long → List ι} (hu : ∀ reg ad, (units reg ad).length = 3)
    (incr : Int) (regs : List (Fin 8)) (ad : Long) :
    ((slots incr regs ad).flatMap fun x => units x.1 x.2).length = 3 * regs.length := by
  induction regs generalizing ad with
  | nil => rfl
  | cons r regs ih =>
    rw [slots, List.flatMap_cons, List.length_append, hu, ih, List.length_cons]
    omega

theorem putAll_length (fp : Vector (BitVec 80) 8) (incr regdir : Int) (list ad : Long) :
    (putAll fp incr regdir list ad).length = 3 * (listed regdir allRegs list).length :=
  allUnits_length (fun _ _ => rfl) incr _ ad

theorem getAll_length (incr regdir : Int) (list ad : Long) :
    (getAll incr regdir list ad).length = 3 * (listed regdir allRegs list).length :=
  allUnits_length (show ∀ reg ad, (getUnits reg ad).length = 3 from fun _ _ => rfl) incr _ ad

/-- The registers after the instruction. -/
def stored (p : FpuPrefs) (opcode : Word) (ad : Long) (c : FpuCpu) : FpuCpu :=
  (c.mapRegs (traceT068040 p)).mapRegs (·.setAreg (eaReg opcode) ad)

def loaded (opcode : Word) (ad : Long) (c : FpuCpu) : FpuCpu := c.mapRegs (·.setAreg (eaReg opcode) ad)

theorem waiting_put_accesses {A : Long → Prop} {c : FpuCpu} {U : List (Long × Long)} (a : Option Nat)
    (h : Resumable.Waiting putEff (PutAt A) (PutPending A) c U (flagPut s)) :
    Resumable.Waiting putEff (PutAt A) (PutPending A) c U (flagPut { s with accesses := a }) :=
  h.mono (fun h => ⟨⟨h.count, h.made, h.movem1⟩, h.cpu⟩) fun h => ⟨⟨h.count, h.made, h.movem1⟩, h.cpu⟩

theorem waiting_get_accesses {A : Long → Prop} {q : FpuCpu × (Long × Long)} {U : List LoadUnit} (a : Option Nat)
    (h : Resumable.Waiting getEff (GetAt A) (GetPending A) q U (flagGet s)) :
    Resumable.Waiting getEff (GetAt A) (GetPending A) q U (flagGet { s with accesses := a }) :=
  h.mono (fun h => ⟨⟨h.count, h.made, h.movem1⟩, h.fmovem, h.cpu, h.kept⟩)
    fun h => ⟨⟨h.count, h.made, h.movem1⟩, h.fmovem, h.cpu, h.kept, h.data⟩

/-! ## Through a frame -/

theorem frameTop_congr {r r' : Regs} (hs : r'.s = r.s) (hm : r'.m = r.m) (hsp : r'.sp = r.sp) :
    frameTop p r' = frameTop p r := by
  unfold frameTop enterSupervisor
  rw [hs, hm, hsp]
  cases r.s
  · rfl
  · exact congrArg StackPtrs.a7 hsp

theorem frameTop_withFp (F : Vector (BitVec 80) 8) (c : FpuCpu) : frameTop p (withFp F c).regs = frameTop p c.regs :=
  frameTop_congr rfl rfl rfl

theorem pushFrame_off {top x : Long} (frame : Frame) (mem : Long → Byte) (h : ¬ Covers (top - 92) 92 x) :
    pushFrame top frame mem x = mem x := dif_neg h

theorem AgreeOff.underFrame {A : Long → Prop} {c c' : FpuCpu} (h : AgreeOff A c c') (frame : Frame)
    (hA : ∀ x, FrameAt p c.regs x → A x) : AgreeOff A c (underFrame p frame c') := by
  refine ⟨h.regs, h.fpu, fun x hx => (pushFrame_off _ _ fun hc => hx (hA x ?_)).trans (h.mem x hx)⟩
  rw [FrameAt, ← h.regs]
  exact hc

theorem PutFaulted.throughFrame {A : Long → Prop} {k : Nat} {x : Long × Long} {c : FpuCpu}
    (h : PutFaulted A k x c s) (hA : ∀ y, FrameAt p c.regs y → A y) (frame : Frame) :
    PutFaulted A k x c (throughFrame p s frame) :=
  ⟨⟨h.count, h.made, h.movem1⟩, h.cpu.underFrame frame hA, h.addr, h.write, h.data⟩

theorem fromFrame_fmovem {v : RestartVars} (h : v.fmovem = true) : fromFrame v = v := by
  rw [fromFrame, if_pos h]

theorem GetFaulted.throughFrame {A : Long → Prop} {k : Nat} {x : LoadUnit} {q : FpuCpu × (Long × Long)}
    (h : GetFaulted A k x q s) (hA : ∀ y, FrameAt p q.1.regs y → A y) (frame : Frame) :
    GetFaulted A k x q (throughFrame p s frame) := by
  have hvars : (Fmovem.throughFrame p s frame).vars = s.vars := fromFrame_fmovem h.fmovem
  exact ⟨⟨by rw [hvars]; exact h.count, by rw [hvars]; exact h.made, by rw [hvars]; exact h.movem1⟩,
    by rw [hvars]; exact h.fmovem, h.cpu.underFrame frame hA, by rw [hvars]; exact h.kept, h.addr, h.read⟩

/-- However often the handler is entered again. -/
theorem PutFaulted.frames {A : Long → Prop} {k : Nat} {x : Long × Long} {c : FpuCpu} (frames : List Frame)
    (h : PutFaulted A k x c s) (hA : ∀ y, FrameAt p c.regs y → A y) :
    PutFaulted A k x c (frames.foldl (Fmovem.throughFrame p) s) := by
  induction frames generalizing s with
  | nil => exact h
  | cons frame frames ih => exact ih (h.throughFrame hA frame)

theorem GetFaulted.frames {A : Long → Prop} {k : Nat} {x : LoadUnit} {q : FpuCpu × (Long × Long)}
    (frames : List Frame) (h : GetFaulted A k x q s) (hA : ∀ y, FrameAt p q.1.regs y → A y) :
    GetFaulted A k x q (frames.foldl (Fmovem.throughFrame p) s) := by
  induction frames generalizing s with
  | nil => exact h
  | cons frame frames ih => exact ih (h.throughFrame hA frame)

theorem PutFaulted.makeGood {A : Long → Prop} {k : Nat} {x : Long × Long} {c : FpuCpu}
    (h : PutFaulted A k x c s) (emulated : Option Long) : PutPending A k x c (flagPut (makeGood emulated s)) := by
  refine ⟨⟨?_, ?_, rfl⟩, ?_⟩
  · simp only [flagPut, Fmovem.makeGood, BusState.mapVars, h.write]
    exact h.count
  · simp only [flagPut, Fmovem.makeGood, BusState.mapVars, h.write]
    exact (congrArg (· || _) h.movem1).trans (Bool.true_or _)
  · simp only [flagPut, Fmovem.makeGood, BusState.mapVars, h.write]
    change AgreeOff A (putEff x c) (s.cpu.xCpPutLong s.faultAddr s.vars.dataBufferOut)
    rw [h.addr, h.data]
    exact h.cpu.put x

theorem GetFaulted.makeGood {A : Long → Prop} {k : Nat} {x : LoadUnit} {q : FpuCpu × (Long × Long)}
    (h : GetFaulted A k x q s) (hx : x.Apart A) (emulated : Option Long) :
    GetPending A k x q (flagGet (makeGood emulated s)) := by
  refine ⟨⟨?_, ?_, rfl⟩, rfl, ?_, ?_, ?_⟩
  · simp only [flagGet, Fmovem.makeGood, BusState.mapVars, h.read]
    exact h.count
  · simp only [flagGet, Fmovem.makeGood, BusState.mapVars, h.read]
    exact (congrArg (· || _) h.movem1).trans (Bool.true_or _)
  · simp only [flagGet, Fmovem.makeGood, BusState.mapVars, h.read]
    exact h.cpu
  · simp only [flagGet, Fmovem.makeGood, BusState.mapVars, h.read]
    exact h.kept
  · simp only [flagGet, Fmovem.makeGood, BusState.mapVars, h.read]
    change s.cpu.xCpGetLong s.faultAddr = _
    rw [h.addr]
    exact h.cpu.getLong hx

section Store

variable {A : Long → Prop} {c : FpuCpu} {list : Long} {incr regdir : Int} {U : List (Long × Long)}

/-- What a try of the loop does, a try of the instruction does. -/
theorem store_try (disp : DispEa) {Q E : BusState → Prop} (hp : mmu030 p = true) (hmv : Moves p opcode extra c)
    (hm : eaMode opcode = 4) (ht : toMemory extra = true) (hlist : fmovemList extra c.regs = list)
    (hincr : fmovemIncr opcode = incr) (hdir : fmovemRegdir p opcode extra list = regdir)
    (hU : putAll c.regs.fpu.fp incr regdir list (c.regs.areg (eaReg opcode)) = U)
    (hregs : s.cpu.regs = c.regs) (hfpu : s.cpu.fpu = c.fpu)
    (htry : Settles (numbered putUnit 0 U) (flagPut s) (fun _ => Q) E) :
    Settles (fpuopFmovem p disp opcode extra) s
      (fun t s' => t = none ∧ ∃ s'', Q s'' ∧
        s' = s''.mapCpu (stored p opcode (endAd incr (listed regdir allRegs list) (c.regs.areg (eaReg opcode))))) E := by
  subst hlist hincr hdir
  unfold Settles at htry ⊢
  rw [fpuopFmovem_moves (hmv.congr hfpu) (.inr hm), moveLoop]
  simp only [if_pos ht, bind_assoc]
  rw [bind_apply, fmovem2mem_eq hp, hregs, hU, bind_apply]
  cases hr : numbered putUnit 0 U (flagPut s) with
  | ret u s' =>
    rw [hr] at htry
    exact ⟨rfl, s', htry, rfl⟩
  | thrown e s' =>
    rw [hr] at htry
    exact htry
  | diverge =>
    rw [hr] at htry
    exact htry.elim

theorem putAll_le (fp : Vector (BitVec 80) 8) (incr regdir : Int) (list ad : Long) :
    (putAll fp incr regdir list ad).length ≤ 24 := by
  have hle := listed_length regdir allRegs list
  have hall : allRegs.length = 8 := List.length_finRange
  rw [putAll_length]
  omega

/-- One try of a store, from its start or after a restart. -/
theorem store_settles (disp : DispEa) (hp : mmu030 p = true) (hmv : Moves p opcode extra c) (hm : eaMode opcode = 4)
    (ht : toMemory extra = true) (hlist : fmovemList extra c.regs = list) (hincr : fmovemIncr opcode = incr)
    (hdir : fmovemRegdir p opcode extra list = regdir)
    (hU : putAll c.regs.fpu.fp incr regdir list (c.regs.areg (eaReg opcode)) = U)
    (h : Resumable.Waiting putEff (PutAt A) (PutPending A) c U (flagPut s)) :
    Settles (fpuopFmovem p disp opcode extra) s
      (fun t s' => t = none ∧ s'.vars.state0.toNat = U.length ∧ AgreeOff A (stored p opcode
        (endAd incr (listed regdir allRegs list) (c.regs.areg (eaReg opcode))) (after putEff c U)) s'.cpu)
      fun s' => ¬ Calm s ∧ Resumable.Broken putEff (PutFaulted A) c U s' := by
  have hcpu := putWaiting_cpu h
  have hlen : U.length ≤ 24 := by
    rw [← hU]
    exact putAll_le _ _ _ _ _
  have htry := (put_resumable A).settles (fun _ _ => trivial) hlen h
  refine (store_try (s := s) disp hp hmv hm ht hlist hincr hdir hU hcpu.1 hcpu.2
    (htry.mono (fun _ _ hq => hq) fun _ he => he)).mono ?_ fun _ he => he
  rintro t s' ⟨rfl, s'', hq, rfl⟩
  exact ⟨rfl, hq.1.count, (hq.1.cpu.mapRegs _).mapRegs _⟩

/-- The bytes of the longs of a store. -/
def Stores (U : List (Long × Long)) (x : Long) : Prop := ∃ u ∈ U, Covers u.1 4 x

theorem AgreeOff.after_put {B : Long → Prop} {c c' : FpuCpu} (h : AgreeOff B c c') (U : List (Long × Long)) :
    AgreeOff (fun x => B x ∧ ¬ Stores U x) (after putEff c U) (after putEff c' U) := by
  induction U generalizing B c c' with
  | nil => exact h.mono fun x hx => ⟨hx, fun ⟨_, hu, _⟩ => absurd hu List.not_mem_nil⟩
  | cons u U ih =>
    refine (ih (h.put_covered u)).mono fun x hx => ⟨hx.1.1, ?_⟩
    rintro ⟨v, hv, hc⟩
    rcases List.mem_cons.mp hv with rfl | hv
    · exact hx.1.2 hc
    · exact hx.2 ⟨v, hv, hc⟩

/-- Started in `c`, a store changes only the bytes it is for. -/
theorem AgreeOff.of_puts {B : Long → Prop} (c : FpuCpu) (U : List (Long × Long)) (hU : ∀ x, Stores U x → B x) :
    AgreeOff B c (after putEff c U) := by
  induction U generalizing c with
  | nil => exact .refl B c
  | cons u U ih =>
    have hu : AgreeOff B c (putEff u c) := .of_put u (fun y hy => hU y ⟨u, .head U, hy⟩) c
    exact hu.trans (ih (putEff u c) fun x ⟨v, hv, hc⟩ => hU x ⟨v, .tail u hv, hc⟩)

/-- Where there are frames: below the supervisor stack, if there are faults. -/
def Framed (p : FpuPrefs) (faults : List BusFault) (r : Regs) (x : Long) : Prop := faults ≠ [] ∧ FrameAt p r x

/-- A store through all its faults. Started anew after one it finds the frame and what it has stored
itself; gone on with, it leaves the frames as they are. -/
theorem store_execute (disp : DispEa) (loop : RunLoop) (faults : List BusFault) (hp : mmu030 p = true)
    (hmv : Moves p opcode extra s.cpu) (hm : eaMode opcode = 4)
    (ht : toMemory extra = true) (hlist : fmovemList extra s.cpu.regs = list) (hincr : fmovemIncr opcode = incr)
    (hdir : fmovemRegdir p opcode extra list = regdir)
    (hU : putAll s.cpu.regs.fpu.fp incr regdir list (s.cpu.regs.areg (eaReg opcode)) = U)
    (hstart : (begin loop s).vars.state0 = 0) (hmade : (begin loop s).vars.movem2 = false)
    (hloop : faults ≠ [] → loop = .mmu030) :
    Returns (execute p loop (fpuopFmovem p disp opcode extra) faults) s fun t s' =>
      t = none ∧ s'.vars.state0.toNat = U.length ∧
      ∃ c', AgreeOff (fun x => Framed p faults s.cpu.regs x ∨ Stores U x) s.cpu c' ∧
        AgreeOff (fun x => p.cpuCompatible = false ∧ Framed p faults s.cpu.regs x) (stored p opcode
          (endAd incr (listed regdir allRegs list) (s.cpu.regs.areg (eaReg opcode))) (after putEff c' U)) s'.cpu := by
  let A (x : Long) : Prop := p.cpuCompatible = false ∧ Framed p faults s.cpu.regs x
  let B (x : Long) : Prop := Framed p faults s.cpu.regs x ∨ Stores U x
  let I (t : BusState) : Prop :=
    ∃ c', AgreeOff B s.cpu c' ∧ Resumable.Waiting putEff (PutAt A) (PutPending A) c' U (flagPut t)
  let E (t : BusState) : Prop := ∃ c', AgreeOff B s.cpu c' ∧ Resumable.Broken putEff (PutFaulted A) c' U t
  have htry (t : BusState) (c' : FpuCpu) (hc : AgreeOff B s.cpu c')
      (hw : Resumable.Waiting putEff (PutAt A) (PutPending A) c' U (flagPut t)) :=
    store_settles disp hp (hmv.congr hc.fpu) hm ht (hc.regs ▸ hlist) hincr hdir (hc.regs ▸ hU) hw
  have hbegin : (begin loop s).cpu = s.cpu := by cases loop <;> rfl
  refine Returns.of_apply_eq rfl (retries_returns (I := I) (E := E) ?_ ?_ ?_ faults ?_ ?_)
  · rintro t ⟨c', hc, hw⟩
    refine (htry t c' hc hw).mono (fun _ _ hq => ⟨hq.1, hq.2.1, c', hc, ?_⟩) fun _ he => ⟨c', hc, he.2⟩
    have hcpu := hq.2.2
    rw [hc.regs] at hcpu
    exact hcpu
  · rintro t ⟨c', hc, hw⟩
    obtain ⟨u, s', hr, hq⟩ := (htry _ c' hc (waiting_put_accesses none hw)).returns_of fun _ he => he.1 rfl
    have hcpu := hq.2.2
    rw [hc.regs] at hcpu
    exact ⟨u, s', hr, hq.1, hq.2.1, c', hc, hcpu⟩
  · rintro f t ⟨c', hc, hw⟩
    exact ⟨c', hc, waiting_put_accesses _ hw⟩
  · rintro f hf t ⟨c', hc, done, x, todo, hall, hfault⟩
    have hne : faults ≠ [] := List.ne_nil_of_mem hf
    have hregs : (after putEff c' done).regs = s.cpu.regs := (after_putEff c' done).1.trans hc.regs
    cases hcompat : p.cpuCompatible with
    | false =>
      have hframes := hfault.frames (f.frame :: f.again) fun y hy => ⟨hcompat, hne, by rw [← hregs]; exact hy⟩
      refine ⟨c', hc, done, x :: todo, hall, .inr ⟨x, todo, rfl, ?_⟩⟩
      rw [restart, rte, if_neg (by rw [hcompat]; exact Bool.false_ne_true)]
      exact hframes.makeGood f.emulated
    | true =>
      have hwide : PutFaulted B done.length x (after putEff c' done) t :=
        ⟨hfault.toCounted, hfault.cpu.mono fun _ ha => .inl ha.2, hfault.addr, hfault.write, hfault.data⟩
      have hpend := (hwide.frames (f.frame :: f.again) fun y hy =>
        .inl ⟨hne, by rw [← hregs]; exact hy⟩).makeGood f.emulated
      rw [restart, rte, if_pos hcompat, hloop hne]
      refine ⟨_, hc.trans (?_ : AgreeOff B c' _), .start ⟨⟨rfl, rfl, rfl⟩, .refl A _⟩⟩
      have hdone : AgreeOff B c' (after putEff c' (done ++ [x])) := .of_puts c' _ fun y ⟨u, hu, hy⟩ =>
        .inr ⟨u, by rw [hall, ← List.singleton_append, ← List.append_assoc]; exact List.mem_append_left todo hu, hy⟩
      rw [Resumable.after_append] at hdone
      exact hdone.trans hpend.cpu
  · exact ⟨s.cpu, .refl B s.cpu, .start ⟨⟨congrArg BitVec.toNat hstart, hmade, rfl⟩, by
      rw [flagPut, BusState.mapVars, hbegin]
      exact .refl A s.cpu⟩⟩

end Store

section Load

variable {A : Long → Prop} {c : FpuCpu} {st : Long × Long} {list : Long} {incr regdir : Int} {U : List LoadUnit}

theorem getAll_le (incr regdir : Int) (list ad : Long) : (getAll incr regdir list ad).length ≤ 24 := by
  have hle := listed_length regdir allRegs list
  have hall : allRegs.length = 8 := List.length_finRange
  rw [getAll_length]
  omega

theorem load_try (disp : DispEa) {Q E : BusState → Prop} (hp : mmu030 p = true) (hmv : Moves p opcode extra c)
    (hm : eaMode opcode = 3) (ht : toMemory extra = false) (hlist : fmovemList extra c.regs = list)
    (hincr : fmovemIncr opcode = incr) (hdir : fmovemRegdir p opcode extra list = regdir)
    (hU : getAll incr regdir list (c.regs.areg (eaReg opcode)) = U) {F : Vector (BitVec 80) 8}
    (hcpu : AgreeOff A (withFp F c) s.cpu) (htry : Settles (numbered getUnit 0 U) (flagGet s) (fun _ => Q) E) :
    Settles (fpuopFmovem p disp opcode extra) s
      (fun t s' => t = none ∧ ∃ s'', Q s'' ∧
        s' = s''.mapCpu (loaded opcode (endAd incr (listed regdir allRegs list) (c.regs.areg (eaReg opcode))))) E := by
  subst hlist hincr hdir
  have hareg : s.cpu.regs.areg (eaReg opcode) = c.regs.areg (eaReg opcode) := by rw [hcpu.regs]; rfl
  have hsame : fmovemList extra s.cpu.regs = fmovemList extra c.regs := by rw [hcpu.regs]; rfl
  unfold Settles at htry ⊢
  rw [fpuopFmovem_moves (hmv.congr (by rw [hcpu.fpu]; rfl)) (.inl hm), moveLoop]
  simp only [ht, Bool.false_eq_true, if_false]
  rw [bind_apply, fmovem2fpp_eq hp, hareg, hsame, hU, bind_apply]
  cases hr : numbered getUnit 0 U (flagGet s) with
  | ret u s' =>
    rw [hr] at htry
    exact ⟨rfl, s', htry, rfl⟩
  | thrown e s' =>
    rw [hr] at htry
    exact htry
  | diverge =>
    rw [hr] at htry
    exact htry.elim

/-- One try of a load. -/
theorem load_settles (disp : DispEa) (hp : mmu030 p = true) (hmv : Moves p opcode extra c) (hm : eaMode opcode = 3)
    (ht : toMemory extra = false) (hlist : fmovemList extra c.regs = list) (hincr : fmovemIncr opcode = incr)
    (hdir : fmovemRegdir p opcode extra list = regdir)
    (hU : getAll incr regdir list (c.regs.areg (eaReg opcode)) = U) (hapart : ∀ x ∈ U, x.Apart A)
    (h : Resumable.Waiting getEff (GetAt A) (GetPending A) (c, st) U (flagGet s)) :
    Settles (fpuopFmovem p disp opcode extra) s
      (fun t s' => t = none ∧ AgreeOff A (loaded opcode
        (endAd incr (listed regdir allRegs list) (c.regs.areg (eaReg opcode))) (after getEff (c, st) U).1) s'.cpu)
      fun s' => ¬ Calm s ∧ Resumable.Broken getEff (GetFaulted A) (c, st) U s' := by
  obtain ⟨F, hF⟩ : ∃ F, AgreeOff A (withFp F c) s.cpu := getWaiting_cpu h
  have hlen : U.length ≤ 24 := by
    rw [← hU]
    exact getAll_le _ _ _ _
  have htry := (get_resumable A).settles hapart hlen h
  refine (load_try (s := s) disp hp hmv hm ht hlist hincr hdir hU hF
    (htry.mono (fun _ _ hq => hq) fun _ he => he)).mono ?_ fun _ he => he
  rintro t s' ⟨rfl, s'', hq, rfl⟩
  exact ⟨rfl, hq.1.cpu.mapRegs _⟩

/-- After the RTE a load goes on, or starts anew with some registers loaded. -/
theorem load_rte (h : Resumable.Broken getEff (GetFaulted A) (c, st) U s)
    (hapart : ∀ x ∈ U, x.Apart A) (emulated : Option Long) : ∃ F st', SameBut U c F ∧
      Resumable.Waiting getEff (GetAt A) (GetPending A) (withFp F c, st') U (flagGet (rte p .mmu030 emulated s)) := by
  obtain ⟨done, x, todo, hall, hf⟩ := h
  have hpend := hf.makeGood (hapart x (by rw [hall]; exact List.mem_append_right done (.head todo))) emulated
  cases hcompat : p.cpuCompatible with
  | false =>
    refine ⟨c.regs.fpu.fp, st, fun _ _ => rfl, done, x :: todo, hall, .inr ⟨x, todo, rfl, ?_⟩⟩
    rw [rte, if_neg (by rw [hcompat]; exact Bool.false_ne_true)]
    exact hpend
  | true =>
    obtain ⟨F, hF, hsame⟩ := after_getEff (c, st) done
    refine ⟨F, (rte p .mmu030 emulated s).vars.fmovemStore,
      fun r hr => hsame r fun y hy => hr y (by rw [hall]; exact List.mem_append_left _ hy), .start ?_⟩
    rw [rte, if_pos hcompat, ← hF]
    exact ⟨⟨rfl, rfl, rfl⟩, rfl, hpend.cpu, rfl⟩

/-- A load through all its faults, of longs that lie apart from their frames. -/
theorem load_execute (disp : DispEa) (loop : RunLoop) (faults : List BusFault) (hp : mmu030 p = true)
    (hmv : Moves p opcode extra s.cpu) (hm : eaMode opcode = 3)
    (ht : toMemory extra = false) (hlist : fmovemList extra s.cpu.regs = list) (hincr : fmovemIncr opcode = incr)
    (hdir : fmovemRegdir p opcode extra list = regdir)
    (hU : getAll incr regdir list (s.cpu.regs.areg (eaReg opcode)) = U)
    (hstart : (begin loop s).vars.state0 = 0) (hmade : (begin loop s).vars.movem2 = false)
    (hloop : faults ≠ [] → loop = .mmu030) (hapart : ∀ x ∈ U, x.Apart (Framed p faults s.cpu.regs)) :
    Returns (execute p loop (fpuopFmovem p disp opcode extra) faults) s fun t s' =>
      t = none ∧ ∃ F st, SameBut U s.cpu F ∧ AgreeOff (Framed p faults s.cpu.regs) (loaded opcode
        (endAd incr (listed regdir allRegs list) (s.cpu.regs.areg (eaReg opcode)))
        (after getEff (withFp F s.cpu, st) U).1) s'.cpu := by
  let A := Framed p faults s.cpu.regs
  let I (t : BusState) : Prop := ∃ F st, SameBut U s.cpu F ∧
    Resumable.Waiting getEff (GetAt A) (GetPending A) (withFp F s.cpu, st) U (flagGet t)
  let E (t : BusState) : Prop := ∃ F st, SameBut U s.cpu F ∧
    Resumable.Broken getEff (GetFaulted A) (withFp F s.cpu, st) U t
  have htry (t : BusState) (F : Vector (BitVec 80) 8) (st : Long × Long)
      (hw : Resumable.Waiting getEff (GetAt A) (GetPending A) (withFp F s.cpu, st) U (flagGet t)) :=
    load_settles (c := withFp F s.cpu) disp hp (hmv.congr rfl) hm ht hlist hincr hdir hU hapart hw
  have hbegin : (begin loop s).cpu = s.cpu := by cases loop <;> rfl
  refine Returns.of_apply_eq rfl (retries_returns (I := I) (E := E) ?_ ?_ ?_ faults ?_ ?_)
  · rintro t ⟨F, st, hsame, hw⟩
    exact (htry t F st hw).mono (fun _ _ hq => ⟨hq.1, F, st, hsame, hq.2⟩) fun _ he => ⟨F, st, hsame, he.2⟩
  · rintro t ⟨F, st, hsame, hw⟩
    obtain ⟨u, s', hr, hq⟩ := (htry _ F st (waiting_get_accesses none hw)).returns_of fun _ he => he.1 rfl
    exact ⟨u, s', hr, hq.1, F, st, hsame, hq.2⟩
  · rintro f t ⟨F, st, hsame, hw⟩
    exact ⟨F, st, hsame, waiting_get_accesses _ hw⟩
  · rintro f hf t ⟨F, st, hsame, done, x, todo, hall, hfault⟩
    have hne : faults ≠ [] := List.ne_nil_of_mem hf
    obtain ⟨F₁, hF₁, -⟩ := after_getEff (withFp F s.cpu, st) done
    have htop : frameTop p (after getEff (withFp F s.cpu, st) done).1.regs = frameTop p s.cpu.regs := by
      rw [hF₁, frameTop_withFp]
      exact frameTop_withFp F s.cpu
    have hframes := hfault.frames (f.frame :: f.again) fun y hy => ⟨hne, by
      rw [FrameAt, htop] at hy
      exact hy⟩
    obtain ⟨F', st', hsame', hw⟩ := load_rte ⟨done, x, todo, hall, hframes⟩ hapart f.emulated
    rw [restart, hloop hne]
    rw [withFp_withFp] at hw
    exact ⟨F', st', hsame.trans hsame', hw⟩
  · exact ⟨s.cpu.regs.fpu.fp, (begin loop s).vars.fmovemStore, fun _ _ => rfl,
      .start ⟨⟨congrArg BitVec.toNat hstart, hmade, rfl⟩, rfl, by
        rw [flagGet, BusState.mapVars, hbegin]
        exact .refl A s.cpu, rfl⟩⟩

end Load

/-! ## Without the MMU of the 68030 -/

theorem plain_put (h : s.accesses = none) (xs : List (Long × Long)) (k : Nat) :
    numbered (fun _ x => xPutLong x.1 x.2) k xs s = .ret () (s.mapCpu fun c => after putEff c xs) := by
  induction xs generalizing k s with
  | nil => rfl
  | cons x xs ih =>
    have hx : xPutLong x.1 x.2 s = .ret () (s.mapCpu (putEff x)) := by
      simp only [xPutLong, access, bind_apply, h, update_apply]
      rfl
    rw [numbered, bind_ret hx]
    exact ih (s := s.mapCpu (putEff x)) h _

/-- The three reads of a register, and the register. -/
def plainGet (_ : Nat) (x : Fin 8 × Long) : Bus Unit := do
  let wrd1 ← xGetLong (x.2 + 0)
  let wrd2 ← xGetLong (x.2 + 4)
  let wrd3 ← xGetLong (x.2 + 8)
  update (·.mapCpu (·.setFp x.1 (toExten ⟨wrd1, wrd2, wrd3⟩)))

theorem plain_get (h : s.accesses = none) (xs : List (Fin 8 × Long)) (k : Nat) :
    numbered plainGet k xs s = .ret () (s.mapCpu fun c => loadRegs c xs) := by
  induction xs generalizing k s with
  | nil => rfl
  | cons x xs ih =>
    have hzero : x.2 + 0 = x.2 := BitVec.add_zero x.2
    have hone : (1 * 4 : Long) = 4 := rfl
    have htwo : (2 * 4 : Long) = 8 := rfl
    have hx : plainGet k x s = .ret () (s.mapCpu fun c => c.setFp x.1 (readImage c.mem x.2)) := by
      simp only [plainGet, xGetLong, access, bind_apply, h, reads_apply, update_apply, hzero, readImage, hone, htwo,
        FpuCpu.xCpGetLong, BusState.mapCpu]
    rw [numbered, bind_ret hx]
    exact ih (s := s.mapCpu fun c => c.setFp x.1 (readImage c.mem x.2)) h _

theorem fmovem2mem_plain (hp : mmu030 p = false) (h : s.accesses = none) (ad list : Long) (incr : Int)
    {regdir : Int} (hdir : regdir = 1 ∨ regdir = -1) :
    fmovem2mem p ad list incr regdir s = .ret (endAd incr (listed regdir allRegs list) ad)
      (s.mapCpu fun c =>
        { c with mem := storeMem c.regs.fpu.fp c.mem (slots incr (listed regdir allRegs list) ad) }) := by
  have hnot : ¬ (regdir < -1 ∨ 1 < regdir) := by omega
  rw [fmovem2mem, if_neg (by rw [hp]; exact Bool.false_ne_true)]
  refine (rounds_numbered (fun _ x => xPutLong x.1 x.2)
    (J := fun t => t.cpu.regs.fpu.fp = s.cpu.regs.fpu.fp ∧ t.accesses = none) 3
    (show ∀ reg ad, (putUnits s.cpu.regs.fpu.fp reg ad).length = 3 from fun _ _ => rfl)
    (fun reg ad idx t ht => ?_) (fun k x t t' ht hr => ?_) incr regdir allRegs list ad 0 s ⟨rfl, h⟩).trans ?_
  · have hzero : ad + 0 = ad := BitVec.add_zero ad
    rw [reads_bind_apply, if_neg hnot, putUnits, numbered, numbered, numbered_singleton, hzero]
    simp only [fpReg, ht.1]
    rfl
  · simp only [xPutLong, access, bind_apply, ht.2, update_apply] at hr
    cases hr
    exact ht
  · rw [bind_ret (plain_put h _ _)]
    simp only [BusState.mapCpu, after_put]
    rfl

theorem fmovem2fpp_plain (hp : mmu030 p = false) (h : s.accesses = none) (ad list : Long) (incr regdir : Int) :
    fmovem2fpp p ad list incr regdir s = .ret (endAd incr (listed regdir allRegs list) ad)
      (s.mapCpu fun c => loadRegs c (slots incr (listed regdir allRegs list) ad)) := by
  rw [fmovem2fpp, if_neg (by rw [hp]; exact Bool.false_ne_true)]
  refine (rounds_numbered plainGet (J := fun _ => True) 1
    (show ∀ (reg : Fin 8) (ad : Long), [(reg, ad)].length = 1 from fun _ _ => rfl)
    (fun reg ad idx t _ => ?_) (fun _ _ _ _ _ _ => trivial) incr regdir allRegs list ad 0 s trivial).trans ?_
  · rw [numbered_singleton]
    rfl
  · rw [List.flatMap_singleton', bind_ret (plain_get h _ _)]
    rfl

end Instruction

end UaeCpu.Fmovem
