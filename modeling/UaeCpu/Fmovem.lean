import UaeCpu.Exception
import UaeCpu.FpRegisterApi
import UaeCpu.Lib.Resume

/-!
# UaeCpu.Fmovem

FMOVEM.X: the FPU registers of a list to and from memory. With the MMU of the 68030 the loops are
started over by the RTE of a bus error handler, with a counter and two buffered longs.

* `fmovem2mem`, `fmovem2fpp`       — the two loops, resumable and plain.
* `fpuopFmovem`                    — the instruction around them.
* `execute`                        — an instruction under a run loop, started over after every bus fault.
* `put_resumable`, `get_resumable` — the loops go on where they were broken off.
-/

namespace UaeCpu.Fmovem

open Fault FaultM Mem Fpu

/-! ## State -/

/-- `mmu030_state[0]`, the flags MOVEM1, MOVEM2 and FMOVEM of `mmu030_state[1]`,
`mmu030_fmovem_store` and `mmu030_data_buffer_out`. -/
structure RestartVars where
  state0 : Word
  movem1 : Bool
  movem2 : Bool
  fmovem : Bool
  fmovemStore : Long × Long
  dataBufferOut : Long

/-- `accesses` is how many longs are read or written before one faults, `faultAddr` and `faultRead`
what a fault tells its handler. -/
structure BusState where
  cpu : FpuCpu
  vars : RestartVars
  accesses : Option Nat
  faultAddr : Long
  faultRead : Bool

namespace BusState

def mapCpu (f : FpuCpu → FpuCpu) (s : BusState) : BusState := { s with cpu := f s.cpu }

def mapVars (f : RestartVars → RestartVars) (s : BusState) : BusState := { s with vars := f s.vars }

end BusState

abbrev Bus (α : Type) : Type := FaultM BusState α

/-- An access of the bus, or its fault. -/
def access (addr : Long) (read : Bool) : Bus Unit := fun s =>
  match s.accesses with
  | none => .ret () s
  | some 0 => .thrown 2 { s with faultAddr := addr, faultRead := read }
  | some (n + 1) => .ret () { s with accesses := some n }

def xPutLong (addr v : Long) : Bus Unit := do
  access addr false
  update (·.mapCpu (·.xCpPutLong addr v))

def xGetLong (addr : Long) : Bus Long := do
  access addr true
  reads fun s => s.cpu.xCpGetLong addr

/-! ## The loops -/

/-- `fpp_from_exten_fmovem` of the SoftFloat backend. -/
def fromExtenFmovem (x : BitVec 80) : Ext3 :=
  { w0 := (x.extractLsb' 64 16).setWidth 32 <<< 16
    w1 := ((x.setWidth 64 : BitVec 64) >>> 32).setWidth 32
    w2 := (x.setWidth 64 : BitVec 64).setWidth 32 }

/-- `fpp_to_exten` of the SoftFloat backend. -/
def toExten (w : Ext3) : BitVec 80 :=
  ((w.w0 >>> 16).setWidth 16 : BitVec 16) ++ ((w.w1.setWidth 64 : BitVec 64) <<< 32 ||| w.w2.setWidth 64)

def fpReg (c : FpuCpu) (reg : Fin 8) : BitVec 80 := c.regs.fpu.fp.get reg

/-- The rounds both loops make over the list, its highest bit first; `idx` counts the registers. -/
def rounds (incr regdir : Int) (move : Fin 8 → Long → Nat → Bus Unit) :
    List (Fin 8) → (list ad : Long) → (idx : Nat) → Bus Long
  | [], _, ad, _ => pure ad
  | r :: rs, list, ad, idx =>
    if list &&& 0x80 ≠ 0 then do
      let ad := if incr < 0 then ad - 3 * 4 else ad
      move (if regdir < 0 then r.rev else r) ad idx
      rounds incr regdir move rs (list <<< 1) (if 0 < incr then ad + 3 * 4 else ad) (idx + 1)
    else rounds incr regdir move rs (list <<< 1) ad idx

/-- One long of a resumable store, the `unit`-th. With MOVEM2 it has been written already. -/
def putUnit (unit : Nat) (x : Long × Long) : Bus Unit := do
  let vars ← reads BusState.vars
  if vars.state0.toNat = unit then do
    if vars.movem2 then update (·.mapVars fun v => { v with movem2 := false })
    else do
      update (·.mapVars fun v => { v with dataBufferOut := x.2 })
      xPutLong x.1 x.2
    update (·.mapVars fun v => { v with state0 := v.state0 + 1 })
  else pure ()

/-- Long `i` of a register. -/
structure LoadUnit where
  reg : Fin 8
  i : Nat
  ad : Long

/-- The first two longs are kept, with the third the register is loaded. -/
def loadUnit (x : LoadUnit) (w : Long) (s : BusState) : BusState :=
  if x.i = 0 then s.mapVars fun v => { v with fmovemStore := (w, v.fmovemStore.2) }
  else if x.i = 1 then s.mapVars fun v => { v with fmovemStore := (v.fmovemStore.1, w) }
  else s.mapCpu (·.setFp x.reg (toExten ⟨s.vars.fmovemStore.1, s.vars.fmovemStore.2, w⟩))

/-- One long of a resumable load. With MOVEM2 it is in the data buffer. -/
def getUnit (unit : Nat) (x : LoadUnit) : Bus Unit := do
  let vars ← reads BusState.vars
  if vars.state0.toNat = unit then do
    if vars.movem2 then do
      update (·.mapVars fun v => { v with movem2 := false })
      update (loadUnit x vars.dataBufferOut)
    else do
      let w ← xGetLong x.ad
      update (loadUnit x w)
    update (·.mapVars fun v => { v with state0 := v.state0 + 1 })
  else pure ()

def allRegs : List (Fin 8) := List.finRange 8

/-- `currprefs.mmu_model == 68030`. -/
def mmu030 (p : FpuPrefs) : Bool := p.mmuModel && p.cpuModel == .m68030

def fmovem2mem (p : FpuPrefs) (ad list : Long) (incr regdir : Int) : Bus Long :=
  if mmu030 p then do
    update (·.mapVars fun v => { v with movem1 := true })
    rounds incr regdir (fun reg ad idx => do
      let w ← reads fun s => fromExtenFmovem (fpReg s.cpu reg)
      putUnit (idx * 3) (ad, w.w0)
      putUnit (idx * 3 + 1) (ad + 1 * 4, w.w1)
      putUnit (idx * 3 + 2) (ad + 2 * 4, w.w2)) allRegs list ad 0
  else
    rounds incr regdir (fun reg ad _ => do
      let w ← reads fun s => fromExtenFmovem (fpReg s.cpu reg)
      if regdir < -1 ∨ 1 < regdir then do
        xPutLong (ad + 0) w.w2
        xPutLong (ad + 4) w.w1
        xPutLong (ad + 8) w.w0
      else do
        xPutLong (ad + 0) w.w0
        xPutLong (ad + 4) w.w1
        xPutLong (ad + 8) w.w2) allRegs list ad 0

def fmovem2fpp (p : FpuPrefs) (ad list : Long) (incr regdir : Int) : Bus Long :=
  if mmu030 p then do
    update (·.mapVars fun v => { v with movem1 := true, fmovem := true })
    rounds incr regdir (fun reg ad idx => do
      getUnit (idx * 3) ⟨reg, 0, ad⟩
      getUnit (idx * 3 + 1) ⟨reg, 1, ad + 1 * 4⟩
      getUnit (idx * 3 + 2) ⟨reg, 2, ad + 2 * 4⟩) allRegs list ad 0
  else
    rounds incr regdir (fun reg ad _ => do
      let wrd1 ← xGetLong (ad + 0)
      let wrd2 ← xGetLong (ad + 4)
      let wrd3 ← xGetLong (ad + 8)
      update (·.mapCpu (·.setFp reg (toExten ⟨wrd1, wrd2, wrd3⟩)))) allRegs list ad 0

/-! ## The instruction -/

/-- What an FMOVEM that does not move anything is: no coprocessor, a pending exception, `fpu_noinst`,
no FPU, and the unimplemented effective address of the 68060. -/
inductive FmovemTrap where
  | illg | pending | noinst | noFpu | unimplemented
  deriving DecidableEq, Repr

/-- `fault_if_60`. -/
def faultIf60 (p : FpuPrefs) : Bool :=
  p.cpuModel == .m68060 && p.fpuModel != .none && p.fpuNoUnimplemented

/-- `extra & 0x2000`. -/
def toMemory (extra : Word) : Bool := extra.getLsbD 13

/-- The mode field: bit 0 for a list in a data register, bit 1 for the order of (An)+. -/
def listMode (extra : Word) : BitVec 2 := extra.extractLsb' 11 2

def fmovemList (extra : Word) (r : Regs) : Long :=
  if (listMode extra).getLsbD 0 then r.d.get (extra.extractLsb' 4 3).toFin &&& 0xFF
  else extra.setWidth 32 &&& 0xFF

def fmovemIncr (opcode : Word) : Int := if eaMode opcode = 4 then -1 else 1

/-- `regdir`. The 68040 writes the longs of a register the other way round where the mode field does
not suit the addressing mode; the 68060 ignores the field. -/
def fmovemRegdir (p : FpuPrefs) (opcode extra : Word) (list : Long) : Int :=
  let pred := !(listMode extra).getLsbD 1
  let predec := eaMode opcode = 4
  match p.fpuModel with
  | .m68881 | .m68882 => if pred then -1 else 1
  | .m68040 =>
    let regdir : Int := if pred ∧ (predec ∨ toMemory extra) then -1 else 1
    let regdir := if list ≠ 0 ∧ toMemory extra ∧ regdir < 0 ∧ 0 < fmovemIncr opcode ∧ ¬ predec then -2 else regdir
    if list ≠ 0 ∧ toMemory extra ∧ 0 < regdir ∧ fmovemIncr opcode < 0 then 2 else regdir
  | _ => if predec then -1 else 1

/-- What `fpuop_arithmetic2` refuses once it has the address. -/
def fmovemRefused (p : FpuPrefs) (opcode extra : Word) (c : FpuCpu) : Option FmovemTrap :=
  if ifNoFpu p c.fpu then some .noFpu
  else if toMemory extra ∧ (eaMode opcode = 3 ∨ 0x3A ≤ opcode &&& 0x3F) then some .noinst
  else if ¬ toMemory extra ∧ eaMode opcode = 4 then some .noinst
  else if (listMode extra).getLsbD 0 ∧ faultIf60 p then some .unimplemented
  else none

/-- `trace_t0_68040`. -/
def traceT068040 (p : FpuPrefs) (r : Regs) : Regs :=
  if r.t0 ∧ p.cpuModel = .m68040 ∧ !r.t1 then { r with spc := activateTrace r.spc } else r

/-- FMOVEM.X in `fpuop_arithmetic2`: the trap it takes, or none. -/
def fpuopFmovem (p : FpuPrefs) (disp : DispEa) (opcode extra : Word) : Bus (Option FmovemTrap) := do
  let c ← reads BusState.cpu
  if faultIfNo6888x p then pure (some .illg)
  else if (fpExceptionPending p c.fpu).isSome then pure (some .pending)
  else match getFpAd disp opcode c with
    | none => pure (some .noinst)
    | some (ad, c) => do
      update (·.mapCpu fun _ => c)
      match fmovemRefused p opcode extra c with
      | some t => pure (some t)
      | none => do
        let list := fmovemList extra c.regs
        let regdir := fmovemRegdir p opcode extra list
        let ad ← if toMemory extra then do
            let ad ← fmovem2mem p ad list (fmovemIncr opcode) regdir
            update (·.mapCpu (·.mapRegs (traceT068040 p)))
            pure ad
          else fmovem2fpp p ad list (fmovemIncr opcode) regdir
        if eaMode opcode = 3 ∨ eaMode opcode = 4 then
          update (·.mapCpu (·.mapRegs (·.setAreg (eaReg opcode) ad)))
        pure none

/-! ## Faults and restarts -/

/-- The bytes of the long bus fault frame. -/
abbrev Frame := Vector Byte 92

/-- Where the frame of a fault ends: at the supervisor stack. -/
def frameTop (p : FpuPrefs) (r : Regs) : Long := (enterSupervisor p.toPrefs r).sp.a7

def FrameAt (p : FpuPrefs) (r : Regs) (x : Long) : Prop := Covers (frameTop p r - 92) 92 x

def pushFrame (top : Long) (frame : Frame) (mem : Long → Byte) (x : Long) : Byte :=
  if h : Covers (top - 92) 92 x then frame.get ⟨(x - (top - 92)).toNat, h⟩ else mem x

def underFrame (p : FpuPrefs) (frame : Frame) (c : FpuCpu) : FpuCpu :=
  { c with mem := pushFrame (frameTop p c.regs) frame c.mem }

/-- One bus fault: how many accesses it comes after, its frame, the frames of the faults RTE takes
when it repeats the access, and, where the handler has made the access itself, what it leaves in the
data buffer of a write. -/
structure BusFault where
  accesses : Nat
  frame : Frame
  again : List Frame
  emulated : Option Long

/-- What of the restart variables comes back from the frame. -/
def fromFrame (v : RestartVars) : RestartVars :=
  { v with fmovemStore := if v.fmovem then v.fmovemStore else (0, 0) }

/-- The exception and, up to the access, its RTE. The registers come back with the status register. -/
def throughFrame (p : FpuPrefs) (s : BusState) (frame : Frame) : BusState :=
  { s with cpu := underFrame p frame s.cpu, vars := fromFrame s.vars }

/-- `m68k_run_mmu030` clears `mmu030_state` before every instruction that it does not restart,
`uae_host_run` and `uae_host_step` do not. -/
inductive RunLoop where
  | mmu030 | host
  deriving DecidableEq, Repr

def begin : RunLoop → BusState → BusState
  | .mmu030, s => s.mapVars fun v => { v with state0 := 0, movem1 := false, movem2 := false, fmovem := false }
  | .host, s => s

/-- RTE repeats the access, or takes it as made, and marks it as done. -/
def makeGood (emulated : Option Long) (s : BusState) : BusState :=
  let s :=
    if s.faultRead then s.mapVars fun v => { v with dataBufferOut := s.cpu.xCpGetLong s.faultAddr }
    else
      let s := s.mapCpu (·.xCpPutLong s.faultAddr s.vars.dataBufferOut)
      s.mapVars fun v => { v with dataBufferOut := emulated.getD v.dataBufferOut }
  s.mapVars fun v => { v with movem2 := v.movem1 || v.movem2 }

/-- The RTE that goes through. `m68k_do_rte_mmu030c` has the instruction fetched anew after it. -/
def rte (p : FpuPrefs) (loop : RunLoop) (emulated : Option Long) (s : BusState) : BusState :=
  if p.cpuCompatible then begin loop (makeGood emulated s) else makeGood emulated s

/-- The exception and the handler, up to the start of the instruction. -/
def restart (p : FpuPrefs) (loop : RunLoop) (f : BusFault) (s : BusState) : BusState :=
  rte p loop f.emulated ((f.frame :: f.again).foldl (throughFrame p) s)

/-- An instruction from its start, through the faults that break it off. -/
def execute {α : Type} (p : FpuPrefs) (loop : RunLoop) (m : Bus α) (faults : List BusFault) : Bus α := fun s =>
  retries (fun f s => { s with accesses := some f.accesses }) (restart p loop) (fun s => { s with accesses := none }) m
    faults (begin loop s)

/-! ## One register -/

theorem high_low (x : BitVec 80) : x.extractLsb' 64 16 ++ (x.setWidth 64 : BitVec 64) = x := by
  apply BitVec.eq_of_getLsbD_eq
  intro i hi
  rw [BitVec.getLsbD_append, BitVec.getLsbD_extractLsb', BitVec.getLsbD_setWidth]
  by_cases h : i < 64
  · simp [h]
  · have hk : i - 64 < 16 := by omega
    simp [h, hk, show 64 + (i - 64) = i by omega]

theorem high_longs (high : BitVec 16) : ((high.setWidth 32 <<< 16 : Long) >>> 16).setWidth 16 = high := by
  have hlt := high.isLt
  apply BitVec.eq_of_toNat_eq
  simp only [BitVec.toNat_setWidth, BitVec.toNat_ushiftRight, BitVec.toNat_shiftLeft, Nat.shiftLeft_eq,
    Nat.shiftRight_eq_div_pow]
  omega

theorem low_longs (low : BitVec 64) :
    (((low >>> 32).setWidth 32 : Long).setWidth 64 <<< 32 ||| (low.setWidth 32 : Long).setWidth 64 : BitVec 64) = low := by
  ext i hi
  simp only [BitVec.getElem_or, BitVec.getElem_shiftLeft, BitVec.getElem_setWidth, BitVec.getLsbD_setWidth,
    BitVec.getLsbD_ushiftRight]
  by_cases h : i < 32
  · simp [h, BitVec.getLsbD_eq_getElem hi]
  · simp [h]
    grind

/-- What FMOVEM stores of a register it loads back, whatever the register holds. -/
theorem toExten_fromExtenFmovem (x : BitVec 80) : toExten (fromExtenFmovem x) = x := by
  rw [toExten, fromExtenFmovem]
  simp only
  rw [high_longs, low_longs, high_low]

/-! ## The loops as lists -/

/-- The registers of a list in the order of the loop. -/
def listed (regdir : Int) : List (Fin 8) → Long → List (Fin 8)
  | [], _ => []
  | r :: rs, list =>
    if list &&& 0x80 ≠ 0 then (if regdir < 0 then r.rev else r) :: listed regdir rs (list <<< 1)
    else listed regdir rs (list <<< 1)

/-- Each with its address. -/
def slots (incr : Int) : List (Fin 8) → Long → List (Fin 8 × Long)
  | [], _ => []
  | reg :: regs, ad =>
    let ad := if incr < 0 then ad - 3 * 4 else ad
    (reg, ad) :: slots incr regs (if 0 < incr then ad + 3 * 4 else ad)

def endAd (incr : Int) : List (Fin 8) → Long → Long
  | [], ad => ad
  | _ :: regs, ad =>
    let ad := if incr < 0 then ad - 3 * 4 else ad
    endAd incr regs (if 0 < incr then ad + 3 * 4 else ad)

/-- A loop that does `w` numbered steps for each register does those of its slots, in a state that
has what the loop reads. -/
theorem rounds_numbered {ι : Type} (step : Nat → ι → Bus Unit) {move : Fin 8 → Long → Nat → Bus Unit}
    {units : Fin 8 → Long → List ι} {J : BusState → Prop} (w : Nat) (hlen : ∀ reg ad, (units reg ad).length = w)
    (hmove : ∀ reg ad idx s, J s → move reg ad idx s = numbered step (idx * w) (units reg ad) s)
    (hkeep : ∀ k x s s', J s → step k x s = .ret () s' → J s') (incr regdir : Int)
    (rs : List (Fin 8)) (list ad : Long) (idx : Nat) (s : BusState) (hs : J s) :
    rounds incr regdir move rs list ad idx s =
      (numbered step (idx * w) ((slots incr (listed regdir rs list) ad).flatMap fun x => units x.1 x.2) >>=
        fun _ => pure (endAd incr (listed regdir rs list) ad)) s := by
  have hnumbered : ∀ (xs : List ι) k s s', J s → numbered step k xs s = .ret () s' → J s' := by
    intro xs
    induction xs with
    | nil =>
      intro k s s' h hr
      cases hr
      exact h
    | cons x xs ih =>
      intro k s s' h hr
      obtain ⟨u, t, hx, hxs⟩ := ret_of_bind hr
      exact ih _ t s' (hkeep k x s t h hx) hxs
  induction rs generalizing list ad idx s with
  | nil => rfl
  | cons r rs ih =>
    rw [rounds, listed]
    by_cases hbit : list &&& 0x80 ≠ 0
    · rw [if_pos hbit, if_pos hbit, slots, endAd, List.flatMap_cons, numbered_append, hlen]
      have hnext : idx * w + w = (idx + 1) * w := by rw [Nat.add_mul, Nat.one_mul]
      have hm := hmove (if regdir < 0 then r.rev else r) (if incr < 0 then ad - 3 * 4 else ad) idx s hs
      simp only [bind_assoc, hnext]
      rw [bind_apply, bind_apply, hm]
      cases hr : numbered step (idx * w)
          (units (if regdir < 0 then r.rev else r) (if incr < 0 then ad - 3 * 4 else ad)) s with
      | ret u s' => exact ih _ _ _ _ (hnumbered _ _ s s' hs hr)
      | thrown c s' => rfl
      | diverge => rfl
    · rw [if_neg hbit, if_neg hbit]
      exact ih _ _ _ _ hs

/-! ## Machines that agree but for an area -/

/-- They agree on everything but the memory in `A`. -/
structure AgreeOff (A : Long → Prop) (c c' : FpuCpu) : Prop where
  regs : c'.regs = c.regs
  fpu : c'.fpu = c.fpu
  mem : ∀ x, ¬ A x → c'.mem x = c.mem x

/-- What a long of a store does. -/
def putEff (x : Long × Long) (c : FpuCpu) : FpuCpu := c.xCpPutLong x.1 x.2

namespace AgreeOff

variable {A B : Long → Prop} {c c' c'' : FpuCpu}

theorem refl (A : Long → Prop) (c : FpuCpu) : AgreeOff A c c := ⟨rfl, rfl, fun _ _ => rfl⟩

theorem trans (h : AgreeOff A c c') (h' : AgreeOff A c' c'') : AgreeOff A c c'' :=
  ⟨h'.regs.trans h.regs, h'.fpu.trans h.fpu, fun x hx => (h'.mem x hx).trans (h.mem x hx)⟩

theorem mono (h : AgreeOff A c c') (hA : ∀ x, A x → B x) : AgreeOff B c c' :=
  ⟨h.regs, h.fpu, fun x hx => h.mem x fun ha => hx (hA x ha)⟩

theorem eq (h : AgreeOff (fun _ => False) c c') : c' = c := by
  obtain ⟨hregs, hfpu, hmem⟩ := h
  cases c
  cases c'
  cases hregs
  cases hfpu
  cases (funext fun x => hmem x id : _ = _)
  rfl

/-- A long in the area is no difference. -/
theorem of_put (x : Long × Long) (h : ∀ y, Covers x.1 4 y → A y) (c : FpuCpu) : AgreeOff A c (putEff x c) :=
  ⟨rfl, rfl, fun y hy => rd_wr32_of_not_covers ofFun fun hc => hy (h y hc)⟩

/-- Where a long is stored in both they agree. -/
theorem put_covered (h : AgreeOff A c c') (x : Long × Long) :
    AgreeOff (fun y => A y ∧ ¬ Covers x.1 4 y) (putEff x c) (putEff x c') := by
  refine ⟨h.regs, h.fpu, fun y hy => ?_⟩
  simp only [putEff, FpuCpu.xCpPutLong, wr32, wr16, ofFun]
  split <;> try rfl
  split <;> try rfl
  split <;> try rfl
  split <;> try rfl
  refine h.mem y fun hA => hy ⟨hA, fun hc => ?_⟩
  simp only [Covers] at hc
  bv_omega

theorem put (h : AgreeOff A c c') (x : Long × Long) : AgreeOff A (putEff x c) (putEff x c') :=
  (h.put_covered x).mono fun _ hy => hy.1

theorem mapRegs (h : AgreeOff A c c') (f : Regs → Regs) : AgreeOff A (c.mapRegs f) (c'.mapRegs f) :=
  ⟨congrArg f h.regs, h.fpu, h.mem⟩

theorem getLong (h : AgreeOff A c c') {a : Long} (ha : ∀ y, Covers a 4 y → ¬ A y) : c'.xCpGetLong a = c.xCpGetLong a :=
  rd32_congr ofFun fun y hy => h.mem y (ha y hy)

theorem setFp (h : AgreeOff A c c') (r : Fin 8) (v : BitVec 80) : AgreeOff A (c.setFp r v) (c'.setFp r v) := by
  refine ⟨?_, h.fpu, h.mem⟩
  have hregs := h.regs
  simp only [FpuCpu.setFp, FpuCpu.mapCtrl, FpuCpu.mapRegs, hregs]

end AgreeOff

/-! ## The units -/

section Units

variable {s : BusState} {k : Nat} {A : Long → Prop}

theorem putUnit_skip {x : Long × Long} (h : s.vars.state0.toNat ≠ k) : putUnit k x s = .ret () s := by
  rw [putUnit, reads_bind_apply, if_neg h]
  rfl

theorem getUnit_skip {x : LoadUnit} (h : s.vars.state0.toNat ≠ k) : getUnit k x s = .ret () s := by
  rw [getUnit, reads_bind_apply, if_neg h]
  rfl

theorem count_succ {c : Word} (h : c.toNat < 24) : (c + 1).toNat = c.toNat + 1 := by
  rw [BitVec.toNat_add]
  exact Nat.mod_eq_of_lt (by simp; omega)

/-- The counter is at `k`; the access of that step is made, or not. -/
structure Counted (k : Nat) (made : Bool) (s : BusState) : Prop where
  count : s.vars.state0.toNat = k
  made : s.vars.movem2 = made
  movem1 : s.vars.movem1 = true

def Calm (s : BusState) : Prop := s.accesses = none

structure PutAt (A : Long → Prop) (k : Nat) (c : FpuCpu) (s : BusState) : Prop extends Counted k false s where
  cpu : AgreeOff A c s.cpu

structure PutPending (A : Long → Prop) (k : Nat) (x : Long × Long) (c : FpuCpu) (s : BusState) : Prop
    extends Counted k true s where
  cpu : AgreeOff A (putEff x c) s.cpu

structure PutFaulted (A : Long → Prop) (k : Nat) (x : Long × Long) (c : FpuCpu) (s : BusState) : Prop
    extends Counted k false s where
  cpu : AgreeOff A c s.cpu
  addr : s.faultAddr = x.1
  write : s.faultRead = false
  data : s.vars.dataBufferOut = x.2

/-- What a long of a load does, to the machine and the two longs kept. -/
def getEff (x : LoadUnit) (p : FpuCpu × (Long × Long)) : FpuCpu × (Long × Long) :=
  let w := p.1.xCpGetLong x.ad
  if x.i = 0 then (p.1, (w, p.2.2))
  else if x.i = 1 then (p.1, (p.2.1, w))
  else (p.1.setFp x.reg (toExten ⟨p.2.1, p.2.2, w⟩), p.2)

structure GetAt (A : Long → Prop) (k : Nat) (p : FpuCpu × (Long × Long)) (s : BusState) : Prop
    extends Counted k false s where
  fmovem : s.vars.fmovem = true
  cpu : AgreeOff A p.1 s.cpu
  kept : s.vars.fmovemStore = p.2

structure GetPending (A : Long → Prop) (k : Nat) (x : LoadUnit) (p : FpuCpu × (Long × Long)) (s : BusState) : Prop
    extends Counted k true s where
  fmovem : s.vars.fmovem = true
  cpu : AgreeOff A p.1 s.cpu
  kept : s.vars.fmovemStore = p.2
  data : s.vars.dataBufferOut = p.1.xCpGetLong x.ad

structure GetFaulted (A : Long → Prop) (k : Nat) (x : LoadUnit) (p : FpuCpu × (Long × Long)) (s : BusState) : Prop
    extends Counted k false s where
  fmovem : s.vars.fmovem = true
  cpu : AgreeOff A p.1 s.cpu
  kept : s.vars.fmovemStore = p.2
  addr : s.faultAddr = x.ad
  read : s.faultRead = true

theorem Counted.not_next {made : Bool} {j : Nat} (h : Counted k made s) (hj : j < k) : s.vars.state0.toNat ≠ j := by
  rw [h.count]
  exact Nat.ne_of_gt hj

/-- The store can be started over. -/
theorem put_resumable (A : Long → Prop) :
    Resumable 24 (fun _ => True) putUnit putEff (PutAt A) (PutPending A) (PutFaulted A) Calm where
  skip _ h hj := putUnit_skip (h.not_next hj)
  skip_pending _ h hj := putUnit_skip (h.not_next hj)
  run := by
    rintro k c s x - hk ⟨⟨rfl, hmade, hmovem1⟩, hcpu⟩
    have hsucc := count_succ hk
    cases ha : s.accesses with
    | none =>
      have hret : putUnit s.vars.state0.toNat x s = .ret () { s with
          cpu := putEff x s.cpu
          vars := { s.vars with dataBufferOut := x.2, state0 := s.vars.state0 + 1 } } := by
        simp [putUnit, hmade, xPutLong, access, bind_apply, BusState.mapVars, BusState.mapCpu, ha, putEff]
      exact .ret hret ⟨⟨⟨hsucc, hmade, hmovem1⟩, hcpu.put x⟩, fun _ => ha⟩
    | some n =>
      have hnot : ¬ Calm s := fun hc => by
        rw [Calm, ha] at hc
        cases hc
      cases n with
      | zero =>
        have hthrown : putUnit s.vars.state0.toNat x s = .thrown 2 { s with
            vars := { s.vars with dataBufferOut := x.2 }, faultAddr := x.1, faultRead := false } := by
          simp [putUnit, hmade, xPutLong, access, bind_apply, BusState.mapVars, ha]
        exact .thrown hthrown ⟨hnot, ⟨rfl, hmade, hmovem1⟩, hcpu, rfl, rfl, rfl⟩
      | succ n =>
        have hret : putUnit s.vars.state0.toNat x s = .ret () { s with
            cpu := putEff x s.cpu
            vars := { s.vars with dataBufferOut := x.2, state0 := s.vars.state0 + 1 }
            accesses := some n } := by
          simp [putUnit, hmade, xPutLong, access, bind_apply, BusState.mapVars, BusState.mapCpu, ha, putEff]
        exact .ret hret ⟨⟨⟨hsucc, hmade, hmovem1⟩, hcpu.put x⟩, fun hc => absurd hc hnot⟩
  finish := by
    rintro k x c s - hk ⟨⟨rfl, hmade, hmovem1⟩, hcpu⟩
    refine ⟨(), { s with vars := { s.vars with movem2 := false, state0 := s.vars.state0 + 1 } }, ?_,
      ⟨⟨count_succ hk, rfl, hmovem1⟩, hcpu⟩, id⟩
    simp [putUnit, hmade, bind_apply, BusState.mapVars]

theorem loadUnit_vars (x : LoadUnit) (w : Long) (s : BusState) :
    (loadUnit x w s).vars = { s.vars with fmovemStore := (loadUnit x w s).vars.fmovemStore } := by
  unfold loadUnit
  split
  · rfl
  · split <;> rfl

theorem loadUnit_accesses (x : LoadUnit) (w : Long) (s : BusState) : (loadUnit x w s).accesses = s.accesses := by
  unfold loadUnit
  split
  · rfl
  · split <;> rfl

theorem loadUnit_cpu {p : FpuCpu × (Long × Long)} {x : LoadUnit} {w : Long} (h : AgreeOff A p.1 s.cpu)
    (hkept : s.vars.fmovemStore = p.2) (hw : w = p.1.xCpGetLong x.ad) :
    AgreeOff A (getEff x p).1 (loadUnit x w s).cpu ∧ (loadUnit x w s).vars.fmovemStore = (getEff x p).2 := by
  subst hw
  unfold loadUnit getEff
  split
  · exact ⟨h, by simp only [BusState.mapVars, hkept]⟩
  · split
    · exact ⟨h, by simp only [BusState.mapVars, hkept]⟩
    · refine ⟨?_, hkept⟩
      simp only [BusState.mapCpu, hkept]
      exact h.setFp _ _

/-- A step of the load that has its long. -/
theorem GetAt.next {p : FpuCpu × (Long × Long)} {x : LoadUnit} {w : Long} (hk : s.vars.state0.toNat < 24)
    (hmade : s.vars.movem2 = false) (hmovem1 : s.vars.movem1 = true) (hf : s.vars.fmovem = true)
    (hcpu : AgreeOff A p.1 s.cpu) (hkept : s.vars.fmovemStore = p.2) (hw : w = p.1.xCpGetLong x.ad) :
    GetAt A (s.vars.state0.toNat + 1) (getEff x p)
      ((loadUnit x w s).mapVars fun v => { v with state0 := v.state0 + 1 }) := by
  have hv := loadUnit_vars x w s
  obtain ⟨hcpu', hkept'⟩ := loadUnit_cpu hcpu hkept hw
  refine ⟨⟨?_, ?_, ?_⟩, ?_, hcpu', hkept'⟩
  · simp only [BusState.mapVars]
    rw [hv]
    exact count_succ hk
  · simp only [BusState.mapVars]
    rw [hv]
    exact hmade
  · simp only [BusState.mapVars]
    rw [hv]
    exact hmovem1
  · simp only [BusState.mapVars]
    rw [hv]
    exact hf

/-- The long lies apart from an area. -/
def LoadUnit.Apart (A : Long → Prop) (x : LoadUnit) : Prop := ∀ y, Covers x.ad 4 y → ¬ A y

/-- And so can the load, of longs that lie apart from the area. -/
theorem get_resumable (A : Long → Prop) :
    Resumable 24 (LoadUnit.Apart A) getUnit getEff (GetAt A) (GetPending A) (GetFaulted A) Calm where
  skip _ h hj := getUnit_skip (h.not_next hj)
  skip_pending _ h hj := getUnit_skip (h.not_next hj)
  run := by
    rintro k p s x hx hk ⟨⟨rfl, hmade, hmovem1⟩, hf, hcpu, hkept⟩
    have hlong := hcpu.getLong hx
    cases ha : s.accesses with
    | none =>
      have hret : getUnit s.vars.state0.toNat x s = .ret ()
          ((loadUnit x (s.cpu.xCpGetLong x.ad) s).mapVars fun v => { v with state0 := v.state0 + 1 }) := by
        simp [getUnit, hmade, xGetLong, access, bind_apply, ha]
      exact .ret hret ⟨.next hk hmade hmovem1 hf hcpu hkept hlong, fun _ => (loadUnit_accesses ..).trans ha⟩
    | some n =>
      have hnot : ¬ Calm s := fun hc => by
        rw [Calm, ha] at hc
        cases hc
      cases n with
      | zero =>
        have hthrown : getUnit s.vars.state0.toNat x s =
            .thrown 2 { s with faultAddr := x.ad, faultRead := true } := by
          simp [getUnit, hmade, xGetLong, access, bind_apply, ha]
        exact .thrown hthrown ⟨hnot, ⟨rfl, hmade, hmovem1⟩, hf, hcpu, hkept, rfl, rfl⟩
      | succ n =>
        let s' : BusState := { s with accesses := some n }
        have hret : getUnit s.vars.state0.toNat x s = .ret ()
            ((loadUnit x (s.cpu.xCpGetLong x.ad) s').mapVars fun v => { v with state0 := v.state0 + 1 }) := by
          simp [getUnit, hmade, xGetLong, access, bind_apply, ha, s']
        exact .ret hret ⟨GetAt.next (s := s') hk hmade hmovem1 hf hcpu hkept hlong, fun hc => absurd hc hnot⟩
  finish := by
    rintro k x p s - hk ⟨⟨rfl, hmade, hmovem1⟩, hf, hcpu, hkept, hdata⟩
    let s' : BusState := s.mapVars fun v => { v with movem2 := false }
    have hret : getUnit s.vars.state0.toNat x s = .ret ()
        ((loadUnit x s.vars.dataBufferOut s').mapVars fun v => { v with state0 := v.state0 + 1 }) := by
      simp [getUnit, hmade, bind_apply, s']
    exact ⟨(), _, hret, GetAt.next (s := s') hk rfl hmovem1 hf hcpu hkept hdata,
      fun hc => (loadUnit_accesses ..).trans hc⟩

end Units

/-! ## What the loops do -/

open Resumable (after)

def putUnits (fp : Vector (BitVec 80) 8) (reg : Fin 8) (ad : Long) : List (Long × Long) :=
  let w := fromExtenFmovem (fp.get reg)
  [(ad, w.w0), (ad + 1 * 4, w.w1), (ad + 2 * 4, w.w2)]

def getUnits (reg : Fin 8) (ad : Long) : List LoadUnit :=
  [⟨reg, 0, ad⟩, ⟨reg, 1, ad + 1 * 4⟩, ⟨reg, 2, ad + 2 * 4⟩]

/-- The image of a register, as the longs of a frame. -/
def imageOf (x : BitVec 80) : List (Option Long) :=
  let w := fromExtenFmovem x
  [some w.w0, some w.w1, some w.w2]

def storeMem (fp : Vector (BitVec 80) 8) (mem : Long → Byte) (xs : List (Fin 8 × Long)) : Long → Byte :=
  xs.foldl (fun mem x => putFrame mem x.2 (imageOf (fp.get x.1))) mem

def readImage (mem : Long → Byte) (ad : Long) : BitVec 80 :=
  toExten ⟨rd32 ofFun mem ad, rd32 ofFun mem (ad + 1 * 4), rd32 ofFun mem (ad + 2 * 4)⟩

def loadRegs (c : FpuCpu) (xs : List (Fin 8 × Long)) : FpuCpu :=
  xs.foldl (fun c x => c.setFp x.1 (readImage c.mem x.2)) c

theorem after_put (fp : Vector (BitVec 80) 8) (xs : List (Fin 8 × Long)) (c : FpuCpu) :
    after putEff c (xs.flatMap fun x => putUnits fp x.1 x.2) = { c with mem := storeMem fp c.mem xs } := by
  induction xs generalizing c with
  | nil => rfl
  | cons x xs ih =>
    have hlast : x.2 + 4 + 4 = x.2 + 2 * 4 := by rw [BitVec.add_assoc]; rfl
    rw [List.flatMap_cons, after, List.foldl_append]
    refine (ih _).trans ?_
    have hslot : putFrame c.mem x.2 (imageOf (fp.get x.1)) =
        ((putUnits fp x.1 x.2).foldl (fun c y => putEff y c) c).mem := by
      simp only [imageOf, putFrame, hlast]
      rfl
    rw [storeMem, storeMem, List.foldl_cons, hslot]
    rfl

theorem after_get (xs : List (Fin 8 × Long)) (c : FpuCpu) (st : Long × Long) :
    (after getEff (c, st) (xs.flatMap fun x => getUnits x.1 x.2)).1 = loadRegs c xs := by
  induction xs generalizing c st with
  | nil => rfl
  | cons x xs ih =>
    rw [List.flatMap_cons, after, List.foldl_append]
    exact ih _ _

/-! ## Down and up again -/

section RoundTrip

variable {fp : Vector (BitVec 80) 8}

theorem slots_down (v : Fin 8) (vs : List (Fin 8)) (ad : Long) :
    slots (-1) (v :: vs) ad = (v, ad - 12) :: slots (-1) vs (ad - 12) := rfl

theorem slots_up (v : Fin 8) (vs : List (Fin 8)) (ad : Long) :
    slots 1 (v :: vs) ad = (v, ad) :: slots 1 vs (ad + 12) := rfl

theorem endAd_down (vs : List (Fin 8)) (ad : Long) : endAd (-1) vs ad = ad - BitVec.ofNat 32 (12 * vs.length) := by
  induction vs generalizing ad with
  | nil => exact (BitVec.sub_zero ad).symm
  | cons v vs ih =>
    have hdown : endAd (-1) (v :: vs) ad = endAd (-1) vs (ad - 12) := rfl
    rw [hdown, ih, List.length_cons]
    bv_omega

theorem endAd_up (vs : List (Fin 8)) (ad : Long) : endAd 1 vs ad = ad + BitVec.ofNat 32 (12 * vs.length) := by
  induction vs generalizing ad with
  | nil => exact (BitVec.add_zero ad).symm
  | cons v vs ih =>
    have hup : endAd 1 (v :: vs) ad = endAd 1 vs (ad + 12) := rfl
    rw [hup, ih, List.length_cons]
    bv_omega

theorem slots_up_append (vs ws : List (Fin 8)) (ad : Long) :
    slots 1 (vs ++ ws) ad = slots 1 vs ad ++ slots 1 ws (endAd 1 vs ad) := by
  induction vs generalizing ad with
  | nil => rfl
  | cons v vs ih =>
    rw [List.cons_append, slots_up, ih, slots_up]
    rfl

/-- The slots of a load upwards from where a store downwards ended. -/
theorem slots_reverse (vs : List (Fin 8)) (ad : Long) :
    slots 1 vs.reverse (endAd (-1) vs ad) = (slots (-1) vs ad).reverse := by
  induction vs generalizing ad with
  | nil => rfl
  | cons v vs ih =>
    have hend : endAd 1 vs.reverse (endAd (-1) vs (ad - 12)) = ad - 12 := by
      rw [endAd_up, endAd_down, List.length_reverse]
      exact BitVec.sub_add_cancel _ _
    have hdown : endAd (-1) (v :: vs) ad = endAd (-1) vs (ad - 12) := rfl
    rw [List.reverse_cons, hdown, slots_up_append, ih, hend, slots_down, List.reverse_cons]
    rfl

theorem imageOf_length (x : BitVec 80) : (imageOf x).length = 3 := rfl

/-- The bytes a store downwards may change. -/
theorem storeMem_untouched (vs : List (Fin 8)) (hn : vs.length ≤ 8) (mem : Long → Byte) (ad x : Long)
    (hx : ¬ Covers (ad - BitVec.ofNat 32 (12 * vs.length)) (12 * vs.length) x) :
    storeMem fp mem (slots (-1) vs ad) x = mem x := by
  induction vs generalizing mem ad with
  | nil => rfl
  | cons v vs ih =>
    rw [List.length_cons] at hn hx
    have hhead : ¬ Covers (ad - 12) 12 x := by
      intro hc
      apply hx
      simp only [Covers] at hc ⊢
      bv_omega
    have htail : ¬ Covers (ad - 12 - BitVec.ofNat 32 (12 * vs.length)) (12 * vs.length) x := by
      intro hc
      apply hx
      simp only [Covers] at hc ⊢
      bv_omega
    rw [slots_down, storeMem, List.foldl_cons]
    refine (ih (by omega) _ _ htail).trans ?_
    exact putFrame_of_not_covers (by rw [imageOf_length]; decide) hhead

theorem readImage_of_holds {mem : Long → Byte} {ad : Long} {x : BitVec 80} (h : HoldsFrame mem ad (imageOf x)) :
    readImage mem ad = x := by
  have h0 : rd32 ofFun mem ad = (fromExtenFmovem x).w0 := h.head
  have h1 : rd32 ofFun mem (ad + 1 * 4) = (fromExtenFmovem x).w1 := h 1 _ rfl
  have h2 : rd32 ofFun mem (ad + 2 * 4) = (fromExtenFmovem x).w2 := h 2 _ rfl
  rw [readImage, h0, h1, h2]
  exact toExten_fromExtenFmovem x

/-- Every slot holds the image of its register: what is written later lies below it. -/
theorem storeMem_holds (vs : List (Fin 8)) (hn : vs.length ≤ 8) (mem : Long → Byte) (ad : Long) :
    ∀ x ∈ slots (-1) vs ad, readImage (storeMem fp mem (slots (-1) vs ad)) x.2 = fp.get x.1 := by
  induction vs generalizing mem ad with
  | nil =>
    intro x hx
    exact absurd hx List.not_mem_nil
  | cons v vs ih =>
    rw [List.length_cons] at hn
    intro x hx
    rw [slots_down, List.mem_cons] at hx
    rw [slots_down, storeMem, List.foldl_cons]
    rcases hx with rfl | hx
    · refine readImage_of_holds (HoldsFrame.of_untouched mem (by rw [imageOf_length]; decide) fun y hy => ?_)
      refine storeMem_untouched vs (by omega) _ _ _ fun hc => ?_
      rw [imageOf_length] at hy
      simp only [Covers] at hy hc
      bv_omega
    · exact ih (by omega) _ _ x hx

def withFp (F : Vector (BitVec 80) 8) (c : FpuCpu) : FpuCpu := c.mapCtrl fun r => { r with fp := F }

theorem withFp_fp (F : Vector (BitVec 80) 8) (c : FpuCpu) : (withFp F c).regs.fpu.fp = F := rfl

theorem withFp_withFp (F F' : Vector (BitVec 80) 8) (c : FpuCpu) : withFp F' (withFp F c) = withFp F' c := rfl

/-- A load from images of `fp`. -/
theorem loadRegs_images (fp : Vector (BitVec 80) 8) (xs : List (Fin 8 × Long)) (c : FpuCpu)
    (h : ∀ x ∈ xs, readImage c.mem x.2 = fp.get x.1) : ∃ F, loadRegs c xs = withFp F c ∧
      ∀ r, (r ∈ xs.map Prod.fst → F.get r = fp.get r) ∧
        (r ∉ xs.map Prod.fst → F.get r = c.regs.fpu.fp.get r) := by
  induction xs generalizing c with
  | nil => exact ⟨c.regs.fpu.fp, rfl, fun r => ⟨fun hr => absurd hr List.not_mem_nil, fun _ => rfl⟩⟩
  | cons x xs ih =>
    obtain ⟨F, hF, hget⟩ := ih (c.setFp x.1 (readImage c.mem x.2)) fun y hy => h y (.tail x hy)
    refine ⟨F, hF, fun r => ⟨fun hr => ?_, fun hr => ?_⟩⟩
    · by_cases hmem : r ∈ xs.map Prod.fst
      · exact (hget r).1 hmem
      · obtain rfl : r = x.1 := (List.mem_cons.mp hr).resolve_right hmem
        rw [(hget x.1).2 hmem, ← h x (.head xs)]
        exact Vector.getElem_set_self _
    · rw [List.map_cons, List.mem_cons, not_or] at hr
      rw [(hget r).2 hr.2]
      exact Vector.getElem_set_ne x.1.isLt r.isLt fun hval => hr.1 (Fin.ext hval.symm)

/-- The list of a load up is that of a store down with its bits reversed: the same registers, the
other way round. -/
theorem listed_reverse : ∀ L : Byte,
    listed 1 allRegs (L.reverse.setWidth 32) = (listed (-1) allRegs (L.setWidth 32)).reverse := by
  decide +kernel

theorem mem_listed : ∀ (L : Byte) (r : Fin 8), r ∈ listed (-1) allRegs (L.setWidth 32) ↔ L.getLsbD r.val = true := by
  decide +kernel

theorem listed_length (regdir : Int) (rs : List (Fin 8)) (list : Long) :
    (listed regdir rs list).length ≤ rs.length := by
  induction rs generalizing list with
  | nil => exact Nat.le_refl 0
  | cons r rs ih =>
    rw [listed, List.length_cons]
    split
    · rw [List.length_cons]
      exact Nat.succ_le_succ (ih _)
    · exact Nat.le_succ_of_le (ih _)

theorem slots_fst (incr : Int) (regs : List (Fin 8)) (ad : Long) : (slots incr regs ad).map Prod.fst = regs := by
  induction regs generalizing ad with
  | nil => rfl
  | cons r regs ih => rw [slots, List.map_cons, ih]

end RoundTrip

end UaeCpu.Fmovem
