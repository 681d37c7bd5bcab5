import UaeCpu.Regs
import Mathlib.Tactic.IntervalCases

/-!
# UaeCpu.StatusReg

`MakeSR`, which collects the status register from its decoded parts, and `MakeFromSR_x`, which
spreads a written value over them again and banks the stack pointers.

The function is cut where the source has its paragraphs (`loadIntmask`, `bankStacks`,
`noteEndCompile`, `noteTrace`), so that each paragraph has its own frame lemmas.
-/

namespace UaeCpu

/-- The `t0trace` argument of `MakeFromSR_x`: which of its three wrappers was called. -/
inductive SrWrite where
  | plain | t0 | stop
  deriving DecidableEq, Repr

/-- A flag shifted to its place in a word. -/
def srBit (b : Bool) (i : Nat) : Word := (BitVec.ofBool b).setWidth 16 <<< i

/-- The value `MakeSR` stores. -/
def encodeSR (r : Regs) (f : Flags) : Word :=
  srBit r.t1 15 ||| srBit r.t0 14 ||| srBit r.s 13 ||| srBit r.m 12 |||
    r.intmask.setWidth 16 <<< 8 |||
    srBit f.x 4 ||| srBit f.n 3 ||| srBit f.z 2 ||| srBit f.v 1 ||| srBit f.c 0

def makeSR (c : Core) : Core :=
  { c with regs := { c.regs with sr := encodeSR c.regs c.flags } }

/-- The five `SET_xFLG` lines: the condition codes of a status register value. -/
def Flags.ofSR (sr : Word) : Flags :=
  { x := sr.getLsbD 4, n := sr.getLsbD 3, z := sr.getLsbD 2, v := sr.getLsbD 1,
    c := sr.getLsbD 0 }

def srMaskField (sr : Word) : Level := sr.extractLsb' 8 3

/-- The early-return test: every decoded field already has the value in `regs.sr`. -/
def srUnchanged (r : Regs) : Bool :=
  r.t1 == r.sr.getLsbD 15 && r.t0 == r.sr.getLsbD 14 && r.s == r.sr.getLsbD 13 &&
    r.m == r.sr.getLsbD 12 && r.intmask == srMaskField r.sr

def activateTrace (f : SpcFlags) : SpcFlags := { f with trace := false, doTrace := true }

/-- A changed mask: with accurate IPL sampling a STOP delays a level it has just enabled;
otherwise a level the old mask held back on the pin asks for service. -/
def loadIntmask (p : Prefs) (k : SrWrite) (r : Regs) : Regs :=
  let new := srMaskField r.sr
  if r.intmask = new then r
  else if p.accurateIpl then
    if k = .stop ∧ r.ipl.ipl0 ≤ r.intmask ∧ new < r.ipl.ipl0 ∧ r.ipl.ipl0 < 7 then
      { r with ipl := { r.ipl with ipl0 := 0 }, intmask := new }
    else { r with intmask := new }
  else if r.ipl.pin ≤ r.intmask ∧ new < r.ipl.pin then
    if p.cachesize = 0 then { r with spc := { r.spc with int := true }, intmask := new }
    else { r with spc := { r.spc with doInt := true }, intmask := new }
  else { r with intmask := new }

/-- Exchanges `A7` with the banked pointers, from the old `S` and `M` to the new ones. -/
def bankStacks (p : Prefs) (olds oldm s m : Bool) (sp : StackPtrs) : StackPtrs :=
  if 68020 ≤ p.cpuModel.num then
    -- "68060 does not have MSP but does have M-bit"
    let sp := if 68060 ≤ p.cpuModel.num then { sp with msp := sp.isp } else sp
    if olds ≠ s then
      if olds then
        if oldm then { sp with msp := sp.a7, a7 := sp.usp }
        else { sp with isp := sp.a7, a7 := sp.usp }
      else { sp with usp := sp.a7, a7 := if m then sp.msp else sp.isp }
    else if olds ∧ oldm ≠ m then
      if oldm then { sp with msp := sp.a7, a7 := sp.isp }
      else { sp with isp := sp.a7, a7 := sp.msp }
    else sp
  else if olds ≠ s then
    if olds then { sp with isp := sp.a7, a7 := sp.usp }
    else { sp with usp := sp.a7, a7 := sp.isp }
  else sp

/-- `T0` and `M` read as zero on models that lack them. -/
def clearUnimplemented (p : Prefs) (r : Regs) : Regs :=
  if 68020 ≤ p.cpuModel.num then
    if 68060 ≤ p.cpuModel.num then { r with t0 := false } else r
  else { r with t0 := false, m := false }

/-- With the JIT on, a change of `T1`, `T0` or `M` ends the block being compiled. -/
def noteEndCompile (p : Prefs) (old r : Regs) : Regs :=
  if p.cachesize ≠ 0 ∧ (old.t0 ≠ r.t0 ∨ old.t1 ≠ r.t1 ∨ old.m ≠ r.m) then
    { r with spc := { r.spc with endCompile := true } }
  else r

/-- Arms or disarms tracing. A trace bit that was set before the write still gives its trace
exception, except for `T0` when the write is not one that traces. -/
def noteTrace (p : Prefs) (k : SrWrite) (old r : Regs) : Regs :=
  let spc := { r.spc with trace := r.t1 || r.t0 }
  if r.stopped = .no ∧ ((old.t0 ∧ k ≠ .plain ∧ 68020 ≤ p.cpuModel.num) ∨ old.t1) then
    { r with spc := activateTrace spc }
  else { r with spc := spc }

/-- `MakeFromSR_x`. `mmu_set_super` is not here: the MMU's accesses read `regs.s` themselves. -/
def makeFromSRx (p : Prefs) (k : SrWrite) (c : Core) : Core :=
  let old := c.regs
  if srUnchanged old then { c with flags := Flags.ofSR old.sr }
  else
    let r := { old with
      t1 := old.sr.getLsbD 15, t0 := old.sr.getLsbD 14,
      s := old.sr.getLsbD 13, m := old.sr.getLsbD 12 }
    let r := loadIntmask p k r
    let r := { r with sp := bankStacks p old.s old.m r.s r.m r.sp }
    let r := clearUnimplemented p r
    { regs := noteTrace p k old (noteEndCompile p old r), flags := Flags.ofSR old.sr }

/-- A write to the status register: `regs.sr = v` and then one of the three wrappers. -/
def writeSR (p : Prefs) (k : SrWrite) (v : Word) (c : Core) : Core :=
  makeFromSRx p k { c with regs := { c.regs with sr := v } }

/-! ## Bits of the encoded value -/

theorem getLsbD_srBit {b : Bool} {i j : Nat} (hi : i < 16) :
    (srBit b i).getLsbD j = (decide (j = i) && b) := by
  simp only [srBit, BitVec.getLsbD_shiftLeft, BitVec.getLsbD_setWidth, BitVec.getLsbD_ofBool]
  by_cases h : j = i
  · subst h; simp [hi]
  · by_cases hj : i ≤ j
    · have : j - i ≠ 0 := by omega
      simp [h, this]
    · simp [h]; omega

theorem getLsbD_encodeSR {r : Regs} {f : Flags} {i : Nat} (hi : i < 16) :
    (encodeSR r f).getLsbD i =
      ((decide (i = 15) && r.t1 || decide (i = 14) && r.t0 || decide (i = 13) && r.s ||
        decide (i = 12) && r.m || decide (8 ≤ i) && r.intmask.getLsbD (i - 8)) ||
      (decide (i = 4) && f.x || decide (i = 3) && f.n || decide (i = 2) && f.z ||
        decide (i = 1) && f.v || decide (i = 0) && f.c)) := by
  have hb : ∀ (b : Bool) (j : Nat), j < 16 → (srBit b j).getLsbD i = (decide (i = j) && b) :=
    fun b j hj => getLsbD_srBit hj
  simp only [encodeSR, BitVec.getLsbD_or, BitVec.getLsbD_shiftLeft, BitVec.getLsbD_setWidth]
  rw [hb _ 15 (by omega), hb _ 14 (by omega), hb _ 13 (by omega), hb _ 12 (by omega),
    hb _ 4 (by omega), hb _ 3 (by omega), hb _ 2 (by omega), hb _ 1 (by omega),
    hb _ 0 (by omega)]
  interval_cases i <;> simp

section Decode

variable (r : Regs) (f : Flags)

@[simp] theorem encodeSR_t1 : (encodeSR r f).getLsbD 15 = r.t1 := by
  rw [getLsbD_encodeSR (by omega)]; simp

@[simp] theorem encodeSR_t0 : (encodeSR r f).getLsbD 14 = r.t0 := by
  rw [getLsbD_encodeSR (by omega)]; simp

@[simp] theorem encodeSR_s : (encodeSR r f).getLsbD 13 = r.s := by
  rw [getLsbD_encodeSR (by omega)]; simp

@[simp] theorem encodeSR_m : (encodeSR r f).getLsbD 12 = r.m := by
  rw [getLsbD_encodeSR (by omega)]; simp

@[simp] theorem encodeSR_intmask : srMaskField (encodeSR r f) = r.intmask := by
  apply BitVec.eq_of_getLsbD_eq
  intro i hi
  simp only [srMaskField, BitVec.getLsbD_extractLsb']
  rw [getLsbD_encodeSR (by omega)]
  interval_cases i <;> simp

@[simp] theorem encodeSR_flags : Flags.ofSR (encodeSR r f) = f := by
  simp only [Flags.ofSR]
  rw [getLsbD_encodeSR (by omega), getLsbD_encodeSR (by omega), getLsbD_encodeSR (by omega),
    getLsbD_encodeSR (by omega), getLsbD_encodeSR (by omega)]
  simp

/-- Two encodings agree only when the decoded fields and the condition codes do. -/
theorem encodeSR_inj {r' : Regs} {f' : Flags} (h : encodeSR r f = encodeSR r' f') :
    r.t1 = r'.t1 ∧ r.t0 = r'.t0 ∧ r.s = r'.s ∧ r.m = r'.m ∧ r.intmask = r'.intmask ∧ f = f' := by
  refine ⟨?_, ?_, ?_, ?_, ?_, ?_⟩
  · rw [← encodeSR_t1 r f, h, encodeSR_t1]
  · rw [← encodeSR_t0 r f, h, encodeSR_t0]
  · rw [← encodeSR_s r f, h, encodeSR_s]
  · rw [← encodeSR_m r f, h, encodeSR_m]
  · rw [← encodeSR_intmask r f, h, encodeSR_intmask]
  · rw [← encodeSR_flags r f, h, encodeSR_flags]

end Decode

/-- Decoding a value and encoding it again keeps the bits a model has: `t0` and `m` say whether
it has `T0` and `M`. -/
theorem encodeSR_ofSR {r : Regs} {v : Word} {t0 m : Bool} (ht1 : r.t1 = v.getLsbD 15)
    (ht0 : r.t0 = (v.getLsbD 14 && t0)) (hs : r.s = v.getLsbD 13)
    (hm : r.m = (v.getLsbD 12 && m)) (hi : r.intmask = srMaskField v) :
    encodeSR r (Flags.ofSR v) = v &&& (0xA71F ||| srBit t0 14 ||| srBit m 12) := by
  apply BitVec.eq_of_getLsbD_eq
  intro i hi16
  rw [getLsbD_encodeSR hi16]
  simp only [Flags.ofSR, BitVec.getLsbD_or, BitVec.getLsbD_and, ht1, ht0, hs, hm, hi,
    srMaskField, BitVec.getLsbD_extractLsb']
  rw [getLsbD_srBit (by omega), getLsbD_srBit (by omega)]
  interval_cases i <;> simp

/-! ## What each paragraph leaves alone -/

section Frame

variable (p : Prefs) (k : SrWrite) (old r : Regs)

theorem loadIntmask_eq : ∃ i spc,
    loadIntmask p k r =
      { r with ipl := { r.ipl with ipl0 := i }, spc := spc, intmask := srMaskField r.sr } := by
  dsimp only [loadIntmask]
  split
  · rename_i h
    exact ⟨r.ipl.ipl0, r.spc, by rw [← h]⟩
  · split
    · split <;> exact ⟨_, r.spc, rfl⟩
    · split
      · split <;> exact ⟨r.ipl.ipl0, _, rfl⟩
      · exact ⟨r.ipl.ipl0, r.spc, rfl⟩

theorem noteTrace_eq :
    ∃ spc, noteTrace p k old (noteEndCompile p old r) = { r with spc := spc } := by
  dsimp only [noteTrace, noteEndCompile]
  split <;> split <;> exact ⟨_, rfl⟩

theorem clearUnimplemented_eq :
    clearUnimplemented p r =
      { r with
        t0 := r.t0 && decide (68020 ≤ p.cpuModel.num ∧ ¬ 68060 ≤ p.cpuModel.num),
        m := r.m && decide (68020 ≤ p.cpuModel.num) } := by
  simp only [clearUnimplemented]
  by_cases h2 : 68020 ≤ p.cpuModel.num
  · by_cases h6 : 68060 ≤ p.cpuModel.num <;> simp [h2, h6]
  · simp [h2]

end Frame

/-- The decoded fields a written value has on a model, with the stacks banked for it. -/
def decodeSR (p : Prefs) (r : Regs) : Regs :=
  { r with
    t1 := r.sr.getLsbD 15
    t0 := r.sr.getLsbD 14 && decide (68020 ≤ p.cpuModel.num ∧ ¬ 68060 ≤ p.cpuModel.num)
    s := r.sr.getLsbD 13
    m := r.sr.getLsbD 12 && decide (68020 ≤ p.cpuModel.num)
    intmask := srMaskField r.sr
    sp := bankStacks p r.s r.m (r.sr.getLsbD 13) (r.sr.getLsbD 12) r.sp }

/-- What `MakeFromSR_x` can do: nothing but load the condition codes, or decode and bank, with
some effect on the interrupt sample and the special flags. -/
theorem makeFromSRx_cases (p : Prefs) (k : SrWrite) (c : Core) :
    (srUnchanged c.regs = true ∧ makeFromSRx p k c = { c with flags := Flags.ofSR c.regs.sr }) ∨
    (srUnchanged c.regs = false ∧ ∃ i spc, makeFromSRx p k c =
      { regs := { decodeSR p c.regs with ipl := { c.regs.ipl with ipl0 := i }, spc := spc },
        flags := Flags.ofSR c.regs.sr }) := by
  by_cases h : srUnchanged c.regs
  · exact .inl ⟨h, by simp [makeFromSRx, h]⟩
  · refine .inr ⟨by simpa using h, ?_⟩
    obtain ⟨i, spc, hl⟩ := loadIntmask_eq p k { c.regs with
        t1 := c.regs.sr.getLsbD 15, t0 := c.regs.sr.getLsbD 14,
        s := c.regs.sr.getLsbD 13, m := c.regs.sr.getLsbD 12 }
    simp only [makeFromSRx, h, Bool.false_eq_true, if_false, hl, clearUnimplemented_eq]
    obtain ⟨spc', ht⟩ := noteTrace_eq p k c.regs
      { decodeSR p c.regs with ipl := { c.regs.ipl with ipl0 := i }, spc := spc }
    exact ⟨i, spc', by rw [← ht]; rfl⟩

theorem srUnchanged_iff {r : Regs} : srUnchanged r = true ↔
    r.t1 = r.sr.getLsbD 15 ∧ r.t0 = r.sr.getLsbD 14 ∧ r.s = r.sr.getLsbD 13 ∧
      r.m = r.sr.getLsbD 12 ∧ r.intmask = srMaskField r.sr := by
  simp [srUnchanged, and_assoc]

/-! ## Special flags after a write -/

section Spc

variable (p : Prefs) (k : SrWrite) (old r : Regs)

theorem loadIntmask_spc : (loadIntmask p k r).spc.brk = r.spc.brk ∧
    (r.spc.int = true → (loadIntmask p k r).spc.int = true) ∧
    (r.spc.doInt = true → (loadIntmask p k r).spc.doInt = true) := by
  dsimp only [loadIntmask]
  repeat' split
  all_goals first
    | exact ⟨rfl, id, id⟩
    | exact ⟨rfl, fun _ => rfl, id⟩
    | exact ⟨rfl, id, fun _ => rfl⟩

theorem noteTrace_spc : (noteTrace p k old (noteEndCompile p old r)).spc.brk = r.spc.brk ∧
    (noteTrace p k old (noteEndCompile p old r)).spc.int = r.spc.int ∧
    (noteTrace p k old (noteEndCompile p old r)).spc.doInt = r.spc.doInt := by
  dsimp only [noteTrace, noteEndCompile]
  split <;> split <;> exact ⟨rfl, rfl, rfl⟩

/-- The interrupt flags of a write that does not return early are those of its mask. -/
theorem makeFromSRx_spc (c : Core) (hu : srUnchanged c.regs = false) :
    let r := loadIntmask p k { c.regs with
      t1 := c.regs.sr.getLsbD 15, t0 := c.regs.sr.getLsbD 14,
      s := c.regs.sr.getLsbD 13, m := c.regs.sr.getLsbD 12 }
    (makeFromSRx p k c).regs.spc.brk = r.spc.brk ∧ (makeFromSRx p k c).regs.spc.int = r.spc.int ∧
      (makeFromSRx p k c).regs.spc.doInt = r.spc.doInt := by
  simp only [makeFromSRx, hu, Bool.false_eq_true, if_false, clearUnimplemented_eq]
  exact noteTrace_spc p k c.regs _

end Spc

/-- A write never lowers an interrupt flag, and leaves `SPCFLAG_BRK` alone. -/
theorem writeSR_spc (p : Prefs) (k : SrWrite) (v : Word) (c : Core) :
    (writeSR p k v c).regs.spc.brk = c.regs.spc.brk ∧
      (c.regs.spc.int = true → (writeSR p k v c).regs.spc.int = true) ∧
      (c.regs.spc.doInt = true → (writeSR p k v c).regs.spc.doInt = true) := by
  cases hu : srUnchanged { c.regs with sr := v }
  · obtain ⟨hb, hi, hd⟩ := makeFromSRx_spc p k { c with regs := { c.regs with sr := v } } hu
    obtain ⟨lb, li, ld⟩ := loadIntmask_spc p k { c.regs with
      sr := v, t1 := v.getLsbD 15, t0 := v.getLsbD 14, s := v.getLsbD 13, m := v.getLsbD 12 }
    exact ⟨hb.trans lb, fun h => hi.trans (li h), fun h => hd.trans (ld h)⟩
  · simp only [writeSR, makeFromSRx, hu, if_true]
    exact ⟨trivial, id, id⟩

/-! ## Reset -/

/-- The statically zeroed `struct regstruct` before the first reset. -/
def Regs.zero : Regs :=
  { d := .replicate 8 0, a := .replicate 7 0,
    sp := { a7 := 0, usp := 0, isp := 0, msp := 0 }, pc := 0, opcode := 0,
    instructionPc := 0, instructionPcUserException := 0, tracePc := 0, ir := 0, irc := 0,
    ird := 0, spc := .none, loopMode := 0, instructionCnt := 0, sr := 0, t1 := false,
    t0 := false, s := false, m := false, stopped := .no, halted := 0, exception := 0,
    intmask := 0,
    ipl := ⟨0, 0, 0, 0, 0, 0, 0, 0, false⟩,
    vbr := 0, sfc := 0, dfc := 0,
    fpu := { fp := .replicate 8 0, fpcr := 0, fpsr := 0, fpiar := 0 } }

def Core.zero : Core := { regs := .zero, flags := ⟨false, false, false, false, false⟩ }

/-- `m68k_reset2`; `ssp` and `pc` are the vectors it fetches at 0 and 4. The FPU is left to
`fpu_reset`. -/
def m68kReset2 (ssp pc : Long) (c : Core) : Core :=
  { regs := { c.regs with
      halted := 0, spc := .none,
      ipl := { c.regs.ipl with ipl0 := 0, ipl1 := 0, pin := 0, lastipl := 0 },
      s := true, sp := { c.regs.sp with a7 := ssp }, pc := pc, instructionPc := pc, m := false,
      stopped := .no,
      t1 := false, t0 := false, intmask := 7, vbr := 0, sfc := 0, dfc := 0, irc := 0xFFFF },
    flags := ⟨false, false, false, false, false⟩ }

/-- `uae_cpu_reset`: `m68k_reset2`, then the two vectors once more (`vbr` is 0 now) and a
supervisor status register with all interrupts masked. -/
def uaeCpuReset (p : Prefs) (ssp pc : Long) (c : Core) : Core :=
  let c := m68kReset2 ssp pc c
  let c := writeSR p .plain 0x2700
    { c with regs := { c.regs with sp := { c.regs.sp with a7 := ssp, isp := ssp } } }
  { c with regs := c.regs.setpc pc }

end UaeCpu
