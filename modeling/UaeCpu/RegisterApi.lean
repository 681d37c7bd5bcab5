import UaeCpu.Banking

/-!
# UaeCpu.RegisterApi

Reading and writing registers from the host: `uae_cpu_get_reg` and `uae_cpu_set_reg`, and the
Musashi pair `m68k_get_reg` and `m68k_set_reg`.

The two setters take the same registers and differ only in how they set the PC; the two getters
share these registers and add their own. So the shared part is `getReg`, `setReg` over
`CoreReg`, and each API adds its names to it.

* `setReg_reads_back`      — a register reads what was written to it.
* `setReg_frame`           — a write moves no register but the aliases of its target, and what
                             a status register write banks.
* `register_api_law`       — both for both APIs.
-/

namespace UaeCpu

/-! ## State -/

/-- `struct regstruct` with the control registers only the register APIs read. -/
structure RegFile where
  regs : Regs
  cacr : Long
  caar : Long
  pcr : Long
  tcr : Long
  itt0 : Long
  itt1 : Long
  dtt0 : Long
  dtt1 : Long
  mmusr : Long
  urp : Long
  srp : Long
  deriving DecidableEq

/-- `regs`, `regflags` and the `s_cpu_type` of the Musashi layer. -/
structure ApiState where
  file : RegFile
  flags : Flags
  cpuType : Long
  deriving DecidableEq

namespace ApiState

def core (st : ApiState) : Core := { regs := st.file.regs, flags := st.flags }

def withCore (st : ApiState) (c : Core) : ApiState :=
  { st with file := { st.file with regs := c.regs }, flags := c.flags }

def withRegs (st : ApiState) (r : Regs) : ApiState :=
  { st with file := { st.file with regs := r } }

/-- The stack pointers after `f`. -/
def mapSp (st : ApiState) (f : StackPtrs → StackPtrs) : ApiState :=
  st.withRegs { st.file.regs with sp := f st.file.regs.sp }

end ApiState

/-! ## Register names -/

/-- The registers both setters accept. -/
inductive CoreReg where
  | d (i : Fin 8) | a (i : Fin 8) | pc | sr | sp | usp | isp | msp | sfc | dfc | vbr | cacr | caar
  deriving DecidableEq, Repr

/-- `uae_reg_t`. -/
inductive UaeReg where
  | core (r : CoreReg)
  | pcr | tc | itt0 | itt1 | dtt0 | dtt1 | mmusr | urp | srp
  deriving DecidableEq, Repr

/-- `m68k_register_t`. -/
inductive M68kReg where
  | core (r : CoreReg)
  | prefAddr | prefData | ppc | ir | cpuType
  deriving DecidableEq, Repr

/-! ## Access -/

/-- `regs.regs[8 + i]`; the last one is kept with the other stack pointers. -/
def Regs.areg (r : Regs) (i : Fin 8) : Long :=
  if h : i.val < 7 then r.a.get ⟨i.val, h⟩ else r.sp.a7

def Regs.setAreg (r : Regs) (i : Fin 8) (v : Long) : Regs :=
  if h : i.val < 7 then { r with a := r.a.set i.val v h }
  else { r with sp := { r.sp with a7 := v } }

/-- The shared cases of the getters. `context` is the argument of `m68k_get_reg`; the PC and
the status register are collected from the global state whatever it is. -/
def getReg (context : Option RegFile) (r : CoreReg) (st : ApiState) : Long × ApiState :=
  let f := context.getD st.file
  match r with
  | .d i => (f.regs.d.get i, st)
  | .a i => (f.regs.areg i, st)
  | .pc => (st.file.regs.pc, st)
  | .sr =>
    let st := st.withCore (makeSR st.core)
    (((context.getD st.file).regs.sr).setWidth 32, st)
  | .sp => (f.regs.areg 7, st)
  | .usp => (if f.regs.s then f.regs.sp.usp else f.regs.areg 7, st)
  | .isp =>
    (if f.regs.s then (if f.regs.m then f.regs.sp.isp else f.regs.areg 7) else f.regs.sp.isp, st)
  | .msp => (f.regs.sp.msp, st)
  | .sfc => (f.regs.sfc, st)
  | .dfc => (f.regs.dfc, st)
  | .vbr => (f.regs.vbr, st)
  | .cacr => (f.cacr, st)
  | .caar => (f.caar, st)

/-- What `fill_prefetch` loads: the queue, the interrupt sample `ipl_fetch_now` takes with it
and the trace flag of `check_t0_trace`. -/
structure Prefetched where
  ir : Word
  irc : Word
  ird : Word
  ipl : IplState
  spc : SpcFlags

/-- `fill_prefetch`; `fetch` is what the fetches from the new PC give. -/
def fillPrefetch (p : Prefs) (fetch : Regs → Prefetched) (r : Regs) : Regs :=
  if p.cachesize ≠ 0 then r
  else if !p.cpuCompatible then r
  else
    let q := fetch r
    { r with ir := q.ir, irc := q.irc, ird := q.ird, ipl := q.ipl, spc := q.spc }

/-- The shared cases of the setters. -/
def setReg (p : Prefs) (fetch : Regs → Prefetched) (r : CoreReg) (v : Long) (st : ApiState) :
    ApiState :=
  let regs := st.file.regs
  match r with
  | .d i => st.withRegs { regs with d := regs.d.set i v (reg_lt i) }
  | .a i => st.withRegs (regs.setAreg i v)
  | .pc => st.withRegs (fillPrefetch p fetch (regs.setpc v))
  | .sr => st.withCore (writeSR p .plain (v.setWidth 16) st.core)
  | .sp => st.withRegs (regs.setAreg 7 v)
  | .usp =>
    if regs.s then st.mapSp fun sp => { sp with usp := v }
    else st.withRegs (regs.setAreg 7 v)
  | .isp =>
    if regs.s && !regs.m then st.withRegs (regs.setAreg 7 v)
    else st.mapSp fun sp => { sp with isp := v }
  | .msp =>
    if regs.s && regs.m then st.withRegs (regs.setAreg 7 v)
    else st.mapSp fun sp => { sp with msp := v }
  | .vbr => st.withRegs { regs with vbr := v }
  | .sfc => st.withRegs { regs with sfc := v }
  | .dfc => st.withRegs { regs with dfc := v }
  | .cacr => { st with file := { st.file with cacr := v } }
  | .caar => { st with file := { st.file with caar := v } }

def uaeCpuGetReg (r : UaeReg) (st : ApiState) : Long × ApiState :=
  match r with
  | .core r => getReg none r st
  | .pcr => (st.file.pcr, st)
  | .tc => (st.file.tcr, st)
  | .itt0 => (st.file.itt0, st)
  | .itt1 => (st.file.itt1, st)
  | .dtt0 => (st.file.dtt0, st)
  | .dtt1 => (st.file.dtt1, st)
  | .mmusr => (st.file.mmusr, st)
  | .urp => (st.file.urp, st)
  | .srp => (st.file.srp, st)

def uaeCpuSetReg (p : Prefs) (fetch : Regs → Prefetched) (r : UaeReg) (v : Long)
    (st : ApiState) : ApiState :=
  match r with
  | .core r => setReg p fetch r v st
  | _ => st

def m68kGetReg (context : Option RegFile) (r : M68kReg) (st : ApiState) : Long × ApiState :=
  match r with
  | .core r => getReg context r st
  | .ppc => ((context.getD st.file).regs.instructionPc, st)
  | .ir => ((context.getD st.file).regs.opcode.setWidth 32, st)
  | .cpuType => (st.cpuType, st)
  | .prefAddr | .prefData => (0, st)

def m68kSetReg (p : Prefs) (fetch : Regs → Prefetched) (r : M68kReg) (v : Long)
    (st : ApiState) : ApiState :=
  match r with
  | .core r => setReg p fetch r v st
  | _ => st

/-! ## Aliases -/

/-- The stack pointer `S` and `M` make `A7`. -/
def activeStack (r : Regs) : CoreReg :=
  if r.s then (if r.m then .msp else .isp) else .usp

/-- `r` names the register `A7` is. -/
def NamesA7 (regs : Regs) (r : CoreReg) : Prop :=
  r = .a 7 ∨ r = .sp ∨ r = activeStack regs

instance (regs : Regs) (r : CoreReg) : Decidable (NamesA7 regs r) := by
  unfold NamesA7; infer_instance

/-- Two names of one register: `A7`, `SP` and the active one of `USP`, `ISP` and `MSP`. -/
def Aliased (regs : Regs) (r r' : CoreReg) : Prop := NamesA7 regs r ∧ NamesA7 regs r'

instance (regs : Regs) (r r' : CoreReg) : Decidable (Aliased regs r r') := by
  unfold Aliased; infer_instance

/-- The value a register can hold: the status register has 16 bits, and of these only those
the model implements. -/
def holds (p : Prefs) (r : CoreReg) (v : Long) : Long :=
  match r with
  | .sr => (v.setWidth 16 &&& srImplemented p.cpuModel).setWidth 32
  | _ => v

/-- The registers a write of the status register banks: `A7`, and `MSP` when the master stack
is left or on the 68060, which has none of its own. -/
def Banked (p : Prefs) (regs : Regs) (r r' : CoreReg) : Prop :=
  r = .sr ∧ (r' = .a 7 ∨ r' = .sp ∨
    r' = .msp ∧ (activeStack regs = .msp ∨ p.cpuModel = .m68060))

instance (p : Prefs) (regs : Regs) (r r' : CoreReg) : Decidable (Banked p regs r r') := by
  unfold Banked; infer_instance

/-- The stack pointer the `S` and `M` bits of a status register value select, as it was before
the write. -/
def selectedStack (p : Prefs) (regs : Regs) (v : Word) : Long :=
  if v.getLsbD 13 then
    if v.getLsbD 12 && decide (68020 ≤ p.cpuModel.num) then logicalMsp regs else logicalIsp regs
  else logicalUsp regs

/-! ## Slots

Every register but the PC and the status register is a slot of the state; `S` and `M` say
which one. -/

inductive Slot where
  | d (i : Fin 8) | a (i : Fin 7) | a7 | usp | isp | msp | sfc | dfc | vbr | cacr | caar
  deriving DecidableEq, Repr

def ApiState.slot (st : ApiState) : Slot → Long
  | .d i => st.file.regs.d.get i
  | .a i => st.file.regs.a.get i
  | .a7 => st.file.regs.sp.a7
  | .usp => st.file.regs.sp.usp
  | .isp => st.file.regs.sp.isp
  | .msp => st.file.regs.sp.msp
  | .sfc => st.file.regs.sfc
  | .dfc => st.file.regs.dfc
  | .vbr => st.file.regs.vbr
  | .cacr => st.file.cacr
  | .caar => st.file.caar

def ApiState.setSlot (st : ApiState) (x : Slot) (v : Long) : ApiState :=
  let regs := st.file.regs
  match x with
  | .d i => st.withRegs { regs with d := regs.d.set i v (reg_lt i) }
  | .a i => st.withRegs { regs with a := regs.a.set i v i.isLt }
  | .a7 => st.mapSp fun sp => { sp with a7 := v }
  | .usp => st.mapSp fun sp => { sp with usp := v }
  | .isp => st.mapSp fun sp => { sp with isp := v }
  | .msp => st.mapSp fun sp => { sp with msp := v }
  | .sfc => st.withRegs { regs with sfc := v }
  | .dfc => st.withRegs { regs with dfc := v }
  | .vbr => st.withRegs { regs with vbr := v }
  | .cacr => { st with file := { st.file with cacr := v } }
  | .caar => { st with file := { st.file with caar := v } }

/-- The slot of an address register. -/
def aregSlot (i : Fin 8) : Slot := if h : i.val < 7 then .a ⟨i.val, h⟩ else .a7

/-- The slot a register is kept in while `S` and `M` are `s` and `m`. -/
def home (s m : Bool) : CoreReg → Option Slot
  | .d i => some (.d i)
  | .a i => some (aregSlot i)
  | .pc | .sr => none
  | .sp => some .a7
  | .usp => some (if s then .usp else .a7)
  | .isp => some (if s && !m then .a7 else .isp)
  | .msp => some (if s && m then .a7 else .msp)
  | .sfc => some .sfc
  | .dfc => some .dfc
  | .vbr => some .vbr
  | .cacr => some .cacr
  | .caar => some .caar

/-- The slot the getters read: they look for `MSP` in its bank only. -/
def readHome (s m : Bool) (r : CoreReg) : Option Slot :=
  if r = .msp then some .msp else home s m r

@[simp] theorem aregSlot_seven : aregSlot 7 = .a7 := rfl

theorem slot_aregSlot (st : ApiState) (i : Fin 8) :
    st.slot (aregSlot i) = st.file.regs.areg i := by
  unfold aregSlot Regs.areg
  by_cases h : i.val < 7
  · simp [h, ApiState.slot]
  · simp [h, ApiState.slot]

theorem setSlot_aregSlot (st : ApiState) (i : Fin 8) (v : Long) :
    st.setSlot (aregSlot i) v = st.withRegs (st.file.regs.setAreg i v) := by
  unfold aregSlot Regs.setAreg
  by_cases h : i.val < 7
  · simp [h, ApiState.setSlot]
  · simp [h, ApiState.setSlot, ApiState.mapSp]

theorem vector_get_set {n : Nat} (w : Vector Long n) (i j : Fin n) (v : Long) :
    (w.set i v).get j = if j = i then v else w.get j := by
  have hget : ∀ u : Vector Long n, u.get j = u[j.val] := fun _ => rfl
  rw [hget, hget, Vector.getElem_set]
  simp only [Fin.ext_iff, eq_comm]

theorem slot_setSlot (st : ApiState) (x y : Slot) (v : Long) :
    (st.setSlot x v).slot y = if y = x then v else st.slot y := by
  cases x with
  | d i =>
    cases y with
    | d j =>
      simp only [Slot.d.injEq]
      exact vector_get_set _ i j v
    | _ => rfl
  | a i =>
    cases y with
    | a j =>
      simp only [Slot.a.injEq]
      exact vector_get_set _ i j v
    | _ => rfl
  | _ => cases y <;> rfl

/-- A slot write leaves the PC, the decoded status register and all other registers alone. -/
theorem setSlot_keeps (st : ApiState) (x : Slot) (v : Long) :
    (st.setSlot x v).file.regs.pc = st.file.regs.pc ∧
    (st.setSlot x v).file.regs.s = st.file.regs.s ∧
    (st.setSlot x v).file.regs.m = st.file.regs.m ∧
    encodeSR (st.setSlot x v).file.regs (st.setSlot x v).flags =
      encodeSR st.file.regs st.flags := by
  cases x <;> exact ⟨rfl, rfl, rfl, rfl⟩

/-! ## Reads and writes by slot -/

section Law

variable {p : Prefs} {fetch : Regs → Prefetched} {st : ApiState} {r r' : CoreReg} {v : Long}

theorem getReg_eq_slot {x : Slot}
    (h : readHome st.file.regs.s st.file.regs.m r = some x) : (getReg none r st).1 = st.slot x := by
  cases r with
  | a i =>
    cases h
    exact (slot_aregSlot st i).symm
  | usp | isp =>
    cases h
    simp only [getReg, Option.getD_none]
    cases st.file.regs.s <;> cases st.file.regs.m <;> rfl
  | pc | sr => cases h
  | _ => cases h; rfl

theorem setReg_eq_setSlot {x : Slot} (h : home st.file.regs.s st.file.regs.m r = some x) :
    setReg p fetch r v st = st.setSlot x v := by
  cases r with
  | a i =>
    cases h
    exact (setSlot_aregSlot st i v).symm
  | usp | isp | msp =>
    cases h
    simp only [setReg]
    cases st.file.regs.s <;> cases st.file.regs.m <;> rfl
  | pc | sr => cases h
  | _ => cases h; rfl

theorem aregSlot_inj {i j : Fin 8} (h : aregSlot i = aregSlot j) : i = j := by
  revert h
  revert i j
  decide

theorem aregSlot_eq_a7 {i : Fin 8} (h : aregSlot i = .a7) : i = 7 :=
  aregSlot_inj (j := 7) h

theorem namesA7_iff : NamesA7 st.file.regs r ↔
    home st.file.regs.s st.file.regs.m r = some .a7 := by
  unfold NamesA7 activeStack
  cases r with
  | a i =>
    simp only [home, Option.some.injEq]
    constructor
    · intro h
      revert h
      cases st.file.regs.s <;> cases st.file.regs.m <;> simp +contextual
    · intro h
      exact .inl (by rw [aregSlot_eq_a7 h])
  | _ => cases st.file.regs.s <;> cases st.file.regs.m <;> simp [home]

/-- The register a slot other than that of `A7` belongs to. -/
def Slot.owner : Slot → CoreReg
  | .d i => .d i
  | .a i => .a i.castSucc
  | .a7 => .sp
  | .usp => .usp
  | .isp => .isp
  | .msp => .msp
  | .sfc => .sfc
  | .dfc => .dfc
  | .vbr => .vbr
  | .cacr => .cacr
  | .caar => .caar

theorem eq_owner_of_home {s m : Bool} {x : Slot} (h : home s m r = some x) (hx : x ≠ .a7) :
    r = x.owner := by
  cases r with
  | a i =>
    cases h
    unfold aregSlot at hx ⊢
    split
    · rfl
    · next hi => exact absurd (dif_neg hi) hx
  | usp | isp | msp =>
    simp only [home, Option.some.injEq] at h
    split at h
    · first | exact absurd h.symm hx | (subst h; rfl)
    · first | (subst h; rfl) | exact absurd h.symm hx
  | sp => exact absurd (Option.some.inj h).symm hx
  | pc | sr => cases h
  | _ => cases h; rfl

/-- Off the master stack the getters read every register where the setters write it. -/
theorem readHome_eq_home (h : r = .msp → activeStack st.file.regs ≠ .msp) :
    readHome st.file.regs.s st.file.regs.m r = home st.file.regs.s st.file.regs.m r := by
  unfold readHome
  by_cases hr : r = .msp
  · have hact := h hr
    subst hr
    revert hact
    unfold activeStack home
    cases st.file.regs.s <;> cases st.file.regs.m <;> simp
  · rw [if_neg hr]

/-- Distinct registers that are not aliases never share a slot. -/
theorem readHome_ne_home {x y : Slot} (hne : r' ≠ r) (hal : ¬ Aliased st.file.regs r r')
    (hx : home st.file.regs.s st.file.regs.m r = some x)
    (hy : readHome st.file.regs.s st.file.regs.m r' = some y) : y ≠ x := by
  rintro rfl
  unfold readHome at hy
  split at hy
  · next hm =>
    cases hy
    exact hne (hm.trans (eq_owner_of_home hx (by decide)).symm)
  · by_cases h7 : y = .a7
    · subst h7
      exact hal ⟨namesA7_iff.mpr hx, namesA7_iff.mpr hy⟩
    · exact hne ((eq_owner_of_home hy h7).trans (eq_owner_of_home hx h7).symm)

theorem fillPrefetch_eq (p : Prefs) (fetch : Regs → Prefetched) (regs : Regs) :
    ∃ ir irc ird ipl spc, fillPrefetch p fetch regs =
      { regs with ir := ir, irc := irc, ird := ird, ipl := ipl, spc := spc } := by
  unfold fillPrefetch
  split
  · exact ⟨_, _, _, _, _, rfl⟩
  · split
    · exact ⟨_, _, _, _, _, rfl⟩
    · exact ⟨_, _, _, _, _, rfl⟩

/-! ## Status register writes -/

/-- The fields a status register write can touch. -/
theorem writeSR_keeps (p : Prefs) (k : SrWrite) (w : Word) (c : Core) :
    ∃ t1 t0 s m mask ipl spc sp, (writeSR p k w c).regs =
      { c.regs with
        sr := w, t1 := t1, t0 := t0, s := s, m := m, intmask := mask, ipl := ipl, spc := spc,
        sp := sp } := by
  obtain ⟨-, he⟩ | ⟨-, i, spc, he⟩ :=
    makeFromSRx_cases p k { c with regs := { c.regs with sr := w } }
  · exact ⟨_, _, _, _, _, _, _, _, by rw [writeSR, he]⟩
  · exact ⟨_, _, _, _, _, _, _, _, by rw [writeSR, he]; rfl⟩

/-- No model loses its user or its interrupt stack pointer to a status register write. -/
theorem writeSR_usp_isp {k : SrWrite} {w : Word} {c : Core} (hwf : SrWf p c.regs) :
    logicalUsp (writeSR p k w c).regs = logicalUsp c.regs ∧
      logicalIsp (writeSR p k w c).regs = logicalIsp c.regs := by
  obtain ⟨-, he⟩ | ⟨-, i, spc, he⟩ :=
    makeFromSRx_cases p k { c with regs := { c.regs with sr := w } }
  · simp only [writeSR, he]
    exact ⟨rfl, rfl⟩
  · simp only [writeSR, he, logicalUsp, logicalIsp, decodeSR, bankStacks]
    by_cases h20 : 68020 ≤ p.cpuModel.num
    · simp only [h20, if_true, decide_true, Bool.and_true]
      by_cases h60 : 68060 ≤ p.cpuModel.num <;> simp only [h60, if_true, if_false] <;>
        cases c.regs.s <;> cases c.regs.m <;> cases w.getLsbD 13 <;> cases w.getLsbD 12 <;> simp
    · have hm0 : c.regs.m = false := hwf.1 (by omega)
      simp only [h20, if_false, decide_false, Bool.and_false, hm0]
      cases c.regs.s <;> cases w.getLsbD 13 <;> simp

theorem writeSR_msp {k : SrWrite} {w : Word} {c : Core} (h60 : p.cpuModel ≠ .m68060)
    (hact : activeStack c.regs ≠ .msp) : (writeSR p k w c).regs.sp.msp = c.regs.sp.msp := by
  have hn60 : ¬ 68060 ≤ p.cpuModel.num := by
    revert h60; cases p.cpuModel <;> decide
  obtain ⟨-, he⟩ | ⟨-, i, spc, he⟩ :=
    makeFromSRx_cases p k { c with regs := { c.regs with sr := w } }
  · simp only [writeSR, he]
  · revert hact
    simp only [writeSR, he, decodeSR, bankStacks, activeStack, hn60, if_false]
    cases c.regs.s <;> cases c.regs.m <;> cases w.getLsbD 13 <;> cases w.getLsbD 12 <;>
      by_cases h20 : 68020 ≤ p.cpuModel.num <;> simp [h20]

/-- `A7` is the stack pointer that `S` and `M` select. -/
theorem a7_eq_logical (regs : Regs) : regs.sp.a7 =
    if regs.s then (if regs.m then logicalMsp regs else logicalIsp regs) else logicalUsp regs := by
  unfold logicalUsp logicalIsp logicalMsp
  cases regs.s <;> cases regs.m <;> rfl

theorem writeSR_a7 {k : SrWrite} {w : Word} {c : Core} (h60 : p.cpuModel ≠ .m68060)
    (hwf : SrWf p c.regs) : (writeSR p k w c).regs.sp.a7 = selectedStack p c.regs w := by
  obtain ⟨-, -, hs, hm, -⟩ := writeSR_decodes (k := k) (v := w) hwf
  obtain ⟨hu, hi, hms⟩ := writeSR_logical (k := k) (v := w) h60 hwf
  rw [a7_eq_logical, hs, hm, hu, hi, hms]
  rfl

/-! ## The law -/

theorem getReg_sr : (getReg none .sr st).1 = (encodeSR st.file.regs st.flags).setWidth 32 := rfl

theorem getReg_usp : (getReg none .usp st).1 = logicalUsp st.file.regs := by
  unfold getReg logicalUsp
  rfl

theorem getReg_isp : (getReg none .isp st).1 = logicalIsp st.file.regs := by
  simp only [getReg, Option.getD_none, logicalIsp]
  cases st.file.regs.s <;> cases st.file.regs.m <;> rfl

/-- A register reads what was written to it. -/
theorem setReg_reads_back (hsr : r = .sr → SrWf p st.file.regs)
    (hmsp : r = .msp → activeStack st.file.regs ≠ .msp) :
    (getReg none r (setReg p fetch r v st)).1 = holds p r v := by
  cases hx : home st.file.regs.s st.file.regs.m r with
  | none =>
    cases r with
    | pc =>
      obtain ⟨ir, irc, ird, ipl, spc, he⟩ :=
        fillPrefetch_eq p fetch (st.file.regs.setpc v)
      simp only [setReg, he]
      rfl
    | sr =>
      have hrb := writeSR_readback (k := .plain) (v := v.setWidth 16) (c := st.core) (hsr rfl)
      rw [getReg_sr]
      exact congrArg (BitVec.setWidth 32) hrb
    | _ => cases hx
  | some x =>
    rw [setReg_eq_setSlot hx]
    obtain ⟨-, hs, hm, -⟩ := setSlot_keeps st x v
    have hread : (getReg none r (st.setSlot x v)).1 = (st.setSlot x v).slot x := by
      apply getReg_eq_slot
      rw [hs, hm, readHome_eq_home hmsp, hx]
    rw [hread, slot_setSlot, if_pos rfl]
    cases r with
    | sr => cases hx
    | _ => rfl

/-- A write of a slot is seen by no register but the aliases of the one written. -/
theorem setSlot_frame {x : Slot} (hne : r' ≠ r) (hal : ¬ Aliased st.file.regs r r')
    (hx : home st.file.regs.s st.file.regs.m r = some x) :
    (getReg none r' (st.setSlot x v)).1 = (getReg none r' st).1 := by
  obtain ⟨hpc, hs, hm, hsr⟩ := setSlot_keeps st x v
  cases hy : readHome st.file.regs.s st.file.regs.m r' with
  | none =>
    cases r' with
    | pc => exact hpc
    | sr => exact congrArg (BitVec.setWidth 32) hsr
    | _ => cases hy
  | some y =>
    have hread : (getReg none r' (st.setSlot x v)).1 = (st.setSlot x v).slot y := by
      apply getReg_eq_slot
      rw [hs, hm, hy]
    rw [hread, slot_setSlot, if_neg (readHome_ne_home hne hal hx hy), getReg_eq_slot hy]

/-- A status register write changes what it banks and nothing else. -/
theorem setSR_frame (hwf : SrWf p st.file.regs) (hne : r' ≠ .sr)
    (hb : ¬ Banked p st.file.regs .sr r') :
    (getReg none r' (setReg p fetch .sr v st)).1 = (getReg none r' st).1 := by
  obtain ⟨hu, hi⟩ := writeSR_usp_isp (k := .plain) (w := v.setWidth 16) (c := st.core) hwf
  obtain ⟨t1, t0, s, m, mask, ipl, spc, sp, he⟩ :=
    writeSR_keeps p .plain (v.setWidth 16) st.core
  cases r' with
  | sr => exact absurd rfl hne
  | usp => rw [getReg_usp, getReg_usp]; exact hu
  | isp => rw [getReg_isp, getReg_isp]; exact hi
  | sp => exact absurd ⟨rfl, .inr (.inl rfl)⟩ hb
  | msp =>
    refine writeSR_msp (k := .plain) (w := v.setWidth 16) (c := st.core) ?_ ?_
    · intro h; exact hb ⟨rfl, .inr (.inr ⟨rfl, .inr h⟩)⟩
    · intro h; exact hb ⟨rfl, .inr (.inr ⟨rfl, .inl h⟩)⟩
  | a i =>
    have hi7 : i.val < 7 := by
      have : i ≠ 7 := by
        rintro rfl
        exact hb ⟨rfl, .inl rfl⟩
      omega
    simp only [getReg, setReg, ApiState.withCore, he, Option.getD_none, Regs.areg, hi7, dif_pos]
    rfl
  | _ =>
    simp only [getReg, setReg, ApiState.withCore, he]
    rfl

/-- Everything a write of a shared register leaves alone. -/
theorem setReg_frame (hsr : r = .sr → SrWf p st.file.regs) (hne : r' ≠ r)
    (hal : ¬ Aliased st.file.regs r r') (hb : ¬ Banked p st.file.regs r r') :
    (getReg none r' (setReg p fetch r v st)).1 = (getReg none r' st).1 := by
  cases hx : home st.file.regs.s st.file.regs.m r with
  | none =>
    cases r with
    | pc =>
      obtain ⟨ir, irc, ird, ipl, spc, he⟩ :=
        fillPrefetch_eq p fetch (st.file.regs.setpc v)
      cases r' with
      | pc => exact absurd rfl hne
      | _ => simp only [setReg, he]; rfl
    | sr => exact setSR_frame (hsr rfl) hne hb
    | _ => cases hx
  | some x =>
    rw [setReg_eq_setSlot hx]
    exact setSlot_frame hne hal hx

/-- The registers only the getters know are left alone, but for the address of the current
instruction: a write of the PC sets it too. -/
theorem setReg_others (p : Prefs) (fetch : Regs → Prefetched) (r : CoreReg) (v : Long)
    (st : ApiState) :
    (setReg p fetch r v st).file = { st.file with
      regs := (setReg p fetch r v st).file.regs
      cacr := (setReg p fetch r v st).file.cacr
      caar := (setReg p fetch r v st).file.caar } ∧
    (setReg p fetch r v st).cpuType = st.cpuType ∧
    (setReg p fetch r v st).file.regs.opcode = st.file.regs.opcode ∧
    (setReg p fetch r v st).file.regs.instructionPc =
      if r = .pc then v else st.file.regs.instructionPc := by
  cases hx : home st.file.regs.s st.file.regs.m r with
  | none =>
    cases r with
    | pc =>
      obtain ⟨ir, irc, ird, ipl, spc, he⟩ :=
        fillPrefetch_eq p fetch (st.file.regs.setpc v)
      simp only [setReg, he]
      exact ⟨rfl, rfl, rfl, rfl⟩
    | sr =>
      obtain ⟨t1, t0, s, m, mask, ipl, spc, sp, he⟩ :=
        writeSR_keeps p .plain (v.setWidth 16) st.core
      simp only [setReg, ApiState.withCore, he]
      exact ⟨trivial, trivial, rfl, rfl⟩
    | _ => cases hx
  | some x =>
    have hpc : r ≠ .pc := by
      rintro rfl
      cases hx
    rw [setReg_eq_setSlot hx, if_neg hpc]
    cases x <;> exact ⟨rfl, rfl, rfl, rfl⟩

theorem uaeCpuSetReg_frame {q : UaeReg} (hsr : r = .sr → SrWf p st.file.regs) (hne : q ≠ .core r)
    (hsep : ∀ r', q = .core r' →
      ¬ Aliased st.file.regs r r' ∧ ¬ Banked p st.file.regs r r') :
    (uaeCpuGetReg q (uaeCpuSetReg p fetch (.core r) v st)).1 = (uaeCpuGetReg q st).1 := by
  obtain ⟨hfile, -⟩ := setReg_others p fetch r v st
  cases q with
  | core r' =>
    have hr : r' ≠ r := fun h => hne (by rw [h])
    exact setReg_frame hsr hr (hsep r' rfl).1 (hsep r' rfl).2
  | _ => simp only [uaeCpuGetReg, uaeCpuSetReg]; rw [hfile]

theorem m68kSetReg_frame {q : M68kReg} (hsr : r = .sr → SrWf p st.file.regs) (hne : q ≠ .core r)
    (hsep : ∀ r', q = .core r' →
      ¬ Aliased st.file.regs r r' ∧ ¬ Banked p st.file.regs r r')
    (hppc : ¬ (r = .pc ∧ q = .ppc)) :
    (m68kGetReg none q (m68kSetReg p fetch (.core r) v st)).1 = (m68kGetReg none q st).1 := by
  obtain ⟨-, htype, hop, hipc⟩ := setReg_others p fetch r v st
  cases q with
  | core r' =>
    have hr : r' ≠ r := fun h => hne (by rw [h])
    exact setReg_frame hsr hr (hsep r' rfl).1 (hsep r' rfl).2
  | ppc =>
    have hpc : r ≠ .pc := fun h => hppc ⟨h, rfl⟩
    rw [if_neg hpc] at hipc
    exact hipc
  | ir => exact congrArg (BitVec.setWidth 32) hop
  | cpuType => exact htype
  | prefAddr | prefData => rfl

end Law

/-- The register law of both APIs. A register reads what was written to it (the status register:
the bits the model implements of it), and every other register that is not an alias of it reads
as before. A status register write banks the stack pointers, so `A7` and `SP` then read the one
the new `S` and `M` select, and a write of the PC makes it the current instruction. Nothing is
said of `MSP` while it is the active stack pointer. -/
theorem register_api_law (p : Prefs) (fetch : Regs → Prefetched) (st : ApiState) (r : CoreReg)
    (v : Long) (hst : r = .sr → SrWf p st.file.regs) :
    ((r = .msp → activeStack st.file.regs ≠ .msp) →
      (uaeCpuGetReg (.core r) (uaeCpuSetReg p fetch (.core r) v st)).1 = holds p r v ∧
      (m68kGetReg none (.core r) (m68kSetReg p fetch (.core r) v st)).1 = holds p r v) ∧
    (∀ q : UaeReg, q ≠ .core r →
      (∀ r', q = .core r' → ¬ Aliased st.file.regs r r' ∧ ¬ Banked p st.file.regs r r') →
      (uaeCpuGetReg q (uaeCpuSetReg p fetch (.core r) v st)).1 = (uaeCpuGetReg q st).1) ∧
    (∀ q : M68kReg, q ≠ .core r →
      (∀ r', q = .core r' → ¬ Aliased st.file.regs r r' ∧ ¬ Banked p st.file.regs r r') →
      ¬ (r = .pc ∧ q = .ppc) →
      (m68kGetReg none q (m68kSetReg p fetch (.core r) v st)).1 = (m68kGetReg none q st).1) ∧
    (r = .sr → p.cpuModel ≠ .m68060 → ∀ r', r' = .a 7 ∨ r' = .sp →
      (uaeCpuGetReg (.core r') (uaeCpuSetReg p fetch (.core r) v st)).1 =
        selectedStack p st.file.regs (v.setWidth 16) ∧
      (m68kGetReg none (.core r') (m68kSetReg p fetch (.core r) v st)).1 =
        selectedStack p st.file.regs (v.setWidth 16)) ∧
    (r = .pc → (m68kGetReg none .ppc (m68kSetReg p fetch (.core r) v st)).1 = v) := by
  refine ⟨?_, ?_, ?_, ?_, ?_⟩
  · intro hmsp
    exact ⟨setReg_reads_back hst hmsp, setReg_reads_back hst hmsp⟩
  · intro q hne hsep
    exact uaeCpuSetReg_frame hst hne hsep
  · intro q hne hsep hppc
    exact m68kSetReg_frame hst hne hsep hppc
  · rintro rfl h60 r' (rfl | rfl)
    · exact ⟨writeSR_a7 h60 (hst rfl), writeSR_a7 h60 (hst rfl)⟩
    · exact ⟨writeSR_a7 h60 (hst rfl), writeSR_a7 h60 (hst rfl)⟩
  · rintro rfl
    exact (setReg_others p fetch .pc v st).2.2.2

/-- The state after a reset with the control registers cleared. -/
def ApiState.reset (p : Prefs) (ssp pc : Long) : ApiState :=
  let c := uaeCpuReset p ssp pc Core.zero
  { file := { regs := c.regs, cacr := 0, caar := 0, pcr := 0, tcr := 0, itt0 := 0, itt1 := 0,
              dtt0 := 0, dtt1 := 0, mmusr := 0, urp := 0, srp := 0 },
    flags := c.flags, cpuType := 0 }

/-- A queue with nothing in it. -/
def Prefetched.idle (r : Regs) : Prefetched :=
  { ir := r.ir, irc := r.irc, ird := r.ird, ipl := r.ipl, spc := r.spc }

/-- Reads of one register before and after a write of another, through both APIs. -/
def readsBeforeAfter (p : Prefs) (st : ApiState) (r : CoreReg) (v : Long) (r' : CoreReg) :
    Long × Long × Long × Long :=
  ((uaeCpuGetReg (.core r') st).1,
    (uaeCpuGetReg (.core r') (uaeCpuSetReg p .idle (.core r) v st)).1,
    (m68kGetReg none (.core r') st).1,
    (m68kGetReg none (.core r') (m68kSetReg p .idle (.core r) v st)).1)

/-- Registers that are no aliases and yet move together: `A7` when the status register leaves
supervisor mode, `MSP` when it is written on the 68060, and the address of the current
instruction when the PC is written. Two writes that are not read back: `MSP` on the master
stack, and a status register whose unimplemented bits were set before. -/
theorem register_api_moves :
    -- a 68000 after a reset with its stack at 0x1000 goes to user mode
    ¬ Aliased (ApiState.reset (.plain .m68000) 0x1000 0x400).file.regs .sr (.a 7) ∧
    readsBeforeAfter (.plain .m68000) (.reset (.plain .m68000) 0x1000 0x400) .sr 0 (.a 7) =
      (0x1000, 0, 0x1000, 0) ∧
    -- a 68060 copies the interrupt stack pointer
    ¬ Aliased (ApiState.reset (.plain .m68060) 0x1000 0x400).file.regs .sr .msp ∧
    readsBeforeAfter (.plain .m68060) (.reset (.plain .m68060) 0x1000 0x400) .sr 0 .msp =
      (0, 0x1000, 0, 0x1000) ∧
    (m68kGetReg none .ppc (.reset (.plain .m68000) 0x1000 0x400)).1 = 0x400 ∧
    (m68kGetReg none .ppc (m68kSetReg (.plain .m68000) .idle (.core .pc) 0x500
      (.reset (.plain .m68000) 0x1000 0x400))).1 = 0x500 ∧
    -- `S` and `M` set on a 68030: `MSP` is written to `A7` and read from its bank
    readsBeforeAfter (.plain .m68030) (setReg (.plain .m68030) .idle .sr 0x3700
      (.reset (.plain .m68030) 0x1000 0x400)) .msp 0x2000 .msp = (0, 0, 0, 0) ∧
    -- the same state taken over by a 68000, which has no `M`
    readsBeforeAfter (.plain .m68000) (setReg (.plain .m68030) .idle .sr 0x3700
      (.reset (.plain .m68030) 0x1000 0x400)) .sr 0x3700 .sr =
      (0x3700, 0x3700, 0x3700, 0x3700) ∧ holds (.plain .m68000) .sr 0x3700 = 0x2700 := by
  decide

theorem register_api_law_68030 :
    let p := Prefs.plain .m68030
    let st := uaeCpuSetReg p .idle (.core .sr) 0x3700 (.reset p 0x1000 0x400)
    SrWf p st.file.regs ∧
      (uaeCpuGetReg (.core .sr) (uaeCpuSetReg p .idle (.core .sr) 0xFFFF0815 st)).1 = 0x15 ∧
      (uaeCpuGetReg (.core .isp) (uaeCpuSetReg p .idle (.core .sr) 0xFFFF0815 st)).1 = 0x1000 := by
  intro p st
  have hwf : SrWf p st.file.regs := by decide
  obtain ⟨hback, hframe, -⟩ :=
    register_api_law p .idle st .sr 0xFFFF0815 (fun _ => hwf)
  refine ⟨hwf, (hback (fun h => nomatch h)).1.trans (by decide), ?_⟩
  rw [hframe (.core .isp) (fun h => nomatch h) ?_]
  · decide
  · rintro r' ⟨⟩
    decide

end UaeCpu
