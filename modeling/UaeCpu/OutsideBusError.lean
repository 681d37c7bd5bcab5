import UaeCpu.Lib.Blind
import UaeCpu.Restart030
import UaeCpu.Termination

/-!
# UaeCpu.OutsideBusError

`uae_cpu_raise_bus_error`, from inside an execute call and from outside of one.

* `hardwareException2`      — the three ways an error goes: a pending flag on a prefetching 68000 or
  68010, else a record of the fault and a `THROW`, which is nothing where no `TRY` is open.
* `HostCall`, `session`     — the calls a host makes one after the other.
* `Apart`                   — two states that differ in the record of the last fault at most.
* `raise_bus_error_effects` — a session runs the same with and without the calls made outside, where the
  configuration keeps nothing of them.
* `raise_outside_taken`     — what comes of one where it does.
-/

namespace UaeCpu.BusError

open Fault FaultM

variable {μ α β : Type}

/-! ## The call -/

/-- The static variables in which an instruction says what kind of access it makes. `ismoves` is
`ismoves_nommu`, `ismoves` or `ismoves030`, `movem` is `mmu040_movem` with its address, and
`extension` says that `mmu060_state` is not zero. -/
structure AccessStatics where
  ismoves : Bool
  rmwCycle : Bool
  lockedRmwCycle : Bool
  movem : Option Long
  extension : Bool
  fixup0 : Restart.MmuFixup
  fixup1 : Restart.MmuFixup

/-- What an instruction that is through leaves. -/
def AccessStatics.rest : AccessStatics where
  ismoves := false
  rmwCycle := false
  lockedRmwCycle := false
  movem := none
  extension := false
  fixup0 := ⟨-1, 0⟩
  fixup1 := ⟨-1, 0⟩

/-- The function code of a data access. -/
def accessFc (x : AccessStatics) (isWrite : Bool) (r : Regs) : Long :=
  if x.ismoves then if isWrite then r.dfc else r.sfc else (if r.s then 4 else 0) ||| 1

/-- `exception2_setup`, as `hardware_exception2` calls it. -/
def recordNoMmu (x : AccessStatics) (addr : Long) (isWrite : Bool) (sz : Int) (c : Cpu μ) : Cpu μ :=
  (exception2Setup addr isWrite sz c).mapLatch fun l => { l with last := { l.last with
    fc := (accessFc x isWrite c.regs).setWidth 16 } }

/-- `mmu_hardware_bus_error` up to its `THROW`, on the 68040. -/
def record040 (x : AccessStatics) (addr : Long) (isWrite : Bool) (sz : Int) (c : Cpu μ) : Cpu μ :=
  let fc := accessFc x isWrite c.regs
  -- MOVES goes to the alternate space, or reads a program space as data
  let alt := x.ismoves ∧ (fc &&& 3 = 0 ∨ fc &&& 3 = 3)
  let fc := if x.ismoves ∧ ¬alt ∧ fc &&& 2 ≠ 0 then (fc &&& 4) ||| 1 else fc
  let ssw : Word := (if alt then 0x0010 else 0) ||| (fc.setWidth 16 &&& 0x0007) |||
    (if sz = 0 then 0x0020 else if sz = 1 then 0x0040 else 0)
  let wb3 : Byte := if isWrite then 0x80 ||| (ssw.setWidth 8 &&& 0x7F) else 0
  let ssw := ssw ||| if isWrite then 0 else 0x0100
  let ssw := ssw ||| if x.movem.isSome then 0x1000 else 0
  let ssw := if x.lockedRmwCycle then (ssw ||| 0x0200) &&& ~~~0x0100 else ssw
  c.mapLatch fun l => { l with mmu := { l.mmu with
    wb3Status := wb3, wb3Data := 0, wb2Status := 0, ssw := ssw
    effectiveAddr := x.movem.getD l.mmu.effectiveAddr, faultAddr := addr } }

/-- The same, on the 68060. -/
def record060 (x : AccessStatics) (addr : Long) (isWrite : Bool) (sz : Int) (c : Cpu μ) : Cpu μ :=
  let fc := accessFc x isWrite c.regs
  let fslw : Long := (if isWrite then 0x00800000 else 0x01000000) ||| (fc <<< 16) |||
    (if sz = 0 then 0x00200000 else if sz = 1 then 0x00400000 else 0)
  let program := fc &&& 3 = 2
  let fslw := fslw ||| if program then 0x00008000 ||| (if x.extension then 0x08000000 else 0) else 0
  let fslw := fslw ||| if x.rmwCycle then 0x01800000 else 0
  let fslw := fslw ||| if x.lockedRmwCycle then 0x02000000 else 0
  c.mapLatch fun l => { l with mmu := { l.mmu with
    fslw := fslw, faultAddr := if program then c.regs.instructionPc else addr } }

/-- `mmu030fixupmod`, the register part. -/
def fixupMod (data : Byte) (c : Cpu μ) : Cpu μ :=
  if data = 0 then c
  else c.mapRegs fun r =>
    let reg := (data.setWidth 3).toFin
    r.setAreg reg (r.areg reg + Restart.fixupAdj data false)

/-- The special status word of `mmu030_page_fault`. -/
def ssw030 (x : AccessStatics) (isWrite : Bool) (sz : Int) (r : Regs) : Word :=
  let fc := accessFc x isWrite r
  let flags : Word := (if sz = 0 then 0x0010 else if sz = 1 then 0x0020 else 0) |||
    if isWrite then 0 else 0x0040
  (if fc.getLsbD 0 then 0x0300 ||| flags else 0x5000 ||| 0x0020) |||
    (if isWrite then 0 else 0x0040) ||| fc.setWidth 16 ||| if x.lockedRmwCycle then 0x0080 else 0

/-- `mmu030_hardware_bus_error` up to its `THROW`. -/
def record030 (p : Prefs) (x : AccessStatics) (addr : Long) (isWrite : Bool) (sz : Int) (c : Cpu μ) :
    Cpu μ :=
  let data := (accessFc x isWrite c.regs).getLsbD 0
  let ssw := ssw030 x isWrite sz c.regs
  let out := if isWrite then 0 else c.latch.log.dataBufferOut
  let fix := (data ∧ c.latch.log.state1 &&& 0x0100 = 0) ∨ (!data ∧ p.cpuCompatible)
  let wb2 := if fix then Restart.mmu030fixupreg x.fixup0 else 0
  let wb3 := if fix then Restart.mmu030fixupreg x.fixup1 else 0
  (fixupMod wb3 (fixupMod wb2 c)).mapLatch fun l => { l with
    mmu := { l.mmu with
      ssw := ssw, faultAddr := addr, wb2Status := wb2, wb3Status := wb3, wb3Data := out
      wb2Address := l.log.state1.setWidth 32 }
    log := { l.log with dataBufferOut := out, stagebAddress := addr } }

/-- What a bus error writes down before it is thrown. -/
def recordBusError (p : Prefs) (x : AccessStatics) (addr : Long) (isWrite : Bool) (sz : Int)
    (c : Cpu μ) : Cpu μ :=
  if p.mmuModel then
    if p.cpuModel = .m68030 then record030 p x addr isWrite sz c
    else if p.cpuModel = .m68040 then record040 x addr isWrite sz c
    else record060 x addr isWrite sz c
  else recordNoMmu x addr isWrite sz c

/-- `THROW`: nothing where no `TRY` is open, that is outside the execute calls. -/
def throwIfCaught (code : Int) : FaultM (Cpu μ) Unit := do
  let depth ← reads (·.executeDepth)
  if depth ≠ 0 then throwCode code

/-- The configurations whose opcode handlers look for a pending bus error themselves. -/
def flagsBusErrors (p : Prefs) : Bool := decide (p.cpuModel.num ≤ 68010) && p.cpuCompatible

/-- `hardware_exception2`. -/
def hardwareException2 (p : Prefs) (x : AccessStatics) (addr : Long) (isWrite : Bool) (sz : Int) :
    FaultM (Cpu μ) Unit :=
  if flagsBusErrors p then
    update fun c => c.mapLatch fun l => { l with hardwareBusError := true }
  else do
    update (recordBusError p x addr isWrite sz)
    throwIfCaught 2

/-- `sz_byte`, `sz_word` or `sz_long` for a width in bytes. -/
def sizeCode (size : Int) : Int := if 4 ≤ size then 2 else if size = 2 then 1 else 0

/-- `uae_cpu_raise_bus_error`. `recovering` is `g_jit_in_fault_recovery`. -/
def uaeCpuRaiseBusError (p : Prefs) (x : AccessStatics) (recovering : Bool) (addr : Long)
    (isWrite : Bool) (size : Int) : FaultM (Cpu μ) Unit :=
  if recovering then pure () else hardwareException2 p x addr isWrite (sizeCode size)

/-! ## Sessions -/

/-- What a host calls from outside. `api` stands for every other call. -/
inductive HostCall (μ : Type) where
  | run (cycles : Int)
  | step
  | raise (addr : Long) (isWrite : Bool) (size : Int)
  | api (m : FaultM (Cpu μ) Unit)

def HostCall.isRaise : HostCall μ → Bool
  | .raise .. => true
  | _ => false

/-- The calls one after the other, and what the execute calls return. -/
def session (h : Host μ) (fuel : Nat) : List (HostCall μ) → FaultM (Cpu μ) (List Int)
  | [] => pure []
  | .run cycles :: cs => do
    let n ← uaeHostRun h fuel cycles
    let ns ← session h fuel cs
    return n :: ns
  | .step :: cs => do
    let n ← uaeHostStep h fuel
    let ns ← session h fuel cs
    return n :: ns
  | .raise addr isWrite size :: cs => do
    uaeCpuRaiseBusError h.prefs .rest false addr isWrite size
    session h fuel cs
  | .api m :: cs => do
    m
    session h fuel cs

/-! ## States apart -/

def withRecord (l : LastFault) (m : MmuLatch) (c : Cpu μ) : Cpu μ :=
  { c with latch := { c.latch with last := l, mmu := m } }

/-- The MMU latches a bus error does not write stay: other ones on the 68040 and on the 68060. -/
structure MmuKept (p : Prefs) (m m' : MmuLatch) : Prop where
  effectiveAddr : m'.effectiveAddr = m.effectiveAddr
  wb2Address : m'.wb2Address = m.wb2Address
  move16 : m'.move16 = m.move16
  fslw : p.cpuModel = .m68040 → m'.fslw = m.fslw
  ssw : p.cpuModel ≠ .m68040 → m'.ssw = m.ssw
  wb2Status : p.cpuModel ≠ .m68040 → m'.wb2Status = m.wb2Status
  wb3Data : p.cpuModel ≠ .m68040 → m'.wb3Data = m.wb3Data
  wb3Status : p.cpuModel ≠ .m68040 → m'.wb3Status = m.wb3Status

namespace MmuKept

variable {p : Prefs} {m m' m₂ : MmuLatch}

theorem refl (p : Prefs) (m : MmuLatch) : MmuKept p m m :=
  ⟨rfl, rfl, rfl, fun _ => rfl, fun _ => rfl, fun _ => rfl, fun _ => rfl, fun _ => rfl⟩

theorem symm (h : MmuKept p m m') : MmuKept p m' m where
  effectiveAddr := h.effectiveAddr.symm
  wb2Address := h.wb2Address.symm
  move16 := h.move16.symm
  fslw hp := (h.fslw hp).symm
  ssw hp := (h.ssw hp).symm
  wb2Status hp := (h.wb2Status hp).symm
  wb3Data hp := (h.wb3Data hp).symm
  wb3Status hp := (h.wb3Status hp).symm

theorem trans (h : MmuKept p m m') (h' : MmuKept p m' m₂) : MmuKept p m m₂ where
  effectiveAddr := h'.effectiveAddr.trans h.effectiveAddr
  wb2Address := h'.wb2Address.trans h.wb2Address
  move16 := h'.move16.trans h.move16
  fslw hp := (h'.fslw hp).trans (h.fslw hp)
  ssw hp := (h'.ssw hp).trans (h.ssw hp)
  wb2Status hp := (h'.wb2Status hp).trans (h.wb2Status hp)
  wb3Data hp := (h'.wb3Data hp).trans (h.wb3Data hp)
  wb3Status hp := (h'.wb3Status hp).trans (h.wb3Status hp)

end MmuKept

/-- Two states inside `d` execute calls that differ in the record of the last fault at most, in the
part the configuration writes. None of it when they are `tight`. -/
structure Apart (p : Prefs) (d : Nat) (tight : Prop) (s t : Cpu μ) : Prop where
  same : t = withRecord t.latch.last t.latch.mmu s
  last : p.mmuModel = true ∨ tight → t.latch.last = s.latch.last
  sr : t.latch.last.sr = s.latch.last.sr
  mmu : p.mmuModel = false ∨ tight → t.latch.mmu = s.latch.mmu
  kept : MmuKept p s.latch.mmu t.latch.mmu
  depth : s.executeDepth = d
  clear : s.latch.hardwareBusError = false

/-- What such states share, seen from outside. -/
structure SameMachine (s t : Cpu μ) : Prop where
  core : t.toCore = s.toCore
  pending : t.pending = s.pending
  clock : t.clock = s.clock
  world : t.world = s.world

namespace Apart

variable {p : Prefs} {d : Nat} {tight : Prop} {s t u : Cpu μ}

theorem refl (hd : s.executeDepth = d) (hc : s.latch.hardwareBusError = false) : Apart p d tight s s where
  same := rfl
  last _ := rfl
  sr := rfl
  mmu _ := rfl
  kept := .refl ..
  depth := hd
  clear := hc

theorem eq (h : Apart p d True s t) : t = s := by
  rw [h.same, h.last (.inr trivial), h.mmu (.inr trivial)]
  rfl

theorem loosen {tight' : Prop} (h : Apart p d tight s t) (ht : tight' → tight) : Apart p d tight' s t where
  same := h.same
  last ho := h.last (ho.imp_right ht)
  sr := h.sr
  mmu ho := h.mmu (ho.imp_right ht)
  kept := h.kept
  depth := h.depth
  clear := h.clear

theorem depth' (h : Apart p d tight s t) : t.executeDepth = d := by
  rw [h.same]
  exact h.depth

theorem clear' (h : Apart p d tight s t) : t.latch.hardwareBusError = false := by
  rw [h.same]
  exact h.clear

theorem symm (h : Apart p d tight s t) : Apart p d tight t s where
  same := by
    rw [h.same]
    rfl
  last ho := (h.last ho).symm
  sr := h.sr.symm
  mmu ho := (h.mmu ho).symm
  kept := h.kept.symm
  depth := h.depth'
  clear := h.clear'

theorem trans (h : Apart p d tight s t) (h' : Apart p d tight t u) : Apart p d tight s u where
  same := by
    rw [h'.same, h.same]
    rfl
  last ho := (h'.last ho).trans (h.last ho)
  sr := h'.sr.trans h.sr
  mmu ho := (h'.mmu ho).trans (h.mmu ho)
  kept := h.kept.trans h'.kept
  depth := h.depth
  clear := h.clear

theorem sameMachine (h : Apart p d tight s t) : SameMachine s t := by
  have hsame := h.same
  constructor <;> rw [hsame] <;> rfl

end Apart

/-- A change that neither looks at the record of the last fault nor at what goes with it. -/
structure Passive (g : Cpu μ → Cpu μ) : Prop where
  comm : ∀ c l m, g (withRecord l m c) = withRecord l m (g c)
  last : ∀ c, (g c).latch.last = c.latch.last
  mmu : ∀ c, (g c).latch.mmu = c.latch.mmu
  flag : ∀ c, (g c).latch.hardwareBusError = c.latch.hardwareBusError
  depth : ∀ c, (g c).executeDepth = c.executeDepth

namespace Passive

theorem apart {g : Cpu μ → Cpu μ} (hg : Passive g) {p : Prefs} {d : Nat} {tight : Prop} {s t : Cpu μ}
    (h : Apart p d tight s t) : Apart p d tight (g s) (g t) where
  same := by
    rw [hg.last, hg.mmu]
    conv_lhs => rw [h.same]
    exact hg.comm ..
  last ho := by
    rw [hg.last, hg.last]
    exact h.last ho
  sr := by
    rw [hg.last, hg.last]
    exact h.sr
  mmu ho := by
    rw [hg.mmu, hg.mmu]
    exact h.mmu ho
  kept := by
    rw [hg.mmu, hg.mmu]
    exact h.kept
  depth := (hg.depth s).trans h.depth
  clear := (hg.flag s).trans h.clear

theorem mapRegs (f : Regs → Regs) : Passive (μ := μ) (Cpu.mapRegs f) :=
  ⟨fun _ _ _ => rfl, fun _ => rfl, fun _ => rfl, fun _ => rfl, fun _ => rfl⟩

theorem mapSpc (f : SpcFlags → SpcFlags) : Passive (μ := μ) (Cpu.mapSpc f) :=
  ⟨fun _ _ _ => rfl, fun _ => rfl, fun _ => rfl, fun _ => rfl, fun _ => rfl⟩

theorem makeSR : Passive (μ := μ) Cpu.makeSR := ⟨fun _ _ _ => rfl, fun _ => rfl, fun _ => rfl, fun _ => rfl, fun _ => rfl⟩

theorem setA7 (f : Cpu μ → Long) (hf : ∀ c l m, f (withRecord l m c) = f c) :
    Passive fun c => Cpu.setA7 (f c) c :=
  ⟨fun c l m => by rw [hf]; rfl, fun _ => rfl, fun _ => rfl, fun _ => rfl, fun _ => rfl⟩

theorem doCycles (n : Int) : Passive (μ := μ) (Cpu.doCycles n) :=
  ⟨fun _ _ _ => rfl, fun _ => rfl, fun _ => rfl, fun _ => rfl, fun _ => rfl⟩

theorem xDoCycles (p : Prefs) (n : Int) : Passive (μ := μ) (Cpu.xDoCycles p n) := by
  unfold Cpu.xDoCycles
  cases p.cpuCycleExact
  · exact doCycles n
  · exact ⟨fun _ _ _ => rfl, fun _ => rfl, fun _ => rfl, fun _ => rfl, fun _ => rfl⟩

theorem updateIpl (p : Prefs) (ipl : Level) : Passive (μ := μ) (updateIpl p ipl) :=
  ⟨fun _ _ _ => rfl, fun _ => rfl, fun _ => rfl, fun _ => rfl, fun _ => rfl⟩

/-- A choice by what is no part of the record. -/
theorem choose {b : Cpu μ → Bool} {g g' : Cpu μ → Cpu μ} (hb : ∀ c l m, b (withRecord l m c) = b c)
    (hg : Passive g) (hg' : Passive g') : Passive fun c => if b c then g c else g' c where
  comm c l m := by
    rw [hb]
    split
    · exact hg.comm ..
    · exact hg'.comm ..
  last c := by
    split
    · exact hg.last c
    · exact hg'.last c
  mmu c := by
    split
    · exact hg.mmu c
    · exact hg'.mmu c
  flag c := by
    split
    · exact hg.flag c
    · exact hg'.flag c
  depth c := by
    split
    · exact hg.depth c
    · exact hg'.depth c

theorem comp {g g' : Cpu μ → Cpu μ} (hg : Passive g) (hg' : Passive g') : Passive fun c => g (g' c) where
  comm c l m := by rw [hg'.comm, hg.comm]
  last c := (hg.last _).trans (hg'.last c)
  mmu c := (hg.mmu _).trans (hg'.mmu c)
  flag c := (hg.flag _).trans (hg'.flag c)
  depth c := (hg.depth _).trans (hg'.depth c)

theorem dointWith (p : Prefs) (ipl : Level) : Passive (μ := μ) (dointWith p ipl) := by
  have hid : Passive fun c : Cpu μ => c :=
    ⟨fun _ _ _ => rfl, fun _ => rfl, fun _ => rfl, fun _ => rfl, fun _ => rfl⟩
  have hpin : Passive fun c : Cpu μ => if c.regs.ipl.pin = ipl then c else UaeCpu.updateIpl p ipl c := by
    have h := choose (b := fun c : Cpu μ => decide (c.regs.ipl.pin = ipl)) (fun _ _ _ => rfl) hid
      (updateIpl p ipl)
    simpa only [decide_eq_true_eq] using h
  have hend : Passive fun c : Cpu μ =>
      if p.interruptDelay then
        if !p.accurateIpl ∧ c.regs.intmask < c.regs.ipl.pin then
          c.mapSpc fun f => { f with doInt := true }
        else c
      else if c.regs.intmask < c.regs.ipl.pin ∨ p.cachesize ≠ 0 then
        if p.cpuCompatible ∧ p.cpuModel.num < 68020 then c.mapSpc fun f => { f with int := true }
        else c.mapSpc fun f => { f with doInt := true }
      else c := by
    have h := choose (b := fun _ : Cpu μ => p.interruptDelay) (fun _ _ _ => rfl)
      (choose (b := fun c : Cpu μ => decide (!p.accurateIpl ∧ c.regs.intmask < c.regs.ipl.pin)) (fun _ _ _ => rfl)
        (mapSpc fun f => { f with doInt := true }) hid)
      (choose (b := fun c : Cpu μ => decide (c.regs.intmask < c.regs.ipl.pin ∨ p.cachesize ≠ 0)) (fun _ _ _ => rfl)
        (choose (b := fun _ : Cpu μ => decide (p.cpuCompatible ∧ p.cpuModel.num < 68020)) (fun _ _ _ => rfl)
          (mapSpc fun f => { f with int := true }) (mapSpc fun f => { f with doInt := true })) hid)
    simpa only [decide_eq_true_eq] using h
  exact hend.comp hpin

end Passive

/-! ## Parts that do not see the record -/

/-- From such states `m` does the same. A fault it throws has been written down whole. -/
def Blinded (p : Prefs) (d : Nat) (tight : Prop) (m : FaultM (Cpu μ) α) : Prop :=
  Blind (Apart p d tight) (Apart p d tight) (Apart p d True) m

/-- No part of the host reads the record: neither a callback, by taking a bus error of its own with
`uae_cpu_pulse_bus_error`, nor an opcode handler or a memory access before it has faulted. None
leaves a bus error pending. -/
structure BlindHost (h : Host μ) : Prop where
  getLong : ∀ a d t, Blinded h.prefs d t (h.port.getLong a)
  getWord : ∀ a d t, Blinded h.prefs d t (h.port.getWord a)
  getIword : ∀ d t, Blinded h.prefs d t h.port.getIword
  physGetLong : ∀ a d t, Blinded h.prefs d t (h.port.physGetLong a)
  putLong : ∀ a v d t, Blinded h.prefs d t (h.port.putLong a v)
  putWord : ∀ a v d t, Blinded h.prefs d t (h.port.putWord a v)
  fillPrefetch : ∀ d t, Blinded h.prefs d t h.port.fillPrefetch
  getIrq : ∀ m, h.getIrq = some m → ∀ d t, Blinded h.prefs d t m
  intAck : ∀ m, h.intAck = some m → ∀ l d t, Blinded h.prefs d t (m l)
  trap : ∀ m, h.trap = some m → ∀ n d t, Blinded h.prefs d t (m n)
  instr : ∀ m, h.instr = some m → ∀ a d t, Blinded h.prefs d t (m a)
  exception : ∀ m, h.exception = some m → ∀ i d t, Blinded h.prefs d t (m i)
  group1 : ∀ op c l m, h.group1 op (withRecord l m c) = h.group1 op c
  cpufunctbl : ∀ op d t, Blinded h.prefs d t (h.cpufunctbl op)
  compiled : ∀ d t, Blinded h.prefs d t h.compiled

namespace Blinded

variable {p : Prefs} {d : Nat} {tight : Prop}

theorem pure {a : α} : Blinded p d tight (pure a : FaultM (Cpu μ) α) := Blind.pure

theorem bind {m : FaultM (Cpu μ) α} {f : α → FaultM (Cpu μ) β} (hm : Blinded p d tight m)
    (hf : ∀ a, Blinded p d tight (f a)) : Blinded p d tight (m >>= f) := Blind.bind hm hf

theorem ite {c : Prop} [Decidable c] {m m' : FaultM (Cpu μ) α} (h : c → Blinded p d tight m)
    (h' : ¬c → Blinded p d tight m') : Blinded p d tight (if c then m else m') := Blind.ite h h'

theorem see {g : Cpu μ → β} {f : β → FaultM (Cpu μ) α}
    (hk : ∀ c l m, f (g (withRecord l m c)) = f (g c))
    (hf : ∀ c, c.latch.hardwareBusError = false → Blinded p d tight (f (g c))) :
    Blinded p d tight (reads g >>= f) :=
  Blind.reads_bind (fun s t h => by rw [h.same]; exact hk ..) fun s _ h => hf s h.clear

/-- Where the states are the same anything may be read. -/
theorem seeAll (ht : tight) {g : Cpu μ → β} {f : β → FaultM (Cpu μ) α}
    (hf : ∀ c, c.latch.hardwareBusError = false → Blinded p d tight (f (g c))) :
    Blinded p d tight (reads g >>= f) :=
  Blind.reads_bind (fun s t h => by rw [(h.loosen fun _ => ht).eq]) fun s _ h => hf s h.clear

/-- With an MMU the record of the last address error is the same. -/
theorem seeLast (ho : p.mmuModel = true ∨ tight) {g : Cpu μ → β} {f : β → FaultM (Cpu μ) α}
    (hk : ∀ c m, f (g (withRecord c.latch.last m c)) = f (g c))
    (hf : ∀ c, c.latch.hardwareBusError = false → Blinded p d tight (f (g c))) :
    Blinded p d tight (reads g >>= f) :=
  Blind.reads_bind (fun s t h => by rw [h.same, h.last ho]; exact hk ..) fun s _ h => hf s h.clear

theorem seeMmu (hm : p.mmuModel = true) {g : Cpu μ → β} {f : β → FaultM (Cpu μ) α}
    (hk : ¬tight → ∀ c m, f (g (withRecord c.latch.last m c)) = f (g c))
    (hf : ∀ c, c.latch.hardwareBusError = false → Blinded p d tight (f (g c))) :
    Blinded p d tight (reads g >>= f) := by
  by_cases ht : tight
  · exact seeAll ht hf
  · exact seeLast (.inl hm) (hk ht) hf

theorem after {g : Cpu μ → Cpu μ} {f : Unit → FaultM (Cpu μ) α} (hg : Passive g)
    (hf : Blinded p d tight (f ())) : Blinded p d tight (update g >>= f) :=
  Blind.update_bind (fun _ _ h => hg.apart h) hf

theorem passive {g : Cpu μ → Cpu μ} (hg : Passive g) : Blinded p d tight (update g) :=
  Blind.update fun _ _ h => hg.apart h

theorem clearWb {g : MmuLatch → MmuLatch}
    (hg : ∀ m m', MmuKept p m m' → MmuKept p (g m) (g m')) :
    Blinded p d tight (update fun c : Cpu μ => c.mapLatch fun l => { l with mmu := g l.mmu }) :=
  Blind.update fun s t hst => by
    refine ⟨?_, hst.last, hst.sr, fun ho => congrArg g (hst.mmu ho), hg _ _ hst.kept, hst.depth, hst.clear⟩
    conv_lhs => rw [hst.same]
    rfl

/-- Where the states are the same anything may be changed. -/
theorem change (ht : tight) {g : Cpu μ → Cpu μ} {f : Unit → FaultM (Cpu μ) α}
    (hd : ∀ c, (g c).executeDepth = c.executeDepth)
    (hc : ∀ c, (g c).latch.hardwareBusError = c.latch.hardwareBusError)
    (hf : Blinded p d tight (f ())) : Blinded p d tight (update g >>= f) :=
  Blind.update_bind (fun s t h => by
    rw [(h.loosen fun _ => ht).eq]
    exact .refl ((hd s).trans h.depth) ((hc s).trans h.clear)) hf

end Blinded

namespace BlindHost

variable {h : Host μ} (hb : BlindHost h) {d : Nat} {tight : Prop}
include hb

theorem intlev : Blinded h.prefs d tight (intlev h) := by
  unfold UaeCpu.intlev
  split
  · rename_i hook hg
    exact .bind (hb.getIrq hook hg d tight) fun _ => .pure
  · exact Blind.reads fun s t hst => by rw [hst.same]; rfl

theorem iackCycle (nr : Nat) : Blinded h.prefs d tight (iackCycle h nr) := by
  unfold UaeCpu.iackCycle
  split
  · rename_i hook hg
    exact .bind (hb.intAck hook hg _ d tight) fun _ => .pure
  · exact .pure

theorem noteException (nr : Nat) (pc : Long) : Blinded h.prefs d tight (noteException h nr pc) := by
  unfold UaeCpu.noteException
  split
  · rename_i hook hg
    exact .after .makeSR (.see (fun _ _ _ => rfl) fun c _ => hb.exception hook hg _ d tight)
  · exact .pure

/-! ### Frames -/

theorem pushWord (v : Word) : Blinded h.prefs d tight (pushWord h v) :=
  .after (.setA7 _ fun _ _ _ => rfl) (.see (fun _ _ _ => rfl) fun _ _ => hb.putWord _ v d tight)

theorem pushLong (v : Long) : Blinded h.prefs d tight (pushLong h v) :=
  .after (.setA7 _ fun _ _ _ => rfl) (.see (fun _ _ _ => rfl) fun _ _ => hb.putLong _ v d tight)

theorem pushAll : ∀ xs : List Push, Blinded h.prefs d tight (pushAll h xs)
  | [] => .pure
  | x :: xs => by
    refine .bind ?_ fun _ => pushAll xs
    cases x with
    | word v => exact hb.pushWord v
    | long v => exact hb.pushLong v
    | skip => exact .passive (.setA7 _ fun _ _ _ => rfl)
    | clearWb2 => exact .clearWb (g := fun m => { m with wb2Status := 0 }) fun _ _ hk =>
        ⟨hk.1, hk.2, hk.3, hk.4, hk.5, fun _ => rfl, hk.7, hk.8⟩
    | clearWb3 => exact .clearWb (g := fun m => { m with wb3Status := 0 }) fun _ _ hk =>
        ⟨hk.1, hk.2, hk.3, hk.4, hk.5, hk.6, hk.7, fun _ => rfl⟩

/-- The frames that hold nothing of the record but what the caller passes. -/
def FrameFormat.plain : FrameFormat → Bool
  | .access040 | .fault010 | .shortBus | .longBus => false
  | _ => true

omit hb in
theorem frameBody_plain (oldpc ssw : Long) (irc : Word) (q : Latch) (l : LastFault) (m : MmuLatch)
    {f : FrameFormat} (hf : FrameFormat.plain f = true) :
    frameBody oldpc ssw irc { q with last := l, mmu := m } f = frameBody oldpc ssw irc q f := by
  cases f with
  | access040 | fault010 | shortBus | longBus => cases hf
  | _ => rfl

theorem buildStackFrame (oldpc currpc ssw : Long) (nr : Nat) (f : FrameFormat)
    (hf : FrameFormat.plain f = true ∨ tight) :
    Blinded h.prefs d tight (exceptionBuildStackFrame h oldpc currpc ssw nr f) := by
  have hrest : Blinded h.prefs d tight (do
      let c ← reads id
      UaeCpu.pushAll h (frameBody oldpc ssw c.regs.irc c.latch f ++ frameTail currpc c.regs.sr nr f)) := by
    obtain hf | ht := hf
    · exact .see (fun c l m => congrArg (fun b => UaeCpu.pushAll h (b ++ frameTail currpc c.regs.sr nr f))
        (frameBody_plain oldpc ssw c.regs.irc c.latch l m hf)) fun c _ => hb.pushAll _
    · exact .seeAll ht fun c _ => hb.pushAll _
  unfold exceptionBuildStackFrame
  refine .ite (fun hl => ?_) fun _ => hrest
  obtain hf | ht := hf
  · rw [hl.1] at hf
    cases hf
  · exact .change ht (fun _ => rfl) (fun _ => rfl) hrest

omit hb in
/-- Most frames do not hold the status word they are passed. -/
theorem buildStackFrame_ssw (oldpc currpc ssw ssw' : Long) (nr : Nat) {f : FrameFormat}
    (hf : FrameFormat.plain f = true) (hn : f ≠ .fpUnimp) :
    exceptionBuildStackFrame h oldpc currpc ssw nr f = exceptionBuildStackFrame h oldpc currpc ssw' nr f := by
  cases f with
  | access040 | fault010 | shortBus | longBus => cases hf
  | fpUnimp => exact absurd rfl hn
  | _ => rfl

theorem buildStackFrameCommon (oldpc currpc : Long) (nr vectorNr : Nat) :
    Blinded h.prefs d tight (exceptionBuildStackFrameCommon h oldpc currpc nr vectorNr) := by
  have hp : ∀ a b s n f, FrameFormat.plain f = true →
      Blinded h.prefs d tight (exceptionBuildStackFrame h a b s n f) :=
    fun a b s n f hf => hb.buildStackFrame a b s n f (.inl hf)
  have hs := fun a b s s' n f hf hn => buildStackFrame_ssw (h := h) a b s s' n (f := f) hf hn
  unfold exceptionBuildStackFrameCommon
  refine .see (fun c l m => ?_) fun c _ => ?_
  · refine ite_congr rfl (fun _ => hs _ _ _ _ _ _ ?_ ?_) fun _ =>
      ite_congr rfl (fun _ => hs _ _ _ _ _ _ rfl (by decide)) fun _ => ite_congr rfl (fun _ => rfl) fun _ =>
      ite_congr rfl (fun _ => ?_) fun _ => hs _ _ _ _ _ _ rfl (by decide)
    · split <;> rfl
    · split <;> decide
    · exact congrArg _ (funext fun _ => ite_congr rfl (fun _ => rfl) fun _ =>
        hs _ _ _ _ _ _ rfl (by decide))
  · refine .ite (fun _ => hp _ _ _ _ _ ?_) fun _ => .ite (fun _ => hp _ _ _ _ _ rfl) fun _ => ?_
    · split <;> rfl
    refine .ite (fun _ => ?_) fun _ => .ite (fun _ => ?_) fun _ => hp _ _ _ _ _ rfl
    · exact .ite (fun _ => .ite (fun _ => hp _ _ _ _ _ rfl) fun _ => hp _ _ _ _ _ rfl)
        fun _ => .ite (fun _ => hp _ _ _ _ _ rfl) fun _ => hp _ _ _ _ _ rfl
    · exact .after ⟨fun _ _ _ => rfl, fun _ => rfl, fun _ => rfl, fun _ => rfl, fun _ => rfl⟩
        (.ite (fun _ => hp _ _ _ _ _ rfl) fun _ => hp _ _ _ _ _ rfl)

theorem addressErrorFrame (mode : Word) (f : LastFault) :
    Blinded h.prefs d tight (exceptionBuild68000AddressErrorStackFrame h mode f) :=
  .after (.setA7 _ fun _ _ _ => rfl) <| .see (fun _ _ _ => rfl) fun _ _ =>
    .bind (hb.putWord _ _ _ _) fun _ => .bind (hb.putLong _ _ _ _) fun _ =>
    .bind (hb.putWord _ _ _ _) fun _ => .bind (hb.putWord _ _ _ _) fun _ => hb.putLong _ _ _ _

theorem masterInterruptFrame (pc : Long) (vec : Nat) :
    Blinded h.prefs d tight (masterInterruptFrame h pc vec) := by
  refine .bind (hb.pushWord _) fun _ => .ite (fun _ => ?_) fun _ => .pure
  exact .bind (hb.pushLong _) fun _ => .see (fun _ _ _ => rfl) fun sr _ => .bind (hb.pushWord _) fun _ =>
    .after (.mapRegs _) (hb.pushWord _)

theorem putWordsAt (a7 : Long) : ∀ ws : List (Nat × Word), Blinded h.prefs d tight (putWordsAt h a7 ws)
  | [] => .pure
  | (_, _) :: ws => .bind (hb.putWord _ _ _ _) fun _ => putWordsAt a7 ws

/-- Only a bus or address error stacks the record, and then it has just been written. -/
theorem normalFrame {nr : Nat} (hnr : nr = 2 ∨ nr = 3 → tight) (vec : Nat) (pc : Long) (sv : Bool) :
    Blinded h.prefs d tight (normalFrame h nr vec pc sv) := by
  unfold UaeCpu.normalFrame
  by_cases hn : nr = 2 ∨ nr = 3
  · have ht := hnr hn
    have hf := fun a b s n f => hb.buildStackFrame (d := d) a b s n f (.inr ht)
    simp only [if_pos hn]
    refine .seeAll ht fun c _ => .ite (fun _ => ?_) fun _ => .ite (fun _ => .ite (fun _ => ?_) fun _ => ?_)
      fun _ => .ite (fun _ => ?_) fun _ => ?_
    · exact .change ht (fun _ => rfl) (fun _ => rfl) (.bind (hb.addressErrorFrame _ _) fun _ => .pure)
    · exact .bind (hb.pushAll _) fun _ => .pure
    · exact .bind (hf _ _ _ _ _) fun _ => .pure
    · exact .change ht (fun _ => rfl) (fun _ => rfl) (.bind (hf _ _ _ _ _) fun _ => .pure)
    · exact .change ht (fun _ => rfl) (fun _ => rfl) (.bind (hf _ _ _ _ _) fun _ => .pure)
  · simp only [if_neg hn]
    refine .see (fun _ _ _ => rfl) fun c _ => .ite (fun _ => .pure) fun _ => .ite (fun _ => ?_) fun _ => ?_
    · exact .bind (hb.masterInterruptFrame _ _) fun _ => .pure
    · exact .bind (hb.buildStackFrameCommon _ _ _ _) fun _ => .pure

theorem finishFrame {nr : Nat} (hnr : nr = 3 → tight) (pc : Long) (f : Option Bool) :
    Blinded h.prefs d tight (finishFrame h nr pc f) := by
  cases f with
  | none => exact .pure
  | some used =>
    have hlast : Blinded h.prefs d tight (do
        let c ← reads id
        if h.prefs.cpuModel = .m68040 ∧ nr = 3 ∧ c.latch.last.op &&& 0x10000 ≠ 0 then
          h.port.putWord c.regs.sp.a7 c.latch.last.sr) := by
      by_cases hn : nr = 3
      · exact .seeAll (hnr hn) fun c _ => .ite (fun _ => hb.putWord _ _ _ _) fun _ => .pure
      · simp only [hn, false_and, and_false, if_false]
        exact .see (fun _ _ _ => rfl) fun _ _ => .pure
    have hmid : Blinded h.prefs d tight (do
        if h.prefs.cpuModel = .m68060 ∧ isInterrupt nr then
          FaultM.update fun c => c.mapRegs fun r => { r with m := false }
        let c ← reads id
        if h.prefs.cpuModel = .m68040 ∧ nr = 3 ∧ c.latch.last.op &&& 0x10000 ≠ 0 then
          h.port.putWord c.regs.sp.a7 c.latch.last.sr) :=
      .ite (fun _ => .after (.mapRegs _) hlast) fun _ => hlast
    refine .ite (fun _ => ?_) fun _ => hmid
    exact .bind (hb.pushLong _) fun _ => .see (fun _ _ _ => rfl) fun sr _ => .bind (hb.pushWord _) fun _ => hmid

/-! ### Address errors on the way -/

section Nested

variable {nested : Nat → FaultM (Cpu μ) Unit}
  (hn3 : Blinded h.prefs d (tight ∨ h.prefs.mmuModel = false) (nested 3))
include hn3

/-- Without MMU an address error writes the record anew, all but the latch it has set before. -/
theorem exception3f (op addr : Long) (w i ni : Bool) (pc : Option Long) (size : Int)
    (fc : Option Word) (sr : Word) :
    Blind (fun s t => Apart h.prefs d tight s t ∧ t.latch.last.di = s.latch.last.di) (Apart h.prefs d tight)
      (Apart h.prefs d True) (exception3f h nested op addr w i ni pc size fc sr) := by
  refine Blind.update_bind (fun s t hst => ?_) (hn3.mono (fun _ _ h => h) (fun _ _ h => h.loosen .inl)
    fun _ _ h => h)
  obtain ⟨⟨hsame, hlast, hsr, hmmu, hkept, hd, hc⟩, hdi⟩ := hst
  generalize t.latch.last = l at *
  generalize t.latch.mmu = m at *
  subst hsame
  refine ⟨rfl, fun _ => ?_, rfl, fun ho => hmmu (ho.elim .inl fun ho => ho.elim .inr .inl), hkept, hd, hc⟩
  simp only [Cpu.mapLatch, withRecord, hdi]

omit hb hn3 in
theorem setLastDi (v : Int) : Blind (Apart h.prefs d tight)
    (fun s t => Apart h.prefs d tight s t ∧ t.latch.last.di = s.latch.last.di) (Apart h.prefs d True)
    (setLastDi (μ := μ) v) :=
  Blind.update fun _ t ⟨hsame, hlast, hsr, hmmu, hkept, hd, hc⟩ => by
    generalize t.latch.last = l at *
    generalize t.latch.mmu = m at *
    subst hsame
    exact ⟨⟨rfl, fun ho => congrArg (fun l : LastFault => { l with di := v }) (hlast ho), hsr, hmmu, hkept, hd, hc⟩, rfl⟩

theorem exception3Notinstruction (op addr : Long) :
    Blinded h.prefs d tight (exception3Notinstruction h nested op addr) :=
  Blind.bind (setLastDi 1) fun _ => hb.exception3f hn3 _ _ _ _ _ _ _ _ _

theorem exception3ReadAccess (op addr : Long) (fc : Word) :
    Blinded h.prefs d tight (exception3ReadAccess h nested op addr fc) :=
  .after (.xDoCycles _ _) <| .see (fun c l m => by simp only [id, hb.group1]; rfl) fun _ _ =>
    Blind.bind (setLastDi 1) fun _ => hb.exception3f hn3 _ _ _ _ _ _ _ _ _

theorem exception3ReadSpecial (hm : h.prefs.mmuModel = true) (op addr : Long) (size : Int) (fc : Word) :
    Blinded h.prefs d tight (exception3ReadSpecial h nested op addr size fc) :=
  (hb.exception3f hn3 _ _ _ _ _ _ _ _ _).mono
    (fun _ _ hst => ⟨hst, congrArg LastFault.di (hst.last (.inl hm))⟩) (fun _ _ h => h) fun _ _ h => h

theorem oddVector (nr vec : Nat) (g1 : Bool) (newpc : Long) :
    Blinded h.prefs d tight (oddVector h nested nr vec g1 newpc) := by
  refine .see (fun _ _ _ => rfl) fun c _ => ?_
  have hsr : Passive fun c : Cpu μ => (c.mapRegs fun r => { r with t1 := false }).makeSR :=
    ⟨fun _ _ _ => rfl, fun _ => rfl, fun _ => rfl, fun _ => rfl, fun _ => rfl⟩
  split
  · refine .after hsr (.after (.mapRegs _) (.ite (fun _ => .after (.mapRegs _) ?_) fun _ => ?_))
    · exact hb.exception3ReadAccess hn3 _ _ _
    · exact hb.exception3ReadAccess hn3 _ _ _
  · refine .after hsr (.after ⟨fun _ _ _ => rfl, fun _ => rfl, fun _ => rfl, fun _ => rfl, fun _ => rfl⟩
      (.after (.mapRegs _) ?_))
    exact .see (fun _ _ _ => rfl) fun _ _ => hb.exception3ReadAccess hn3 _ _ _
  · exact .after (.mapRegs _) (hb.exception3Notinstruction hn3 _ _)

omit hn3 in
theorem addCycles (nr : Nat) : Blinded h.prefs d tight (addApproximateExceptionCycles h nr) := by
  unfold addApproximateExceptionCycles
  split
  · exact .after (.doCycles _) (.passive (.xDoCycles _ _))
  · exact .pure

/-! ### The engines -/

theorem normalVector (nr vec : Nat) (g1 : Bool) :
    Blinded h.prefs d tight (normalVector h nested nr vec g1) := by
  have hset : Passive fun c : Cpu μ => c.mapLatch fun l => { l with exceptionInException := 0 } :=
    ⟨fun _ _ _ => rfl, fun _ => rfl, fun _ => rfl, fun _ => rfl, fun _ => rfl⟩
  refine .see (fun _ _ _ => rfl) fun c _ => .ite (fun _ => .pure) fun _ => ?_
  extract_lets jp
  have hjp : ∀ u, Blinded h.prefs d tight (jp u) := fun u => by
    refine .bind (hb.getLong _ _ _) fun newpc => .after hset (.ite (fun _ => ?_) fun _ => ?_)
    · exact .ite (fun _ => .pure) fun _ => .after (.xDoCycles _ _) (hb.oddVector hn3 _ _ _ _)
    · exact .bind (hb.addCycles _) fun _ => .after (.mapRegs _) <| .bind hb.intlev fun _ =>
        .after (.mapRegs _) <| .bind (hb.fillPrefetch _ _) fun _ => .passive (.mapRegs _)
  exact .ite (fun _ => .after (.mapRegs _) (hjp ())) fun _ => hjp ()

theorem exceptionNormal {nr : Nat} (hnr : nr = 2 ∨ nr = 3 → tight) :
    Blinded h.prefs d tight (exceptionNormal h nested nr) := by
  refine .see (fun c l m => by simp only [id, hb.group1]; rfl) fun c _ => ?_
  extract_lets _ _ jp
  have hjp : ∀ vec, Blinded h.prefs d tight (jp vec) := fun vec => by
    refine .after .makeSR (.after (.mapRegs _) (.see (fun _ _ _ => rfl) fun c' _ => ?_))
    refine .ite (fun _ => .ite (fun _ => .pure) fun _ => hb.exception3Notinstruction hn3 _ _) fun _ =>
      .ite (fun _ => .pure) fun _ => ?_
    exact .bind (hb.normalFrame hnr _ _ _) fun _ => .bind (hb.finishFrame (fun hn => hnr (.inr hn)) _ _) fun _ =>
      hb.normalVector hn3 _ _ _
  exact .ite (fun _ => .bind (hb.iackCycle nr) hjp) fun _ => .bind .pure hjp

theorem mmuEnd (hm : h.prefs.mmuModel = true) (nr : Nat) (op newpc : Long) (size : Int)
    {m : FaultM (Cpu μ) Unit} (hgo : Blinded h.prefs d tight m) :
    Blinded h.prefs d tight (if newpc.getLsbD 0 then
        if nr = 2 ∨ nr = 3 then cpuHalt
        else UaeCpu.exception3ReadSpecial h nested op newpc size 1
      else m) :=
  .ite (fun _ => .ite (fun _ => .pure) fun _ => hb.exception3ReadSpecial hn3 hm _ _ _ _) fun _ => hgo

omit hn3 in
theorem mmuGo (nr : Nat) : Blinded h.prefs d tight (do
    h.port.fillPrefetch
    update fun c => c.mapRegs (exceptionCheckTrace h.prefs nr)) :=
  .bind (hb.fillPrefetch _ _) fun _ => .passive (.mapRegs _)

/-- With its MMU a 68030 is only taken from states that are the same. -/
theorem exceptionMmu030 (ht : tight) (hm : h.prefs.mmuModel = true) (nr : Nat) (oldpc : Long) :
    Blinded h.prefs d tight (exceptionMmu030 h nested nr oldpc) := by
  have hf := fun a b s n f => hb.buildStackFrame (d := d) a b s n f (.inr ht)
  refine .see (fun _ _ _ => rfl) fun currpc _ => ?_
  extract_lets jp
  have hjp : ∀ vec, Blinded h.prefs d tight (jp vec) := fun vec => by
    refine .after .makeSR (.after (.mapRegs _) (.seeAll ht fun c _ => .bind (hb.getLong _ _ _) fun newpc => ?_))
    extract_lets go end'
    have hgo : ∀ u, Blinded h.prefs d tight (go u) := fun u => .after (.mapRegs _) (hb.mmuGo nr)
    have hend : ∀ u, Blinded h.prefs d tight (end' u) := fun u =>
      hb.mmuEnd hn3 hm _ _ _ _ (.ite (fun _ => .after (.mapRegs _) (hgo ())) fun _ => hgo ())
    refine .ite (fun _ => ?_) fun _ => .ite (fun _ => ?_) fun _ => .ite (fun _ => ?_) fun _ => ?_
    · exact .bind (hf _ _ _ _ _) fun _ => .after .makeSR (.after (.mapRegs _) (.bind (hf _ _ _ _ _) hend))
    · exact .bind (hf _ _ _ _ _) hend
    · exact .change ht (fun _ => rfl) (fun _ => rfl) (.bind (hf _ _ _ _ _) hend)
    · exact .bind (hb.buildStackFrameCommon _ _ _ _) hend
  exact .ite (fun _ => .bind (hb.iackCycle nr) hjp) fun _ => .bind .pure hjp

theorem exceptionMmu (hm : h.prefs.mmuModel = true) {nr : Nat} (hnr : nr = 2 → tight) (oldpc : Long) :
    Blinded h.prefs d tight (exceptionMmu h nested nr oldpc) := by
  have hf : ∀ a b s n f, FrameFormat.plain f = true ∨ tight →
      Blinded h.prefs d tight (exceptionBuildStackFrame h a b s n f) :=
    fun a b s n f hf => hb.buildStackFrame a b s n f hf
  refine .see (fun _ _ _ => rfl) fun currpc _ => ?_
  extract_lets go jp
  have hjp : ∀ vec, Blinded h.prefs d tight (jp vec) := fun vec => by
    refine .after .makeSR (.after (.mapRegs _) (.seeMmu hm (fun ht c m => ?_) fun c _ => ?_))
    · have hn : ¬nr = 2 := fun hn => ht (hnr hn)
      have hs := fun a f hf hn => buildStackFrame_ssw (h := h) a currpc.regs.pc (m.ssw.setWidth 32)
        (c.latch.mmu.ssw.setWidth 32) vec (f := f) hf hn
      simp only [id, withRecord, if_neg hn, hs _ .fourWord rfl (by decide), hs _ .throwaway rfl (by decide)]
    refine .bind (hb.getLong _ _ _) fun newpc => ?_
    extract_lets end'
    have hend : ∀ u, Blinded h.prefs d tight (end' u) := fun u =>
      hb.mmuEnd hn3 hm _ _ _ _ (.after (.mapRegs _)
        (.ite (fun _ => .after (.mapRegs _) (hb.mmuGo nr)) fun _ => hb.mmuGo nr))
    refine .ite (fun hn => .ite (fun _ => ?_) fun _ => ?_) fun _ =>
      .ite (fun _ => ?_) fun _ => .ite (fun _ => ?_) fun _ => ?_
    · exact .bind (hf _ _ _ _ _ (.inr (hnr hn))) hend
    · exact .bind (hf _ _ _ _ _ (.inr (hnr hn))) hend
    · exact .bind (hf _ _ _ _ _ (.inl rfl)) fun _ => .bind (hb.physGetLong _ _ _) fun _ => hend ()
    · refine .bind (hf _ _ _ _ _ (.inl rfl)) fun _ => .after .makeSR (.after (.mapRegs _)
        (.ite (fun _ => .after (.mapRegs _) ?_) fun _ => hend ()))
      exact .bind (hf _ _ _ _ _ (.inl rfl)) hend
    · exact .bind (hb.buildStackFrameCommon _ _ _ _) hend
  exact .ite (fun _ => .bind (hb.iackCycle nr) hjp) fun _ => .bind .pure hjp

theorem ce000Frame (nr frameId : Nat) (pc : Long) :
    Blinded h.prefs d tight (ce000Frame h nested nr frameId pc) := by
  refine .after (.setA7 _ fun _ _ _ => rfl) (.see (fun _ _ _ => rfl) fun c _ => .ite (fun _ => ?_) fun _ => ?_)
  · exact .bind (hb.exception3Notinstruction hn3 _ _) fun _ => .pure
  · refine .after ⟨fun _ _ _ => rfl, fun _ => rfl, fun _ => rfl, fun _ => rfl, fun _ => rfl⟩
      (.bind (hb.putWord _ _ _ _) fun _ => ?_)
    extract_lets jp
    have hjp : ∀ vec, Blinded h.prefs d tight (jp vec) := fun vec =>
      .bind (hb.putWord _ _ _ _) fun _ => .bind (hb.putWord _ _ _ _) fun _ =>
        .ite (fun _ => .bind (hb.putWord _ _ _ _) fun _ => .pure) fun _ => .pure
    exact .ite (fun _ => .bind (hb.iackCycle nr) hjp) fun _ => .bind .pure hjp

omit hn3 in
/-- Nothing is pending, so no prefetch is taken for a faulting one. -/
theorem ce000Prefetch (nr : Nat) : Blinded h.prefs d tight (ce000Prefetch h nested nr) := by
  have hclock : Passive (ce000ResetClock (μ := μ)) :=
    ⟨fun _ _ _ => rfl, fun _ => rfl, fun _ => rfl, fun _ => rfl, fun _ => rfl⟩
  have hclear : ∀ {c : Cpu μ} {m m' : FaultM (Cpu μ) Unit}, c.latch.hardwareBusError = false →
      Blinded h.prefs d tight m' →
      Blinded h.prefs d tight (if c.latch.hardwareBusError then m else m') := fun hc hm => by
    rw [hc]
    exact hm
  refine .see (fun _ _ _ => rfl) fun pc _ => .bind (hb.getWord _ _ _) fun ir =>
    .after (.mapRegs _) (.see (fun _ _ _ => rfl) fun c hc => hclear hc ?_)
  refine .after (.mapRegs _) (.after (.xDoCycles _ _) (.after (.xDoCycles _ _) (.after hclock ?_)))
  extract_lets jp
  have hjp : ∀ u, Blinded h.prefs d tight (jp u) := fun u =>
    .bind (hb.getWord _ _ _) fun irc => .after (.mapRegs _) (.see (fun _ _ _ => rfl) fun c hc =>
      hclear hc (.after (.mapRegs _) (.passive hclock)))
  refine .ite (fun _ => .after ?_ (hjp ())) fun _ => hjp ()
  exact ⟨fun _ _ _ => rfl, fun _ => rfl, fun _ => rfl, fun _ => rfl, fun _ => rfl⟩

theorem ce000Vector (nr vec : Nat) (g1 : Bool) :
    Blinded h.prefs d tight (ce000Vector h nested nr vec g1) := by
  have hset : Passive fun c : Cpu μ => c.mapLatch fun l => { l with exceptionInException := 0 } :=
    ⟨fun _ _ _ => rfl, fun _ => rfl, fun _ => rfl, fun _ => rfl, fun _ => rfl⟩
  refine .see (fun _ _ _ => rfl) fun c _ => .ite (fun _ => .pure) fun _ => ?_
  extract_lets jp
  have hjp : ∀ u, Blinded h.prefs d tight (jp u) := fun u =>
    .bind (hb.getWord _ _ _) fun hi => .bind (hb.getWord _ _ _) fun lo => .after hset
      (.ite (fun _ => .ite (fun _ => .pure) fun _ => hb.oddVector hn3 _ _ _ _) fun _ =>
        .after (.mapRegs _) (hb.ce000Prefetch nr))
  exact .ite (fun _ => .after (.mapRegs _) (hjp ())) fun _ => hjp ()

theorem exceptionCe000 {nr : Nat} (hnr : nr = 2 ∨ nr = 3 → h.prefs.mmuModel = true ∨ tight) :
    Blinded h.prefs d tight (exceptionCe000 h nested nr) := by
  have hset : Passive fun c : Cpu μ => c.mapLatch fun l => { l with exceptionInException := -1 } :=
    ⟨fun _ _ _ => rfl, fun _ => rfl, fun _ => rfl, fun _ => rfl, fun _ => rfl⟩
  have hframe : ∀ {id pc} {k : Option Nat → FaultM (Cpu μ) Unit}, (∀ v, Blinded h.prefs d tight (k (some v))) →
      Blinded h.prefs d tight (k none) → Blinded h.prefs d tight (UaeCpu.ce000Frame h nested nr id pc >>= k) := by
    intro id pc k hsome hnone
    refine .bind (hb.ce000Frame hn3 _ _ _) fun v => ?_
    cases v with
    | some v => exact hsome v
    | none => exact hnone
  refine .see (fun _ _ _ => rfl) fun c _ => .after (.xDoCycles _ _) (.after .makeSR
    (.see (fun c l m => by simp only [hb.group1]; rfl) fun g1 _ => .after (.mapRegs _) ?_))
  by_cases hn : nr = 2 ∨ nr = 3
  · simp only [if_pos hn]
    refine .seeLast (hnr hn) (fun _ _ => rfl) fun c' _ => .ite (fun _ => .pure) fun _ =>
      .ite (fun _ => ?_) fun _ => ?_
    · exact .after (.setA7 _ fun _ _ _ => rfl) (.after hset (.bind (hb.putWordsAt _ _) fun _ =>
        hb.ce000Vector hn3 _ _ _))
    · exact .after (.setA7 _ fun _ _ _ => rfl) (.after hset (.bind (hb.putWordsAt _ _) fun _ =>
        hframe (fun _ => hb.ce000Vector hn3 _ _ _) .pure))
  · simp only [if_neg hn]
    exact .see (fun _ _ _ => rfl) fun _ _ => hframe (fun _ => hb.ce000Vector hn3 _ _ _) .pure

/-- Vectors 2 and 3 are taken right after the record has been written. -/
def Recorded (p : Prefs) (tight : Prop) (nr : Nat) : Prop :=
  (nr = 2 → tight) ∧ (nr = 3 → p.mmuModel = true ∨ tight)

theorem exceptionEngine (h030 : h.prefs.mmuModel = true → h.prefs.cpuModel = .m68030 → tight) {nr : Nat}
    (hnr : Recorded h.prefs tight nr) : Blinded h.prefs d tight (exceptionEngine h nested nr) := by
  unfold UaeCpu.exceptionEngine
  refine .ite (fun _ => hb.exceptionCe000 hn3 fun hn => ?_) fun _ => .ite (fun hm => ?_) fun hm => ?_
  · exact hn.elim (fun h2 => .inr (hnr.1 h2)) hnr.2
  · exact .see (fun _ _ _ => rfl) fun c _ => .ite (fun h030' => hb.exceptionMmu030 hn3 (h030 hm h030') hm _ _)
      fun _ => hb.exceptionMmu hn3 hm hnr.1 _
  · exact hb.exceptionNormal hn3 fun hn => hn.elim hnr.1 fun h3 => (hnr.2 h3).resolve_left hm

theorem exceptionXBody (h030 : h.prefs.mmuModel = true → h.prefs.cpuModel = .m68030 → tight) {nr : Nat}
    (hnr : Recorded h.prefs tight nr) (oldpc : Option Long) :
    Blinded h.prefs d tight (exceptionXBody h nested nr oldpc) :=
  .see (fun _ _ _ => rfl) fun _ _ => .bind (hb.noteException _ _) fun _ => .after (.mapRegs _) <|
    .after (.mapRegs _) <| .bind (hb.exceptionEngine hn3 h030 hnr) fun _ => .passive (.mapRegs _)

theorem exceptionXWith (h030 : h.prefs.mmuModel = true → h.prefs.cpuModel = .m68030 → tight) {nr : Nat}
    (hnr : Recorded h.prefs tight nr) (oldpc : Option Long) :
    Blinded h.prefs d tight (exceptionXWith h nested nr oldpc) := by
  have hbody := hb.exceptionXBody hn3 h030 hnr oldpc
  unfold UaeCpu.exceptionXWith
  split
  · rename_i hook hg
    exact .ite (fun _ => .bind (hb.trap hook hg _ _ _) fun b => .ite (fun _ => hb.fillPrefetch _ _) fun _ => hbody)
      fun _ => hbody
  · exact hbody

end Nested

theorem exceptionX (h030 : h.prefs.mmuModel = true → h.prefs.cpuModel = .m68030 → tight) {nr : Nat}
    (hnr : Recorded h.prefs tight nr) (oldpc : Option Long) :
    Blinded h.prefs d tight (exceptionX h nr oldpc) := by
  refine hb.exceptionXWith (hb.exceptionXWith .pure (fun hm h030' => .inl (h030 hm h030')) ⟨?_, ?_⟩ none)
    h030 hnr oldpc
  · intro h3
    cases h3
  · intro _
    cases hm : h.prefs.mmuModel
    · exact .inr (.inr rfl)
    · exact .inl rfl

/-! ### Between instructions -/

variable (h030 : h.prefs.mmuModel = true → h.prefs.cpuModel = .m68030 → tight)
include h030

theorem takeException {nr : Nat} (hnr : nr ≠ 2 ∧ nr ≠ 3) : Blinded h.prefs d tight (UaeCpu.exception h nr) :=
  hb.exceptionX h030 ⟨fun h2 => absurd h2 hnr.1, fun h3 => absurd h3 hnr.2⟩ none

omit h030 in
/-- An exception a throw asks for: the states are the same by then. -/
theorem exception_thrown (nr : Nat) : Blind (Apart h.prefs d True) (Apart h.prefs d tight) (Apart h.prefs d True)
    (UaeCpu.exception h nr) :=
  (hb.exceptionX (fun _ _ => trivial) ⟨fun _ => trivial, fun _ => .inr trivial⟩ none).mono
    (fun _ _ h => h) (fun _ _ h => h.loosen fun _ => trivial) fun _ _ h => h

omit h030 in
/-- And nothing is thrown from there. -/
theorem busError : Blind (Apart h.prefs d True) (Apart h.prefs d tight) (fun _ _ => False) (busError h) :=
  Blind.tryCatch (hb.exception_thrown 2) fun _ =>
    (Blind.pure (R := Apart h.prefs d True)).mono (fun _ _ h => h) (fun _ _ h => h.loosen fun _ => trivial)
      fun _ _ h => h

omit h030 in
theorem doint : Blinded h.prefs d tight (doint h) :=
  .bind hb.intlev fun ipl => .passive (.dointWith h.prefs ipl)

theorem interruptRound (nr : Level) : Blinded h.prefs d tight (interruptRound h nr) := by
  refine .bind (hb.takeException h030 ⟨by omega, by omega⟩) fun _ => .ite (fun _ => .pure) fun _ => ?_
  extract_lets jp
  have hjp : ∀ l, Blinded h.prefs d tight (jp l) := fun l => .see (fun _ _ _ => rfl) fun _ _ => .pure
  exact .ite (fun _ => .see (fun _ _ _ => rfl) fun _ _ => hjp _) fun _ => .bind hb.intlev hjp

theorem interruptLoop : ∀ (fuel : Nat) (nr : Level), Blinded h.prefs d tight (interruptLoop h fuel nr)
  | 0, _ => Blind.diverge
  | fuel + 1, nr => .bind (hb.interruptRound h030 nr) fun
    | some nr => interruptLoop fuel nr
    | none => .pure

theorem doInterrupt (fuel : Nat) (nr : Level) : Blinded h.prefs d tight (doInterrupt h fuel nr) :=
  .bind (hb.interruptLoop h030 fuel nr) fun _ => hb.doint

theorem serviceInterrupt (fuel : Nat) (int : Bool) : Blinded h.prefs d tight (serviceInterrupt h fuel int) := by
  refine .ite (fun _ => .see (fun _ _ _ => rfl) fun _ _ => .ite (fun _ => ?_) fun _ => .pure) fun _ =>
    .ite (fun _ => .bind hb.intlev fun intr => .after (.mapSpc _) (.see (fun _ _ _ => rfl) fun _ _ => ?_))
      fun _ => .pure
  · exact .after (.mapSpc _) (hb.doInterrupt h030 _ _)
  · exact .ite (fun _ => .bind (hb.doInterrupt h030 _ _) fun _ => .passive (.mapRegs _)) fun _ =>
      .passive (.mapRegs _)

theorem doSpecialties (fuel : Nat) : Blinded h.prefs d tight (doSpecialties h fuel) := by
  refine .see (fun _ _ _ => rfl) fun spc _ => .ite (fun _ => .pure) fun _ => ?_
  extract_lets leave serve trace main compile
  have hleave : ∀ u, Blinded h.prefs d tight (leave u) := fun u =>
    .ite (fun _ => .after (.mapSpc _) .pure) fun _ => .pure
  have hserve : ∀ u, Blinded h.prefs d tight (serve u) := fun u =>
    .bind (hb.serviceInterrupt h030 _ _) fun _ => .ite (fun _ => .after (.mapSpc _) (hleave ())) fun _ => hleave ()
  have htrace : ∀ u, Blinded h.prefs d tight (trace u) := fun u =>
    .see (fun _ _ _ => rfl) fun _ _ => .ite (fun _ => .after (.mapRegs _) (hserve ())) fun _ => hserve ()
  have hmain : ∀ u, Blinded h.prefs d tight (main u) := fun u =>
    .ite (fun _ => .after (.mapSpc _) (.ite (fun _ => .after (.mapRegs _) (hleave ())) fun _ => hleave ()))
      fun _ => .ite (fun _ => .bind (hb.takeException h030 ⟨by decide, by decide⟩) htrace) fun _ => htrace ()
  have hcompile : ∀ u, Blinded h.prefs d tight (compile u) := fun u =>
    .ite (fun _ => .after (.mapSpc _) (hmain ())) fun _ => hmain ()
  exact .ite (fun _ => .after (.mapSpc _) (hcompile ())) fun _ => hcompile ()

/-! ### The run loop -/

theorem checkSpecialties (fuel : Nat) : Blinded h.prefs d tight (checkSpecialties h fuel) :=
  .see (fun _ _ _ => rfl) fun _ _ => .ite (fun _ => hb.doSpecialties h030 fuel) fun _ => .pure

omit h030 in
theorem callInstrHook : Blinded h.prefs d tight (callInstrHook h) := by
  unfold UaeCpu.callInstrHook
  split
  · rename_i hook hg
    exact .see (fun _ _ _ => rfl) fun _ _ => hb.instr hook hg _ _ _
  · exact .pure

omit h030 in
theorem executeInstr : Blinded h.prefs d tight (executeInstr h) := by
  refine .bind hb.callInstrHook fun _ => ?_
  have hcharge : ∀ cyc, Passive fun c : Cpu μ => c.doCycles (chargedTicks c cyc) := fun _ =>
    ⟨fun _ _ _ => rfl, fun _ => rfl, fun _ => rfl, fun _ => rfl, fun _ => rfl⟩
  extract_lets jp
  have hjp : ∀ op, Blinded h.prefs d tight (jp op) := fun op => .after (.mapRegs _) <|
    .bind (hb.cpufunctbl _ _ _) fun cyc => .after (hcharge cyc) (.passive (.mapRegs _))
  exact .ite (fun _ => .see (fun _ _ _ => rfl) fun _ _ => hjp _) fun _ => .bind (hb.getIword _ _) hjp

omit h030 in
theorem stepInstr : Blinded h.prefs d tight (stepInstr h) := by
  refine .bind hb.callInstrHook fun _ => ?_
  extract_lets jp
  have hjp : ∀ op, Blinded h.prefs d tight (jp op) := fun op => .after (.mapRegs _) <|
    .bind (hb.cpufunctbl _ _ _) fun cyc => .after (.doCycles _) (.passive (.mapRegs _))
  exact .ite (fun _ => .ite (fun _ => .see (fun _ _ _ => rfl) fun _ _ => hjp _) fun _ =>
    .see (fun _ _ _ => rfl) fun _ _ => hjp _) fun _ => .bind (hb.getIword _ _) hjp

theorem tracedPass (fuel : Nat) : Blinded h.prefs d tight (tracedPass h fuel) :=
  .see (fun _ _ _ => rfl) fun _ _ => .ite (fun _ => .after (.mapRegs _) <| .bind (hb.getIword _ _) fun _ =>
    .after (.mapRegs _) <| .bind (hb.cpufunctbl _ _ _) fun _ => .after (.doCycles _) <|
      .bind (hb.checkSpecialties h030 fuel) fun _ => .pure) fun _ => .pure

theorem jitRound (fuel : Nat) : Blinded h.prefs d tight (jitRound h fuel) := by
  have hcompiled : Blinded h.prefs d tight (tryCatch (do h.compiled; return true)
      fun exc => do UaeCpu.exception h exc.toNat; return false) :=
    Blind.tryCatch (Blind.bind (hb.compiled _ _) fun _ => .pure) fun exc =>
      Blind.bind (hb.exception_thrown _) fun _ => Blind.pure
  refine .bind hcompiled fun b => .ite (fun _ => .pure) fun _ => .bind (hb.checkSpecialties h030 fuel) fun b' =>
    .ite (fun _ => .pure) fun _ => .see (fun _ _ _ => rfl) fun c _ => .ite (fun _ => ?_) fun _ => .pure
  exact .after (.mapSpc _) (.bind (Blind.loop (hb.tracedPass h030 fuel) fuel) fun _ => .after (.mapSpc _) .pure)

theorem runJit (fuel : Nat) : Blinded h.prefs d tight (runJit h fuel) :=
  .bind (hb.checkSpecialties h030 fuel) fun _ => .ite (fun _ => .pure) fun _ =>
    Blind.loop (hb.jitRound h030 fuel) fuel

theorem runPass (fuel : Nat) (target : Int) : Blinded h.prefs d tight (runPass h fuel target) :=
  .see (fun _ _ _ => rfl) fun _ _ => .ite (fun _ => .pure) fun _ => .bind (hb.checkSpecialties h030 fuel) fun _ =>
    .ite (fun _ => .pure) fun _ => .bind hb.executeInstr fun _ => .pure

theorem runLoop (fuel : Nat) (target : Int) :
    Blind (Apart h.prefs d tight) (Apart h.prefs d tight) (fun _ _ => False) (runLoop h fuel target) :=
  Blind.loop (Blind.tryCatch (hb.runPass h030 fuel target) fun _ =>
    Blind.bind hb.busError fun _ => Blind.pure) fuel

theorem runJitPath (fuel : Nat) (cycles : Int) :
    Blind (Apart h.prefs d tight) (Apart h.prefs d tight) (fun _ _ => False) (runJitPath h fuel cycles) := by
  have hclock : ∀ f : Clock → Clock, Passive fun c : Cpu μ => { c with clock := f c.clock } := fun _ =>
    ⟨fun _ _ _ => rfl, fun _ => rfl, fun _ => rfl, fun _ => rfl, fun _ => rfl⟩
  exact Blind.update_bind (fun _ _ hst => (hclock fun k => (JitClock.start k cycles).clock).apart hst)
    (Blind.bind (Blind.tryCatch (hb.runJit h030 fuel) fun _ => hb.busError) fun _ =>
      Blind.update fun _ _ hst => (hclock fun k => { k with
        currcycle := k.currcycle + k.consumed, pissoffValue := 0, pissoff := 0
        jitRunActive := false }).apart hst)

omit hb h030 in
theorem setDepth_apart (f : Nat → Nat) {s t : Cpu μ} (hst : Apart h.prefs d tight s t) :
    Apart h.prefs (f d) tight { s with executeDepth := f s.executeDepth }
      { t with executeDepth := f t.executeDepth } := by
  refine ⟨?_, hst.last, hst.sr, hst.mmu, hst.kept, congrArg f hst.depth, hst.clear⟩
  conv_lhs => rw [hst.same]
  rfl

omit hb h030 in
theorem enterRun_apart {s t : Cpu μ} (hst : Apart h.prefs d tight s t) :
    Apart h.prefs (d + 1) tight (enterRun h s) (enterRun h t) := by
  have hdeep := setDepth_apart (· + 1) hst
  unfold enterRun
  split
  · exact (Passive.mapSpc _).apart hdeep
  · exact hdeep

omit hb h030 in
theorem leaveRun_apart {s t : Cpu μ} (hst : Apart h.prefs (d + 1) tight s t) :
    Apart h.prefs d tight (leaveRun s) (leaveRun t) := setDepth_apart (· - 1) hst

omit hb h030 in
theorem sameClock {s t : Cpu μ} (hst : Apart h.prefs d tight s t) : t.clock = s.clock := hst.sameMachine.clock

omit hb h030 in
/-- An execute call ends by leaving its level and reading the clock. -/
theorem leave {out : Int → Int} :
    Blind (Apart h.prefs (d + 1) tight : Cpu μ → Cpu μ → Prop) (Apart h.prefs d tight) (fun _ _ => False) (do
      update leaveRun
      let now ← reads fun c => c.clock.currcycle
      return out now) :=
  Blind.update_bind (fun _ _ h => leaveRun_apart h) <|
    Blind.reads_bind (fun _ _ h => by rw [sameClock h]) fun _ _ _ => Blind.pure

theorem uaeHostRun (fuel : Nat) (cycles : Int) :
    Blind (Apart h.prefs d tight) (Apart h.prefs d tight) (fun _ _ => False) (uaeHostRun h fuel cycles) := by
  refine Blind.reads_bind (fun s t hst => by rw [sameClock hst]) fun s t hst =>
    Blind.update_bind (fun _ _ h => enterRun_apart h) (Blind.reads_bind (fun s t hst => ?_) fun s t hst => ?_)
  · rw [hst.depth, hst.depth']
  · exact Blind.ite (fun _ => Blind.bind (hb.runJitPath h030 fuel cycles) fun _ => leave) fun _ =>
      Blind.bind (hb.runLoop h030 fuel _) fun _ => leave

theorem uaeHostStep (fuel : Nat) :
    Blind (Apart h.prefs d tight) (Apart h.prefs d tight) (fun _ _ => False) (uaeHostStep h fuel) := by
  refine Blind.reads_bind (fun s t hst => by rw [sameClock hst]) fun s t hst =>
    Blind.update_bind (fun _ _ h => setDepth_apart (· + 1) h) (Blind.bind (Blind.tryCatch (E := Apart h.prefs (d + 1) True)
      ?_ fun _ => Blind.bind hb.busError fun _ => Blind.pure) fun exited => leave)
  exact Blind.bind (hb.checkSpecialties h030 fuel) fun _ => Blind.ite (fun _ => Blind.pure) fun _ =>
    Blind.bind hb.stepInstr fun _ => Blind.pure

end BlindHost

/-! ## Calls outside -/

/-- The configurations in which nothing comes of a call outside execution: none keeps the error pending,
and no frame holds what was written down but not thrown, as those of an address error under the 68030 MMU. -/
def unnoticed (p : Prefs) : Bool := !flagsBusErrors p && !(p.mmuModel && decide (p.cpuModel = .m68030))

theorem unnoticed_thrown {p : Prefs} (hu : unnoticed p = true) : flagsBusErrors p = false := by
  simp only [unnoticed, Bool.and_eq_true, Bool.not_eq_true'] at hu
  exact hu.1

theorem unnoticed_mmu {p : Prefs} (hu : unnoticed p = true) (hm : p.mmuModel = true) : p.cpuModel ≠ .m68030 := by
  simp only [unnoticed, Bool.and_eq_true, Bool.not_eq_true', hm, Bool.true_and, decide_eq_false_iff_not] at hu
  exact hu.2

theorem recordBusError_apart {p : Prefs} {c : Cpu μ} {addr : Long} {isWrite : Bool} {size : Int}
    (hu : unnoticed p = true) {d : Nat} (hd : c.executeDepth = d) (hc : c.latch.hardwareBusError = false) :
    Apart p d (p.mmuModel = true ∧ p.cpuModel = .m68030) c
      (recordBusError p .rest addr isWrite (sizeCode size) c) := by
  unfold recordBusError
  by_cases hm : p.mmuModel = true
  · have h030 := unnoticed_mmu hu hm
    rw [if_pos hm, if_neg h030]
    have hno : ¬(p.mmuModel = false ∨ p.mmuModel = true ∧ p.cpuModel = .m68030) := by
      rw [hm]
      exact fun h => h.elim (fun h => by cases h) fun h => h030 h.2
    split
    · rename_i h040
      exact ⟨rfl, fun _ => rfl, rfl, fun ho => absurd ho hno, ⟨rfl, rfl, rfl, fun _ => rfl,
        fun h => absurd h040 h, fun h => absurd h040 h, fun h => absurd h040 h, fun h => absurd h040 h⟩, hd, hc⟩
    · rename_i h040
      exact ⟨rfl, fun _ => rfl, rfl, fun ho => absurd ho hno, ⟨rfl, rfl, rfl, fun h => absurd h h040,
        fun _ => rfl, fun _ => rfl, fun _ => rfl, fun _ => rfl⟩, hd, hc⟩
  · rw [if_neg hm]
    have hno : ¬(p.mmuModel = true ∨ p.mmuModel = true ∧ p.cpuModel = .m68030) := fun h =>
      h.elim hm fun h => hm h.1
    refine ⟨?_, fun ho => absurd ho hno, rfl, fun _ => rfl, .refl .., hd, hc⟩
    have hlatch : { c.latch with hardwareBusError := false } = c.latch := by rw [← hc]
    exact congrArg (fun l : Latch => ({ c with latch := { l with
      last := (recordNoMmu .rest addr isWrite (sizeCode size) c).latch.last } } : Cpu μ)) hlatch

section Session

variable {h : Host μ}

theorem fixupMod_depth (data : Byte) (c : Cpu μ) : (fixupMod data c).executeDepth = c.executeDepth := by
  unfold fixupMod
  split <;> rfl

theorem recordBusError_depth (p : Prefs) (x : AccessStatics) (addr : Long) (isWrite : Bool) (sz : Int) (c : Cpu μ) :
    (recordBusError p x addr isWrite sz c).executeDepth = c.executeDepth := by
  unfold recordBusError
  split
  · split
    · exact (fixupMod_depth _ _).trans (fixupMod_depth _ _)
    · split <;> rfl
  · rfl

theorem hardwareException2_apply {p : Prefs} (hp : flagsBusErrors p = false) (x : AccessStatics) (addr : Long)
    (isWrite : Bool) (sz : Int) (c : Cpu μ) : hardwareException2 p x addr isWrite sz c =
      if c.executeDepth ≠ 0 then .thrown 2 (recordBusError p x addr isWrite sz c)
      else .ret () (recordBusError p x addr isWrite sz c) := by
  unfold hardwareException2
  rw [hp, if_neg Bool.false_ne_true, update_bind_apply]
  unfold throwIfCaught
  rw [reads_bind_apply, recordBusError_depth]
  by_cases hd : c.executeDepth ≠ 0
  · rw [if_pos hd, if_pos hd]
    rfl
  · rw [if_neg hd, if_neg hd]
    rfl

/-- A call made outside comes back, with the record written. -/
theorem raise_outside {p : Prefs} (hp : flagsBusErrors p = false) {x : AccessStatics} {addr : Long} {isWrite : Bool}
    {size : Int} {c : Cpu μ} (hd : c.executeDepth = 0) : uaeCpuRaiseBusError p x false addr isWrite size c =
      .ret () (recordBusError p x addr isWrite (sizeCode size) c) :=
  (hardwareException2_apply hp ..).trans (if_neg fun h => h hd)

/-- A fault is written down whole: where it was raised from such states they are the same after. -/
theorem recordBusError_whole {p : Prefs} {d : Nat} {tight : Prop}
    (h030 : p.mmuModel = true → p.cpuModel = .m68030 → tight) {s t : Cpu μ} (hst : Apart p d tight s t)
    (x : AccessStatics) (addr : Long) (isWrite : Bool) (sz : Int) :
    recordBusError p x addr isWrite sz t = recordBusError p x addr isWrite sz s := by
  unfold recordBusError
  by_cases hm : p.mmuModel = true
  · rw [if_pos hm, if_pos hm]
    have hlast := hst.last (.inl hm)
    by_cases hp : p.cpuModel = .m68030
    · rw [if_pos hp, if_pos hp, (hst.loosen fun _ => h030 hm hp).eq]
    rw [if_neg hp, if_neg hp]
    obtain ⟨hsame, -, -, -, hkept, -, -⟩ := hst
    generalize t.latch.last = l at *
    generalize t.latch.mmu = m at *
    subst hsame hlast
    by_cases h040 : p.cpuModel = .m68040
    · rw [if_pos h040, if_pos h040]
      simp only [record040, Cpu.mapLatch, withRecord, hkept.effectiveAddr, hkept.wb2Address, hkept.move16,
        hkept.fslw h040]
      rfl
    · rw [if_neg h040, if_neg h040]
      simp only [record060, Cpu.mapLatch, withRecord, hkept.effectiveAddr, hkept.wb2Address, hkept.move16,
        hkept.ssw h040, hkept.wb2Status h040, hkept.wb3Data h040, hkept.wb3Status h040]
      rfl
  · rw [if_neg hm, if_neg hm]
    have hmmu := hst.mmu (.inl (Bool.eq_false_iff.mpr hm))
    obtain ⟨hsame, -, hsr, -, -, -, -⟩ := hst
    generalize t.latch.last = l at *
    generalize t.latch.mmu = m at *
    subst hsame hmmu
    simp only [recordNoMmu, exception2Setup, Cpu.mapLatch, withRecord, hsr]
    rfl

theorem recordBusError_clear (p : Prefs) (x : AccessStatics) (addr : Long) (isWrite : Bool) (sz : Int) (c : Cpu μ)
    (hc : c.latch.hardwareBusError = false) :
    (recordBusError p x addr isWrite sz c).latch.hardwareBusError = false := by
  have hfix : ∀ (b : Byte) (c : Cpu μ), (fixupMod b c).latch = c.latch := fun b c => by
    unfold fixupMod
    split <;> rfl
  unfold recordBusError
  split
  · split
    · simp only [record030, Cpu.mapLatch, hfix]
      exact hc
    · split
      · exact hc
      · exact hc
  · rfl

/-- So a part that raises bus errors of its own is blind. -/
theorem raise_blinded {p : Prefs} (hp : flagsBusErrors p = false) {d : Nat} {tight : Prop}
    (h030 : p.mmuModel = true → p.cpuModel = .m68030 → tight) (x : AccessStatics) (addr : Long) (isWrite : Bool)
    (size : Int) : Blinded (μ := μ) p d tight (uaeCpuRaiseBusError p x false addr isWrite size) := by
  intro s t hst
  have hrec := recordBusError_whole h030 hst x addr isWrite (sizeCode size)
  have hd := (recordBusError_depth p x addr isWrite (sizeCode size) s).trans hst.depth
  have hc := recordBusError_clear p x addr isWrite (sizeCode size) s hst.clear
  have hraise := fun c : Cpu μ => hardwareException2_apply hp x addr isWrite (sizeCode size) c
  change (hardwareException2 p x addr isWrite (sizeCode size) s).Agree _ _
    (hardwareException2 p x addr isWrite (sizeCode size) t)
  rw [hraise, hraise, hst.depth, hst.depth', hrec]
  by_cases hzero : d ≠ 0
  · rw [if_pos hzero]
    exact .thrown (.refl hd hc)
  · rw [if_neg hzero]
    exact .ret (.refl hd hc)

theorem session_apart (hb : BlindHost h) (fuel : Nat) : ∀ (cs : List (HostCall μ)) (s t : Cpu μ),
    (∀ m, .api m ∈ cs → Blinded h.prefs 0 (h.prefs.mmuModel = true ∧ h.prefs.cpuModel = .m68030) m) →
    (∀ c ∈ cs, c.isRaise = true → unnoticed h.prefs = true) →
    Apart h.prefs 0 (h.prefs.mmuModel = true ∧ h.prefs.cpuModel = .m68030) s t →
    (session h fuel cs s).Agree
      (Apart h.prefs 0 (h.prefs.mmuModel = true ∧ h.prefs.cpuModel = .m68030)) (Apart h.prefs 0 True)
      (session h fuel (cs.filter fun c => !c.isRaise) t)
  | [], s, t, _, _, hst => .ret hst
  | .run cycles :: cs, s, t, hm, hu, hst =>
    ((hb.uaeHostRun (fun h h' => ⟨h, h'⟩) fuel cycles s t hst).mono (fun _ _ h => h) fun _ _ h => h.elim).bind
      fun n s' t' _ _ hst' => (session_apart hb fuel cs s' t' (fun m h => hm m (.tail _ h))
        (fun c h => hu c (.tail _ h)) hst').bind fun _ _ _ _ _ hst'' => .ret hst''
  | .step :: cs, s, t, hm, hu, hst =>
    ((hb.uaeHostStep (fun h h' => ⟨h, h'⟩) fuel s t hst).mono (fun _ _ h => h) fun _ _ h => h.elim).bind
      fun n s' t' _ _ hst' => (session_apart hb fuel cs s' t' (fun m h => hm m (.tail _ h))
        (fun c h => hu c (.tail _ h)) hst').bind fun _ _ _ _ _ hst'' => .ret hst''
  | .api m :: cs, s, t, hm, hu, hst =>
    (hm m (.head _) s t hst).bind fun u s' t' _ _ hst' =>
      session_apart hb fuel cs s' t' (fun m h => hm m (.tail _ h)) (fun c h => hu c (.tail _ h)) hst'
  | .raise addr isWrite size :: cs, s, t, hm, hu, hst => by
    have hp := hu _ (.head _) rfl
    have hr : uaeCpuRaiseBusError h.prefs .rest false addr isWrite size s =
        .ret () (recordBusError h.prefs .rest addr isWrite (sizeCode size) s) :=
      raise_outside (unnoticed_thrown hp) hst.depth
    have hs : Apart h.prefs 0 (h.prefs.mmuModel = true ∧ h.prefs.cpuModel = .m68030)
        (recordBusError h.prefs .rest addr isWrite (sizeCode size) s) t :=
      (recordBusError_apart hp hst.depth hst.clear).symm.trans hst
    have hgo := session_apart hb fuel cs _ t (fun m h => hm m (.tail _ h)) (fun c h => hu c (.tail _ h)) hs
    have he : session h fuel (.raise addr isWrite size :: cs) s =
        session h fuel cs (recordBusError h.prefs .rest addr isWrite (sizeCode size) s) := bind_ret hr
    rw [he]
    exact hgo

/-- What `uae_cpu_raise_bus_error` does. Outside the execute calls it leaves every later one the same:
what they return, the registers, the memory and the callbacks that are made. Inside it aborts the
instruction, whose exception comes next. And no bus error is left pending. -/
theorem raise_bus_error_effects (hb : BlindHost h) :
    (∀ (fuel : Nat) (cs : List (HostCall μ)) (c : Cpu μ), c.executeDepth = 0 → c.latch.hardwareBusError = false →
      (∀ m, .api m ∈ cs → Blinded h.prefs 0 (h.prefs.mmuModel = true ∧ h.prefs.cpuModel = .m68030) m) →
      (∀ call ∈ cs, call.isRaise = true → unnoticed h.prefs = true) →
      (session h fuel cs c).Agree (fun s t => SameMachine s t ∧ s.latch.hardwareBusError = false) (fun s t => s = t)
        (session h fuel (cs.filter fun c => !c.isRaise) c)) ∧
    (flagsBusErrors h.prefs = false → ∀ (x : AccessStatics) (addr : Long) (isWrite : Bool) (size : Int)
      (before : FaultM (Cpu μ) Unit) (after : Unit → FaultM (Cpu μ) Bool) (c c' : Cpu μ),
      before c = .ret () c' → 0 < c'.executeDepth → c'.latch.hardwareBusError = false →
      tryCatch (do before; uaeCpuRaiseBusError h.prefs x false addr isWrite size; after ())
          (fun _ => do busError h; return true) c =
        (do busError h; return true) (recordBusError h.prefs x addr isWrite (sizeCode size) c') ∧
      (recordBusError h.prefs x addr isWrite (sizeCode size) c').latch.hardwareBusError = false) := by
  refine ⟨fun fuel cs c hd hc hm hu => ?_, fun hp x addr isWrite size before after c c' hbefore hd hc => ⟨?_, ?_⟩⟩
  · exact (session_apart hb fuel cs c c hm hu (.refl hd hc)).mono (fun s t hst => ⟨hst.sameMachine, hst.clear⟩)
      fun s t hst => hst.eq.symm
  · have hraise : uaeCpuRaiseBusError h.prefs x false addr isWrite size c' =
        .thrown 2 (recordBusError h.prefs x addr isWrite (sizeCode size) c') :=
      (hardwareException2_apply hp ..).trans (if_pos (Nat.ne_of_gt hd))
    exact tryCatch_thrown ((bind_ret hbefore).trans (bind_thrown hraise))
  · exact recordBusError_clear h.prefs x addr isWrite (sizeCode size) c' hc

end Session

/-! ## Where a call outside is noticed -/

/-- `op_4e71_12`, the NOP of a prefetching 68000: it looks for the bus error of its own prefetch. -/
def opNop12 (h : Host μ) (_opcode : Word) : FaultM (Cpu μ) Long := do
  update fun c => c.mapRegs fun r => { r with ir := r.irc }
  let c ← reads id
  let irc ← h.port.getWord (c.regs.pc + 4)
  update fun c => (c.mapRegs fun r => { r with irc := irc }).mapLatch fun l => { l with
    pipe := { l.pipe with readBuffer := irc } }
  let failed ← reads (·.latch.hardwareBusError)
  if failed then
    let op : Long := (if c.regs.t1 then 0x10000 else 0) ||| c.regs.ir.setWidth 32
    exception2Fetch h (UaeCpu.exception h) op 4 0
    return 4 * 256
  else
    update fun c => c.mapRegs fun r => { r with pc := r.pc + 2 }
    return 4 * 256

/-- A prefetching 68000 over RAM full of NOPs. -/
def prefetching68000 : Host (Long → Byte) :=
  let h : Host (Long → Byte) := .ram { Prefs.plain .m68000 with cpuCompatible := true } Mem.ofFun fun _ => opNop
  { h with cpufunctbl := opNop12 h }

/-- It is about to run from `$400`, with the bus error vector at `$3000`. -/
def started68000 : Cpu (Long → Byte) :=
  (Cpu.reset prefetching68000.prefs 0x1000 0x400 fun a => if a = 0x0A then 0x30
    else if a < 0x400 then 0 else if a &&& 1 = 0 then 0x4E else 0x71).mapRegs fun r => { r with
      ir := 0x4E71, irc := 0x4E71 }

/-- A 68030 with its MMU, that does not translate. -/
def translating68030 : Host (Long → Byte) :=
  .ram { Prefs.plain .m68030 with mmuModel := true } Mem.ofFun fun _ => opNop

/-- It has a level 6 request before it, whose vector is odd, and the address error vector at `$3000`. -/
def requested68030 : Cpu (Long → Byte) :=
  let c : Cpu (Long → Byte) := .reset translating68030.prefs 0x1000 0x400 fun a =>
    if a = 0x0E then 0x30 else if a = 0x7B then 1 else 0
  { c.mapRegs (fun r => { r with intmask := 0, spc := { r.spc with int := true } }) with
    pending := { c.pending with irqLevel := 6 } }

def pcAfter (o : Outcome (Cpu (Long → Byte)) (List Int)) : Option Long :=
  match o with
  | .ret _ c => some c.regs.pc
  | _ => none

/-- The stage B address of the long bus fault frame at A7. -/
def stageBAfter (o : Outcome (Cpu (Long → Byte)) (List Int)) : Option Long :=
  match o with
  | .ret _ c => some (Mem.rd32 Mem.ofFun c.world (c.regs.sp.a7 + 0x24))
  | _ => none

/-- One call before the run. A prefetching 68000 takes a bus error in place of its NOP, and the address
error frame of a 68030 with its MMU holds the address of the call. -/
theorem raise_outside_taken :
    pcAfter (session prefetching68000 5 [.run 1] started68000) = some 0x402 ∧
      pcAfter (session prefetching68000 5 [.raise 0x123456 false 2, .run 1] started68000) = some 0x3000 ∧
      stageBAfter (session translating68030 5 [.run 1] requested68030) = some 0 ∧
      stageBAfter (session translating68030 5 [.raise 0x123456 false 2, .run 1] requested68030) = some 0x123456 := by
  refine ⟨by decide +kernel, by decide +kernel, by decide +kernel, ?_⟩
  decide +kernel

/-- Nothing over RAM is blind to more than its opcode handlers are. -/
theorem ram_blindHost {p : Prefs} {M : Mem.ByteMem μ} {tbl : Word → FaultM (Cpu μ) Long}
    (ht : ∀ op d t, Blinded p d t (tbl op)) : BlindHost (Host.ram p M tbl) where
  getLong _ _ _ := Blind.reads fun s t hst => by rw [hst.same]; rfl
  getWord _ _ _ := Blind.reads fun s t hst => by rw [hst.same]; rfl
  getIword _ _ := Blind.reads fun s t hst => by rw [hst.same]; rfl
  physGetLong _ _ _ := Blind.reads fun s t hst => by rw [hst.same]; rfl
  putLong _ _ _ _ := .passive ⟨fun _ _ _ => rfl, fun _ => rfl, fun _ => rfl, fun _ => rfl, fun _ => rfl⟩
  putWord _ _ _ _ := .passive ⟨fun _ _ _ => rfl, fun _ => rfl, fun _ => rfl, fun _ => rfl, fun _ => rfl⟩
  fillPrefetch _ _ := .pure
  getIrq _ h := by cases h
  intAck _ h := by cases h
  trap _ h := by cases h
  instr _ h := by cases h
  exception _ h := by cases h
  group1 _ _ _ _ := rfl
  cpufunctbl := ht
  compiled _ _ := .pure

/-- A 68020 every instruction of which reads a device that faults. -/
def faulting68020 : Host (Long → Byte) :=
  .ram (.plain .m68020) Mem.ofFun fun _ => do
    uaeCpuRaiseBusError (.plain .m68020) .rest false 0x400000 false 2
    return 0

theorem faulting68020_blind : BlindHost faulting68020 := ram_blindHost fun _ _ _ =>
  .bind (raise_blinded rfl (fun h => absurd h Bool.false_ne_true) .rest _ _ _) fun _ => .pure

def started68020 : Cpu (Long → Byte) := .reset (.plain .m68020) 0x1000 0x400 fun _ => 0

/-- What a host does with it: two runs, and an error raised before each. -/
def raisingCalls : List (HostCall (Long → Byte)) :=
  [.raise 0x123456 false 2, .run 1, .raise 0x400000 true 4, .step]

theorem raise_bus_error_effects_68020 : raisingCalls.filter (fun c => !c.isRaise) = [.run 1, .step] ∧
    (session faulting68020 5 raisingCalls started68020).Agree
      (fun s t => SameMachine s t ∧ s.latch.hardwareBusError = false) (fun s t => s = t)
      (session faulting68020 5 (raisingCalls.filter fun c => !c.isRaise) started68020) := by
  refine ⟨rfl, ?_⟩
  have hapi : ∀ m, .api m ∈ raisingCalls → Blinded faulting68020.prefs 0
      (faulting68020.prefs.mmuModel = true ∧ faulting68020.prefs.cpuModel = .m68030) m := fun m hm => by
    simp [raisingCalls] at hm
  exact (raise_bus_error_effects faulting68020_blind).1 5 raisingCalls started68020 rfl rfl hapi fun _ _ _ => rfl

end UaeCpu.BusError
