import UaeCpu.Exception

/-!
# UaeCpu.Interrupt

Interrupt requests and the special-flag service between instructions: the host calls that push
a level, `doint`, `do_interrupt` and `do_specialties`.
-/

namespace UaeCpu

open Fault FaultM

variable {μ : Type}

/-! ## Host calls -/

/-- `uae_cpu_set_irq`, `m68k_set_irq`. -/
def setIrq (level : Long) (c : Cpu μ) : Cpu μ :=
  let l := level.setWidth 3
  let c := { c with pending := { c.pending with irqLevel := l } }
  if 0 < l then c.mapSpc fun f => { f with int := true } else c

/-- `m68k_set_virq`. -/
def setVirq (level : Long) (active : Bool) (c : Cpu μ) : Cpu μ :=
  let bit : Byte := 1 <<< (level.setWidth 3).toNat
  let virq := if active then c.pending.virq ||| bit else c.pending.virq &&& ~~~bit
  let c := { c with pending := { c.pending with virq := virq } }
  if virq ≠ 0 then c.mapSpc fun f => { f with int := true } else c

/-- `uae_cpu_signal_irq`. -/
def signalIrq (c : Cpu μ) : Cpu μ := c.mapSpc fun f => { f with int := true }

/-- `uae_cpu_end_timeslice`, `m68k_end_timeslice`. -/
def endTimeslice (c : Cpu μ) : Cpu μ := c.mapSpc fun f => { f with brk := true }

/-! ## `doint` -/

/-- `update_ipl`: with accurate sampling a level that arrives in the middle of a memory access
is sampled at once. -/
def updateIpl (p : Prefs) (ipl : Level) (c : Cpu μ) : Cpu μ :=
  let now := c.clock.currcycle
  c.mapRegs fun r =>
    let r := { r with ipl := { r.ipl with
      changeEvtP := r.ipl.changeEvt, pinP := r.ipl.pin, changeEvt := now, pin := ipl } }
    if p.accurateIpl ∧ 0 < ipl ∧ now = r.ipl.evtPre + 2 * cpuCycleUnit then
      if r.ipl.evtPreMode then iplFetchNext now r else iplFetchNow r
    else r

/-- What `doint` does once the level is known. -/
def dointWith (p : Prefs) (ipl : Level) (c : Cpu μ) : Cpu μ :=
  let c := if c.regs.ipl.pin = ipl then c else updateIpl p ipl c
  if p.interruptDelay then
    if !p.accurateIpl ∧ c.regs.intmask < c.regs.ipl.pin then
      c.mapSpc fun f => { f with doInt := true }
    else c
  else if c.regs.intmask < c.regs.ipl.pin ∨ p.cachesize ≠ 0 then
    if p.cpuCompatible ∧ p.cpuModel.num < 68020 then c.mapSpc fun f => { f with int := true }
    else c.mapSpc fun f => { f with doInt := true }
  else c

/-- `doint`. -/
def doint (h : Host μ) : FaultM (Cpu μ) Unit := do
  let ipl ← intlev h
  update (dointWith h.prefs ipl)

/-- `checkint`. -/
def checkint (h : Host μ) : FaultM (Cpu μ) Unit := do
  doint h
  if !h.prefs.accurateIpl ∧ h.prefs.cachesize = 0 then
    update fun c => c.mapSpc fun f => { f with int := f.int || f.doInt }

/-! ## `do_interrupt` -/

/-- One round of the loop in `do_interrupt`: the level to go on with, if any. -/
def interruptRound (h : Host μ) (nr : Level) : FaultM (Cpu μ) (Option Level) := do
  exception h (nr.toNat + 24)
  if !h.prefs.cpuCompatible ∨ h.prefs.cpuModel = .m68060 then return none
  else
    let nr ← if h.prefs.interruptDelay then reads (·.regs.ipl.ipl0) else intlev h
    let mask ← reads (·.regs.intmask)
    return if nr = 0 ∨ nr ≤ mask then none else some nr

/-- The `for (;;)` loop of `do_interrupt`, for at most `fuel` rounds. -/
def interruptLoop (h : Host μ) : Nat → Level → FaultM (Cpu μ) Unit
  | 0, _ => fun _ => .diverge
  | fuel + 1, nr => do
    match ← interruptRound h nr with
    | some nr => interruptLoop h fuel nr
    | none => pure ()

/-- `do_interrupt`. -/
def doInterrupt (h : Host μ) (fuel : Nat) (nr : Level) : FaultM (Cpu μ) Unit := do
  interruptLoop h fuel nr
  doint h

/-! ## `do_specialties` -/

/-- `do_trace`. -/
def doTrace (p : Prefs) (r : Regs) : Regs :=
  if r.stopped ≠ .no then r
  else
    let r := { r with tracePc := r.pc }
    if r.t0 ∧ !r.t1 ∧ 68020 ≤ p.cpuModel.num then r
    else if r.t1 then { r with spc := activateTrace r.spc }
    else r

/-- `time_for_interrupt`. -/
def timeForInterrupt (r : Regs) : Level :=
  if r.intmask < r.ipl.ipl0 ∨ r.ipl.ipl0 = 7 then r.ipl.ipl0 else 0

/-- The interrupt part of `do_specialties`; `int` is `SPCFLAG_INT` in the flags it started
with. -/
def serviceInterrupt (h : Host μ) (fuel : Nat) (int : Bool) : FaultM (Cpu μ) Unit := do
  if h.prefs.interruptDelay ∧ h.prefs.accurateIpl then
    let ipl ← reads fun c => timeForInterrupt c.regs
    if ipl ≠ 0 then
      update fun c => c.mapSpc fun f => { f with int := false }
      doInterrupt h fuel ipl
  else if int then
    let intr ← intlev h
    update fun c => c.mapSpc fun f => { f with int := false, doInt := false }
    let c ← reads id
    if c.regs.intmask < intr ∨ (intr = 7 ∧ c.regs.ipl.lastipl < intr) then
      doInterrupt h fuel intr
    update fun c => c.mapRegs fun r => { r with ipl := { r.ipl with lastipl := intr } }

/-- `do_specialties`: `true` asks the loop to leave. The flags are read once, at the start. -/
def doSpecialties (h : Host μ) (fuel : Nat) : FaultM (Cpu μ) Bool := do
  let spc ← reads (·.regs.spc)
  if spc.modeChange then return true
  if spc.check then update fun c => c.mapSpc fun f => { f with check := false }
  if spc.endCompile then update fun c => c.mapSpc fun f => { f with endCompile := false }
  if spc.mmuRestart then
    update fun c => c.mapSpc fun f => { f with mmuRestart := false }
    if spc.trace then update fun c => c.mapRegs (doTrace h.prefs)
  else
    if spc.doTrace then exception h 9
    let trace ← reads (·.regs.spc.trace)
    if trace then update fun c => c.mapRegs (doTrace h.prefs)
    serviceInterrupt h fuel spc.int
    if spc.doInt then
      update fun c => c.mapSpc fun f => { f with doInt := false, int := true }
  if spc.brk then
    update fun c => c.mapSpc fun f => { f with brk := false }
    return true
  else return false

end UaeCpu
