import UaeCpu.Interrupt

/-!
# UaeCpu.Run

The execution entry points of `host_hooks.c`: `uae_host_run`, with its interpreter loop and its
JIT path, and `uae_host_step`.

Loops carry a bound and do not come back when it runs out, so that "the call returns" is
"some bound is enough".
-/

namespace UaeCpu

open Fault FaultM

variable {μ : Type}

/-- `(int)x` of a 64-bit value. -/
def toCInt (x : Int) : Int := (BitVec.ofInt 32 x).toInt

/-! ## One instruction -/

def callInstrHook (h : Host μ) : FaultM (Cpu μ) Unit :=
  match h.instr with
  | some hook => do hook (← reads (·.regs.pc))
  | none => pure ()

/-- The ticks an instruction is charged: what its handler returned, or, when that is nothing,
what the generated code left in `CurrentInstrCycles`, with 4 cycles as a floor. -/
def chargedTicks (c : Cpu μ) (cyc : Long) : Int :=
  let cyc := (cyc &&& 0xFFFF).toNat
  if cyc = 0 then
    (if 0 < c.currentInstrCycles then c.currentInstrCycles else 4) * (cycleUnit / 2)
  else cyc

/-- The body of the interpreter loop after the special flags. -/
def executeInstr (h : Host μ) : FaultM (Cpu μ) Unit := do
  callInstrHook h
  let opcode ←
    if h.prefs.cpuCompatible ∧ h.prefs.cpuModel.num ≤ 68010 then reads (·.regs.ir)
    else h.port.getIword
  update fun c => c.mapRegs fun r => { r with instructionPc := r.pc, opcode := opcode }
  let cyc ← h.cpufunctbl opcode
  update fun c => c.doCycles (chargedTicks c cyc)
  update fun c => c.mapRegs fun r => { r with instructionCnt := r.instructionCnt + 1 }

/-- `if (regs.spcflags) if (do_specialties(0)) ..`. -/
def checkSpecialties (h : Host μ) (fuel : Nat) : FaultM (Cpu μ) Bool := do
  let any ← reads (·.regs.spc.any)
  if any then doSpecialties h fuel else return false

/-! ## The JIT dispatcher -/

/-- One instruction of the loop `m68k_run_jit` falls back to while `T0`, `T1` or `M` is set. -/
def tracedPass (h : Host μ) (fuel : Nat) : FaultM (Cpu μ) Bool := do
  let r ← reads (·.regs)
  if r.t0 ∨ r.t1 ∨ r.m then
    update fun c => c.mapRegs fun r => { r with instructionPc := r.pc }
    let opcode ← h.port.getIword
    update fun c => c.mapRegs fun r => { r with opcode := opcode }
    let _ ← h.cpufunctbl opcode
    update fun c => c.doCycles (4 * cycleUnit)
    return !(← checkSpecialties h fuel)
  else return false

/-- One round of the dispatcher: translated code, then the special flags, then the fallback
loop, whose `check_debugger` drops a pending `SPCFLAG_BRK`. A fault in translated code becomes
an exception and translated code is called again. -/
def jitRound (h : Host μ) (fuel : Nat) : FaultM (Cpu μ) Bool := do
  let returned ← tryCatch (do h.compiled; return true)
    fun exc => do exception h exc.toNat; return false
  if !returned then return true
  else if ← checkSpecialties h fuel then return false
  else
    let r ← reads (·.regs)
    if r.t0 ∨ r.t1 ∨ r.m then
      update fun c => c.mapSpc fun f => { f with brk := false }
      loop (tracedPass h fuel) fuel
      update fun c => c.mapSpc fun f => { f with endCompile := false }
    return true

/-- `m68k_run_jit`. -/
def runJit (h : Host μ) (fuel : Nat) : FaultM (Cpu μ) Unit := do
  if ← checkSpecialties h fuel then pure () else loop (jitRound h fuel) fuel

/-! ## `uae_host_run` -/

/-- The configuration runs translated code in an outermost call. -/
def Prefs.jit (p : Prefs) : Bool :=
  p.cachesize != 0 && decide (68020 ≤ p.cpuModel.num) && !p.cpuCompatible && !p.mmuModel

/-- The guard of the interpreter loop. -/
def runnable (target : Int) (c : Cpu μ) : Bool :=
  decide (c.clock.currcycle < target) && c.regs.stopped == .no && c.regs.halted == 0

/-- One pass of the interpreter loop; `false` when the loop is left. -/
def runPass (h : Host μ) (fuel : Nat) (target : Int) : FaultM (Cpu μ) Bool := do
  let go ← reads (runnable target)
  if !go then return false
  else if ← checkSpecialties h fuel then return false
  else
    executeInstr h
    return true

/-- The interpreter loop and the `TRY`/`CATCH` around it: a fault leaves the inner `while`, and
after the bus error frame the outer one enters it again under the same guard. -/
def runLoop (h : Host μ) (fuel : Nat) (target : Int) : FaultM (Cpu μ) Unit :=
  loop (tryCatch (runPass h fuel target) fun _ => do busError h; return true) fuel

/-- Entry of `uae_host_run`: one level deeper, and a pulled level is sampled at least once. -/
def enterRun (h : Host μ) (c : Cpu μ) : Cpu μ :=
  let c := { c with executeDepth := c.executeDepth + 1 }
  if h.getIrq.isSome then signalIrq c else c

def leaveRun (c : Cpu μ) : Cpu μ := { c with executeDepth := c.executeDepth - 1 }

/-- The JIT path sets the countdown up, runs the dispatcher and credits what is left. -/
def runJitPath (h : Host μ) (fuel : Nat) (cycles : Int) : FaultM (Cpu μ) Unit := do
  update fun c => { c with clock := (JitClock.start c.clock cycles).clock }
  tryCatch (runJit h fuel) fun _ => busError h
  update fun c => { c with clock := { c.clock with
    currcycle := c.clock.currcycle + c.clock.consumed, pissoffValue := 0, pissoff := 0,
    jitRunActive := false } }

/-- `uae_host_run`. -/
def uaeHostRun (h : Host μ) (fuel : Nat) (cycles : Int) : FaultM (Cpu μ) Int := do
  let start ← reads (·.clock.currcycle)
  update (enterRun h)
  let depth ← reads (·.executeDepth)
  if h.prefs.jit ∧ depth = 1 then runJitPath h fuel cycles
  else runLoop h fuel (start + cycles * cycleUnit)
  update leaveRun
  let now ← reads (·.clock.currcycle)
  return toCInt ((now - start).tdiv cycleUnit)

/-! ## `uae_host_step` -/

/-- The instruction of `uae_host_step`: a prefetching CPU executes what it has prefetched, and a
handler that returned no cycles is charged none. -/
def stepInstr (h : Host μ) : FaultM (Cpu μ) Unit := do
  callInstrHook h
  let opcode ←
    if h.prefs.cpuCompatible then
      if h.prefs.cpuModel.num ≤ 68010 then reads (·.regs.ir) else reads (·.regs.irc)
    else h.port.getIword
  update fun c => c.mapRegs fun r => { r with instructionPc := r.pc, opcode := opcode }
  let cyc ← h.cpufunctbl opcode
  update fun c => c.doCycles (cyc &&& 0xFFFF).toNat
  update fun c => c.mapRegs fun r => { r with instructionCnt := r.instructionCnt + 1 }

/-- `uae_host_step`. -/
def uaeHostStep (h : Host μ) (fuel : Nat) : FaultM (Cpu μ) Int := do
  let start ← reads (·.clock.currcycle)
  update fun c => { c with executeDepth := c.executeDepth + 1 }
  let exited ← tryCatch
    (do if ← checkSpecialties h fuel then return true
        else do stepInstr h; return false)
    fun _ => do busError h; return false
  update leaveRun
  let now ← reads (·.clock.currcycle)
  return if exited then 0 else toCInt ((now - start).tdiv cycleUnit)

end UaeCpu
