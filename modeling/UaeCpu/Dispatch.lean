import UaeCpu.Lib.Loop
import UaeCpu.Regs

/-!
# UaeCpu.Dispatch

The opcode dispatch table: the preferences it depends on and how `uae_cpu_set_config` changes
them, `build_cpufunctbl` over the generated tables, and the opcode ranges a host reserves.

`none` is `abort()`.
-/

namespace UaeCpu

/-! ## Preferences -/

/-- What `build_cpufunctbl` reads of `currprefs`. The models are numbers, 0 for none, since the
host may give intermediate ones such as 68019. -/
structure DispatchPrefs where
  cpuModel : Nat
  fpuModel : Nat
  mmuModel : Nat
  cpuCompatible : Bool
  cpuCycleExact : Bool
  intNoUnimplemented : Bool
  cachesize : Nat
  comptrustbyte : Bool

/-- The part of `uae_cpu_config_t` behind them. -/
structure UaeCpuConfig where
  cpuType : Nat
  fpuType : Nat
  mmuType : Nat
  timingMode : Int
  jitEnabled : Bool
  jitCacheSize : BitVec 32
  jitDirectMemory : Bool

/-- `s_jit_cache_kb`, `canbang` and the static variables of `check_prefs_changed_comp`. -/
structure JitStatics where
  sJitCacheKb : Nat
  canbang : Bool
  cachesizePrev : Nat
  comptrustPrev : Bool

/-- `currprefs` and `changed_prefs`. -/
structure PrefsState where
  currprefs : DispatchPrefs
  changedPrefs : DispatchPrefs
  statics : JitStatics

/-- `default_prefs(&prefs, 68000)`, with the static variables zero. -/
def PrefsState.initial : PrefsState :=
  let p : DispatchPrefs :=
    { cpuModel := 68000, fpuModel := 0, mmuModel := 0, cpuCompatible := false,
      cpuCycleExact := false, intNoUnimplemented := false, cachesize := 0,
      comptrustbyte := false }
  { currprefs := p, changedPrefs := p,
    statics :=
      { sJitCacheKb := 0, canbang := false, cachesizePrev := 0, comptrustPrev := false } }

def setTrust (v : Bool) (s : PrefsState) : PrefsState :=
  { s with
    currprefs := { s.currprefs with comptrustbyte := v }
    changedPrefs := { s.changedPrefs with comptrustbyte := v } }

/-- `alloc_cache`: without memory for the cache the JIT is turned off. -/
def allocCache (allocOk : Bool) (s : PrefsState) : PrefsState :=
  if s.currprefs.cachesize ≠ 0 ∧ !allocOk then
    { s with
      currprefs := { s.currprefs with cachesize := 0 }
      changedPrefs := { s.changedPrefs with cachesize := 0 } }
  else s

/-- `check_prefs_changed_comp(false)`. -/
def checkPrefsChangedComp (allocOk : Bool) (s : PrefsState) : PrefsState :=
  let s := { s with
    currprefs := { s.currprefs with comptrustbyte := s.changedPrefs.comptrustbyte } }
  let s :=
    if s.currprefs.cachesize = s.changedPrefs.cachesize then s
    else
      let s :=
        if s.currprefs.cachesize ≠ 0 ∧ s.changedPrefs.cachesize = 0 then
          { s with
            statics := { s.statics with
              cachesizePrev := s.currprefs.cachesize
              comptrustPrev := s.currprefs.comptrustbyte } }
        else if s.currprefs.cachesize = 0 ∧
            s.changedPrefs.cachesize = s.statics.cachesizePrev then
          setTrust s.statics.comptrustPrev s
        else s
      allocCache allocOk
        { s with currprefs := { s.currprefs with cachesize := s.changedPrefs.cachesize } }
  if (!s.statics.canbang ∨ s.currprefs.cachesize = 0) ∧ s.currprefs.comptrustbyte = false then
    setTrust true s
  else s

/-- `fixup_cpu`; the width of the address space is no matter of dispatch. -/
def DispatchPrefs.fixupFpu (p : DispatchPrefs) : DispatchPrefs :=
  if 68040 ≤ p.cpuModel ∧ p.fpuModel ≠ 0 then { p with fpuModel := p.cpuModel } else p

/-- `prefs_changed_cpu`. -/
def prefsChangedCpu (allocOk : Bool) (s : PrefsState) : PrefsState :=
  let s := checkPrefsChangedComp allocOk { s with changedPrefs := s.changedPrefs.fixupFpu }
  { s with
    currprefs := { s.currprefs with
      cpuModel := s.changedPrefs.cpuModel
      fpuModel := s.changedPrefs.fpuModel
      mmuModel := s.changedPrefs.mmuModel
      cpuCompatible := s.changedPrefs.cpuCompatible
      cpuCycleExact := s.changedPrefs.cpuCycleExact
      intNoUnimplemented := s.changedPrefs.intNoUnimplemented } }

/-- The cache size `uae_host_configure_jit` asks for, within `MIN_JIT_CACHE` and
`MAX_JIT_CACHE`. The size is taken as an `int`. -/
def wantedCache (cfg : UaeCpuConfig) (p : DispatchPrefs) : Nat :=
  if cfg.jitEnabled ∧ 68020 ≤ p.cpuModel ∧ p.mmuModel = 0 ∧ !p.cpuCompatible then
    (min (max (if cfg.jitCacheSize ≠ 0 then cfg.jitCacheSize.toInt else 8192) 128) 16384).toNat
  else 0

/-- `uae_host_configure_jit`, in a build with or without the JIT. -/
def configureJitPrefs (jit allocOk : Bool) (cfg : UaeCpuConfig) (s : PrefsState) : PrefsState :=
  if jit then
    let s := checkPrefsChangedComp allocOk
      { currprefs := { s.currprefs with cachesize := s.statics.sJitCacheKb }
        changedPrefs := { s.changedPrefs with
          comptrustbyte := !cfg.jitDirectMemory
          cachesize := wantedCache cfg s.currprefs }
        statics := { s.statics with canbang := cfg.jitDirectMemory } }
    { s with statics := { s.statics with sJitCacheKb := s.currprefs.cachesize } }
  else { s with currprefs := { s.currprefs with cachesize := 0 } }

/-! ## Generated tables -/

/-- An entry of `cputbl`. -/
structure CpuTbl (H : Type) where
  handlerFf : H
  handlerFfNoret : H
  opcode : Word

/-- What `build_cpufunctbl` reads of an entry of `table68k`. -/
structure Instr where
  illg : Bool
  clev : Nat
  unimpclev : Nat
  handler : Option Word

/-- The generated parts of the emulator, and how it was built: with the JIT, and with opcodes
fetched without a byte swap. -/
structure CpuCore (H : Type) where
  cputbls : Nat → Nat → Option (List (CpuTbl H))
  opSmalltbl3 : List (CpuTbl H)
  table68k : Word → Instr
  opIllg1 : H
  opIllg1Noret : H
  opUnimpl1 : H
  opUnimpl1Noret : H
  jit : Bool
  getWordUnswapped : Bool

/-- `cpufunctbl` and `cpufunctbl_noret`. -/
structure Tables (H : Type) where
  cpufunctbl : Word → H
  cpufunctblNoret : Word → H

namespace Tables

variable {H : Type}

/-- Both handlers of an opcode. -/
def set (t : Tables H) (opcode : Word) (h hNoret : H) : Tables H :=
  { cpufunctbl := Function.update t.cpufunctbl opcode h
    cpufunctblNoret := Function.update t.cpufunctblNoret opcode hNoret }

end Tables

/-! ## Building the table -/

section Build

variable {H : Type} [DecidableEq H] (core : CpuCore H) (p : DispatchPrefs)

/-- The column of `cputbls`. -/
def tableMode : Nat :=
  if p.cachesize = 0 then
    if p.mmuModel ≠ 0 then
      if p.cpuCycleExact then 7 else if p.cpuCompatible then 6 else 5
    else if p.cpuCycleExact then 4
    else if p.cpuCompatible then 3
    else 0
  else if p.comptrustbyte then 2
  else 1

/-- The row of `cputbls`. -/
def tableLevel : Nat :=
  let lvl := (p.cpuModel - 68000) / 10
  if lvl = 6 then 5 else lvl

/-- The two loops over the lists of handlers, on a table of `op_illg_1` throughout. -/
def installHandlers (tbl : List (CpuTbl H)) : Tables H :=
  let t : Tables H :=
    { cpufunctbl := fun _ => core.opIllg1, cpufunctblNoret := fun _ => core.opIllg1Noret }
  let t := tbl.foldl (fun t e => t.set e.opcode e.handlerFf e.handlerFfNoret) t
  if p.fpuModel ≠ 0 ∧ p.cpuModel < 68020 then
    core.opSmalltbl3.foldl (fun t e =>
      if e.opcode &&& 0xFE00 = 0xF200 then t.set e.opcode e.handlerFf e.handlerFfNoret else t) t
  else t

/-- The handlers of an opcode this model does not implement. -/
def unimplemented (table : Instr) : Option (H × H) :=
  if 0 < table.unimpclev ∧ table.unimpclev ≤ tableLevel p then
    if p.cpuModel = 68060 then
      if p.intNoUnimplemented ∧ table.unimpclev = 5 then
        some (core.opUnimpl1, core.opUnimpl1Noret)
      else if table.unimpclev < 5 ∨ (table.clev = 4 ∧ table.unimpclev = 5) then
        some (core.opIllg1, core.opIllg1Noret)
      else none
    else some (core.opIllg1, core.opIllg1Noret)
  else none

/-- The opcode belongs to a later model; with an FPU on the 68000 or 68010 the FPU opcodes stay. -/
def tooNew (opcode : Word) (table : Instr) : Bool :=
  if p.fpuModel ≠ 0 ∧ p.cpuModel < 68020 then
    decide (tableLevel p < table.clev ∧ opcode &&& 0xFE00 ≠ 0xF200)
  else decide (tableLevel p < table.clev)

/-- One pass over `table68k`: an opcode gets the handlers of the one it is a variant of. -/
def shareHandler (i : Nat) (t : Option (Tables H)) : Option (Tables H) :=
  match t with
  | none => none
  | some t =>
    let opcode := BitVec.ofNat 16 i
    let table := core.table68k opcode
    if table.illg then some t
    else
      match unimplemented core p table with
      | some (h, hNoret) => some (t.set opcode h hNoret)
      | none =>
        if tooNew p opcode table then some t
        else
          match table.handler with
          | none => some t
          | some idx =>
            if t.cpufunctbl idx = core.opIllg1 ∨ t.cpufunctblNoret idx = core.opIllg1Noret then
              none
            else some (t.set opcode (t.cpufunctbl idx) (t.cpufunctblNoret idx))

/-- The table of the configuration, before reservations. -/
def baseTables : Option (Tables H) :=
  match core.cputbls (tableLevel p) (tableMode p) with
  | none => none
  | some tbl => Loop.upto (shareHandler core p) 65536 (some (installHandlers core p tbl))

end Build

/-! ## Reservations -/

/-- `s_reserved`, up to `s_reserved_count`. -/
abbrev Ranges := List (Word × Word)

def uaeHostMaxReservedRanges : Nat := 16

def uaeHostOpcodeReserved (ranges : Ranges) (opcode : Word) : Bool :=
  ranges.any fun r => decide (r.1 ≤ opcode) && decide (opcode ≤ r.2)

section Reserve

variable {H : Type} [DecidableEq H] (core : CpuCore H)

def uaeHostApplyReservedOpcodes (ranges : Ranges) (t : Tables H) : Tables H :=
  Loop.upto (fun i t =>
    if uaeHostOpcodeReserved ranges (BitVec.ofNat 16 i) then
      t.set (BitVec.ofNat 16 i) core.opIllg1 core.opIllg1Noret
    else t) 65536 t

/-- `do_byteswap_16`. -/
def doByteswap16 (v : Word) : Word := v.extractLsb' 0 8 ++ v.extractLsb' 8 8

/-- The permutation of `cpufunctbl` for opcodes fetched unswapped. -/
def swapTable (tmp : Word → H) : Word → H :=
  Loop.upto (fun i t => Function.update t (doByteswap16 (BitVec.ofNat 16 i))
    (tmp (BitVec.ofNat 16 i))) 65536 tmp

/-- `build_cpufunctbl`: the tables and `need_opcode_swap`. -/
def buildCpufunctbl (p : DispatchPrefs) (ranges : Ranges) : Option (Tables H × Bool) :=
  match baseTables core p with
  | none => none
  | some t =>
    let t := uaeHostApplyReservedOpcodes core ranges t
    if core.getWordUnswapped ∧ p.cachesize ≠ 0 then
      some ({ t with cpufunctbl := swapTable t.cpufunctbl }, true)
    else some (t, false)

/-! ## The host's calls -/

structure DispatchState (H : Type) where
  prefs : PrefsState
  ranges : Ranges
  tables : Tables H
  needOpcodeSwap : Bool

/-- `init_m68k`. `allocOk` says whether the JIT gets memory if it asks for it. -/
def initM68k (allocOk : Bool) (prefs : PrefsState) (ranges : Ranges) :
    Option (DispatchState H) :=
  let prefs := prefsChangedCpu allocOk prefs
  match buildCpufunctbl core prefs.currprefs ranges with
  | none => none
  | some (t, swap) =>
    some { prefs := prefs, ranges := ranges, tables := t, needOpcodeSwap := swap }

/-- `uae_cpu_reserve_opcodes`. -/
def uaeHostReserveOpcodes (allocOk : Bool) (first last : Word) (s : DispatchState H) :
    Option (Int × DispatchState H) :=
  if last < first ∨ uaeHostMaxReservedRanges ≤ s.ranges.length then some (-1, s)
  else
    let ranges := s.ranges ++ [(first, last)]
    if core.jit ∧ s.prefs.currprefs.cachesize ≠ 0 then
      match initM68k core allocOk s.prefs ranges with
      | none => none
      | some s' => some (0, s')
    else
      some (0, { s with
        ranges := ranges
        tables := uaeHostApplyReservedOpcodes core ranges s.tables })

/-- `uae_cpu_clear_reserved_opcodes`. -/
def uaeHostClearReservedOpcodes (allocOk : Bool) (s : DispatchState H) :
    Option (DispatchState H) :=
  initM68k core allocOk s.prefs []

def uaeCpuSetConfig (allocOk : Bool) (cfg : UaeCpuConfig) (s : DispatchState H) :
    Option (DispatchState H) :=
  let prefs := { s.prefs with
    currprefs := { s.prefs.currprefs with
      cpuModel := cfg.cpuType
      fpuModel := cfg.fpuType
      mmuModel := cfg.mmuType
      cpuCompatible := decide (1 ≤ cfg.timingMode)
      cpuCycleExact := decide (2 ≤ cfg.timingMode) } }
  let prefs := configureJitPrefs core.jit allocOk cfg prefs
  let prefs := { prefs with
    changedPrefs := prefs.currprefs, currprefs := prefs.currprefs.fixupFpu }
  initM68k core allocOk prefs s.ranges

end Reserve

end UaeCpu
