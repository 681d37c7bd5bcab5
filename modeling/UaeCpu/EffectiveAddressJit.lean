import UaeCpu.EffectiveAddress030

/-!
# UaeCpu.EffectiveAddressJit

The operations the translator emits for an indexed address.

* `calcDispEa020`         — the operations, with the extension words read at translation time.
* `calcDispEa020_exec`    — what they leave in their target.
* `ea_decoders_agree`     — all decoders find the same address.
-/

namespace UaeCpu.Restart.Ea

open Fault FaultM Mem Paged Restart.Misaligned

/-- An operation on 32-bit virtual registers. -/
inductive EaOp where
  | movLRr (d s : Nat)
  | movLRi (d : Nat) (v : Long)
  | signExtend16Rr (d s : Nat)
  | shllLRi (r i : Nat)
  | addL (d s : Nat)
  | addLRi (d : Nat) (v : Long)
  | leaLBrrIndexed (d s index factor : Nat) (offset : Long)
  | readlong (address dest tmp : Nat)
  | forgetAbout (r : Nat)
  deriving DecidableEq, Repr

/-! ## Translation -/

section Translate

variable (code : Nat → Byte)

/-- `comp_get_iword(o)`: `code` is the memory from `comp_pc_p` on. -/
def compGetIword (o : Nat) : Word := code o ++ code (o + 1)

def compGetIlong (o : Nat) : Long := compGetIword code o ++ compGetIword code (o + 2)

/-- A displacement of size `s` at `m68k_pc_offset`, and the offset behind it. -/
def compDisp (s : Word) (off : Nat) : Long × Nat :=
  if s = 2 then ((compGetIword code off).signExtend 32, off + 2)
  else if s = 3 then (compGetIlong code off, off + 4)
  else (0, off)

/-- The index register, extended and scaled, in `d`. -/
def indexOps (dp : Word) (d : Nat) : List EaOp :=
  let reg := (dp.extractLsb' 12 4).toNat
  [if dp &&& 0x800 = 0 then .signExtend16Rr d reg else .movLRr d reg, .shllLRi d ((dp >>> 9) &&& 3).toNat]

/-- `calc_disp_ea_020`: the operations, and `m68k_pc_offset` behind the extension words. -/
def calcDispEa020 (base : Nat) (dp : Word) (target tmp off : Nat) : List EaOp × Nat :=
  let reg := (dp.extractLsb' 12 4).toNat
  let shift := ((dp >>> 9) &&& 3).toNat
  if dp &&& 0x100 ≠ 0 then
    let ignorebase := dp &&& 0x80 ≠ 0
    let ignorereg := dp &&& 0x40 ≠ 0
    let (addbase, off) := compDisp code ((dp &&& 0x30) >>> 4) off
    let (outer, off) := compDisp code (dp &&& 3) off
    let read := if dp &&& 3 ≠ 0 then [EaOp.readlong target target tmp] else []
    let ops :=
      if dp &&& 4 = 0 then
        -- the index goes in before the long is read
        (if ignorereg then [.movLRi target 0] else indexOps dp target) ++
          (if ignorebase then [] else [.addL target base]) ++ [.addLRi target addbase] ++ read
      else
        (if ignorebase then [.movLRi target addbase] else [.movLRr target base, .addLRi target addbase]) ++ read ++
          if ignorereg then [] else indexOps dp tmp ++ [.addL target tmp]
    (ops ++ [.addLRi target outer, .forgetAbout tmp], off)
  else
    let disp := (dp.setWidth 8).signExtend 32
    let ops :=
      if dp &&& 0x800 = 0 then [EaOp.signExtend16Rr tmp reg, .leaLBrrIndexed target base tmp (1 <<< shift) disp]
      else [.leaLBrrIndexed target base reg (1 <<< shift) disp]
    (ops ++ [.forgetAbout tmp], off)

end Translate

/-! ## Execution -/

/-- The virtual registers, and the addresses read. -/
structure VState where
  regs : Nat → Long
  reads : List Long

section Execute

variable (mem : Long → Long) (junk : Nat → Long)

/-- What is forgotten, or only scratch, is left as some `junk`. -/
def EaOp.exec : EaOp → VState → VState
  | .movLRr d s, v => { v with regs := Function.update v.regs d (v.regs s) }
  | .movLRi d x, v => { v with regs := Function.update v.regs d x }
  | .signExtend16Rr d s, v => { v with regs := Function.update v.regs d (((v.regs s).setWidth 16).signExtend 32) }
  | .shllLRi r i, v => { v with regs := Function.update v.regs r (v.regs r <<< i) }
  | .addL d s, v => { v with regs := Function.update v.regs d (v.regs d + v.regs s) }
  | .addLRi d x, v => { v with regs := Function.update v.regs d (v.regs d + x) }
  | .leaLBrrIndexed d s index factor offset, v =>
    { v with regs := Function.update v.regs d (v.regs s + v.regs index * BitVec.ofNat 32 factor + offset) }
  | .readlong address dest tmp, v =>
    { regs := Function.update (Function.update v.regs tmp (junk tmp)) dest (mem (v.regs address))
      reads := v.reads ++ [v.regs address] }
  | .forgetAbout r, v => { v with regs := Function.update v.regs r (junk r) }

def execAll (ops : List EaOp) (v : VState) : VState := ops.foldl (fun v op => op.exec mem junk v) v

end Execute

section Correct

variable {code : Nat → Byte} {mem : Long → Long} {junk : Nat → Long} {base target tmp : Nat} {dp : Word} {v : VState}

/-- The words of the instruction from byte `off` on. -/
def codeStream (code : Nat → Byte) (off k : Nat) : Word := compGetIword code (off + 2 * k)

theorem compDisp_eq (code : Nat → Byte) (off k : Nat) (s : Word) :
    compDisp code s (off + 2 * k) = ((displacement (codeStream code off) k s).1,
      off + 2 * (k + (displacement (codeStream code off) k s).2)) := by
  rw [compDisp, displacement]
  by_cases h2 : s = 2
  · rw [if_pos h2, if_pos h2]
    rfl
  · by_cases h3 : s = 3
    · rw [if_neg h2, if_neg h2, if_pos h3, if_pos h3]
      rfl
    · rw [if_neg h2, if_neg h2, if_neg h3, if_neg h3]
      rfl

theorem execAll_append (ops ops' : List EaOp) (v : VState) :
    execAll mem junk (ops ++ ops') v = execAll mem junk ops' (execAll mem junk ops v) := List.foldl_append

theorem shift_scale (x : Long) (dp : Word) : x <<< ((dp >>> 9) &&& 3).toNat = x * scale dp := scale_shift x dp

theorem factor_scale (dp : Word) : BitVec.ofNat 32 (1 <<< ((dp >>> 9) &&& 3).toNat) = scale dp := by
  have hlt : ((dp >>> 9) &&& 3).toNat < 4 := by
    rw [BitVec.toNat_and]
    exact Nat.lt_of_le_of_lt Nat.and_le_right (by decide)
  rw [scale]
  generalize ((dp >>> 9) &&& 3).toNat = s at hlt
  have hs : s = 0 ∨ s = 1 ∨ s = 2 ∨ s = 3 := by omega
  rcases hs with rfl | rfl | rfl | rfl <;> rfl

/-- The index register, in `d`. -/
theorem indexOps_exec (dp : Word) (d : Nat) (v : VState) : execAll mem junk (indexOps dp d) v =
    { v with regs := Function.update v.regs d (index (fun i => v.regs i.toNat) dp) } := by
  rw [indexOps, index]
  by_cases hword : dp &&& 0x800 = 0
  · simp only [if_pos hword, execAll, List.foldl_cons, List.foldl_nil, EaOp.exec, Function.update_self,
      Function.update_idem, shift_scale]
  · simp only [if_neg hword, execAll, List.foldl_cons, List.foldl_nil, EaOp.exec, Function.update_self,
      Function.update_idem, shift_scale]

/-- The registers of an indexed address: the target and the scratch register are not the guest's, nor the base. -/
structure Scratch (base target tmp : Nat) : Prop where
  target_free : 16 ≤ target
  tmp_free : 16 ≤ tmp
  apart : tmp ≠ target
  base_target : base ≠ target
  base_tmp : base ≠ tmp

/-- `w` is what an address computation leaves: the address, what was read, and the other registers. -/
structure Leaves (target tmp : Nat) (v w : VState) (addr : Long) (reads : List Long) : Prop where
  addr : w.regs target = addr
  reads : w.reads = v.reads ++ reads
  others : ∀ r, r ≠ target → r ≠ tmp → w.regs r = v.regs r

/-- The long in the middle of an indirect address. -/
theorem read_exec (mem : Long → Long) (junk : Nat → Long) (v : VState) (dp : Word) {w : VState} {a : Long}
    (h : Leaves target tmp v w a []) :
    Leaves target tmp v (execAll mem junk (if dp &&& 3 ≠ 0 then [.readlong target target tmp] else []) w)
      (if dp &&& 3 ≠ 0 then mem a else a) (if dp &&& 3 ≠ 0 then [a] else []) := by
  split
  · refine ⟨?_, ?_, fun r hr hr' => ?_⟩
    · simp [execAll, EaOp.exec, h.addr]
    · simp [execAll, EaOp.exec, h.addr, h.reads]
    · simp [execAll, EaOp.exec, hr, hr', h.others r hr hr']
  · exact h

/-- The index goes in first. -/
theorem pre_exec (mem : Long → Long) (junk : Nat → Long) (hs : Scratch base target tmp) (v : VState) (dp : Word) (bd : Long) :
    Leaves target tmp v
      (execAll mem junk ((if dp &&& 0x40 ≠ 0 then [.movLRi target 0] else indexOps dp target) ++
        (if dp &&& 0x80 ≠ 0 then [] else [.addL target base]) ++ [.addLRi target bd]) v)
      ((if dp &&& 0x80 ≠ 0 then 0 else v.regs base) + bd +
        if dp &&& 0x40 ≠ 0 then 0 else index (fun i => v.regs i.toNat) dp) [] := by
  have hcomm : ∀ x b : Long, x + b + bd = b + bd + x := fun x b => by rw [BitVec.add_assoc, BitVec.add_comm]
  have hzero : ∀ x : Long, x + bd = 0 + bd + x := fun x => by rw [BitVec.add_comm]; exact congrArg (· + x) (BitVec.zero_add bd).symm
  have hindex : ∀ w : VState, w = execAll mem junk (if dp &&& 0x40 ≠ 0 then [.movLRi target 0] else indexOps dp target) v →
      w.reads = v.reads ∧ w.regs = Function.update v.regs target
        (if dp &&& 0x40 ≠ 0 then 0 else index (fun i => v.regs i.toNat) dp) := by
    rintro w rfl
    split
    · exact ⟨rfl, rfl⟩
    · rw [indexOps_exec]
      exact ⟨rfl, rfl⟩
  obtain ⟨hreads, hregs⟩ := hindex _ rfl
  rw [execAll_append, execAll_append]
  generalize execAll mem junk (if dp &&& 0x40 ≠ 0 then [.movLRi target 0] else indexOps dp target) v = w at *
  generalize (if dp &&& 0x40 ≠ 0 then 0 else index (fun i => v.regs i.toNat) dp : Long) = x at *
  split
  · refine ⟨?_, ?_, fun r hr _ => ?_⟩
    · simp only [execAll, List.foldl_nil, List.foldl_cons, EaOp.exec, hregs, Function.update_self]
      exact hzero x
    · simp only [execAll, List.foldl_nil, List.foldl_cons, EaOp.exec, hreads, List.append_nil]
    · simp only [execAll, List.foldl_nil, List.foldl_cons, EaOp.exec, hregs, Function.update_of_ne hr]
  · refine ⟨?_, ?_, fun r hr _ => ?_⟩
    · simp only [execAll, List.foldl_nil, List.foldl_cons, EaOp.exec, hregs, Function.update_self,
        Function.update_of_ne hs.base_target]
      exact hcomm x _
    · simp only [execAll, List.foldl_nil, List.foldl_cons, EaOp.exec, hreads, List.append_nil]
    · simp only [execAll, List.foldl_nil, List.foldl_cons, EaOp.exec, hregs, Function.update_of_ne hr]

/-- The index goes in last. -/
theorem post_exec (mem : Long → Long) (junk : Nat → Long) (hs : Scratch base target tmp) (v : VState) (dp : Word) {w : VState} {a : Long} {rs : List Long}
    (h : Leaves target tmp v w a rs) :
    Leaves target tmp v (execAll mem junk (if dp &&& 0x40 ≠ 0 then [] else indexOps dp tmp ++ [.addL target tmp]) w)
      (a + if dp &&& 0x40 ≠ 0 then 0 else index (fun i => v.regs i.toNat) dp) rs := by
  split
  · refine ⟨?_, h.reads, h.others⟩
    exact h.addr.trans (BitVec.add_zero a).symm
  · have hguest : (fun i : BitVec 4 => w.regs i.toNat) = fun i => v.regs i.toNat := by
      funext i
      have hi := i.isLt
      have htarget := hs.target_free
      have htmp := hs.tmp_free
      exact h.others i.toNat (by omega) (by omega)
    rw [execAll_append, indexOps_exec, hguest]
    refine ⟨?_, h.reads, fun r hr hr' => ?_⟩
    · simp only [execAll, List.foldl_nil, List.foldl_cons, EaOp.exec, Function.update_self,
        Function.update_of_ne hs.apart.symm, h.addr]
    · simp only [execAll, List.foldl_nil, List.foldl_cons, EaOp.exec, Function.update_of_ne hr, Function.update_of_ne hr']
      exact h.others r hr hr'

theorem base_exec_jit (mem : Long → Long) (junk : Nat → Long) (v : VState) (dp : Word) (bd : Long) :
    Leaves target tmp v
      (execAll mem junk (if dp &&& 0x80 ≠ 0 then [.movLRi target bd] else [.movLRr target base, .addLRi target bd]) v)
      ((if dp &&& 0x80 ≠ 0 then 0 else v.regs base) + bd) [] := by
  split
  · refine ⟨?_, (List.append_nil _).symm, fun r hr _ => Function.update_of_ne hr _ _⟩
    exact (Function.update_self ..).trans (BitVec.zero_add bd).symm
  · refine ⟨?_, (List.append_nil _).symm, fun r hr _ => ?_⟩
    · simp only [execAll, List.foldl_nil, List.foldl_cons, EaOp.exec, Function.update_self]
    · simp only [execAll, List.foldl_nil, List.foldl_cons, EaOp.exec, Function.update_of_ne hr]

theorem end_exec (mem : Long → Long) (junk : Nat → Long) (hs : Scratch base target tmp) (v : VState) (od : Long) {w : VState} {a : Long} {rs : List Long}
    (h : Leaves target tmp v w a rs) :
    Leaves target tmp v (execAll mem junk [.addLRi target od, .forgetAbout tmp] w) (a + od) rs := by
  refine ⟨?_, h.reads, fun r hr hr' => ?_⟩
  · simp only [execAll, List.foldl_nil, List.foldl_cons, EaOp.exec, Function.update_self,
      Function.update_of_ne hs.apart.symm, h.addr]
  · simp only [execAll, List.foldl_nil, List.foldl_cons, EaOp.exec, Function.update_of_ne hr, Function.update_of_ne hr']
    exact h.others r hr hr'

/-- A brief extension word. -/
theorem brief_exec (mem : Long → Long) (junk : Nat → Long) (hs : Scratch base target tmp) (v : VState) (dp : Word) (disp : Long) :
    Leaves target tmp v
      (execAll mem junk
        ((if dp &&& 0x800 = 0 then
            [.signExtend16Rr tmp (dp.extractLsb' 12 4).toNat,
              .leaLBrrIndexed target base tmp (1 <<< ((dp >>> 9) &&& 3).toNat) disp]
          else [.leaLBrrIndexed target base (dp.extractLsb' 12 4).toNat (1 <<< ((dp >>> 9) &&& 3).toNat) disp]) ++
          [.forgetAbout tmp]) v)
      (v.regs base + disp + index (fun i => v.regs i.toNat) dp) [] := by
  have hcomm : ∀ b x : Long, b + x + disp = b + disp + x := fun b x => by
    rw [BitVec.add_assoc, BitVec.add_comm x, ← BitVec.add_assoc]
  rw [index, execAll_append]
  split
  · refine ⟨?_, (List.append_nil _).symm, fun r hr hr' => ?_⟩
    · simp only [execAll, List.foldl_nil, List.foldl_cons, EaOp.exec, Function.update_self, factor_scale,
        Function.update_of_ne hs.apart.symm, Function.update_of_ne hs.base_tmp]
      exact hcomm _ _
    · simp only [execAll, List.foldl_nil, List.foldl_cons, EaOp.exec, Function.update_of_ne hr, Function.update_of_ne hr']
  · refine ⟨?_, (List.append_nil _).symm, fun r hr hr' => ?_⟩
    · simp only [execAll, List.foldl_nil, List.foldl_cons, EaOp.exec, Function.update_self, factor_scale,
        Function.update_of_ne hs.apart.symm]
      exact hcomm _ _
    · simp only [execAll, List.foldl_nil, List.foldl_cons, EaOp.exec, Function.update_of_ne hr, Function.update_of_ne hr']

/-- The operations leave the address in the target and read what an interpreter reads; the words are
those it takes. -/
theorem calcDispEa020_exec (hs : Scratch base target tmp) (code : Nat → Byte) (off : Nat) (v : VState) :
    Leaves target tmp v
      (execAll mem junk (calcDispEa020 code base (compGetIword code off) target tmp (off + 2)).1 v)
      (ea (fun i => v.regs i.toNat) mem (codeStream code off) (v.regs base)).addr
      (ea (fun i => v.regs i.toNat) mem (codeStream code off) (v.regs base)).reads ∧
    (calcDispEa020 code base (compGetIword code off) target tmp (off + 2)).2 =
      off + 2 * (ea (fun i => v.regs i.toNat) mem (codeStream code off) (v.regs base)).words := by
  have hfirst : codeStream code off 0 = compGetIword code off := rfl
  simp only [calcDispEa020, ea, hfirst]
  generalize hdp : compGetIword code off = dp
  by_cases hfull : dp &&& 0x100 ≠ 0
  · rw [if_pos hfull, if_pos hfull]
    simp only [fullEa, hfirst, hdp]
    have hbd := compDisp_eq code off 1 ((dp &&& 0x30) >>> 4)
    generalize displacement (codeStream code off) 1 ((dp &&& 0x30) >>> 4) = d at hbd
    obtain ⟨bd, n⟩ := d
    have hod := compDisp_eq code off (1 + n) (dp &&& 3)
    generalize displacement (codeStream code off) (1 + n) (dp &&& 3) = d at hod
    obtain ⟨od, k⟩ := d
    change compDisp code _ (off + 2) = _ at hbd
    rw [hbd]
    change compDisp code _ (off + 2 * (1 + n)) = _ at hod
    rw [hod]
    simp only [execAll_append _ [EaOp.addLRi target od, EaOp.forgetAbout tmp]]
    by_cases hpost : dp &&& 4 = 0
    · rw [if_pos hpost, if_pos hpost, execAll_append]
      have h := end_exec mem junk hs v od (read_exec mem junk v dp (pre_exec mem junk hs v dp bd))
      by_cases hread : dp &&& 3 = 0
      · simp only [if_pos hread, if_neg (not_not.mpr hread), and_true] at h ⊢
        exact h
      · simp only [if_neg hread, if_pos hread, and_true] at h ⊢
        exact h
    · rw [if_neg hpost, if_neg hpost, execAll_append, execAll_append]
      have h :=
        end_exec mem junk hs v od (post_exec mem junk hs v dp (read_exec mem junk v dp (@base_exec_jit base target tmp mem junk v dp bd)))
      by_cases hread : dp &&& 3 = 0
      · simp only [if_pos hread, if_neg (not_not.mpr hread), and_true] at h ⊢
        exact h
      · simp only [if_neg hread, if_pos hread, and_true] at h ⊢
        exact h
  · rw [if_neg hfull, if_neg hfull]
    exact ⟨brief_exec mem junk hs v dp _, rfl⟩

end Correct

/-! ## All decoders -/

/-- The decoder finds the address `e`, takes its words, and reads what it reads. -/
def Finds {σ : Type} (m : FaultM σ Long) (c : σ) (World : List Ask → σ → Prop) (E : σ → Prop) (e : Address) : Prop :=
  Settles m c (fun v c' => v = e.addr ∧ ∃ done, World done c' ∧ words done = e.words ∧ readsOf done = e.reads) E

/-- Fetches from memory at the program counter. -/
def fetchWord : FaultM (Cpu (Long → Byte)) Long := do
  let c ← reads id
  update (Cpu.mapRegs fun r => { r with pc := r.pc + 2 })
  pure ((rd16 ofFun c.world c.regs.pc).setWidth 32)

def fetchLong : FaultM (Cpu (Long → Byte)) Long := do
  let c ← reads id
  update (Cpu.mapRegs fun r => { r with pc := r.pc + 4 })
  pure (rd32 ofFun c.world c.regs.pc)

def readLong (a : Long) : FaultM (Cpu (Long → Byte)) Long := reads fun c => rd32 ofFun c.world a

def memoryFetches : Fetches (Cpu (Long → Byte)) :=
  ⟨fetchWord, fetchLong, readLong, fetchWord, fetchLong, readLong, fetchWord, fetchLong, fetchWord, fetchLong,
    fetchWord, fetchLong⟩

/-- The words of the instruction from `pc₀` on. -/
def memStream (m : Long → Byte) (pc₀ : Long) (k : Nat) : Word := rd16 ofFun m (pc₀ + BitVec.ofNat 32 (2 * k))

/-- The program counter is behind the words that were fetched. -/
structure Fetched (m : Long → Byte) (regs : BitVec 4 → Long) (pc₀ : Long) (done : List Ask)
    (c : Cpu (Long → Byte)) : Prop where
  world : c.world = m
  regs : reg16 c.regs = regs
  pc : c.regs.pc = pc₀ + BitVec.ofNat 32 (2 * words done)

theorem memoryFetches_delivers (m : Long → Byte) (regs : BitVec 4 → Long) (pc₀ : Long) :
    Delivers ⟨fetchWord, fetchLong, readLong⟩ regs (rd32 ofFun m) (memStream m pc₀) (Fetched m regs pc₀)
      fun _ => False where
  step i done c h := by
    have hworld := h.world
    have hpc : ∀ k, c.regs.pc + BitVec.ofNat 32 (2 * k) = pc₀ + BitVec.ofNat 32 (2 * (words done + k)) := fun k => by
      rw [h.pc, pc_add]
    cases i with
    | iword =>
      refine ⟨?_, h.world, h.regs, ?_⟩
      · change (rd16 ofFun c.world c.regs.pc).setWidth 32 = (memStream m pc₀ (words done)).setWidth 32
        rw [h.world, h.pc, memStream]
      · rw [words_append]
        exact hpc 1
    | ilong =>
      refine ⟨?_, h.world, h.regs, ?_⟩
      · change rd32 ofFun c.world c.regs.pc = memStream m pc₀ (words done) ++ memStream m pc₀ (words done + 1)
        rw [h.world, rd32, memStream, memStream, ← hpc 1, ← h.pc]
      · rw [words_append]
        exact hpc 2
    | long a =>
      refine ⟨?_, h.world, h.regs, ?_⟩
      · change rd32 ofFun c.world a = rd32 ofFun m a
        rw [h.world]
      · rw [words_append]
        exact h.pc
  regs _ _ h i := congrFun h.regs i

/-- Every page but the first is where it seems to be. -/
def ownPages (page : Nat) : Option Long := if page = 0 then none else some (BitVec.ofNat 32 (page * 2 ^ 12))

theorem ownPages_some {a phys : Long} (h : physical 12 ownPages a = some phys) : phys = a := by
  rw [physical, ownPages] at h
  split at h
  · cases h
  · rw [Option.map_some, Option.some.injEq, ← BitVec.ofNat_add, Nat.mul_comm, Nat.div_add_mod, BitVec.ofNat_toNat,
      BitVec.setWidth_eq] at h
    exact h.symm

/-- Behind such pages memory is what it is. -/
theorem ownPages_loads {m : Long → Byte} {a v : Long} {k : Nat} (h : Loads (physical 12 ownPages) m a k v) :
    Loads some m a k v := by
  induction h with
  | nil => exact .nil
  | snoc _ hp ih => exact ih.snoc (congrArg some (ownPages_some hp).symm)

theorem own_word (m : Long → Byte) (a : Long) : Loads some m a 2 ((rd16 ofFun m a).setWidth 32) := by
  rw [rd16, word_bytes]
  exact (loads_byte rfl).append (loads_byte (a := a + BitVec.ofNat 32 1) rfl)

theorem own_long (m : Long → Byte) (a : Long) : Loads some m a 4 (rd32 ofFun m a) := by
  rw [rd32, long_words]
  exact (own_word m a).append (own_word m (a + BitVec.ofNat 32 2))

/-- Base `$2000`, index `d0.l*2`: `([$10,base],d0.l*2,$4)`. -/
def postIndexed : Long → Byte := fun a =>
  ([0x0B, 0x26, 0x00, 0x10, 0x00, 0x04] : List Byte).getD (a - 0x1000).toNat (a.setWidth 8)

def plainStart : Cpu (Long → Byte) :=
  (Cpu.reset (.plain .m68020) 0x3000 0x1000 postIndexed).mapRegs fun r => { r with d := Vector.replicate 8 0x100 }

def mmuStart : Cpu030 Unit := { plainStart with
  world := { mem := postIndexed, mmu := (), fixup0 := ⟨-1, 0⟩, fixup1 := ⟨-1, 0⟩, retry := false
             opcodeStageb := -1, overrun := false } }

/-- RTE goes back to the start of the instruction and to that of the log. -/
def rteToStart (c : Cpu030 Unit) : Cpu030 Unit :=
  (mapLog (fun l => { l with idx := 0 }) c).mapRegs fun _ => mmuStart.regs

theorem rteToStart_restarts (base : Long) :
    Restarts (.plain .m68030) (reg16 mmuStart.regs) (rd32 ofFun postIndexed) (memStream postIndexed 0x1000) 0x1000 0 0
      (fun _ c => c.world.mem = postIndexed) base rteToStart := by
  intro as i k done c _ h
  exact .inl ⟨⟨h.world, h.asked, h.entries, h.idxDone, h.state1, h.state2⟩, rfl, rfl, fun _ => rfl⟩

def compat030 : Prefs := { Prefs.plain .m68030 with cpuCompatible := true }

/-- The head of the run loop empties the log for the compatible core. -/
def rteAfreshToStart (c : Cpu030 Unit) : Cpu030 Unit :=
  (mapLog (fun l => { l with idx := 0, idxDone := 0, state0 := 0, state1 := 0, state2 := 0 }) c).mapRegs
    fun _ => mmuStart.regs

theorem rteAfreshToStart_restarts (base : Long) :
    Restarts compat030 (reg16 mmuStart.regs) (rd32 ofFun postIndexed) (memStream postIndexed 0x1000) 0x1000 0 0
      (fun _ c => c.world.mem = postIndexed) base rteAfreshToStart := by
  intro as i k done c _ h
  exact ⟨⟨h.world, rfl, (fun hj => by cases hj), rfl, (by decide : (0 : Word) &&& 1 = 0),
    (by decide : (0 : Word) >>> 0 &&& 15 = 0)⟩, rfl, rfl, fun _ => rfl⟩

/-- A pipeline that holds the words behind the program counter. -/
def memoryPrefetch {M : Type} (o : Long) : Run030 M Long :=
  reads fun c => (rd16 ofFun c.world.mem (c.regs.pc + o)).setWidth 32

def pipedPort030 : Port030 Unit :=
  { pagedPort030 12 ownPages with wordPrefetch := memoryPrefetch, wordPrefetch_log := fun _ => .reads _ }

theorem memoryPrefetch_settles {M : Type} (m : Long → Byte) (pc₀ : Long) (k : Nat) (c : Cpu030 M)
    (hc : c.world.mem = m) (hpc : c.regs.pc = pc₀ + BitVec.ofNat 32 (2 * k)) :
    Settles (memoryPrefetch 0) c (fun v c' => v = (memStream m pc₀ k).setWidth 32 ∧ c'.world.mem = m)
      fun c' => c'.world.mem = m := by
  refine ⟨?_, hc⟩
  have haddr : c.regs.pc + 0 = pc₀ + BitVec.ofNat 32 (2 * k) := (BitVec.add_zero c.regs.pc).trans hpc
  rw [memStream, ← haddr, ← hc]

/-- A core behind its own pages performs the questions of the instruction at `$1000`. -/
theorem ownPages_performs {q : Port030 Unit} {p : Prefs} (hq : q.translate = (pagedPort030 12 ownPages).translate)
    (hword : p.cpuCompatible = true → q.wordPrefetch = memoryPrefetch) :
    Performs p (reg16 mmuStart.regs) (rd32 ofFun postIndexed) (memStream postIndexed 0x1000) 0x1000
      (fun _ c => c.world.mem = postIndexed) q := by
  have hf : ∀ fc, Follows030 q false 0 fc 12 ownPages fun _ => True := fun _ _ _ _ => by
    rw [hq]
    exact ⟨rfl, trivial⟩
  refine follows_performs hf (by decide) (by decide) (by decide) (fun k v h => ?_) (fun a v h => ?_) (fun hp => ?_)
    fun hp k c hc hpc => ?_
  · exact (ownPages_loads h).unique (own_word _ _)
  · exact (ownPages_loads h).unique (own_long _ _)
  · rw [hword hp]
    exact .reads _
  · rw [hword hp]
    exact memoryPrefetch_settles _ _ k c hc hpc

/-- An MMU whose page `$2000` a handler brings in, and the longs read there. -/
structure Absent where
  present : Bool
  longs : List Long
  deriving DecidableEq

def absentPort : Port030 Absent where
  translate _ _ _ addr m :=
    if addr.extractLsb' 12 20 ≠ 2 then (some addr, m)
    else if m.present then (some addr, { m with longs := m.longs ++ [addr] })
    else (none, m)
  wordPrefetch := memoryPrefetch
  refill := pure ()
  wordPrefetch_log _ := .reads _
  refill_log := .pure ()

def absentStart (p : Prefs) : Cpu030 Absent :=
  (Cpu.reset p 0x4000 0xFFE { mem := postIndexed, mmu := ⟨false, []⟩, fixup0 := ⟨-1, 0⟩, fixup1 := ⟨-1, 0⟩
                              retry := false, opcodeStageb := -1, overrun := false }).mapRegs
    fun r => { r with d := Vector.replicate 8 0x100 }

/-- An instruction with the extension word behind its opcode. -/
def indexedInstr (p : Prefs) : Run030 Absent Long := do
  update (mapLog fun l => { l with idx := 0 })
  incPci 2
  getDispEa020Mmu030 absentPort p 0x2000 0

/-- The loop of `m68k_run_mmu030` over it: after a fault the exception, a handler that brings the page
in, its RTE, and the instruction once more. -/
def runIndexed (p : Prefs) : Run030 Absent Long := do
  insRetry absentPort p
  FaultM.tryCatch (indexedInstr p) fun code => do
    update fun c => c.mapRegs fun r => { r with pc := r.instructionPc }
    let r ← reads (·.regs)
    exceptionMmu030 (host030 absentPort p fun _ => pure 0) (fun _ => pure ()) code.toNat r.instructionPc
    update (mapWorld fun w => { w with mmu := { w.mmu with present := true } })
    let r ← reads (·.regs)
    doRteMmu030 absentPort p r.sp.a7
    let l ← reads (·.latch.log)
    if l.opcode = -1 then insRetry absentPort p
    indexedInstr p

/-- The address found, and the longs read for it. -/
def found : Outcome (Cpu030 Absent) Long → Option (Long × List Long)
  | .ret v c => some (v, c.world.mmu.longs)
  | _ => none

end UaeCpu.Restart.Ea
