import UaeCpu.Banking
import UaeCpu.Ram

/-!
# UaeCpu.MasterStack

Interrupt entry with `M` set, through each of the three engines that have a master stack, and
the RTE that undoes it, over memory that behaves as RAM.

* `exceptionNormal_master`, `exceptionMmu030_master` — both leave the architected result.
* `exceptionMmu_master`   — the 68040 engine stays on the master stack.
* `rte_master`            — RTE takes the architected result back to the interrupted context.
-/

namespace UaeCpu

open Fault FaultM Mem

variable {μ : Type}

/-! ## Pushing onto RAM -/

/-- A four word frame at `a`, in the order it is pushed. -/
def writeFrame (M : ByteMem μ) (w : μ) (a : Long) (sr : Word) (pc : Long) (fv : Word) : μ :=
  wr16 M (wr32 M (wr16 M w (a + 6) fv) (a + 2) pc) a sr

/-- The CPU with `A7` and memory replaced, all that pushing does to it. -/
def Cpu.stacked (a7 : Long) (w : μ) (c : Cpu μ) : Cpu μ := { c.setA7 a7 with world := w }

section Stacked

variable (a7 a7' : Long) (w w' : μ) (c : Cpu μ)

@[simp] theorem stacked_stacked : (c.stacked a7 w).stacked a7' w' = c.stacked a7' w' := rfl

@[simp] theorem stacked_world : (c.stacked a7 w).world = w := rfl

@[simp] theorem stacked_regs :
    (c.stacked a7 w).regs = { c.regs with sp := { c.regs.sp with a7 := a7 } } := rfl

end Stacked

section Ram

variable {M : ByteMem μ} {h : Host μ} (hq : RamPort M h.port)
include hq

theorem pushWord_ram (v : Word) (c : Cpu μ) :
    pushWord h v c =
      .ret () (c.stacked (c.regs.sp.a7 - 2) (wr16 M c.world (c.regs.sp.a7 - 2) v)) := by
  simp only [pushWord, update_bind_apply, reads_bind_apply, hq.putWord]
  rfl

theorem pushLong_ram (v : Long) (c : Cpu μ) :
    pushLong h v c =
      .ret () (c.stacked (c.regs.sp.a7 - 4) (wr32 M c.world (c.regs.sp.a7 - 4) v)) := by
  simp only [pushLong, update_bind_apply, reads_bind_apply, hq.putLong]
  rfl

/-- The tail every frame ends with is a four word frame eight bytes down. -/
theorem pushTail_ram (fv : Word) (pc : Long) (sr : Word) (c : Cpu μ) :
    pushAll h [.word fv, .long pc, .word sr] c =
      .ret () (c.stacked (c.regs.sp.a7 - 8)
        (writeFrame M c.world (c.regs.sp.a7 - 8) sr pc fv)) := by
  have e1 : c.regs.sp.a7 - 2 = c.regs.sp.a7 - 8 + 6 := by bv_omega
  have e2 : c.regs.sp.a7 - 8 + 6 - 4 = c.regs.sp.a7 - 8 + 2 := by bv_omega
  have e3 : c.regs.sp.a7 - 8 + 2 - 2 = c.regs.sp.a7 - 8 := by bv_omega
  simp only [pushAll, Push.run]
  rw [bind_ret (pushWord_ram hq fv c), bind_ret (pushLong_ram hq pc _),
    bind_ret (pushWord_ram hq sr _)]
  simp only [stacked_stacked, stacked_regs, stacked_world, e1, e2, e3, writeFrame, pure_apply]

/-- A four word frame, throwaway or not. -/
theorem buildFrame_ram {f : FrameFormat} (hf : f = .fourWord ∨ f = .throwaway)
    (oldpc currpc ssw : Long) (nr : Nat) (c : Cpu μ) :
    exceptionBuildStackFrame h oldpc currpc ssw nr f c =
      .ret () (c.stacked (c.regs.sp.a7 - 8)
        (writeFrame M c.world (c.regs.sp.a7 - 8) c.regs.sr currpc
          ((f.num <<< 12) ||| BitVec.ofNat 16 (nr * 4)))) := by
  have hb : frameBody oldpc ssw c.regs.irc c.latch f = [] := by
    obtain rfl | rfl := hf <;> rfl
  have hl : ¬ (f = .longBus ∧ ssw &&& 0x0040 = 0) := by
    obtain rfl | rfl := hf <;> simp
  simp only [exceptionBuildStackFrame, hl, if_false, reads_bind_apply, id_eq, hb, List.nil_append,
    frameTail]
  exact pushTail_ram hq _ currpc c.regs.sr c

end Ram

/-! ## Interrupt entry -/

/-- What interrupt `nr` with vector `vec` is to leave behind when `M` is set: the four word frame
on the master stack, the throwaway frame on the interrupt stack, and the CPU on the latter. -/
structure MasterResult (M : ByteMem μ) (nr vec : Nat) (c c' : Cpu μ) : Prop where
  frames : c'.world =
    writeFrame M
      (writeFrame M c.world (logicalMsp c.regs - 8) (encodeSR c.regs c.flags) c.regs.pc
        (BitVec.ofNat 16 (vec * 4)))
      (logicalIsp c.regs - 8) (encodeSR c.regs c.flags ||| 0x2000) c.regs.pc
      (0x1000 ||| BitVec.ofNat 16 (vec * 4))
  sp : c'.regs.sp = { a7 := logicalIsp c.regs - 8, usp := logicalUsp c.regs,
                      isp := logicalIsp c.regs, msp := logicalMsp c.regs - 8 }
  s : c'.regs.s = true
  m : c'.regs.m = false
  intmask : c'.regs.intmask = BitVec.ofNat 3 (nr - 24)
  pc : c'.regs.pc = rd32 M c.world (vectorAddr c.regs vec)

/-- The setting of a master stack interrupt: `M` is set, the hooks supply a vector and a level
without touching the CPU, and the vector is even and not part of either frame. -/
structure MasterEntry (M : ByteMem μ) (h : Host μ) (nr vec : Nat) (c : Cpu μ) : Prop where
  ram : RamPort M h.port
  interrupt : isInterrupt nr = true
  vector : vec < 256
  ack : iackCycle h nr c = .ret vec c
  level : ∀ c, ∃ l, intlev h c = .ret l c
  m : c.regs.m = true
  even : (rd32 M c.world (vectorAddr c.regs vec)).getLsbD 0 = false
  apart : ∀ x, Covers (vectorAddr c.regs vec) 4 x →
    ¬ Covers (logicalMsp c.regs - 8) 8 x ∧ ¬ Covers (logicalIsp c.regs - 8) 8 x

section Entry

variable {M : ByteMem μ} {h : Host μ} {nr vec : Nat} {c : Cpu μ}

theorem rd_writeFrame_of_not_covers {w : μ} {a x : Long} {sr fv : Word} {pc : Long}
    (hx : ¬ Covers a 8 x) : M.rd (writeFrame M w a sr pc fv) x = M.rd w x := by
  rw [writeFrame, rd_wr16_of_not_covers, rd_wr32_of_not_covers, rd_wr16_of_not_covers]
  · exact fun hc => hx (covers_mono (i := 6) hc (by omega) (by omega))
  · exact fun hc => hx (covers_mono (i := 2) hc (by omega) (by omega))
  · exact fun hc => hx (covers_mono (i := 0) (by simpa using hc) (by omega) (by omega))

/-- The two frames leave the vector alone. -/
theorem MasterEntry.vector_kept (he : MasterEntry M h nr vec c) (sr sr' fv fv' : Word)
    (pc pc' : Long) :
    rd32 M (writeFrame M (writeFrame M c.world (logicalMsp c.regs - 8) sr pc fv)
      (logicalIsp c.regs - 8) sr' pc' fv') (vectorAddr c.regs vec) =
    rd32 M c.world (vectorAddr c.regs vec) := by
  apply rd32_congr
  intro x hx
  obtain ⟨h1, h2⟩ := he.apart x hx
  rw [rd_writeFrame_of_not_covers h2, rd_writeFrame_of_not_covers h1]

theorem MasterEntry.nr_bounds (he : MasterEntry M h nr vec c) : 24 ≤ nr ∧ nr < 32 := by
  simpa [isInterrupt] using he.interrupt

/-- The CPU on its master stack, as the engines have it before they stack anything. -/
def Cpu.onMaster (c : Cpu μ) : Cpu μ :=
  c.mapRegs fun r => { r with
    sr := encodeSR r c.flags
    s := true
    sp := { a7 := logicalMsp r, usp := logicalUsp r, isp := r.sp.isp, msp := r.sp.msp } }

/-- The CPU after its master stack was left for the interrupt stack, the status register of the
throwaway frame in `regs.sr`. -/
def Cpu.leaveMaster (sr : Word) (c : Cpu μ) : Cpu μ :=
  c.mapRegs fun r => { r with
    sr := sr, m := false, sp := { r.sp with msp := r.sp.a7, a7 := r.sp.isp } }

theorem enterSupervisor_master {p : Prefs} (hm : c.regs.m = true)
    (hp : 68020 ≤ p.cpuModel.num ∧ p.cpuModel.num < 68060) :
    c.makeSR.mapRegs (enterSupervisor p) = c.onMaster := by
  cases hs : c.regs.s
  · simp [Cpu.makeSR, makeSR, Cpu.mapRegs, enterSupervisor, Cpu.onMaster, logicalMsp, logicalUsp,
      hs, hm, hp]
  · simp only [Cpu.makeSR, makeSR, Cpu.mapRegs, enterSupervisor, Cpu.onMaster, logicalMsp,
      logicalUsp, hs, hm, if_true, Bool.and_self]

/-- The addresses of a four word frame, from the stack pointer above it. -/
theorem frame_addrs (a : Long) :
    a - 2 = a - 8 + 6 ∧ a - 8 + 6 - 4 = a - 8 + 2 ∧ a - 8 + 2 - 2 = a - 8 := by
  refine ⟨?_, ?_, ?_⟩ <;> bv_omega

/-- The CPU with both frames stacked, on the interrupt stack. -/
def Cpu.masterStacked (M : ByteMem μ) (vec : Nat) (c : Cpu μ) : Cpu μ :=
  { c.mapRegs (fun r => { r with
      sr := encodeSR r c.flags ||| 0x2000
      s := true
      m := false
      sp := { a7 := r.sp.isp - 8, usp := logicalUsp r, isp := r.sp.isp,
              msp := logicalMsp r - 8 } }) with
    world := writeFrame M
      (writeFrame M c.world (logicalMsp c.regs - 8) (encodeSR c.regs c.flags) c.regs.pc
        (BitVec.ofNat 16 (vec * 4)))
      (c.regs.sp.isp - 8) (encodeSR c.regs c.flags ||| 0x2000) c.regs.pc
      (0x1000 ||| BitVec.ofNat 16 (vec * 4)) }

theorem throwaway_word (hv : vec < 256) :
    (0x1000 : Word) + BitVec.ofNat 16 (vec * 4) = 0x1000 ||| BitVec.ofNat 16 (vec * 4) := by
  have hand : (0x1000 : Word) &&& BitVec.ofNat 16 (vec * 4) = 0 := by
    interval_cases vec <;> rfl
  rw [← BitVec.add_eq_or_of_and_eq_zero _ _ hand]

theorem masterInterruptFrame_ram (hq : RamPort M h.port) (hp : h.prefs.cpuModel.num < 68060)
    (pc : Long) (c : Cpu μ) :
    masterInterruptFrame h pc vec c =
      .ret () ((c.stacked (c.regs.sp.a7 - 8) (writeFrame M c.world (c.regs.sp.a7 - 8) c.regs.sr pc
          (BitVec.ofNat 16 (vec * 4)))).leaveMaster (c.regs.sr ||| 0x2000) |>.stacked
        (c.regs.sp.isp - 8 + 6)
        (wr16 M (writeFrame M c.world (c.regs.sp.a7 - 8) c.regs.sr pc (BitVec.ofNat 16 (vec * 4)))
          (c.regs.sp.isp - 8 + 6) (0x1000 + BitVec.ofNat 16 (vec * 4)))) := by
  obtain ⟨e1, e2, e3⟩ := frame_addrs c.regs.sp.a7
  obtain ⟨i1, -, -⟩ := frame_addrs c.regs.sp.isp
  simp only [masterInterruptFrame, hp, if_true]
  rw [bind_ret (pushWord_ram hq _ c), bind_ret (pushLong_ram hq pc _)]
  simp only [reads_bind_apply]
  rw [bind_ret (pushWord_ram hq _ _)]
  simp only [update_bind_apply, pushWord_ram hq, stacked_stacked, stacked_world, stacked_regs, e1,
    e2, e3]
  simp only [Cpu.mapRegs, Cpu.leaveMaster, stacked_regs, stacked_world, i1, writeFrame]

theorem finishFrame_ram (hq : RamPort M h.port) (hp : h.prefs.cpuModel ≠ .m68060) (hnr : nr ≠ 3)
    (nextpc : Long) (c : Cpu μ) :
    finishFrame h nr nextpc (some false) c =
      .ret () (c.stacked (c.regs.sp.a7 - 4 - 2)
        (wr16 M (wr32 M c.world (c.regs.sp.a7 - 4) nextpc) (c.regs.sp.a7 - 4 - 2)
          c.regs.sr)) := by
  simp only [finishFrame, Bool.not_false, if_true, hp, hnr, false_and, and_false, if_false]
  rw [bind_ret (pushLong_ram hq nextpc c)]
  simp only [reads_bind_apply]
  rw [bind_ret (pushWord_ram hq _ _)]
  rfl

theorem normalFrame_master {c' : Cpu μ} {pc : Long} (hi : isInterrupt nr = true)
    (hp : 68020 ≤ h.prefs.cpuModel.num) (hm : c.regs.m = true) (sv : Bool)
    (hf : masterInterruptFrame h pc vec c = .ret () c') :
    normalFrame h nr vec pc sv c = .ret (some false) c' := by
  have hnr : ¬ (nr = 2 ∨ nr = 3) := by
    simp only [isInterrupt, decide_eq_true_eq] at hi; omega
  have h00 : h.prefs.cpuModel ≠ .m68000 := by
    intro hc; rw [hc] at hp; revert hp; decide
  simp only [normalFrame, reads_bind_apply, id_eq, h00, hnr, if_false, hm, hi, and_self, if_true]
  rw [bind_ret hf]
  rfl

/-- What `Exception_normal` stacks for an interrupt on the master stack. -/
theorem normalStack_master (he : MasterEntry M h nr vec c)
    (hp : 68020 ≤ h.prefs.cpuModel.num ∧ h.prefs.cpuModel.num < 68060) (sv : Bool) :
    (normalFrame h nr vec c.regs.pc sv >>= finishFrame h nr c.regs.pc) c.onMaster =
      .ret () (c.masterStacked M vec) := by
  have hnr : nr ≠ 3 := by have := he.nr_bounds; omega
  have h60 : h.prefs.cpuModel ≠ .m68060 := by
    intro hc; rw [hc] at hp; revert hp; decide
  obtain ⟨-, i2, i3⟩ := frame_addrs c.regs.sp.isp
  have hm : c.onMaster.regs.m = true := he.m
  rw [bind_ret (normalFrame_master he.interrupt hp.1 hm sv
      (masterInterruptFrame_ram he.ram hp.2 c.regs.pc c.onMaster)),
    finishFrame_ram he.ram h60 hnr]
  simp only [stacked_stacked, stacked_world, stacked_regs, throwaway_word he.vector]
  simp only [Cpu.leaveMaster, Cpu.onMaster, Cpu.mapRegs, stacked_regs, i2, i3]
  simp only [Cpu.masterStacked, Cpu.mapRegs, writeFrame]
  rfl

/-- The end of `Exception_normal` when the vector is even: nothing but the mask, the jump and the
trace and interrupt bookkeeping. -/
theorem normalVector_ram (hq : RamPort M h.port) (hi : isInterrupt nr = true)
    (hl : ∀ c, ∃ l, intlev h c = .ret l c) (hp : 68020 ≤ h.prefs.cpuModel.num)
    (nested : Nat → FaultM (Cpu μ) Unit) (g1 : Bool) (c : Cpu μ)
    (heven : (rd32 M c.world (vectorAddr c.regs vec)).getLsbD 0 = false) :
    Returns (normalVector h nested nr vec g1) c fun _ c' => c'.world = c.world ∧
      c'.regs.sp = c.regs.sp ∧ c'.regs.s = c.regs.s ∧ c'.regs.m = c.regs.m ∧
      c'.regs.intmask = BitVec.ofNat 3 (nr - 24) ∧
      c'.regs.pc = rd32 M c.world (vectorAddr c.regs vec) ∧
      c'.regs.stopped = c.regs.stopped := by
  have h10 : ¬ h.prefs.cpuModel.num ≤ 68010 := by omega
  have hcyc : approximateExceptionCycles h.prefs.cpuModel nr = none := by
    revert hp; cases h.prefs.cpuModel <;> simp [approximateExceptionCycles, Model.num]
  simp only [normalVector, returns_reads_bind, id_eq, h10, and_false, if_false, hi, if_true,
    returns_update_bind]
  refine .bind_eq (hq.getLong _ _) ?_
  simp only [setExceptionInException, returns_update_bind, Cpu.mapRegs, heven, Bool.false_eq_true,
    if_false, addApproximateExceptionCycles, hcyc, returns_pure_bind]
  refine .bind_read (hl _) fun l => ?_
  simp only [returns_update_bind]
  refine .bind (hq.fillPrefetch _) ?_
  rintro _ _ ⟨ir, irc, ird, rfl⟩
  simp only [returns_update, Cpu.mapRegs, exceptionCheckTrace, iplFetchNow, endCompile]
  split <;> exact ⟨rfl, rfl, rfl, rfl, rfl, rfl, rfl⟩

/-- Both frames stacked, and then nothing but the mask and the jump: the architected result. -/
theorem MasterEntry.result (he : MasterEntry M h nr vec c) {c' : Cpu μ}
    (hw : c'.world = (c.masterStacked M vec).world)
    (hsp : c'.regs.sp = (c.masterStacked M vec).regs.sp) (hs : c'.regs.s = true)
    (hm : c'.regs.m = false) (hi : c'.regs.intmask = BitVec.ofNat 3 (nr - 24))
    (hpc : c'.regs.pc = rd32 M c.world (vectorAddr c.regs vec)) :
    MasterResult M nr vec c c' := by
  have hisp : logicalIsp c.regs = c.regs.sp.isp := by simp [logicalIsp, he.m]
  refine ⟨?_, ?_, hs, hm, hi, hpc⟩
  · rw [hw, hisp]; rfl
  · rw [hsp, hisp]; rfl

theorem MasterEntry.stacked_vector (he : MasterEntry M h nr vec c) :
    rd32 M (c.masterStacked M vec).world (vectorAddr (c.masterStacked M vec).regs vec) =
      rd32 M c.world (vectorAddr c.regs vec) := by
  have hisp : logicalIsp c.regs = c.regs.sp.isp := by simp [logicalIsp, he.m]
  rw [← he.vector_kept (encodeSR c.regs c.flags) (encodeSR c.regs c.flags ||| 0x2000)
    (BitVec.ofNat 16 (vec * 4)) (0x1000 ||| BitVec.ofNat 16 (vec * 4)) c.regs.pc c.regs.pc, hisp]
  rfl

/-- `Exception_normal` leaves the architected result on the 68020, 68030 and 68040. -/
theorem exceptionNormal_master (he : MasterEntry M h nr vec c)
    (hp : 68020 ≤ h.prefs.cpuModel.num ∧ h.prefs.cpuModel.num < 68060)
    (nested : Nat → FaultM (Cpu μ) Unit) :
    Returns (exceptionNormal h nested nr) c fun _ c' => MasterResult M nr vec c c' := by
  obtain ⟨hlo, hhi⟩ := he.nr_bounds
  have hnr : ¬ (nr = 2 ∨ nr = 3) := by omega
  have h20 : ¬ h.prefs.cpuModel.num < 68020 := by omega
  have h00 : h.prefs.cpuModel ≠ .m68000 := by
    intro hc; rw [hc] at hp; revert hp; decide
  have hpc : ∀ r, exceptionPc nr r = r.pc := by
    intro r; simp only [exceptionPc]; rw [if_neg (by omega)]
  simp only [exceptionNormal, returns_reads_bind, id_eq, he.interrupt, if_true]
  refine .bind_eq he.ack ?_
  simp only [returns_update_bind, returns_reads_bind, id_eq, enterSupervisor_master he.m hp, h20,
    and_false, hnr, false_and, if_false, h00, hpc]
  obtain ⟨f, c₁, hf, hfin⟩ := ret_of_bind (normalStack_master he hp c.regs.s)
  refine .bind_eq hf (.bind_eq hfin ?_)
  refine .mono (normalVector_ram he.ram he.interrupt he.level hp.1 nested _ _ ?_) ?_
  · rw [he.stacked_vector]; exact he.even
  · rintro _ c' ⟨hw, hsp, hs, hm, hi, hpc', -⟩
    exact he.result hw hsp hs hm hi (hpc'.trans he.stacked_vector)

/-- A second `MakeSR`, with the CPU in supervisor mode by now. -/
theorem encodeSR_supervisor {r r' : Regs} {f : Flags} (ht1 : r'.t1 = r.t1) (ht0 : r'.t0 = r.t0)
    (hs : r'.s = true) (hm : r'.m = r.m) (hi : r'.intmask = r.intmask) :
    encodeSR r' f = encodeSR r f ||| 0x2000 := by
  apply BitVec.eq_of_getLsbD_eq
  intro i hi16
  rw [BitVec.getLsbD_or, getLsbD_encodeSR hi16, getLsbD_encodeSR hi16, ht1, ht0, hs, hm, hi]
  interval_cases i <;> simp

/-- The switch to supervisor mode of `Exception_mmu030`. -/
theorem enterSupervisor030_master (hm : c.regs.m = true) :
    (c.makeSR.mapRegs fun r =>
      if r.s then r
      else { r with
        sp := { r.sp with usp := r.sp.a7, a7 := if r.m then r.sp.msp else r.sp.isp },
        s := true }) = c.onMaster := by
  cases hs : c.regs.s
  · simp [Cpu.makeSR, makeSR, Cpu.mapRegs, Cpu.onMaster, logicalMsp, logicalUsp, hs, hm]
  · simp only [Cpu.makeSR, makeSR, Cpu.mapRegs, Cpu.onMaster, logicalMsp, logicalUsp, hs, hm,
      if_true, Bool.and_self]

/-- The four word frame both MMU engines put on the master stack, and the `MakeSR` after it. -/
theorem firstFrame_ram (hq : RamPort M h.port) (oldpc ssw : Long) :
    exceptionBuildStackFrame h oldpc c.regs.pc ssw vec .fourWord c.onMaster =
      .ret () (c.onMaster.stacked (logicalMsp c.regs - 8)
        (writeFrame M c.world (logicalMsp c.regs - 8) (encodeSR c.regs c.flags) c.regs.pc
          (BitVec.ofNat 16 (vec * 4)))) := by
  rw [buildFrame_ram hq (.inl rfl)]
  have h0 : (FrameFormat.fourWord.num <<< 12 ||| BitVec.ofNat 16 (vec * 4) : Word) =
      BitVec.ofNat 16 (vec * 4) := by
    simp [FrameFormat.num]
  rw [h0]
  rfl

/-- `MakeSR` once the first frame is stacked. -/
theorem firstFrame_makeSR (a7 : Long) (w : μ) :
    (c.onMaster.stacked a7 w).makeSR = (c.onMaster.mapRegs fun r =>
      { r with sr := encodeSR c.regs c.flags ||| 0x2000 }).stacked a7 w := by
  have he : encodeSR (c.onMaster.stacked a7 w).regs c.flags = encodeSR c.regs c.flags ||| 0x2000 :=
    encodeSR_supervisor rfl rfl rfl rfl rfl
  rw [← he]
  rfl

/-- The throwaway frame of `Exception_mmu030`, on the interrupt stack. -/
theorem throwaway030_ram (hq : RamPort M h.port) (oldpc ssw : Long) :
    exceptionBuildStackFrame h oldpc c.regs.pc ssw vec .throwaway
      (((c.onMaster.stacked (logicalMsp c.regs - 8)
        (writeFrame M c.world (logicalMsp c.regs - 8) (encodeSR c.regs c.flags) c.regs.pc
          (BitVec.ofNat 16 (vec * 4)))).makeSR).mapRegs fun r =>
            { r with m := false, sp := { r.sp with msp := r.sp.a7, a7 := r.sp.isp } }) =
      .ret () (c.masterStacked M vec) := by
  have h1 : (FrameFormat.throwaway.num <<< 12 : Word) = 0x1000 := by decide
  rw [buildFrame_ram hq (.inr rfl), h1, firstFrame_makeSR]
  rfl

/-- `Exception_mmu030` leaves the architected result. -/
theorem exceptionMmu030_master (he : MasterEntry M h nr vec c)
    (nested : Nat → FaultM (Cpu μ) Unit) (oldpc : Long) :
    Returns (exceptionMmu030 h nested nr oldpc) c fun _ c' => MasterResult M nr vec c c' := by
  have hm : c.onMaster.regs.m = true := he.m
  have heven : (rd32 M c.onMaster.world (vectorAddr c.onMaster.regs vec)).getLsbD 0 = false :=
    he.even
  simp only [exceptionMmu030, returns_reads_bind, he.interrupt, if_true]
  refine .bind_eq he.ack ?_
  simp only [returns_update_bind, enterSupervisor030_master he.m, returns_reads_bind, id_eq]
  refine .bind_eq (he.ram.getLong _ _) ?_
  simp only [hm, and_self, if_true]
  refine .bind_eq (firstFrame_ram he.ram oldpc _) ?_
  simp only [returns_update_bind]
  refine .bind_eq (throwaway030_ram he.ram oldpc _) ?_
  simp only [heven, Bool.false_eq_true, if_false, returns_update_bind]
  refine .bind (he.ram.fillPrefetch _) ?_
  rintro _ _ ⟨ir, irc, ird, rfl⟩
  exact returns_update.mpr (he.result rfl rfl rfl rfl rfl rfl)

/-- The CPU `Exception_mmu` leaves: both frames on the master stack. -/
theorem exceptionMmu_leaves (he : MasterEntry M h nr vec c) (hp : h.prefs.cpuModel = .m68040)
    (nested : Nat → FaultM (Cpu μ) Unit) (oldpc : Long) :
    Returns (exceptionMmu h nested nr oldpc) c fun _ c' =>
      c'.world = writeFrame M
        (writeFrame M c.world (logicalMsp c.regs - 8) (encodeSR c.regs c.flags) c.regs.pc
          (BitVec.ofNat 16 (vec * 4)))
        (logicalMsp c.regs - 8 - 8) (encodeSR c.regs c.flags ||| 0x2000) c.regs.pc
        (0x1000 ||| BitVec.ofNat 16 (vec * 4)) ∧
      c'.regs.sp = { a7 := logicalMsp c.regs - 8 - 8, usp := logicalUsp c.regs,
                     isp := c.regs.sp.isp, msp := logicalMsp c.regs - 8 } ∧
      c'.regs.s = true ∧ c'.regs.m = false ∧
      c'.regs.intmask = BitVec.ofNat 3 (nr - 24) ∧
      c'.regs.pc = rd32 M c.world (vectorAddr c.regs vec) := by
  obtain ⟨hlo, hhi⟩ := he.nr_bounds
  have hm : c.onMaster.regs.m = true := he.m
  have heven : (rd32 M c.onMaster.world (vectorAddr c.onMaster.regs vec)).getLsbD 0 = false :=
    he.even
  have hn : 68020 ≤ h.prefs.cpuModel.num ∧ h.prefs.cpuModel.num < 68060 := by rw [hp]; decide
  have h2 : nr ≠ 2 := by omega
  have h3 : nr ≠ 3 := by omega
  simp only [exceptionMmu, returns_reads_bind, he.interrupt, if_true]
  refine .bind_eq he.ack ?_
  simp only [returns_update_bind, enterSupervisor_master he.m hn, returns_reads_bind, id_eq]
  refine .bind_eq (he.ram.getLong _ _) ?_
  simp only [h2, h3, hm, and_self, if_true, if_false]
  refine .bind_eq (firstFrame_ram he.ram oldpc _) ?_
  simp only [returns_update_bind, hn.2, if_true, firstFrame_makeSR]
  refine .bind_eq (buildFrame_ram he.ram (.inr rfl) _ _ _ _ _) ?_
  simp only [heven, Bool.false_eq_true, if_false, returns_update_bind]
  refine .bind (he.ram.fillPrefetch _) ?_
  rintro _ _ ⟨ir, irc, ird, rfl⟩
  exact returns_update.mpr ⟨rfl, rfl, rfl, rfl, rfl, rfl⟩

/-- `Exception_mmu` leaves the architected result exactly when the interrupt stack happens to
lie right below the frame on the master stack, which the engine never switches away from. -/
theorem exceptionMmu_master_iff (he : MasterEntry M h nr vec c) (hp : h.prefs.cpuModel = .m68040)
    (nested : Nat → FaultM (Cpu μ) Unit) (oldpc : Long) :
    Returns (exceptionMmu h nested nr oldpc) c (fun _ c' => MasterResult M nr vec c c') ↔
      logicalIsp c.regs = logicalMsp c.regs - 8 := by
  have hisp : logicalIsp c.regs = c.regs.sp.isp := by simp [logicalIsp, he.m]
  obtain ⟨_, c', hr, hw, hsp, hs, hm, hi, hpc⟩ := exceptionMmu_leaves he hp nested oldpc
  constructor
  · rintro ⟨_, c'', hr', hres⟩
    obtain rfl : c'' = c' := by
      rw [hr] at hr'; cases hr'; rfl
    have ha := congrArg StackPtrs.a7 (hres.sp.symm.trans hsp)
    dsimp only at ha
    bv_omega
  · intro h8
    refine ⟨_, c', hr, ?_, ?_, hs, hm, hi, hpc⟩
    · rw [hw, h8]
    · rw [hsp, ← hisp, h8]

end Entry

/-! ## Return -/

section Return

variable {M : ByteMem μ} {h : Host μ} {nr vec : Nat} {c : Cpu μ}

/-- A four word frame as RTE reads it. -/
structure FrameAt (M : ByteMem μ) (w : μ) (a : Long) (sr : Word) (pc : Long) (fv : Word) :
    Prop where
  sr : rd16 M w a = sr
  pc : rd32 M w (a + 2) = pc
  format : rd16 M w (a + 6) = fv

/-- Two four word frames with no byte in common. -/
def FramesApart (a b : Long) : Prop := ∀ x, Covers a 8 x → ¬ Covers b 8 x

theorem frameAt_writeFrame (w : μ) (a : Long) (sr : Word) (pc : Long) (fv : Word) :
    FrameAt M (writeFrame M w a sr pc fv) a sr pc fv := by
  have h20 : ∀ x, Covers (a + 2) 4 x → ¬ Covers a 2 x := by
    intro x hx; simp only [Covers] at *; bv_omega
  have h60 : ∀ x, Covers (a + 6) 2 x → ¬ Covers a 2 x := by
    intro x hx; simp only [Covers] at *; bv_omega
  have h62 : ∀ x, Covers (a + 6) 2 x → ¬ Covers (a + 2) 4 x := by
    intro x hx; simp only [Covers] at *; bv_omega
  refine ⟨rd16_wr16 M _ a sr, ?_, ?_⟩
  · rw [writeFrame, rd32_congr M fun x hx => rd_wr16_of_not_covers M (h20 x hx), rd32_wr32]
  · rw [writeFrame, rd16_congr M fun x hx => rd_wr16_of_not_covers M (h60 x hx),
      rd16_congr M fun x hx => rd_wr32_of_not_covers M (h62 x hx), rd16_wr16]

/-- A frame is read back from any memory that agrees with it on its eight bytes. -/
theorem FrameAt.congr {w w' : μ} {a : Long} {sr : Word} {pc : Long} {fv : Word}
    (hf : FrameAt M w a sr pc fv) (hw : ∀ x, Covers a 8 x → M.rd w' x = M.rd w x) :
    FrameAt M w' a sr pc fv := by
  refine ⟨?_, ?_, ?_⟩
  · rw [← hf.sr]
    exact rd16_congr M fun x hx => hw x (covers_mono (i := 0) (by simpa using hx) (by omega)
      (by omega))
  · rw [← hf.pc]
    exact rd32_congr M fun x hx => hw x (covers_mono (i := 2) hx (by omega) (by omega))
  · rw [← hf.format]
    exact rd16_congr M fun x hx => hw x (covers_mono (i := 6) hx (by omega) (by omega))

/-- Both frames of the architected result can be read back when they do not overlap. -/
theorem MasterResult.frameAt {c' : Cpu μ} (hr : MasterResult M nr vec c c')
    (hap : FramesApart (logicalMsp c.regs - 8) (logicalIsp c.regs - 8)) :
    FrameAt M c'.world (logicalMsp c.regs - 8) (encodeSR c.regs c.flags) c.regs.pc
        (BitVec.ofNat 16 (vec * 4)) ∧
      FrameAt M c'.world (logicalIsp c.regs - 8) (encodeSR c.regs c.flags ||| 0x2000) c.regs.pc
        (0x1000 ||| BitVec.ofNat 16 (vec * 4)) := by
  rw [hr.frames]
  exact ⟨(frameAt_writeFrame _ _ _ _ _).congr fun x hx => rd_writeFrame_of_not_covers (hap x hx),
    frameAt_writeFrame _ _ _ _ _⟩

/-- The CPU in a handler that is about to return: still on the interrupt stack, with the stack
pointers the exception left and both frames intact. Everything else may have changed. -/
structure HandlerReturns (M : ByteMem μ) (c c₀ c' : Cpu μ) : Prop where
  sp : c'.regs.sp = c₀.regs.sp
  s : c'.regs.s = true
  m : c'.regs.m = false
  master : ∀ x, Covers (logicalMsp c.regs - 8) 8 x → M.rd c'.world x = M.rd c₀.world x
  throwaway : ∀ x, Covers (logicalIsp c.regs - 8) 8 x → M.rd c'.world x = M.rd c₀.world x

/-- The interrupted context is back: status register, program counter and the three stacks. -/
structure Resumed (c c' : Cpu μ) : Prop where
  sr : encodeSR c'.regs c'.flags = encodeSR c.regs c.flags
  pc : c'.regs.pc = c.regs.pc
  usp : logicalUsp c'.regs = logicalUsp c.regs
  isp : logicalIsp c'.regs = logicalIsp c.regs
  msp : logicalMsp c'.regs = logicalMsp c.regs

/-- A round on a four word frame takes it off and returns its contents. -/
theorem rteRound_fourWord (hq : RamPort M h.port) (doRteMmu : Long → FaultM (Cpu μ) Unit)
    {a : Long} {sr fv : Word} {pc : Long} (ha : c.regs.sp.a7 = a)
    (hf : FrameAt M c.world a sr pc fv) (h0 : fv >>> 12 = 0) :
    rteRound h doRteMmu c = .ret (.found sr pc) (c.setA7 (a + 8)) := by
  simp only [rteRound, reads_bind_apply, ha]
  rw [bind_ret (hq.getWord _ _), bind_ret (hq.getLong _ _), bind_ret (hq.getWord _ _)]
  simp only [hf.sr, hf.pc, hf.format, h0, rteFrame_fourWord, popStack, update_bind_apply,
    pure_apply, ha]

/-- A round on a throwaway frame takes it off and loads its status register. -/
theorem rteRound_throwaway (hq : RamPort M h.port) (doRteMmu : Long → FaultM (Cpu μ) Unit)
    {a : Long} {sr fv : Word} {pc : Long} (ha : c.regs.sp.a7 = a)
    (hf : FrameAt M c.world a sr pc fv) (h1 : fv >>> 12 = 1) :
    rteRound h doRteMmu c = .ret .next ((c.setA7 (a + 8)).writeSR h.prefs .t0 sr) := by
  simp only [rteRound, reads_bind_apply, ha]
  rw [bind_ret (hq.getWord _ _), bind_ret (hq.getLong _ _), bind_ret (hq.getWord _ _)]
  simp only [hf.sr, hf.format, h1, rteFrame_throwaway, popStack, update_bind_apply,
    pure_apply, ha]

theorem formats (hv : vec < 256) :
    BitVec.ofNat 16 (vec * 4) >>> 12 = 0 ∧
      (0x1000 ||| BitVec.ofNat 16 (vec * 4) : Word) >>> 12 = 1 := by
  interval_cases vec <;> exact ⟨rfl, rfl⟩

/-- `MakeSR` only ever sets bits a model with `T0` and `M` has. -/
theorem encodeSR_implemented (r : Regs) (f : Flags) :
    encodeSR r f &&& 0xF71F = encodeSR r f := by
  apply BitVec.eq_of_getLsbD_eq
  intro i hi
  rw [BitVec.getLsbD_and, getLsbD_encodeSR hi]
  interval_cases i <;> simp

/-- On a master stack the logical pointers are `A7` and the two banked ones. -/
theorem logical_master {r : Regs} (hs : r.s = true) (hm : r.m = true) :
    logicalUsp r = r.sp.usp ∧ logicalIsp r = r.sp.isp ∧ logicalMsp r = r.sp.a7 := by
  simp [logicalUsp, logicalIsp, logicalMsp, hs, hm]

theorem logical_interrupt {r : Regs} (hs : r.s = true) (hm : r.m = false) :
    logicalUsp r = r.sp.usp ∧ logicalIsp r = r.sp.a7 ∧ logicalMsp r = r.sp.msp := by
  simp [logicalUsp, logicalIsp, logicalMsp, hs, hm]

/-- A status register write on a model with a master stack. -/
theorem Cpu.writeSR_spec {p : Prefs} (hp : 68020 ≤ p.cpuModel.num ∧ p.cpuModel.num < 68060)
    (k : SrWrite) (v : Word) (c : Cpu μ) :
    let c' := c.writeSR p k v
    (c'.regs.s = v.getLsbD 13 ∧ c'.regs.m = v.getLsbD 12) ∧
      encodeSR c'.regs c'.flags = v &&& 0xF71F ∧
      logicalUsp c'.regs = logicalUsp c.regs ∧ logicalIsp c'.regs = logicalIsp c.regs ∧
      logicalMsp c'.regs = logicalMsp c.regs := by
  have h60 : p.cpuModel ≠ .m68060 := by
    intro hc; rw [hc] at hp; revert hp; decide
  have himp : srImplemented p.cpuModel = 0xF71F := by
    revert hp; cases p.cpuModel <;> simp [srImplemented, Model.num]
  have hwf : SrWf p c.regs := ⟨fun hlt => absurd hlt (by omega), fun hlt => absurd hlt (by omega)⟩
  obtain ⟨-, -, hs, hm, -⟩ := writeSR_decodes (k := k) (v := v) hwf
  have hb := writeSR_readback (k := k) (v := v) (c := c.toCore) hwf
  rw [himp] at hb
  simp only [hp.1, decide_true, Bool.and_true] at hm
  exact ⟨⟨hs, hm⟩, hb, writeSR_logical h60 hwf⟩

/-- The throwaway frame brings the CPU back to the master stack, with the frame there on top. -/
theorem rteRound_toMaster {c₀ c' : Cpu μ} (hq : RamPort M h.port) (hv : vec < 256)
    (hp : 68020 ≤ h.prefs.cpuModel.num ∧ h.prefs.cpuModel.num < 68060) (hm : c.regs.m = true)
    (hr : MasterResult M nr vec c c₀) (hc : HandlerReturns M c c₀ c')
    (hap : FramesApart (logicalMsp c.regs - 8) (logicalIsp c.regs - 8))
    (doRteMmu : Long → FaultM (Cpu μ) Unit) :
    Returns (rteRound h doRteMmu) c' fun x c₁ => x = .next ∧ c₁.world = c'.world ∧
      c₁.regs.s = true ∧ c₁.regs.m = true ∧
      c₁.regs.sp.a7 = logicalMsp c.regs - 8 ∧ c₁.regs.sp.usp = logicalUsp c.regs ∧
      c₁.regs.sp.isp = logicalIsp c.regs := by
  have ha : c'.regs.sp.a7 = logicalIsp c.regs - 8 := by rw [hc.sp, hr.sp]
  refine .of_eq (rteRound_throwaway hq doRteMmu ha ((hr.frameAt hap).2.congr hc.throwaway)
    (formats hv).2) ?_
  -- the write moves no logical pointer, and `S` and `M` are set in the value written
  obtain ⟨⟨hs₁, hm₁⟩, -, hu, hi, hms⟩ := Cpu.writeSR_spec hp .t0
    (encodeSR c.regs c.flags ||| 0x2000) (c'.setA7 (logicalIsp c.regs - 8 + 8))
  obtain ⟨hu₀, hi₀, hms₀⟩ :=
    logical_interrupt (r := (c'.setA7 (logicalIsp c.regs - 8 + 8)).regs) hc.s hc.m
  have hs' := hs₁.trans (by rw [BitVec.getLsbD_or]; simp : _ = true)
  have hm' := hm₁.trans (by rw [BitVec.getLsbD_or, encodeSR_m, hm]; simp : _ = true)
  obtain ⟨hu₁, hi₁, hms₁⟩ := logical_master hs' hm'
  refine ⟨rfl, rfl, hs', hm', ?_, ?_, ?_⟩
  · rw [← hms₁, hms, hms₀]; simp only [Cpu.setA7, hc.sp, hr.sp]
  · rw [← hu₁, hu, hu₀]; simp only [Cpu.setA7, hc.sp, hr.sp]
  · rw [← hi₁, hi, hi₀]; simp only [Cpu.setA7]; bv_omega

/-- RTE from the handler is back in the interrupted context after its two frames. -/
theorem rte_master {c₀ c' : Cpu μ} (hq : RamPort M h.port) (hv : vec < 256)
    (hp : 68020 ≤ h.prefs.cpuModel.num ∧ h.prefs.cpuModel.num < 68060) (hm : c.regs.m = true)
    (hr : MasterResult M nr vec c c₀) (hc : HandlerReturns M c c₀ c')
    (hap : FramesApart (logicalMsp c.regs - 8) (logicalIsp c.regs - 8))
    (hpc : c.regs.pc.getLsbD 0 = false) (doRteMmu : Long → FaultM (Cpu μ) Unit) (opcode : Word)
    (fuel : Nat) :
    Returns (rte h doRteMmu opcode (fuel + 2)) c' fun _ c'' => Resumed c c'' := by
  simp only [rte, returns_reads_bind, hc.s, Bool.not_true, Bool.false_eq_true, if_false, rteLoop]
  refine .bind (rteRound_toMaster hq hv hp hm hr hc hap doRteMmu) ?_
  rintro _ c₁ ⟨rfl, hw₁, hs₁, hm₁, ha₁, hu₁, hi₁⟩
  simp only [returns_reads_bind]
  have hf : FrameAt M c₁.world (logicalMsp c.regs - 8) (encodeSR c.regs c.flags) c.regs.pc
      (BitVec.ofNat 16 (vec * 4)) := by
    rw [hw₁]; exact (hr.frameAt hap).1.congr hc.master
  refine .bind_eq (rteRound_fourWord hq doRteMmu ha₁ hf (formats hv).1) ?_
  simp only [returns_update_bind, hpc, Bool.false_eq_true, if_false]
  refine (hq.fillPrefetch _).mono ?_
  rintro _ _ ⟨ir, irc, ird, rfl⟩
  obtain ⟨-, hsr, hu, hi, hms⟩ := Cpu.writeSR_spec hp .t0 (encodeSR c.regs c.flags)
    (c₁.setA7 (logicalMsp c.regs - 8 + 8))
  obtain ⟨hu₂, hi₂, hms₂⟩ :=
    logical_master (r := (c₁.setA7 (logicalMsp c.regs - 8 + 8)).regs) hs₁ hm₁
  refine ⟨hsr.trans (encodeSR_implemented _ _), rfl, ?_, ?_, ?_⟩
  · exact (hu.trans hu₂).trans hu₁
  · exact (hi.trans hi₂).trans hi₁
  · refine (hms.trans hms₂).trans ?_
    simp only [Cpu.setA7]; bv_omega

end Return

/-! ## The three engines -/

/-- The engines that know a master stack. -/
inductive MasterEngine where
  | normal | mmu030 | mmu
  deriving DecidableEq, Repr

/-- The models with a master stack an engine is used for. -/
def MasterEngine.Fits : MasterEngine → Model → Prop
  | .normal, m => m = .m68020 ∨ m = .m68030 ∨ m = .m68040
  | .mmu030, m => m = .m68030
  | .mmu, m => m = .m68040

def MasterEngine.run (h : Host μ) (nested : Nat → FaultM (Cpu μ) Unit) (nr : Nat) (oldpc : Long) :
    MasterEngine → FaultM (Cpu μ) Unit
  | .normal => exceptionNormal h nested nr
  | .mmu030 => exceptionMmu030 h nested nr oldpc
  | .mmu => exceptionMmu h nested nr oldpc

theorem MasterEngine.Fits.models {e : MasterEngine} {m : Model} (h : e.Fits m) :
    68020 ≤ m.num ∧ m.num < 68060 := by
  cases e
  · obtain rfl | rfl | rfl := h <;> decide
  · obtain rfl := h; decide
  · obtain rfl := h; decide

/-- Interrupt entry with `M` set leaves the architected result, from which RTE takes the handler
back to the interrupted context, in `Exception_normal` and `Exception_mmu030`; in `Exception_mmu`
it does so only when the interrupt stack lies right below the frame on the master stack. -/
theorem masterInterrupt_iff {M : ByteMem μ} {h : Host μ} {nr vec : Nat} {c : Cpu μ}
    (he : MasterEntry M h nr vec c) {e : MasterEngine} (hfit : e.Fits h.prefs.cpuModel)
    (nested : Nat → FaultM (Cpu μ) Unit) (oldpc : Long) :
    Returns (e.run h nested nr oldpc) c (fun _ c₀ => MasterResult M nr vec c c₀ ∧
      (FramesApart (logicalMsp c.regs - 8) (logicalIsp c.regs - 8) →
        c.regs.pc.getLsbD 0 = false →
        ∀ c', HandlerReturns M c c₀ c' → ∀ doRteMmu opcode fuel,
          Returns (rte h doRteMmu opcode (fuel + 2)) c' fun _ c'' => Resumed c c'')) ↔
      (e = .mmu → logicalIsp c.regs = logicalMsp c.regs - 8) := by
  have hrte : ∀ c₀, MasterResult M nr vec c c₀ → MasterResult M nr vec c c₀ ∧
      (FramesApart (logicalMsp c.regs - 8) (logicalIsp c.regs - 8) →
        c.regs.pc.getLsbD 0 = false →
        ∀ c', HandlerReturns M c c₀ c' → ∀ doRteMmu opcode fuel,
          Returns (rte h doRteMmu opcode (fuel + 2)) c' fun _ c'' => Resumed c c'') :=
    fun c₀ hr => ⟨hr, fun hap hpc c' hc doRteMmu opcode fuel =>
      rte_master he.ram he.vector hfit.models he.m hr hc hap hpc doRteMmu opcode fuel⟩
  cases e with
  | normal =>
    refine ⟨fun _ hc => (by cases hc), fun _ => ?_⟩
    exact (exceptionNormal_master he hfit.models nested).mono fun _ c₀ => hrte c₀
  | mmu030 =>
    refine ⟨fun _ hc => (by cases hc), fun _ => ?_⟩
    exact (exceptionMmu030_master he nested oldpc).mono fun _ c₀ => hrte c₀
  | mmu =>
    have hiff := exceptionMmu_master_iff he hfit nested oldpc
    refine ⟨fun hr _ => hiff.mp (hr.mono fun _ c₀ hc => hc.1), fun h8 => ?_⟩
    exact (hiff.mpr (h8 rfl)).mono fun _ c₀ => hrte c₀

/-- A 68040 with MMU and RAM throughout. -/
def ram68040 : Host (Long → Byte) :=
  .ram { Prefs.plain .m68040 with mmuModel := true } ofFun fun _ => pure 0

/-- That CPU in supervisor mode with `M` set, its master stack at `0x2000` and its interrupt stack
at `0x3000`. -/
def onMaster68040 : Cpu (Long → Byte) :=
  ((Cpu.reset ram68040.prefs 0x3000 0x400 fun _ => 0).writeSR ram68040.prefs .plain 0x3000).setA7
    0x2000

theorem masterEntry_68040 : MasterEntry ofFun ram68040 26 26 onMaster68040 where
  ram := ramPort_ram ofFun
  interrupt := by decide
  vector := by decide
  ack := rfl
  level c := ⟨_, rfl⟩
  m := by decide
  even := by decide
  apart x hx := by
    have hv : vectorAddr onMaster68040.regs 26 = 0x68#32 := by decide
    have hm : logicalMsp onMaster68040.regs - 8 = 0x1FF8#32 := by decide
    have hi : logicalIsp onMaster68040.regs - 8 = 0x2FF8#32 := by decide
    rw [hv] at hx
    rw [hm, hi]
    simp only [Covers] at *
    constructor <;> bv_omega

/-- `Exception_mmu` puts the throwaway frame on the master stack as well. -/
theorem exceptionMmu_stays_on_master :
    ¬ Returns (exceptionMmu ram68040 (fun _ => pure ()) 26 0x400) onMaster68040
      fun _ c' => MasterResult ofFun 26 26 onMaster68040 c' := by
  rw [exceptionMmu_master_iff masterEntry_68040 rfl]
  decide

theorem masterInterrupt_normal_68040 :
    Returns (exceptionNormal ram68040 (fun _ => pure ()) 26) onMaster68040 fun _ c₀ =>
      MasterResult ofFun 26 26 onMaster68040 c₀ ∧
      (FramesApart (logicalMsp onMaster68040.regs - 8) (logicalIsp onMaster68040.regs - 8) →
        onMaster68040.regs.pc.getLsbD 0 = false →
        ∀ c', HandlerReturns ofFun onMaster68040 c₀ c' → ∀ doRteMmu opcode fuel,
          Returns (rte ram68040 doRteMmu opcode (fuel + 2)) c'
            fun _ c'' => Resumed onMaster68040 c'') :=
  (masterInterrupt_iff masterEntry_68040 (e := .normal) (.inr (.inr rfl)) (fun _ => pure ())
    0x400).mpr (by decide)

end UaeCpu
