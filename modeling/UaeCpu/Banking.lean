import UaeCpu.StatusReg

/-!
# UaeCpu.Banking

What a status register write does to the stack pointers and to the decoded status register.

* `WfCore p`               — a core whose unimplemented status bits read as zero.
* `writeSRs_banking_iff`   — no sequence of writes moves a logical stack pointer (68000–68040),
                             and when each write reads back on exactly the implemented bits.
-/

namespace UaeCpu

/-! ## Implemented status register bits -/

/-- The status register bits a model has: `T0` and `M` came with the 68020, and the 68060 has
`M` but no `T0`. -/
def srImplemented : Model → Word
  | .m68000 | .m68010 => 0xA71F
  | .m68020 | .m68030 | .m68040 => 0xF71F
  | .m68060 => 0xB71F

/-- `T0` and `M` are clear on models that do not have them. -/
def SrWf (p : Prefs) (r : Regs) : Prop :=
  (p.cpuModel.num < 68020 → r.m = false) ∧
    (p.cpuModel.num < 68020 ∨ 68060 ≤ p.cpuModel.num → r.t0 = false)

instance (p : Prefs) (r : Regs) : Decidable (SrWf p r) := by
  unfold SrWf; infer_instance

/-! ## Logical stack pointers -/

/-- The user stack pointer, wherever it is kept. -/
def logicalUsp (r : Regs) : Long := if r.s then r.sp.usp else r.sp.a7

def logicalIsp (r : Regs) : Long := if r.s && !r.m then r.sp.a7 else r.sp.isp

def logicalMsp (r : Regs) : Long := if r.s && r.m then r.sp.a7 else r.sp.msp

section Step

variable {p : Prefs} {k : SrWrite} {v : Word} {c : Core}

/-- The decoded part of a written value is what the model implements of it, whichever way
`MakeFromSR_x` left. -/
theorem writeSR_decodes (hwf : SrWf p c.regs) :
    let r := (writeSR p k v c).regs
    r.t1 = v.getLsbD 15 ∧
      r.t0 = (v.getLsbD 14 && decide (68020 ≤ p.cpuModel.num ∧ ¬ 68060 ≤ p.cpuModel.num)) ∧
      r.s = v.getLsbD 13 ∧
      r.m = (v.getLsbD 12 && decide (68020 ≤ p.cpuModel.num)) ∧
      r.intmask = srMaskField v := by
  obtain ⟨hu, he⟩ | ⟨-, i, spc, he⟩ :=
    makeFromSRx_cases p k { c with regs := { c.regs with sr := v } }
  · -- early return: every field already agreed, and the missing ones were zero before
    obtain ⟨h1, h0, hs, hm, hi⟩ := srUnchanged_iff.mp hu
    simp only [writeSR, he]
    refine ⟨h1, ?_, hs, ?_, hi⟩
    · by_cases ht : p.cpuModel.num < 68020 ∨ 68060 ≤ p.cpuModel.num
      · rw [hwf.2 ht]; simp; omega
      · rw [h0]; simp; omega
    · by_cases ht : p.cpuModel.num < 68020
      · rw [hwf.1 ht]; simp; omega
      · rw [hm]; simp; omega
  · simp only [writeSR, he]
    exact ⟨rfl, rfl, rfl, rfl, rfl⟩

theorem writeSR_wf (hwf : SrWf p c.regs) : SrWf p (writeSR p k v c).regs := by
  obtain ⟨-, h0, -, hm, -⟩ := writeSR_decodes (k := k) (v := v) hwf
  constructor
  · intro h; rw [hm]; simp; omega
  · intro h; rw [h0]; simp; omega

theorem writeSR_flags : (writeSR p k v c).flags = Flags.ofSR v := by
  obtain ⟨-, he⟩ | ⟨-, i, spc, he⟩ :=
    makeFromSRx_cases p k { c with regs := { c.regs with sr := v } } <;>
  simp only [writeSR, he]

theorem srImplemented_eq (m : Model) : srImplemented m =
    0xA71F ||| srBit (decide (68020 ≤ m.num ∧ ¬ 68060 ≤ m.num)) 14 |||
      srBit (decide (68020 ≤ m.num)) 12 := by
  cases m <;> decide

theorem writeSR_readback (hwf : SrWf p c.regs) :
    encodeSR (writeSR p k v c).regs (writeSR p k v c).flags =
      v &&& srImplemented p.cpuModel := by
  obtain ⟨h1, h0, hs, hm, hi⟩ := writeSR_decodes (k := k) (v := v) hwf
  rw [writeSR_flags, srImplemented_eq]
  exact encodeSR_ofSR h1 h0 hs hm hi

/-- One write moves no logical stack pointer: what leaves `A7` goes to the bank it belongs to,
and what enters comes from the bank the new `S` and `M` name. -/
theorem writeSR_logical (hm : p.cpuModel ≠ .m68060) (hwf : SrWf p c.regs) :
    let r := (writeSR p k v c).regs
    logicalUsp r = logicalUsp c.regs ∧ logicalIsp r = logicalIsp c.regs ∧
      logicalMsp r = logicalMsp c.regs := by
  have h60 : ¬ 68060 ≤ p.cpuModel.num := by
    revert hm; cases p.cpuModel <;> decide
  obtain ⟨hu, he⟩ | ⟨-, i, spc, he⟩ :=
    makeFromSRx_cases p k { c with regs := { c.regs with sr := v } }
  · simp only [writeSR, he]
    exact ⟨rfl, rfl, rfl⟩
  · simp only [writeSR, he, logicalUsp, logicalIsp, logicalMsp, decodeSR, bankStacks, h60,
      if_false]
    by_cases h20 : 68020 ≤ p.cpuModel.num
    · simp only [h20, if_true, decide_true, Bool.and_true]
      cases c.regs.s <;> cases c.regs.m <;> cases v.getLsbD 13 <;> cases v.getLsbD 12 <;> simp
    · have hm0 : c.regs.m = false := hwf.1 (by omega)
      simp only [h20, if_false, decide_false, Bool.and_false, hm0]
      cases c.regs.s <;> cases v.getLsbD 13 <;> simp

end Step

/-! ## Any register state

`uae_cpu_set_config` leaves the registers alone, so a CPU can come with a status bit that its new
model lacks. -/

section AnyState

variable {p : Prefs} {k : SrWrite} {v : Word} {c : Core}

/-- `M` as the model has it: zero on the 68000 and 68010. -/
def Regs.modelM (p : Prefs) (r : Regs) : Regs :=
  { r with m := r.m && decide (68020 ≤ p.cpuModel.num) }

/-- No logical stack pointer differs. -/
structure SameStacks (p : Prefs) (r r' : Regs) : Prop where
  usp : logicalUsp r' = logicalUsp r
  isp : logicalIsp (r'.modelM p) = logicalIsp (r.modelM p)
  msp : logicalMsp (r'.modelM p) = logicalMsp (r.modelM p)

theorem SameStacks.refl (p : Prefs) (r : Regs) : SameStacks p r r := ⟨rfl, rfl, rfl⟩

theorem SameStacks.trans {r r' r'' : Regs} (h : SameStacks p r r') (h' : SameStacks p r' r'') :
    SameStacks p r r'' :=
  ⟨h'.usp.trans h.usp, h'.isp.trans h.isp, h'.msp.trans h.msp⟩

/-- The stacks are banked by `S` alone where there is no `M`, so a stale `M` does no harm. -/
theorem writeSR_stacks (hm : p.cpuModel ≠ .m68060) :
    SameStacks p c.regs (writeSR p k v c).regs := by
  have h60 : ¬ 68060 ≤ p.cpuModel.num := by
    revert hm; cases p.cpuModel <;> decide
  obtain ⟨-, he⟩ | ⟨-, i, spc, he⟩ :=
    makeFromSRx_cases p k { c with regs := { c.regs with sr := v } }
  · simp only [writeSR, he]
    exact ⟨rfl, rfl, rfl⟩
  · by_cases h20 : 68020 ≤ p.cpuModel.num
    all_goals
      constructor <;>
      simp only [writeSR, he, logicalUsp, logicalIsp, logicalMsp, decodeSR, bankStacks,
        Regs.modelM, h60, h20, if_true, if_false, decide_true, decide_false, Bool.and_true,
        Bool.and_false, Bool.not_false] <;>
      cases c.regs.s <;> cases c.regs.m <;> cases v.getLsbD 13 <;> cases v.getLsbD 12 <;> rfl

/-- A write that does not return early clears what the model lacks. -/
theorem writeSR_wf_of_changed (hu : srUnchanged { c.regs with sr := v } = false) :
    SrWf p (writeSR p k v c).regs := by
  obtain ⟨h, -⟩ | ⟨-, i, spc, he⟩ :=
    makeFromSRx_cases p k { c with regs := { c.regs with sr := v } }
  · rw [hu] at h; cases h
  · simp only [writeSR, he, SrWf, decodeSR]
    exact ⟨fun h => by simp; omega, fun h => by simp; omega⟩

/-- A written value is read back on the implemented bits, except through the early return with a
stale bit: the comparison is with the raw value, so the bit stays. -/
theorem writeSR_readback_iff :
    encodeSR (writeSR p k v c).regs (writeSR p k v c).flags = v &&& srImplemented p.cpuModel ↔
      SrWf p c.regs ∨ srUnchanged { c.regs with sr := v } = false := by
  obtain ⟨hu, he⟩ | ⟨hu, i, spc, he⟩ :=
    makeFromSRx_cases p k { c with regs := { c.regs with sr := v } }
  · replace hu : srUnchanged { c.regs with sr := v } = true := hu
    simp only [hu, Bool.true_eq_false, or_false]
    refine ⟨fun h => ?_, writeSR_readback⟩
    have hdec : ∀ j, (encodeSR c.regs (Flags.ofSR v)).getLsbD j =
        (v &&& srImplemented p.cpuModel).getLsbD j := fun j => by
      rw [← h]
      simp only [writeSR, he]
      rfl
    have ht0 := hdec 14
    have hm := hdec 12
    rw [encodeSR_t0, BitVec.getLsbD_and] at ht0
    rw [encodeSR_m, BitVec.getLsbD_and] at hm
    revert ht0 hm
    unfold SrWf
    cases p.cpuModel <;> simp [Model.num, srImplemented] <;> tauto
  · replace hu : srUnchanged { c.regs with sr := v } = false := hu
    simp only [hu, or_true, iff_true, writeSR, he, srImplemented_eq]
    exact encodeSR_ofSR rfl rfl rfl rfl rfl

end AnyState

/-! ## Sequences of writes -/

/-- A core in which the status bits the model lacks are clear. -/
structure WfCore (p : Prefs) where
  core : Core
  wf : SrWf p core.regs

def WfCore.writeSR {p : Prefs} (c : WfCore p) (w : SrWrite × Word) : WfCore p :=
  ⟨UaeCpu.writeSR p w.1 w.2 c.core, writeSR_wf c.wf⟩

/-- The CPU after a reset, whatever it was before. -/
def WfCore.reset (p : Prefs) (ssp pc : Long) (c : Core) : WfCore p :=
  ⟨uaeCpuReset p ssp pc c, writeSR_wf (c := { (m68kReset2 ssp pc c) with
    regs := { (m68kReset2 ssp pc c).regs with
      sp := { (m68kReset2 ssp pc c).regs.sp with a7 := ssp, isp := ssp } } })
    ⟨fun _ => rfl, fun _ => rfl⟩⟩

/-- The writes of a list, first to last, each through the wrapper it names. -/
def writeSRs (p : Prefs) (c : Core) (ws : List (SrWrite × Word)) : Core :=
  ws.foldl (fun c w => writeSR p w.1 w.2 c) c

/-- After each write of the list the logical stack pointers are those of `c`, and the value just
written reads back exactly on the bits the model implements. -/
def LosslessBanking (p : Prefs) (c : Core) (ws : List (SrWrite × Word)) : Prop :=
  ∀ past w, past ++ [w] <+: ws →
    SameStacks p c.regs (writeSRs p c (past ++ [w])).regs ∧
    encodeSR (writeSRs p c (past ++ [w])).regs (writeSRs p c (past ++ [w])).flags =
      w.2 &&& srImplemented p.cpuModel

section Sequences

variable {p : Prefs} {c : Core} {ws : List (SrWrite × Word)}

theorem writeSRs_concat (past : List (SrWrite × Word)) (w : SrWrite × Word) :
    writeSRs p c (past ++ [w]) = writeSR p w.1 w.2 (writeSRs p c past) := by
  simp [writeSRs]

theorem writeSRs_stacks (hm : p.cpuModel ≠ .m68060) (ws : List (SrWrite × Word)) (c : Core) :
    SameStacks p c.regs (writeSRs p c ws).regs := by
  induction ws generalizing c with
  | nil => exact .refl p c.regs
  | cons w ws ih => exact (writeSR_stacks hm).trans (ih (writeSR p w.1 w.2 c))

theorem writeSRs_wf (ws : List (SrWrite × Word)) {c : Core} (hwf : SrWf p c.regs) :
    SrWf p (writeSRs p c ws).regs := by
  induction ws generalizing c with
  | nil => exact hwf
  | cons w ws ih => exact ih (writeSR_wf hwf)

end Sequences

/-- On the 68000 to 68040, from any register state, a sequence of status register writes banks the
stack pointers without loss and reads back exactly when no status bit that the model lacks is set,
or the first write changes one of `T1`, `T0`, `S`, `M` and the mask. -/
theorem writeSRs_banking_iff {p : Prefs} (hm : p.cpuModel ≠ .m68060) (c : Core)
    (ws : List (SrWrite × Word)) :
    LosslessBanking p c ws ↔
      SrWf p c.regs ∨ ∀ w ∈ ws.head?, srUnchanged { c.regs with sr := w.2 } = false := by
  constructor
  · intro h
    cases ws with
    | nil => exact .inr fun w hw => by cases hw
    | cons w ws =>
      obtain ⟨-, hrb⟩ := h [] w ⟨ws, rfl⟩
      refine (writeSR_readback_iff.mp hrb).imp_right fun hu w' hw' => ?_
      cases hw'
      exact hu
  · intro h past w hpre
    refine ⟨writeSRs_stacks hm _ c, ?_⟩
    rw [writeSRs_concat]
    refine writeSR_readback_iff.mpr ?_
    obtain hwf | hfirst := h
    · exact .inl (writeSRs_wf past hwf)
    · -- the first write leaves a state in which nothing stale is left
      obtain ⟨rest, rfl⟩ := hpre
      cases past with
      | nil => exact .inr (hfirst w rfl)
      | cons w' past => exact .inl (writeSRs_wf past (writeSR_wf_of_changed (hfirst w' rfl)))

/-- A 68020 with `T0` set, taken over by a configuration for a 68000. -/
def staleT0 : Core :=
  writeSR (.plain .m68020) .plain 0x6700 (uaeCpuReset (.plain .m68020) 0x1000 0x400 Core.zero)

/-- The 68000 reads back a `T0` it does not have. -/
theorem staleT0_reads_back :
    ¬ LosslessBanking (.plain .m68000) staleT0 [(.plain, 0x6700)] := by
  intro h
  have hrb := (h [] (.plain, 0x6700) ⟨[], rfl⟩).2
  revert hrb
  decide

/-- A 68030 after a reset goes to the master stack and to user mode; the stale 68000 is rid of `T0`
by a write that changes it, and keeps it through one that does not. -/
theorem writeSRs_banking_stale :
    LosslessBanking (.plain .m68030) (uaeCpuReset (.plain .m68030) 0x1000 0x400 Core.zero)
      [(.t0, 0x7700), (.stop, 0x8015), (.plain, 0xFFFF)] ∧
    LosslessBanking (.plain .m68000) staleT0 [(.plain, 0x2700), (.t0, 0x6700), (.stop, 0)] ∧
    ¬ LosslessBanking (.plain .m68000) staleT0 [(.plain, 0x6715), (.plain, 0x2700)] := by
  refine ⟨(writeSRs_banking_iff (by decide) _ _).mpr (.inl ?_),
    (writeSRs_banking_iff (by decide) _ _).mpr (.inr ?_), fun h => ?_⟩
  · exact (WfCore.reset (.plain .m68030) 0x1000 0x400 Core.zero).wf
  · rintro w ⟨⟩
    decide
  · obtain hwf | hfirst := (writeSRs_banking_iff (by decide) _ _).mp h
    · exact absurd hwf (by decide)
    · exact absurd (hfirst _ rfl) (by decide)

end UaeCpu
