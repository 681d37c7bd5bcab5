import UaeCpu.Banking

/-!
# UaeCpu.Context

`m68k_get_context` and `m68k_set_context`: the context is a copy of `regs`, in which the status
register is only as fresh as the last `MakeSR`, and not of `regflags`.

* `setContext_roundtrip_iff` — a context comes back exactly when its `sr` was up to date.
-/

namespace UaeCpu

/-- `memcpy(dst, &regs, ..)`: no `MakeSR` first, and the condition codes are elsewhere. -/
def m68kGetContext (c : Core) : Regs := c.regs

/-- `memcpy(&regs, src, ..); MakeFromSR();`. -/
def m68kSetContext (p : Prefs) (src : Regs) (c : Core) : Core :=
  makeFromSRx p .plain { c with regs := src }

/-- The programmer's model of two cores agrees, with the status register as `MakeSR` reads it. -/
structure SameContext (c c' : Core) : Prop where
  d : c'.regs.d = c.regs.d
  a : c'.regs.a = c.regs.a
  sp : c'.regs.sp = c.regs.sp
  pc : c'.regs.pc = c.regs.pc
  sr : encodeSR c'.regs c'.flags = encodeSR c.regs c.flags
  vbr : c'.regs.vbr = c.regs.vbr
  sfc : c'.regs.sfc = c.regs.sfc
  dfc : c'.regs.dfc = c.regs.dfc
  fpu : c'.regs.fpu = c.regs.fpu

/-- The saved `regs.sr` is the status register on every bit the model has; on the 68060 a set
bit 14, which it does not have, is harmless only while `MSP` equals `ISP`. -/
def SrFresh (p : Prefs) (c : Core) : Prop :=
  c.regs.sr &&& srImplemented p.cpuModel = encodeSR c.regs c.flags ∧
    (p.cpuModel = .m68060 → c.regs.sr.getLsbD 14 = true → c.regs.sp.msp = c.regs.sp.isp)

instance (p : Prefs) (c : Core) : Decidable (SrFresh p c) := by
  unfold SrFresh; infer_instance

section

variable {p : Prefs} {c : Core}

/-- The status register after a restore is the saved `regs.sr`, as far as the model has it. -/
theorem setContext_readback (hwf : SrWf p c.regs) (later : Core) :
    let c' := m68kSetContext p (m68kGetContext c) later
    encodeSR c'.regs c'.flags = c.regs.sr &&& srImplemented p.cpuModel :=
  writeSR_readback (k := .plain) (v := c.regs.sr) (c := { later with regs := c.regs }) hwf

/-- With the status register restored, the stack pointers are too, unless the 68060 path copies
`ISP` over `MSP`. -/
theorem setContext_sp_iff (hwf : SrWf p c.regs) (later : Core)
    (hsr : c.regs.sr &&& srImplemented p.cpuModel = encodeSR c.regs c.flags) :
    (m68kSetContext p (m68kGetContext c) later).regs.sp = c.regs.sp ↔
      (p.cpuModel = .m68060 → c.regs.sr.getLsbD 14 = true →
        c.regs.sp.msp = c.regs.sp.isp) := by
  have hd := writeSR_decodes (k := .plain) (v := c.regs.sr) (c := { later with regs := c.regs }) hwf
  have hrb := setContext_readback hwf later
  rw [hsr] at hrb
  obtain ⟨e1, e0, es, em, ei, -⟩ := encodeSR_inj _ _ hrb
  obtain ⟨d1, d0, ds, dm, di⟩ := hd
  have h1 : c.regs.t1 = c.regs.sr.getLsbD 15 := e1.symm.trans d1
  have hs : c.regs.s = c.regs.sr.getLsbD 13 := es.symm.trans ds
  have hm : c.regs.m = (c.regs.sr.getLsbD 12 && decide (68020 ≤ p.cpuModel.num)) :=
    em.symm.trans dm
  have hi : c.regs.intmask = srMaskField c.regs.sr := ei.symm.trans di
  obtain ⟨hu, he⟩ | ⟨hu, i, spc, he⟩ := makeFromSRx_cases p .plain { later with regs := c.regs }
  · -- early return: no pointer moved, and bit 14 equals a clear T0
    obtain ⟨-, hu0, -⟩ := srUnchanged_iff.mp hu
    simp only [m68kSetContext, m68kGetContext, he, true_iff]
    intro h60 h14
    have := hwf.2 (.inr (by rw [h60]; decide))
    rw [← hu0, this] at h14
    cases h14
  · simp only [m68kSetContext, m68kGetContext, he, decodeSR, bankStacks, ← hs, ne_eq,
      not_true_eq_false, if_false]
    by_cases h60 : p.cpuModel = .m68060
    · have h20 : 68020 ≤ p.cpuModel.num ∧ 68060 ≤ p.cpuModel.num := by rw [h60]; decide
      have hm' : c.regs.m = c.regs.sr.getLsbD 12 := by simpa [h20] using hm
      -- only bit 14 can have kept the early return from being taken
      have h14 : c.regs.sr.getLsbD 14 = true := by
        by_contra h
        have ht0 := hwf.2 (.inr h20.2)
        have : srUnchanged c.regs = true :=
          srUnchanged_iff.mpr ⟨h1, by simpa [ht0] using h, hs, hm', hi⟩
        rw [this] at hu
        cases hu
      simp only [h20.1, h20.2, ← hm', if_true, not_true_eq_false, and_false, if_false]
      constructor
      · intro h _ _
        rw [← h]
      · intro h
        exact StackPtrs.ext rfl rfl rfl (h h60 h14).symm
    · have hlt : ¬ 68060 ≤ p.cpuModel.num := by revert h60; cases p.cpuModel <;> decide
      by_cases h20 : 68020 ≤ p.cpuModel.num
      · have hm' : c.regs.m = c.regs.sr.getLsbD 12 := by simpa [h20] using hm
        simp only [h20, hlt, ← hm', if_true, if_false, not_true_eq_false, and_false]
        simp [h60]
      · simp [h20, h60]

end

/-- Saving a context and restoring it later gives the saved programmer's model back exactly when
the saved `regs.sr` was fresh; whatever ran in between does not matter. `WfCore p` is what a reset
establishes and status register writes and exceptions keep, as long as the configuration stays. -/
theorem setContext_roundtrip_iff {p : Prefs} (c : WfCore p) (later : Core) :
    SameContext c.core (m68kSetContext p (m68kGetContext c.core) later) ↔ SrFresh p c.core := by
  have hrb := setContext_readback c.wf later
  constructor
  · intro h
    have hsr : c.core.regs.sr &&& srImplemented p.cpuModel = encodeSR c.core.regs c.core.flags :=
      hrb.symm.trans h.sr
    exact ⟨hsr, (setContext_sp_iff c.wf later hsr).mp h.sp⟩
  · rintro ⟨hsr, hsp⟩
    have hsp' := (setContext_sp_iff c.wf later hsr).mpr hsp
    obtain ⟨-, he⟩ | ⟨-, i, spc, he⟩ :=
      makeFromSRx_cases p .plain { later with regs := c.core.regs }
    all_goals
      refine ⟨?_, ?_, hsp', ?_, hrb.trans hsr, ?_, ?_, ?_, ?_⟩ <;>
      simp only [m68kSetContext, m68kGetContext, he, decodeSR]

/-- The state after `MOVEQ #0,D0`: `Z` is set in `regflags` only. -/
def moveqZeroD0 (c : Core) : Core :=
  { regs := { c.regs with d := c.regs.d.set 0 0, pc := c.regs.pc + 2 },
    flags := { c.flags with n := false, z := true, v := false, c := false } }

/-- Right after a reset and one `MOVEQ #0,D0` the saved context has lost `Z`. -/
theorem setContext_loses_flags :
    ¬ SameContext (moveqZeroD0 (uaeCpuReset (.plain .m68000) 0x1000 0x400 Core.zero))
      (m68kSetContext (.plain .m68000)
        (m68kGetContext (moveqZeroD0 (uaeCpuReset (.plain .m68000) 0x1000 0x400 Core.zero)))
        Core.zero) := by
  intro h
  have := h.sr
  revert this
  decide

end UaeCpu
