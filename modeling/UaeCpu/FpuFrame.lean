import UaeCpu.Fpu

/-!
# UaeCpu.FpuFrame

FRESTORE after FSAVE. `restored` is what FRESTORE makes of a frame that FSAVE wrote, `Restorable`
says when that is the state FSAVE found, and `fsave_roundTrip_iff` that nothing else decides it.
-/

namespace UaeCpu.Fpu

open Mem

/-! ## Frames in memory -/

section Memory

variable {mem : Long → Byte} {ad x : Long} {xs : List (Option Long)}

theorem putFrame_of_not_covers : ∀ {xs : List (Option Long)} {mem : Long → Byte} {ad : Long},
    4 * xs.length < 2 ^ 32 → ¬ Covers ad (4 * xs.length) x → putFrame mem ad xs x = mem x
  | [], _, _, _, _ => rfl
  | v :: xs, mem, ad, hn, hx => by
    simp only [List.length_cons] at hn hx
    have htail : ¬ Covers (ad + 4) (4 * xs.length) x := fun h =>
      hx (covers_mono (i := 4) h (by omega) hn)
    cases v with
    | none =>
      rw [putFrame]
      exact putFrame_of_not_covers (by omega) htail
    | some v =>
      have hhead : ¬ Covers ad 4 x := fun h =>
        hx (covers_mono (i := 0) (by simpa using h) (by omega) hn)
      rw [putFrame]
      exact (putFrame_of_not_covers (by omega) htail).trans
        (rd_wr32_of_not_covers ofFun hhead)

/-- Each long of a frame is where FSAVE put it. -/
theorem rd32_putFrame : ∀ {xs : List (Option Long)} {mem : Long → Byte} {ad : Long} {i : Nat}
    {v : Long}, 4 * xs.length < 2 ^ 32 → xs[i]? = some (some v) →
    rd32 ofFun (putFrame mem ad xs) (ad + BitVec.ofNat 32 (4 * i)) = v
  | [], _, _, _, _, _, hi => by simp at hi
  | y :: xs, mem, ad, 0, v, hn, hi => by
    simp only [List.length_cons] at hn
    obtain rfl : y = some v := by simpa using hi
    have hlo : ∀ x, Covers ad 4 x → ¬ Covers (ad + 4) (4 * xs.length) x := by
      intro x hx
      simp only [Covers, BitVec.ofNat_eq_ofNat, BitVec.toNat_sub, BitVec.toNat_add,
        BitVec.toNat_ofNat] at *
      omega
    have hsame : rd32 ofFun (putFrame (wr32 ofFun mem ad v) (ad + 4) xs) ad =
        rd32 ofFun (wr32 ofFun mem ad v) ad :=
      rd32_congr ofFun fun x hx => putFrame_of_not_covers (by omega) (hlo x hx)
    simpa [putFrame] using hsame.trans (rd32_wr32 ofFun mem ad v)
  | y :: xs, mem, ad, i + 1, v, hn, hi => by
    simp only [List.length_cons] at hn
    have hi' : xs[i]? = some (some v) := by simpa using hi
    have had : ad + BitVec.ofNat 32 (4 * (i + 1)) = ad + 4 + BitVec.ofNat 32 (4 * i) := by
      rw [BitVec.add_assoc]
      congr 1
      apply BitVec.eq_of_toNat_eq
      simp only [BitVec.ofNat_eq_ofNat, BitVec.toNat_ofNat, BitVec.toNat_add]
      omega
    rw [had]
    cases y with
    | none =>
      rw [putFrame]
      exact rd32_putFrame (by omega) hi'
    | some y =>
      rw [putFrame]
      exact rd32_putFrame (by omega) hi'

/-- Memory shows the frame `xs` at `ad`. -/
def HoldsFrame (mem : Long → Byte) (ad : Long) (xs : List (Option Long)) : Prop :=
  ∀ i v, xs[i]? = some (some v) → rd32 ofFun mem (ad + BitVec.ofNat 32 (4 * i)) = v

/-- It still does where nothing has touched the frame. -/
theorem HoldsFrame.of_untouched {mem' : Long → Byte} (mem : Long → Byte) (hn : 4 * xs.length < 2 ^ 32)
    (h : ∀ x, Covers ad (4 * xs.length) x → mem' x = putFrame mem ad xs x) :
    HoldsFrame mem' ad xs := by
  intro i v hi
  have hput : rd32 ofFun (putFrame mem ad xs) (ad + BitVec.ofNat 32 (4 * i)) = v :=
    rd32_putFrame hn hi
  rw [← hput]
  refine rd32_congr ofFun fun x hx => h x ?_
  have hlt : i < xs.length := (List.getElem?_eq_some_iff.mp hi).1
  exact covers_mono hx (by omega) hn

theorem HoldsFrame.head {v : Long} (h : HoldsFrame mem ad (some v :: xs)) :
    rd32 ofFun mem ad = v := by
  simpa using h 0 v rfl

end Memory

/-! ## What FRESTORE makes of a frame -/

section Restore

variable (p : FpuPrefs) (f : FpuState)

/-- The frame's own state, as the 68060 takes it back. -/
def restored060 (c : FpuCpu) : FpuCpu :=
  let c := c.mapFsave fun s => { s with eo := { f.fsave.eo with w0 := f.fsave.eo.w0 &&& 0xFFFF0000 } }
  if f.fpuExpState = .busy then
    if f.fsave.v = 7 then c.mapFpu fun s => { s with
      fpuState := true, fpuExpState := .busy, fpExpPend := 0, fpUnimpPend := 1 }
    else c.mapFpu fun s => { s with
      fpuState := true, fpuExpState := .busy, fpExpPend := 48 + f.fsave.v.setWidth 32 }
  else if f.fpuState then c.mapFpu fun s => { s with
    fpuState := true, fpuExpState := .none, fpExpPend := 0 }
  else fpuNull (c.mapFpu fun s => { s with fpExpPend := 0 })

def restored040 (c : FpuCpu) : FpuCpu :=
  match f.fpuExpState with
  | .none =>
    if f.fpuState then c.mapFpu fun s => { s with fpuState := true, fpuExpState := .none }
    else fpuNull c
  | .unimp => c
  | .busy => c.mapFsave fun s => { s with
      cmdreg1b := f.fsave.cmdreg1b, fpt := f.fsave.fpt, et := f.fsave.et }

def restored6888x (c : FpuCpu) : FpuCpu :=
  if f.fpuState then
    let c := (c.mapFpu fun s => { s with fpuState := true }).mapFsave fun s =>
      { s with ccr := f.fsave.ccr, eo := f.fsave.eo }
    if f.fpuExpState = .none then
      c.mapFpu fun s => { s with fpuExpState := .none, fpExpPend := 0 }
    else c.mapFpu fun s => { s with
      fpuExpState := .busy
      fpExpPend := fpsrGetVector (c.regs.fpu.fpsr &&& c.regs.fpu.fpcr &&& 0xFF00) }
  else fpuNull c

/-! ### The words of a frame -/

theorem low_of_masked (x y m : Long) (hm : 0xFFFF0000 &&& m = 0) :
    ((x &&& 0xFFFF0000) ||| y) &&& m = y &&& m := by
  rw [BitVec.and_or_distrib_right, BitVec.and_assoc, hm]
  simp

theorem high_of_masked (x y : Long) (hy : y &&& 0xFFFF0000 = 0) :
    ((x &&& 0xFFFF0000) ||| y) &&& 0xFFFF0000 = x &&& 0xFFFF0000 := by
  rw [BitVec.and_or_distrib_right, BitVec.and_assoc, hy]
  simp

/-- The format byte of a 68060 frame. -/
theorem format_of_masked (x y : Long) :
    (((x &&& 0xFFFF0000) ||| y) >>> 8) &&& (0xFF : Long) = (y >>> 8) &&& (0xFF : Long) := by
  have h : ∀ z : Long, (z >>> 8) &&& (0xFF : Long) = (z &&& 0xFF00) >>> 8 := by
    intro z
    rw [BitVec.ushiftRight_and_distrib]
    rfl
  rw [h, h, low_of_masked x y 0xFF00 (by decide)]

theorem setWidth_shift (v : Word) : ((v.setWidth 32 <<< 16) >>> 16).setWidth 16 = v := by
  apply BitVec.eq_of_toNat_eq
  have := v.isLt
  simp only [BitVec.toNat_setWidth, BitVec.toNat_ushiftRight, BitVec.toNat_shiftLeft]
  omega

section Specs

variable {p : FpuPrefs} {f : FpuState} {c : FpuCpu} {ad : Long} {resume : FpuCpu → FpuCpu}

/-- The second word of an EXCP frame. -/
theorem excp_word (v : BitVec 3) :
    ((0xE000 ||| v.setWidth 32 : Long) >>> 8) &&& 0xFF = 0xE0 ∧
      (0xE000 ||| v.setWidth 32 : Long) &&& 7 = v.setWidth 32 ∧
      (0xE000 ||| v.setWidth 32 : Long) &&& 0xFFFF0000 = 0 := by
  revert v
  decide

theorem add_four_four (ad : Long) : ad + 4 + 4 = ad + 8 := BitVec.add_assoc ad 4 4

/-- A 68060 frame whose first word carries `id`, field by field. -/
theorem restore060_eq {id : Long} (h : HoldsFrame c.mem ad [some ((f.fsave.eo.w0 &&& 0xFFFF0000) ||| id),
      some f.fsave.eo.w1, some f.fsave.eo.w2]) (hid : id &&& 0xFFFF0000 = 0) :
    restore060 ad (c.xCpGetLong ad) c =
      let ff := (id >>> 8) &&& 0xFF
      let v := id &&& 7
      let ad := ad + 12
      let c := c.mapFsave fun s =>
        { s with eo := { f.fsave.eo with w0 := f.fsave.eo.w0 &&& 0xFFFF0000 } }
      let c := c.mapFpu fun f => { f with fpExpPend := 0 }
      if ff = 0x60 then
        .done (c.mapFpu fun f => { f with fpuState := true, fpuExpState := .none }) ad
      else if ff = 0xE0 then
        let c := c.mapFpu fun f => { f with fpuState := true, fpuExpState := .busy }
        if v = 7 then .done (c.mapFpu fun f => { f with fpUnimpPend := 1 }) ad
        else .done (c.mapFpu fun f => { f with fpExpPend := 48 + v }) ad
      else if ff ≠ 0 then .format c
      else .done (fpuNull c) ad := by
  have h0 : c.xCpGetLong ad = (f.fsave.eo.w0 &&& 0xFFFF0000) ||| id := h.head
  have h1 : c.xCpGetLong (ad + 4) = f.fsave.eo.w1 := h 1 _ rfl
  have h2 : c.xCpGetLong (ad + 8) = f.fsave.eo.w2 := h 2 _ rfl
  have had : ad + 8 + 4 = ad + 12 := BitVec.add_assoc ad 8 4
  simp only [restore060, add_four_four, had, h0, h1, h2, format_of_masked,
    low_of_masked _ _ 7 (by decide : (0xFFFF0000 : Long) &&& 7 = 0), high_of_masked _ _ hid]

theorem restore060_saved (h : HoldsFrame c.mem ad (frame060 f)) :
    restore060 ad (c.xCpGetLong ad) c = .done (restored060 f c) (ad + 12) := by
  obtain ⟨hff, hv, hhi⟩ := excp_word f.fsave.v
  by_cases hb : f.fpuExpState = .busy
  · rw [frame060, if_pos hb] at h
    have h7 : f.fsave.v.setWidth 32 = (7 : Long) ↔ f.fsave.v = 7 := by
      generalize f.fsave.v = v
      revert v
      decide
    rw [restore060_eq h hhi, hff, hv]
    by_cases hv7 : f.fsave.v = 7
    · simp only [restored060, if_pos hb, if_pos hv7, if_pos (h7.mpr hv7)]
      rfl
    · simp only [restored060, if_pos hb, if_neg hv7, if_neg (mt h7.mp hv7)]
      rfl
  · by_cases hs : f.fpuState = true
    · rw [frame060, if_neg hb, if_pos hs] at h
      rw [restore060_eq h (by decide), restored060, if_neg hb, if_pos hs]
      rfl
    · rw [frame060, if_neg hb, if_neg hs] at h
      rw [restore060_eq h (by decide), restored060, if_neg hb, if_neg hs]
      rfl

/-- The busy frame, field by field: nothing is resumed, as FSAVE leaves `CU_SAVEPC` zero. -/
theorem restoreBusy_saved (hb : f.fpuExpState = .busy) (h : HoldsFrame c.mem ad (frame040 p f)) :
    restoreBusy resume (ad + 4) c = .done (restored040 f c) (ad + 0x64) := by
  have hf : frame040 p f = some (((getFpuVersion p .m68040 <<< 8) ||| 0x60) <<< 16) ::
      [some 0, some 0, some 0, some 0, some 0, some f.fsave.wbt.w0, some f.fsave.wbt.w1,
      some f.fsave.wbt.w2, some 0, some f.fsave.fpiarcu, some 0, some 0,
      some (f.fsave.cmdreg3b <<< 16), some 0,
      some ((f.fsave.stag <<< 29) ||| (f.fsave.wbtm66 <<< 26) ||| (f.fsave.grs <<< 23)),
      some (f.fsave.cmdreg1b.setWidth 32 <<< 16),
      some ((f.fsave.dtag <<< 29) ||| (f.fsave.wbte15 <<< 20)),
      some ((f.fsave.e1 <<< 26) ||| (f.fsave.e3 <<< 25) ||| (f.fsave.t <<< 20)),
      some f.fsave.fpt.w0, some f.fsave.fpt.w1, some f.fsave.fpt.w2,
      some f.fsave.et.w0, some f.fsave.et.w1, some f.fsave.et.w2] := by
    simp [frame040, frameSize040, hb]
  rw [hf] at h
  have hpc : c.xCpGetLong (ad + 0x8) = 0 := h 2 _ rfl
  have hcmd : c.xCpGetLong (ad + 0x40) = f.fsave.cmdreg1b.setWidth 32 <<< 16 := h 16 _ rfl
  have hfpt0 : c.xCpGetLong (ad + 0x4C) = f.fsave.fpt.w0 := h 19 _ rfl
  have hfpt1 : c.xCpGetLong (ad + 0x50) = f.fsave.fpt.w1 := h 20 _ rfl
  have hfpt2 : c.xCpGetLong (ad + 0x54) = f.fsave.fpt.w2 := h 21 _ rfl
  have het0 : c.xCpGetLong (ad + 0x58) = f.fsave.et.w0 := h 22 _ rfl
  have het1 : c.xCpGetLong (ad + 0x5C) = f.fsave.et.w1 := h 23 _ rfl
  have het2 : c.xCpGetLong (ad + 0x60) = f.fsave.et.w2 := h 24 _ rfl
  simp only [BitVec.ofNat_eq_ofNat] at hpc hcmd hfpt0 hfpt1 hfpt2 het0 het1 het2
  simp only [restoreBusy, restored040, hb, BitVec.add_assoc, BitVec.ofNat_eq_ofNat,
    BitVec.reduceAdd, hpc, hcmd, hfpt0, hfpt1, hfpt2, het0, het1, het2, setWidth_shift]
  rfl

theorem restore040_saved (h : HoldsFrame c.mem ad (frame040 p f)) :
    restore040 p resume ad (c.xCpGetLong ad) c =
      .done (restored040 f c) (ad + 4 * BitVec.ofNat 32 (frame040 p f).length) := by
  cases he : f.fpuExpState with
  | none =>
    rw [frame040, if_pos he] at *
    have h0 : c.xCpGetLong ad = _ := h.head
    cases hs : f.fpuState <;> cases hv : p.fpuRevision40 <;>
      simp only [restore040, h0, hs, hv, getFpuVersion, restored040, he] <;> rfl
  | unimp =>
    have hne : f.fpuExpState ≠ .none := by rw [he]; exact nofun
    rw [frame040, if_neg hne] at *
    have h0 : c.xCpGetLong ad = _ := h.head
    cases hv : p.fpuRevision40 <;>
      simp [restore040, h0, hv, getFpuVersion, restored040, he, frameSize040, BitVec.add_assoc]
  | busy =>
    have hne : f.fpuExpState ≠ .none := by rw [he]; exact nofun
    have hlen : (frame040 p f).length = 25 := by simp [frame040, he]
    have hbusy : restoreBusy resume (ad + 4) c = _ := restoreBusy_saved he h
    rw [hlen]
    rw [frame040, if_neg hne] at h
    have h0 : c.xCpGetLong ad = _ := h.head
    cases hv : p.fpuRevision40 <;>
      simp only [restore040, h0, hv, getFpuVersion, he, frameSize040, hbusy] <;> rfl

/-- The bit of the BIU flags FRESTORE looks at. -/
theorem biuFlags_bit (e : ExpState) :
    (0x540EFFFF ||| (if e ≠ .none then 0x20000000 else 0x08000000) : Long) &&& 0x08000000 = 0 ↔
      e ≠ .none := by
  revert e
  rintro (_ | _ | _) <;> decide

/-- FRESTORE's steps through a 6888x IDLE frame. -/
theorem idle_offsets (ad skip : Long) :
    ad + 4 + 4 + (24 + skip - 24) = ad + (8 + skip) ∧ ad + (8 + skip) + 4 = ad + (12 + skip) ∧
      ad + (12 + skip) + 4 = ad + (16 + skip) ∧ ad + (16 + skip) + 4 = ad + (20 + skip) ∧
      ad + (20 + skip) + 4 = ad + (24 + skip) ∧ ad + (24 + skip) + 4 = ad + (28 + skip) := by
  refine ⟨?_, ?_, ?_, ?_, ?_, ?_⟩ <;> bv_omega

/-- A 6888x IDLE frame, field by field, wherever the fields behind the unused ones are. -/
theorem restoreIdle_saved (skip : Long) {model : FpuModel} {d : Long}
    (hver : (d >>> 24) &&& 0xFF = getFpuVersion p model)
    (hsize : (d >>> 16) &&& 0xFF = 24 + skip) (hskip : skip = 0 ∨ skip = 32)
    (hs : f.fpuState = true) (hccr : c.xCpGetLong (ad + 4) = f.fsave.ccr)
    (heo0 : c.xCpGetLong (ad + (8 + skip)) = f.fsave.eo.w0)
    (heo1 : c.xCpGetLong (ad + (12 + skip)) = f.fsave.eo.w1)
    (heo2 : c.xCpGetLong (ad + (16 + skip)) = f.fsave.eo.w2)
    (hbiu : c.xCpGetLong (ad + (24 + skip)) =
      0x540EFFFF ||| (if f.fpuExpState ≠ .none then 0x20000000 else 0x08000000)) :
    restore6888x p model ad d c = .done (restored6888x f c) (ad + (28 + skip)) := by
  have hidle : (24 + skip = 0x18 ∨ 24 + skip = 0x38) := by
    rcases hskip with rfl | rfl <;> decide
  obtain ⟨h0, h1, h2, h3, h4, h5⟩ := idle_offsets ad skip
  have hget : ∀ (g : FpuState → FpuState) (a : Long), (c.mapFpu g).xCpGetLong a = c.xCpGetLong a :=
    fun _ _ => rfl
  simp only [restore6888x, if_pos hver, hsize, if_pos hidle, h0, h1, h2, h3, h4, h5, restored6888x,
    hs, hget, hccr, heo0, heo1, heo2, hbiu, biuFlags_bit]
  by_cases he : f.fpuExpState = .none
  · rw [if_neg (not_not.mpr he), if_pos he]
    rfl
  · rw [if_pos he, if_neg he]
    rfl

theorem restore6888x_saved {model : FpuModel} (hp : p.fpuModel = model)
    (hm : model = .m68881 ∨ model = .m68882) (h : HoldsFrame c.mem ad (frame6888x p f)) :
    restore6888x p model ad (c.xCpGetLong ad) c =
      .done (restored6888x f c) (ad + 4 * BitVec.ofNat 32 (frame6888x p f).length) := by
  by_cases hs : f.fpuState = true
  · rcases hm with rfl | rfl
    · have hf : frame6888x p f = [some 0x1F180000, some f.fsave.ccr, some f.fsave.eo.w0,
          some f.fsave.eo.w1, some f.fsave.eo.w2, some 0,
          some (0x540EFFFF ||| if f.fpuExpState ≠ .none then 0x20000000 else 0x08000000)] := by
        simp [frame6888x, hs, hp, frameSize6888x, getFpuVersion]
      rw [hf] at h ⊢
      have h0 : c.xCpGetLong ad = 0x1F180000 := h.head
      rw [h0]
      exact restoreIdle_saved 0 rfl rfl (.inl rfl) hs (h 1 _ rfl) (h 2 _ rfl) (h 3 _ rfl)
        (h 4 _ rfl) (h 6 _ rfl)
    · have hf : frame6888x p f = some 0x1F380000 :: some f.fsave.ccr ::
          (.replicate 8 (if p.mmuModel then none else some 0) ++ [some f.fsave.eo.w0,
          some f.fsave.eo.w1, some f.fsave.eo.w2, some 0,
          some (0x540EFFFF ||| if f.fpuExpState ≠ .none then 0x20000000 else 0x08000000)]) := by
        simp [frame6888x, hs, hp, frameSize6888x, getFpuVersion]
      rw [hf] at h ⊢
      have h0 : c.xCpGetLong ad = 0x1F380000 := h.head
      rw [h0]
      exact restoreIdle_saved 32 rfl rfl (.inr rfl) hs (h 1 _ rfl) (h 10 _ rfl) (h 11 _ rfl)
        (h 12 _ rfl) (h 14 _ rfl)
  · have hf : frame6888x p f = [some ((frameSize6888x p - 4) <<< 16)] := by
      simp [frame6888x, Bool.eq_false_iff.mpr hs]
    rw [hf] at h ⊢
    have h0 : c.xCpGetLong ad = (frameSize6888x p - 4) <<< 16 := h.head
    rw [h0, restored6888x, if_neg hs]
    rcases hm with rfl | rfl
    · rw [frameSize6888x, hp]
      rfl
    · rw [frameSize6888x, hp]
      rfl

/-- What FRESTORE makes of the frame of `f`. -/
def restored (p : FpuPrefs) (f : FpuState) (c : FpuCpu) : FpuCpu :=
  match p.fpuModel with
  | .m68060 => restored060 f c
  | .m68040 => restored040 f c
  | _ => restored6888x f c

theorem restoreFrame_saved (hp : p.fpuModel ≠ .none) (h : HoldsFrame c.mem ad (saveFrame p f)) :
    restoreFrame p resume p.fpuModel ad (c.xCpGetLong ad) c =
      .done (restored p f c) (ad + 4 * BitVec.ofNat 32 (saveFrame p f).length) := by
  cases hm : p.fpuModel with
  | none => exact absurd hm hp
  | m68881 =>
    simp only [saveFrame, restored, restoreFrame, hm] at h ⊢
    exact restore6888x_saved hm (.inl rfl) h
  | m68882 =>
    simp only [saveFrame, restored, restoreFrame, hm] at h ⊢
    exact restore6888x_saved hm (.inr rfl) h
  | m68040 =>
    simp only [saveFrame, restored, restoreFrame, hm] at h ⊢
    exact restore040_saved h
  | m68060 =>
    simp only [saveFrame, restored, restoreFrame, hm] at h ⊢
    exact restore060_saved h

/-- FSAVE reserves what it writes. -/
theorem saveFrame_length (hp : p.fpuModel ≠ .none) :
    saveFrameSize p f = 4 * BitVec.ofNat 32 (saveFrame p f).length := by
  cases hm : p.fpuModel with
  | none => exact absurd hm hp
  | m68881 => cases hs : f.fpuState <;> simp [saveFrameSize, saveFrame, frame6888x, frameSize6888x, hm, hs]
  | m68882 => cases hs : f.fpuState <;> simp [saveFrameSize, saveFrame, frame6888x, frameSize6888x, hm, hs]
  | m68040 =>
    cases he : f.fpuExpState <;> cases hv : p.fpuRevision40 <;>
      simp [saveFrameSize, saveFrame, frame040, frameSize040, getFpuVersion, hm, he, hv]
  | m68060 => simp [saveFrameSize, saveFrame, frame060, hm]

theorem saveFrame_length_le : (saveFrame p f).length ≤ 25 := by
  simp only [saveFrame]
  split
  · simp [frame060]
  · cases he : f.fpuExpState <;> cases hv : p.fpuRevision40 <;>
      simp [frame040, frameSize040, getFpuVersion, he, hv]
  · by_cases hm : p.fpuModel = .m68882 <;> cases hs : f.fpuState <;> simp [frame6888x, hs, hm]

end Specs

end Restore

/-! ## The round trip -/

/-- The internal state of the FPU, as a program cannot read it except through a frame. -/
structure SameInternal (f f' : FpuState) : Prop where
  fpuState : f'.fpuState = f.fpuState
  fpuExpState : f'.fpuExpState = f.fpuExpState
  fpExpPend : f'.fpExpPend = f.fpExpPend
  fsave : f'.fsave = f.fsave

section RoundTrip

variable (p : FpuPrefs) (disp : DispEa) (resume : FpuCpu → FpuCpu) (o o' : Word)

/-- FRESTORE `o'` in `c'` finds the frame that FSAVE `o` left in memory when it went from `c` to
`c₁`. -/
structure FindsFrame (c c₁ c' : FpuCpu) : Prop where
  saved : fpuopSave p disp o c = .ok c₁
  enabled : c'.fpu.disabled = false
  address : ∀ a d, getFpAd disp o c = some (a, d) →
    ∃ d', getFpAd disp o' c' = some (frameAddr p o a c.fpu, d')
  untouched : ∀ a d, getFpAd disp o c = some (a, d) →
    ∀ x, Covers (frameAddr p o a c.fpu) (4 * (saveFrame p c.fpu).length) x → c'.mem x = c₁.mem x

/-- FRESTORE has brought back what FSAVE found in `c`: the address register of a stack, the
internal state, and with it the next frame and the next exception. -/
structure BroughtBack (c c' : FpuCpu) : Prop where
  an : eaMode o = 4 → eaMode o' = 3 → eaReg o' = eaReg o →
    c'.regs.areg (eaReg o) = c.regs.areg (eaReg o)
  internal : SameInternal c.fpu c'.fpu
  frame : saveFrame p c'.fpu = saveFrame p c.fpu
  exception : fpExceptionPending p c'.fpu = fpExceptionPending p c.fpu

/-- FRESTORE in `c'` brings back the state FSAVE found in `c`. -/
def RoundTrip (c c' : FpuCpu) : Prop :=
  ∃ d, fpuopRestore p disp resume o' c' = .ok d ∧ BroughtBack p o o' c d

variable (f : FpuState) (c : FpuCpu)

/-- 68060: the vector of an EXCP frame is that of the pending exception, nothing is pending
otherwise, and what the frame does not hold is as it was. -/
def Restorable060 : Prop :=
  (if f.fpuExpState = .busy then
    f.fpuState = true ∧ f.fpExpPend = if f.fsave.v = 7 then 0 else 48 + f.fsave.v.setWidth 32
  else f.fpuExpState = .none ∧ f.fpExpPend = 0) ∧
  f.fsave.eo.w0 &&& 0xFFFF0000 = f.fsave.eo.w0 ∧ { c.fpu.fsave with eo := f.fsave.eo } = f.fsave

/-- 68040: NULL and IDLE frames hold no exception. The other frames do not bring the state back:
it must be there already. -/
def Restorable040 : Prop :=
  match f.fpuExpState with
  | .none => c.fpu.fpExpPend = f.fpExpPend ∧ c.fpu.fsave = f.fsave
  | .unimp => SameInternal f c.fpu
  | .busy => SameInternal f { c.fpu with fsave := { c.fpu.fsave with
      cmdreg1b := f.fsave.cmdreg1b, fpt := f.fsave.fpt, et := f.fsave.et } }

/-- 6888x: an IDLE frame without an exception, or one whose pending exception FPSR and FPCR name
at the time of FRESTORE. -/
def Restorable6888x : Prop :=
  if f.fpuState then
    (if f.fpuExpState = .none then f.fpExpPend = 0
    else f.fpuExpState = .busy ∧
      f.fpExpPend = fpsrGetVector (c.regs.fpu.fpsr &&& c.regs.fpu.fpcr &&& 0xFF00)) ∧
    { c.fpu.fsave with ccr := f.fsave.ccr, eo := f.fsave.eo } = f.fsave
  else f.fpuExpState = .none ∧ c.fpu.fpExpPend = f.fpExpPend ∧ c.fpu.fsave = f.fsave

/-- The frame of `f` holds what FRESTORE in `c` needs. -/
def Restorable : Prop :=
  (match p.fpuModel with
  | .m68060 => Restorable060 f c
  | .m68040 => Restorable040 f c
  | _ => Restorable6888x f c) ∧
  fpExceptionPending p { f with fpUnimpPend :=
    if p.fpuModel = .m68060 ∧ f.fpuExpState = .busy ∧ f.fsave.v = 7 then 1
    else c.fpu.fpUnimpPend } = fpExceptionPending p f

variable {p disp resume o o' f c}

theorem sameInternal_iff {f f' : FpuState} : SameInternal f f' ↔ f'.fpuState = f.fpuState ∧
    f'.fpuExpState = f.fpuExpState ∧ f'.fpExpPend = f.fpExpPend ∧ f'.fsave = f.fsave :=
  ⟨fun h => ⟨h.1, h.2, h.3, h.4⟩, fun h => ⟨h.1, h.2.1, h.2.2.1, h.2.2.2⟩⟩

theorem fsave_eo_iff {s s' : FsaveData} :
    { s with eo := { s'.eo with w0 := s'.eo.w0 &&& 0xFFFF0000 } } = s' ↔
      s'.eo.w0 &&& 0xFFFF0000 = s'.eo.w0 ∧ { s with eo := s'.eo } = s' := by
  constructor
  · intro h
    have he : { s'.eo with w0 := s'.eo.w0 &&& 0xFFFF0000 } = s'.eo := congrArg FsaveData.eo h
    rw [he] at h
    exact ⟨congrArg Ext3.w0 he, h⟩
  · rintro ⟨hw, h⟩
    rw [hw]
    exact h

theorem sameInternal_restored060 : SameInternal f (restored060 f c).fpu ↔ Restorable060 f c := by
  rw [sameInternal_iff, Restorable060, ← fsave_eo_iff, restored060]
  by_cases hb : f.fpuExpState = .busy
  · by_cases h7 : f.fsave.v = 7
    · simp only [if_pos h7, FpuCpu.mapFpu, FpuCpu.mapFsave, hb]
      grind
    · simp only [if_neg h7, FpuCpu.mapFpu, FpuCpu.mapFsave, hb]
      grind
  · by_cases hs : f.fpuState = true
    · simp only [if_neg hb, FpuCpu.mapFpu, FpuCpu.mapFsave, hs]
      grind
    · simp only [if_neg hb, FpuCpu.mapFpu, FpuCpu.mapFsave, fpuNull, FpuCpu.mapCtrl,
        FpuCpu.mapRegs, Bool.eq_false_iff.mpr hs]
      grind

theorem sameInternal_restored040 : SameInternal f (restored040 f c).fpu ↔ Restorable040 f c := by
  rw [sameInternal_iff, Restorable040, restored040]
  cases he : f.fpuExpState with
  | none =>
    by_cases hs : f.fpuState = true
    · simp [hs, FpuCpu.mapFpu]
    · simp [hs, FpuCpu.mapFpu, fpuNull, FpuCpu.mapCtrl, FpuCpu.mapRegs]
  | unimp => simp only [sameInternal_iff, he]
  | busy => simp only [sameInternal_iff, FpuCpu.mapFsave, FpuCpu.mapFpu, he]

theorem sameInternal_restored6888x :
    SameInternal f (restored6888x f c).fpu ↔ Restorable6888x f c := by
  rw [sameInternal_iff, Restorable6888x, restored6888x]
  by_cases hs : f.fpuState = true
  · by_cases he : f.fpuExpState = .none
    · simp only [FpuCpu.mapFpu, FpuCpu.mapFsave, hs, he]
      grind
    · simp only [if_neg he, FpuCpu.mapFpu, FpuCpu.mapFsave, hs]
      grind
  · simp only [FpuCpu.mapFpu, fpuNull, FpuCpu.mapCtrl, FpuCpu.mapRegs,
      Bool.eq_false_iff.mpr hs]
    grind

theorem restored_unimpPend : (restored p f c).fpu.fpUnimpPend =
    if p.fpuModel = .m68060 ∧ f.fpuExpState = .busy ∧ f.fsave.v = 7 then 1
    else c.fpu.fpUnimpPend := by
  cases hm : p.fpuModel with
  | m68060 =>
    simp only [restored, hm, restored060, true_and]
    split
    · split <;> simp_all [FpuCpu.mapFpu, FpuCpu.mapFsave]
    · split <;> simp_all [FpuCpu.mapFpu, FpuCpu.mapFsave, fpuNull, FpuCpu.mapCtrl, FpuCpu.mapRegs]
  | m68040 =>
    simp only [restored, hm, restored040, reduceCtorEq, false_and, if_false]
    split
    · split <;> rfl
    · rfl
    · rfl
  | _ =>
    simp only [restored, hm, restored6888x, reduceCtorEq, false_and, if_false]
    split
    · split <;> rfl
    · rfl

theorem sameInternal_restored :
    SameInternal f (restored p f c).fpu ∧
        fpExceptionPending p (restored p f c).fpu = fpExceptionPending p f ↔
      Restorable p f c := by
  have hmodel : SameInternal f (restored p f c).fpu ↔ match p.fpuModel with
      | .m68060 => Restorable060 f c
      | .m68040 => Restorable040 f c
      | _ => Restorable6888x f c := by
    cases hm : p.fpuModel with
    | m68060 => simp only [restored, hm, sameInternal_restored060]
    | m68040 => simp only [restored, hm, sameInternal_restored040]
    | _ => simp only [restored, hm, sameInternal_restored6888x]
  rw [Restorable, ← hmodel, ← restored_unimpPend]
  refine and_congr_right fun h => ?_
  have hpend : ∀ g g' : FpuState, g.fpExpPend = g'.fpExpPend → g.fpUnimpPend = g'.fpUnimpPend →
      fpExceptionPending p g = fpExceptionPending p g' := fun g g' h₁ h₂ => by
    rw [fpExceptionPending, fpExceptionPending, h₁, h₂]
  rw [hpend (restored p f c).fpu { f with fpUnimpPend := (restored p f c).fpu.fpUnimpPend }
    h.fpExpPend rfl]

/-- The frame FSAVE writes depends on the internal state only. -/
theorem SameInternal.saveFrame {f' : FpuState} (h : SameInternal f f') :
    saveFrame p f' = saveFrame p f := by
  obtain ⟨s', e', pend', unimp', dis', d', st'⟩ := f'
  obtain ⟨rfl, rfl, rfl, rfl⟩ := h
  rfl

/-- Reading extension words moves the program counter and nothing else. -/
theorem getFpAd_moved {a : Long} {d : FpuCpu} (h : getFpAd disp o c = some (a, d)) :
    ∃ pc, d = c.mapRegs fun r => { r with pc := pc } := by
  have hmoved : ∀ {pc a'}, some (a', c.mapRegs fun r => { r with pc := pc }) = some (a, d) →
      ∃ pc, d = c.mapRegs fun r => { r with pc := pc } := fun he =>
    ⟨_, (Prod.mk.inj (Option.some.inj he)).2.symm⟩
  simp only [getFpAd] at h
  split at h
  · cases h
  split at h
  · exact ⟨c.regs.pc, (Prod.mk.inj (Option.some.inj h)).2.symm⟩
  split at h
  · exact hmoved h
  split at h
  · exact hmoved h
  split at h
  · exact hmoved h
  split at h
  · exact hmoved h
  split at h
  · exact hmoved h
  split at h
  · exact hmoved h
  · cases h

theorem getFpAd_kept {a : Long} {d : FpuCpu} (h : getFpAd disp o c = some (a, d)) :
    d.fpu = c.fpu ∧ d.mem = c.mem ∧ d.regs.fpu = c.regs.fpu := by
  obtain ⟨pc, rfl⟩ := getFpAd_moved h
  exact ⟨rfl, rfl, rfl⟩

theorem getFpAd_areg (hm : eaMode o = 3 ∨ eaMode o = 4) :
    getFpAd disp o c = some (c.regs.areg (eaReg o), c) := by
  rcases hm with hm | hm <;> simp [getFpAd, hm]

/-- What FSAVE does, when it does not trap. -/
theorem fpuopSave_cases {c₁ : FpuCpu} (h : fpuopSave p disp o c = .ok c₁) :
    faultIfNo6888x p = false ∧ p.fpuModel ≠ .none ∧ ∃ a d, getFpAd disp o c = some (a, d) ∧
      c₁.mem = putFrame c.mem (frameAddr p o a c.fpu) (saveFrame p c.fpu) := by
  simp only [fpuopSave] at h
  split at h
  · cases h
  · rename_i hno
    split at h
    · cases h
    · rename_i a d hget
      obtain ⟨hfpu, hmem, -⟩ := getFpAd_kept hget
      split at h
      · cases h
      · rename_i hen
        refine ⟨Bool.eq_false_iff.mpr hno, fun hnone => hen (by simp [ifNoFpu, hnone]), a, d, hget, ?_⟩
        rw [hfpu, hmem] at h
        obtain rfl := Except.ok.inj h
        split <;> rfl

/-- FRESTORE of a frame it finds. -/
theorem fpuopRestore_found (resume : FpuCpu → FpuCpu) {c₁ c' : FpuCpu} (h : FindsFrame p disp o o' c c₁ c') :
    ∃ a ad d, getFpAd disp o c = some (a, d) ∧ ad = frameAddr p o a c.fpu ∧
      ∃ d', getFpAd disp o' c' = some (ad, d') ∧
      fpuopRestore p disp resume o' c' = .ok (if eaMode o' = 3 then
        (restored p c.fpu d').mapRegs (·.setAreg (eaReg o') (ad + saveFrameSize p c.fpu))
      else restored p c.fpu d') := by
  obtain ⟨hno, hp, a, d, hget, hmem⟩ := fpuopSave_cases h.saved
  obtain ⟨d', hget'⟩ := h.address a d hget
  obtain ⟨hfpu, hmem', -⟩ := getFpAd_kept hget'
  have hlen : (saveFrame p c.fpu).length ≤ 25 := saveFrame_length_le
  have hholds : HoldsFrame d'.mem (frameAddr p o a c.fpu) (saveFrame p c.fpu) := by
    refine HoldsFrame.of_untouched c.mem (by omega) fun x hx => ?_
    rw [hmem', h.untouched a d hget x hx, hmem]
  refine ⟨a, _, d, hget, rfl, d', hget', ?_⟩
  have hen : ifNoFpu p d'.fpu = false := by
    rw [ifNoFpu, hfpu, h.enabled]
    simp [hp]
  rw [saveFrame_length hp]
  simp [fpuopRestore, hno, hget', hen, restoreFrame_saved hp hholds]

theorem areg_setAreg_self (r : Regs) (i : Fin 8) (v : Long) : (r.setAreg i v).areg i = v := by
  by_cases h : i.val < 7
  · simp only [Regs.areg, Regs.setAreg, h, dif_pos]
    exact Vector.getElem_set_self h
  · simp [Regs.areg, Regs.setAreg, h]

theorem restorable_congr {d : FpuCpu} (hfpu : d.fpu = c.fpu) (hregs : d.regs.fpu = c.regs.fpu) :
    Restorable p f d ↔ Restorable p f c := by
  simp only [Restorable, Restorable060, Restorable040, Restorable6888x, hfpu, hregs]

/-- The result of FRESTORE, up to the program counter it starts with. -/
theorem restored_found (resume : FpuCpu → FpuCpu) {c₁ c' : FpuCpu} (h : FindsFrame p disp o o' c c₁ c') :
    ∃ r d', fpuopRestore p disp resume o' c' = .ok r ∧ r.fpu = (restored p c.fpu d').fpu ∧
      (Restorable p c.fpu d' ↔ Restorable p c.fpu c') ∧
      (eaMode o = 4 → eaMode o' = 3 → eaReg o' = eaReg o →
        r.regs.areg (eaReg o) = c.regs.areg (eaReg o)) := by
  obtain ⟨a, ad, d, hget, rfl, d', hget', hrestore⟩ := fpuopRestore_found resume h
  obtain ⟨hfpu, -, hregs⟩ := getFpAd_kept hget'
  refine ⟨_, d', hrestore, ?_, restorable_congr hfpu hregs, fun hpre hpost hreg => ?_⟩
  · split <;> rfl
  · obtain ⟨rfl, rfl⟩ := Prod.mk.inj (Option.some.inj ((getFpAd_areg (.inr hpre)).symm.trans hget))
    rw [if_pos hpost, ← hreg, frameAddr, if_pos hpre, BitVec.sub_add_cancel]
    exact areg_setAreg_self _ _ _

theorem RoundTrip.restorable {c₁ c' : FpuCpu} (hr : RoundTrip p disp resume o o' c c')
    (h : FindsFrame p disp o o' c c₁ c') : Restorable p c.fpu c' := by
  obtain ⟨r, d', hrestore, hfpu, hcongr, -⟩ := restored_found resume h
  obtain ⟨r', hr', hb⟩ := hr
  obtain rfl := Except.ok.inj (hrestore.symm.trans hr')
  rw [← hcongr, ← sameInternal_restored, ← hfpu]
  exact ⟨hb.internal, hb.exception⟩

/-- FSAVE, any execution that leaves the frame alone, and FRESTORE: the state comes back exactly
when the frame holds it. -/
theorem fsave_roundTrip_iff {c₁ c' : FpuCpu} (h : FindsFrame p disp o o' c c₁ c') :
    RoundTrip p disp resume o o' c c' ↔ Restorable p c.fpu c' := by
  constructor
  · exact fun hr => hr.restorable h
  · obtain ⟨r, d', hrestore, hfpu, hcongr, han⟩ := restored_found resume h
    rw [← hcongr, ← sameInternal_restored, ← hfpu]
    rintro ⟨hi, he⟩
    exact ⟨r, hrestore, han, hi, hi.saveFrame, he⟩

/-- FRESTORE (An)+ right after FSAVE -(An). -/
theorem FindsFrame.immediately {c₁ : FpuCpu} (hsave : fpuopSave p disp o c = .ok c₁)
    (hpre : eaMode o = 4) (hpost : eaMode o' = 3)
    (hreg : c₁.regs.areg (eaReg o') = frameAddr p o (c.regs.areg (eaReg o)) c.fpu)
    (hen : c₁.fpu.disabled = false) : FindsFrame p disp o o' c c₁ c₁ where
  saved := hsave
  enabled := hen
  address a d hget := by
    obtain ⟨rfl, rfl⟩ := Prod.mk.inj (Option.some.inj ((getFpAd_areg (.inr hpre)).symm.trans hget))
    exact ⟨c₁, by rw [getFpAd_areg (.inl hpost), hreg]⟩
  untouched _ _ _ _ _ := rfl

end RoundTrip

/-! ## Two frames -/

def FsaveData.zero : FsaveData where
  ccr := 0
  eo := ⟨0, 0, 0⟩
  v := 0
  fpiarcu := 0
  cmdreg3b := 0
  cmdreg1b := 0
  stag := 0
  dtag := 0
  e1 := 0
  e3 := 0
  t := 0
  fpt := ⟨0, 0, 0⟩
  et := ⟨0, 0, 0⟩
  wbt := ⟨0, 0, 0⟩
  grs := 0
  wbte15 := 0
  wbtm66 := 0

/-- An FPU of model `m` on a CPU of model `cpu`, with the SoftFloat backend. -/
def FpuPrefs.plain (cpu : Model) (m : FpuModel) : FpuPrefs :=
  { Prefs.plain cpu with
    fpuModel := m, fpuRevision40 := false, fpuNoUnimplemented := true, softfloat := true
    compfpu := false }

/-- An operand error is pending; `e` and `v` are what the FPU of the configuration notes of it. -/
def operandError (e : ExpState) (v : BitVec 3) : FpuCpu where
  regs := Core.zero.regs
  fpu := {
    fpuState := true, fpuExpState := e, fpExpPend := 52, fpUnimpPend := 0, disabled := false
    fsave := { FsaveData.zero with v := v }
    status := ⟨.nearestEven, 80, 0⟩ }
  mem _ := 0

/-- The 68060 takes its exception back: `FSAVE -(A7)`, `FRESTORE (A7)+`. -/
theorem excp_roundTrip : ∃ c₁,
    FindsFrame (.plain .m68060 .m68060) (fun _ a => (a, 0)) 0xF327 0xF35F (operandError .busy 4) c₁ c₁ ∧
    RoundTrip (.plain .m68060 .m68060) (fun _ a => (a, 0)) id 0xF327 0xF35F
      (operandError .busy 4) c₁ := by
  have h : FindsFrame (.plain .m68060 .m68060) (fun _ a => (a, 0)) 0xF327 0xF35F
    (operandError .busy 4) _ _ := .immediately rfl rfl rfl rfl rfl
  exact ⟨_, h, (fsave_roundTrip_iff h).mpr ⟨⟨⟨rfl, by decide⟩, by decide, rfl⟩, rfl⟩⟩

/-- The 68881 does not: it keeps no note of the exception but the vector, which FSAVE clears
before it looks at `fpu_exp_state`. -/
theorem pending_exception_lost : ∃ c₁,
    FindsFrame (.plain .m68030 .m68881) (fun _ a => (a, 0)) 0xF327 0xF35F
      (operandError .none 0) c₁ c₁ ∧
    ¬ RoundTrip (.plain .m68030 .m68881) (fun _ a => (a, 0)) id 0xF327 0xF35F
      (operandError .none 0) c₁ := by
  have h : FindsFrame (.plain .m68030 .m68881) (fun _ a => (a, 0)) 0xF327 0xF35F
    (operandError .none 0) _ _ := .immediately rfl rfl rfl rfl rfl
  refine ⟨_, h, fun hr => ?_⟩
  obtain ⟨⟨hpend, -⟩, -⟩ := hr.restorable h
  exact absurd hpend (by decide)

end UaeCpu.Fpu
