import UaeCpu.FmovemRestart

/-!
# UaeCpu.FmovemRoundTrip

`FMOVEM.X list,-(An)` and `FMOVEM.X (An)+,list`.

* `Stored`, `Restored`  — what the two leave.
* `FramesClear`         — the frames of their faults are not among the images.
* `fmovem_round_trip`   — what was stored is loaded back, and when.
-/

namespace UaeCpu.Fmovem

open Fault FaultM Mem Fpu

open Resumable (after)

/-! ## A store and a load -/

/-- `FMOVEM.X list,-(An)` and `FMOVEM.X (An)+,list`, each with the order its addressing mode asks for. -/
structure Pair (opcode extra opcode' extra' : Word) : Prop where
  store : toMemory extra = true
  down : eaMode opcode = 4
  order : (listMode extra).getLsbD 1 = false
  load : toMemory extra' = false
  up : eaMode opcode' = 3
  order' : (listMode extra').getLsbD 1 = true
  reg : eaReg opcode' = eaReg opcode

/-- The registers of a predecrement list, in the order they are stored. -/
def registers (L : Byte) : List (Fin 8) := listed (-1) allRegs (L.setWidth 32)

section Pair

variable {p : FpuPrefs} {disp : DispEa} {opcode extra opcode' extra' : Word} {loop : RunLoop} {L : Byte}
  {s : BusState} {faults : List BusFault}

theorem Pair.incr_down (h : Pair opcode extra opcode' extra') : fmovemIncr opcode = -1 := if_pos h.down

theorem Pair.incr_up (h : Pair opcode extra opcode' extra') : fmovemIncr opcode' = 1 :=
  if_neg (by rw [h.up]; decide)

theorem Pair.regdir_down (h : Pair opcode extra opcode' extra') (p : FpuPrefs) (list : Long) :
    fmovemRegdir p opcode extra list = -1 := by
  have horder : (listMode extra)[1] = false := h.order
  unfold fmovemRegdir
  cases p.fpuModel <;> simp [horder, h.down, h.store, h.incr_down]

theorem Pair.regdir_up (h : Pair opcode extra opcode' extra') (p : FpuPrefs) (list : Long) :
    fmovemRegdir p opcode' extra' list = 1 := by
  have horder : (listMode extra')[1] = true := h.order'
  unfold fmovemRegdir
  cases p.fpuModel <;> simp [horder, h.up, h.load]

/-- Nothing of an earlier instruction is left in the restart variables. -/
def Fresh (s : BusState) : Prop := s.vars.state0 = 0 ∧ s.vars.movem2 = false

theorem begin_cpu (loop : RunLoop) (s : BusState) : (begin loop s).cpu = s.cpu := by
  cases loop <;> rfl

/-- An instruction that no fault breaks off. -/
theorem execute_calm {m : Bus (Option FmovemTrap)} {c : FpuCpu} {Q : Option FmovemTrap → BusState → Prop}
    (hm : ∀ t : BusState, t.cpu = c → Returns m t Q) (hs : s.cpu = c) : Returns (execute p loop m faults) s Q := by
  refine Returns.of_apply_eq rfl (retries_returns (I := fun t => t.cpu = c) (E := fun _ => False)
    (fun t ht => (hm t ht).settles) ?_ ?_ faults ?_ ((begin_cpu loop s).trans hs))
  · exact fun t ht => hm _ ht
  · exact fun _ _ ht => ht
  · exact fun _ _ _ h => h.elim

/-! ## Where the images lie -/

/-- How many registers a list has. -/
def count (L : Byte) : Nat := (allRegs.filter fun r => L.getLsbD r.val).length

theorem registers_length : ∀ L : Byte, (registers L).length = count L := by
  decide +kernel

theorem registers_nodup : ∀ L : Byte, (registers L).Nodup := by
  decide +kernel

theorem registers_le (L : Byte) : (registers L).length ≤ 8 := by
  have hle := listed_length (-1) allRegs (L.setWidth 32)
  have hall : allRegs.length = 8 := List.length_finRange
  exact hle.trans (Nat.le_of_eq hall)

/-- The bytes below `an` that a store of the list is for. -/
def Image (L : Byte) (an x : Long) : Prop := Covers (an - BitVec.ofNat 32 (12 * count L)) (12 * count L) x

theorem covers_register {ad x : Long} :
    Covers ad 12 x ↔ Covers ad 4 x ∨ Covers (ad + 1 * 4) 4 x ∨ Covers (ad + 2 * 4) 4 x := by
  simp only [Covers]
  bv_omega

theorem slots_covers (vs : List (Fin 8)) (hn : vs.length ≤ 8) {ad x : Long} {y : Fin 8 × Long}
    (hy : y ∈ slots (-1) vs ad) (hx : Covers y.2 12 x) :
    Covers (ad - BitVec.ofNat 32 (12 * vs.length)) (12 * vs.length) x := by
  induction vs generalizing ad with
  | nil => exact absurd hy List.not_mem_nil
  | cons v vs ih =>
    rw [List.length_cons] at hn ⊢
    rw [slots_down, List.mem_cons] at hy
    rcases hy with rfl | hy
    · simp only [Covers] at hx ⊢
      bv_omega
    · have htail := ih (by omega) hy
      simp only [Covers] at htail ⊢
      bv_omega

theorem covers_slots (vs : List (Fin 8)) (hn : vs.length ≤ 8) {ad x : Long}
    (hx : Covers (ad - BitVec.ofNat 32 (12 * vs.length)) (12 * vs.length) x) :
    ∃ y ∈ slots (-1) vs ad, Covers y.2 12 x := by
  induction vs generalizing ad with
  | nil => exact absurd hx (Nat.not_lt_zero _)
  | cons v vs ih =>
    rw [List.length_cons] at hn hx
    rw [slots_down]
    by_cases hhead : Covers (ad - 12) 12 x
    · exact ⟨_, .head _, hhead⟩
    · have htail : Covers (ad - 12 - BitVec.ofNat 32 (12 * vs.length)) (12 * vs.length) x := by
        simp only [Covers] at hx hhead ⊢
        bv_omega
      obtain ⟨y, hy, hc⟩ := ih (by omega) htail
      exact ⟨y, .tail _ hy, hc⟩

theorem image_iff {an x : Long} : Image L an x ↔ ∃ y ∈ slots (-1) (registers L) an, Covers y.2 12 x := by
  rw [Image, ← registers_length]
  exact ⟨covers_slots _ (registers_le L), fun ⟨_, hy, hx⟩ => slots_covers _ (registers_le L) hy hx⟩

theorem covers_of_mem_putUnits {fp : Vector (BitVec 80) 8} {y : Fin 8 × Long} {u : Long × Long} {x : Long}
    (hu : u ∈ putUnits fp y.1 y.2) (hx : Covers u.1 4 x) : Covers y.2 12 x := by
  refine covers_register.mpr ?_
  simp only [putUnits, List.mem_cons, List.not_mem_nil, or_false] at hu
  rcases hu with rfl | rfl | rfl
  · exact .inl hx
  · exact .inr (.inl hx)
  · exact .inr (.inr hx)

/-- They are the bytes of the longs of the store. -/
theorem stores_iff (fp : Vector (BitVec 80) 8) {an x : Long} :
    Stores (putAll fp (-1) (-1) (L.setWidth 32) an) x ↔ Image L an x := by
  rw [image_iff]
  constructor
  · rintro ⟨u, hu, hx⟩
    obtain ⟨y, hy, hmem⟩ := List.mem_flatMap.mp hu
    exact ⟨y, hy, covers_of_mem_putUnits hmem hx⟩
  · rintro ⟨y, hy, hx⟩
    rcases covers_register.mp hx with hx | hx | hx
    · exact ⟨_, List.mem_flatMap.mpr ⟨y, hy, .head _⟩, hx⟩
    · exact ⟨_, List.mem_flatMap.mpr ⟨y, hy, .tail _ (.head _)⟩, hx⟩
    · exact ⟨_, List.mem_flatMap.mpr ⟨y, hy, .tail _ (.tail _ (.head _))⟩, hx⟩

/-- The units of the load that comes back up. -/
theorem getAll_back (an : Long) : getAll 1 1 (L.reverse.setWidth 32) (endAd (-1) (registers L) an) =
    (slots (-1) (registers L) an).reverse.flatMap fun x => getUnits x.1 x.2 := by
  rw [← slots_reverse, getAll, listed_reverse]
  rfl

theorem mem_getAll_back {an : Long} {x : LoadUnit}
    (hx : x ∈ getAll 1 1 (L.reverse.setWidth 32) (endAd (-1) (registers L) an)) :
    x.reg ∈ registers L ∧ ∀ z, Covers x.ad 4 z → Image L an z := by
  rw [getAll_back] at hx
  obtain ⟨y, hy, hmem⟩ := List.mem_flatMap.mp hx
  rw [List.mem_reverse] at hy
  have hreg : y.1 ∈ registers L := by
    rw [← slots_fst (-1) (registers L) an]
    exact List.mem_map_of_mem hy
  have hcover (z : Long) (hz : Covers y.2 12 z) : Image L an z := image_iff.mpr ⟨y, hy, hz⟩
  simp only [getUnits, List.mem_cons, List.not_mem_nil, or_false] at hmem
  rcases hmem with rfl | rfl | rfl
  · exact ⟨hreg, fun z hz => hcover z (covers_register.mpr (.inl hz))⟩
  · exact ⟨hreg, fun z hz => hcover z (covers_register.mpr (.inr (.inl hz)))⟩
  · exact ⟨hreg, fun z hz => hcover z (covers_register.mpr (.inr (.inr hz)))⟩

/-! ## The store -/

/-- The images of the listed registers below `an`. -/
def withImages (L : Byte) (an : Long) (c : FpuCpu) : FpuCpu :=
  { c with mem := storeMem c.regs.fpu.fp c.mem (slots (-1) (registers L) an) }

/-- The first long of a loop is the next one, and where there are faults the loop is gone on with. -/
def Starts (loop : RunLoop) (faults : List BusFault) (s : BusState) : Prop :=
  Fresh (begin loop s) ∧ (faults ≠ [] → loop = .mmu030)

/-- A store: the images below An, An below them, and frames. -/
theorem store_returns (disp : DispEa) (loop : RunLoop) (faults : List BusFault)
    (h : Pair opcode extra opcode' extra') (hmv : Moves p opcode extra s.cpu)
    (hlist : fmovemList extra s.cpu.regs = L.setWidth 32) (hplain : mmu030 p = false → faults = [])
    (hstarts : mmu030 p = true → L = 0 ∨ Starts loop faults s ∧ (p.cpuCompatible = false →
      ∀ x, Image L (s.cpu.regs.areg (eaReg opcode)) x → ¬ Framed p faults s.cpu.regs x)) :
    Returns (execute p loop (fpuopFmovem p disp opcode extra) faults) s fun t s' =>
      t = none ∧ AgreeOff (fun x => Framed p faults s.cpu.regs x ∧ ¬ Image L (s.cpu.regs.areg (eaReg opcode)) x)
        (stored p opcode (endAd (-1) (registers L) (s.cpu.regs.areg (eaReg opcode)))
          (withImages L (s.cpu.regs.areg (eaReg opcode)) s.cpu)) s'.cpu := by
  cases hp : mmu030 p with
  | false =>
    rw [hplain hp]
    let t : BusState := { begin loop s with accesses := none }
    have htcpu : t.cpu = s.cpu := begin_cpu loop s
    have hmvt : Moves p opcode extra t.cpu := by
      rw [htcpu]
      exact hmv
    have hmem := fmovem2mem_plain (s := t) hp rfl (s.cpu.regs.areg (eaReg opcode)) (L.setWidth 32) (-1) (.inr rfl)
    have hrun : execute p loop (fpuopFmovem p disp opcode extra) [] s = fpuopFmovem p disp opcode extra t := rfl
    refine Returns.of_apply_eq hrun ?_
    rw [Returns, fpuopFmovem_moves hmvt (.inr h.down), moveLoop]
    simp only [if_pos h.store, bind_assoc, htcpu, hlist, h.incr_down, h.regdir_down]
    rw [bind_ret hmem]
    refine ⟨_, _, rfl, rfl, ?_⟩
    rw [← htcpu]
    exact .refl _ _
  | true =>
    rcases hstarts hp with rfl | ⟨⟨⟨hstart, hmade⟩, hloop⟩, hclear⟩
    · refine execute_calm (c := s.cpu) (fun t ht => ?_) rfl
      have hmvt : Moves p opcode extra t.cpu := by
        rw [ht]
        exact hmv
      rw [Returns, fpuopFmovem_moves hmvt (.inr h.down), moveLoop]
      simp only [if_pos h.store, bind_assoc, ht, hlist, h.incr_down, h.regdir_down]
      rw [bind_apply, fmovem2mem_eq hp]
      refine ⟨_, _, rfl, rfl, ?_⟩
      rw [← ht]
      exact .refl _ _
    · refine (store_execute disp loop faults hp hmv h.down h.store hlist h.incr_down (h.regdir_down p _) rfl hstart
        hmade hloop).mono fun t s' hs' => ⟨hs'.1, ?_⟩
      obtain ⟨-, -, c', hbase, hend⟩ := hs'
      have hafter := hbase.after_put (putAll s.cpu.regs.fpu.fp (-1) (-1) (L.setWidth 32)
        (s.cpu.regs.areg (eaReg opcode)))
      have himages : after putEff s.cpu (putAll s.cpu.regs.fpu.fp (-1) (-1) (L.setWidth 32)
          (s.cpu.regs.areg (eaReg opcode))) = withImages L (s.cpu.regs.areg (eaReg opcode)) s.cpu :=
        after_put _ _ _
      rw [himages] at hafter
      refine (((hafter.mapRegs _).mapRegs _).mono fun x hx => ?_).trans (hend.mono fun x hx => ?_)
      · rw [stores_iff] at hx
        exact ⟨hx.1.resolve_right hx.2, hx.2⟩
      · exact ⟨hx.2, fun himage => hclear hx.1 x himage hx.2⟩

/-! ## The load -/

theorem readImage_congr {mem mem' : Long → Byte} {ad : Long} (h : ∀ x, Covers ad 12 x → mem x = mem' x) :
    readImage mem ad = readImage mem' ad := by
  have h0 : rd32 ofFun mem ad = rd32 ofFun mem' ad :=
    rd32_congr ofFun fun x hx => h x (covers_register.mpr (.inl hx))
  have h1 : rd32 ofFun mem (ad + 1 * 4) = rd32 ofFun mem' (ad + 1 * 4) :=
    rd32_congr ofFun fun x hx => h x (covers_register.mpr (.inr (.inl hx)))
  have h2 : rd32 ofFun mem (ad + 2 * 4) = rd32 ofFun mem' (ad + 2 * 4) :=
    rd32_congr ofFun fun x hx => h x (covers_register.mpr (.inr (.inr hx)))
  rw [readImage, readImage, h0, h1, h2]

/-- The FPU registers of the listed images from An on, An behind them. A load that was started anew
has had some of the registers loaded before. -/
theorem load_returns (disp : DispEa) (loop : RunLoop) (faults : List BusFault)
    (h : Pair opcode extra opcode' extra') (hmv : Moves p opcode' extra' s.cpu)
    (hlist : fmovemList extra' s.cpu.regs = L.reverse.setWidth 32) {an : Long}
    (hareg : s.cpu.regs.areg (eaReg opcode') = endAd (-1) (registers L) an) (hplain : mmu030 p = false → faults = [])
    (hstarts : mmu030 p = true → L = 0 ∨ Starts loop faults s ∧
      ∀ x, Image L an x → ¬ Framed p faults s.cpu.regs x) :
    Returns (execute p loop (fpuopFmovem p disp opcode' extra') faults) s fun t s' =>
      t = none ∧ ∃ F, (∀ r, r ∉ registers L → F.get r = s.cpu.regs.fpu.fp.get r) ∧
        AgreeOff (Framed p faults s.cpu.regs) (loaded opcode' (endAd 1 (registers L).reverse
            (endAd (-1) (registers L) an)) (loadRegs (withFp F s.cpu) (slots (-1) (registers L) an).reverse)) s'.cpu := by
  have hnot : ¬ toMemory extra' = true := by
    rw [h.load]
    exact Bool.false_ne_true
  cases hp : mmu030 p with
  | false =>
    rw [hplain hp]
    let t : BusState := { begin loop s with accesses := none }
    have htcpu : t.cpu = s.cpu := begin_cpu loop s
    have hmvt : Moves p opcode' extra' t.cpu := by
      rw [htcpu]
      exact hmv
    have hregs := fmovem2fpp_plain (s := t) hp rfl (s.cpu.regs.areg (eaReg opcode')) (L.reverse.setWidth 32) 1 1
    have hrun : execute p loop (fpuopFmovem p disp opcode' extra') [] s = fpuopFmovem p disp opcode' extra' t := rfl
    refine Returns.of_apply_eq hrun ?_
    rw [Returns, fpuopFmovem_moves hmvt (.inl h.up), moveLoop]
    simp only [if_neg hnot, htcpu, hlist, h.incr_up, h.regdir_up]
    rw [bind_ret hregs, listed_reverse, hareg]
    refine ⟨_, _, rfl, rfl, s.cpu.regs.fpu.fp, fun _ _ => rfl, ?_⟩
    rw [← slots_reverse, ← htcpu]
    exact .refl _ _
  | true =>
    rcases hstarts hp with rfl | ⟨⟨⟨hstart, hmade⟩, hloop⟩, hclear⟩
    · refine execute_calm (c := s.cpu) (fun t ht => ?_) rfl
      have hmvt : Moves p opcode' extra' t.cpu := by
        rw [ht]
        exact hmv
      rw [Returns, fpuopFmovem_moves hmvt (.inl h.up), moveLoop]
      simp only [if_neg hnot, ht, hlist, h.incr_up, h.regdir_up, hareg]
      rw [bind_apply, fmovem2fpp_eq hp]
      refine ⟨_, _, rfl, rfl, s.cpu.regs.fpu.fp, fun _ _ => rfl, ?_⟩
      rw [← ht]
      exact .refl _ _
    · have hU := getAll_back (L := L) an
      rw [← hareg] at hU
      refine (load_execute disp loop faults hp hmv h.up h.load hlist h.incr_up (h.regdir_up p _) hU hstart
        hmade hloop fun x hx y hy => ?_).mono fun t s' hs' => ⟨hs'.1, ?_⟩
      · rw [← getAll_back] at hx
        exact hclear y ((mem_getAll_back hx).2 y hy)
      · obtain ⟨-, F, st, hsame, hend⟩ := hs'
        refine ⟨F, fun r hr => hsame r fun x hx hxr => ?_, ?_⟩
        · rw [← getAll_back] at hx
          exact hr (hxr ▸ (mem_getAll_back hx).1)
        · rw [after_get, listed_reverse, hareg] at hend
          exact hend

/-! ## Both -/

/-- What the program does between the two: it changes FPU registers and data registers. -/
def between (d' : Vector Long 8) (fp' : Vector (BitVec 80) 8) (s : BusState) : BusState :=
  s.mapCpu fun c => (withFp fp' c).mapRegs fun r => { r with d := d' }

/-- A store has written nothing but the images below `an`, and frames. -/
structure Stored (p : FpuPrefs) (L : Byte) (an : Long) (faults : List BusFault) (s s₁ : BusState) : Prop where
  untouched : ∀ x, ¬ Image L an x → ¬ Framed p faults s.cpu.regs x → s₁.cpu.mem x = s.cpu.mem x
  fp : s₁.cpu.regs.fpu.fp = s.cpu.regs.fpu.fp

/-- The load after it has brought the listed registers back, and An. -/
structure Restored (p : FpuPrefs) (L : Byte) (i : Fin 8) (faults : List BusFault) (fp' : Vector (BitVec 80) 8)
    (s s₁ s₂ : BusState) : Prop where
  mem : ∀ x, ¬ Framed p faults s₁.cpu.regs x → s₂.cpu.mem x = s₁.cpu.mem x
  areg : s₂.cpu.regs.areg i = s.cpu.regs.areg i
  fp : ∀ r : Fin 8, s₂.cpu.regs.fpu.fp.get r = if L.getLsbD r.val then s.cpu.regs.fpu.fp.get r else fp'.get r

/-- The same machine but for memory and FPU registers. -/
def Alike (c c' : FpuCpu) : Prop := c'.fpu = c.fpu ∧ ∃ F, c'.regs = (withFp F c).regs

/-- Whatever is in memory, in the FPU registers and in the restart variables, and whatever faults there
are, the store and the load are a round trip, and the store writes what it writes without the MMU of
the 68030. -/
def MovesBack (p : FpuPrefs) (disp : DispEa) (loop : RunLoop) (opcode extra opcode' extra' : Word) (L : Byte)
    (c : FpuCpu) : Prop :=
  ∀ (s : BusState) (d' : Vector Long 8) (fp' : Vector (BitVec 80) 8) (faults faults' : List BusFault),
    Alike c s.cpu → fmovemList extra' { c.regs with d := d' } = L.reverse.setWidth 32 →
    (mmu030 p = false → faults = [] ∧ faults' = []) →
    Returns (execute p loop (fpuopFmovem p disp opcode extra) faults) s fun t s₁ =>
      t = none ∧ Stored p L (s.cpu.regs.areg (eaReg opcode)) faults s s₁ ∧
      Returns (execute { p with mmuModel := false } loop (fpuopFmovem { p with mmuModel := false } disp opcode extra) []) s
        (fun t s' => t = none ∧ ∀ x, Image L (s.cpu.regs.areg (eaReg opcode)) x → s'.cpu.mem x = s₁.cpu.mem x) ∧
      Returns (execute p loop (fpuopFmovem p disp opcode' extra') faults') (between d' fp' s₁) fun t s₂ =>
        t = none ∧ Restored p L (eaReg opcode) faults' fp' s s₁ s₂

/-- The frames of the faults are apart from the images. Where An is the supervisor stack that the
frames go to, they are among the images while the store runs, which is no harm if it is started anew. -/
def FramesClear (p : FpuPrefs) (r : Regs) (i : Fin 8) (L : Byte) : Prop :=
  if r.s = true ∧ i = 7 then p.cpuCompatible = true else ∀ x, Image L (r.areg i) x → ¬ FrameAt p r x

theorem setAreg_fpu (r : Regs) (i : Fin 8) (v : Long) : (r.setAreg i v).fpu = r.fpu := by
  unfold Regs.setAreg
  split <;> rfl

theorem traceT068040_eq (p : FpuPrefs) (r : Regs) : ∃ spc, traceT068040 p r = { r with spc := spc } := by
  unfold traceT068040
  split
  · exact ⟨_, rfl⟩
  · exact ⟨r.spc, rfl⟩

theorem stored_fp (p : FpuPrefs) (opcode : Word) (ad : Long) (c : FpuCpu) :
    (stored p opcode ad c).regs.fpu.fp = c.regs.fpu.fp := by
  obtain ⟨spc, hspc⟩ := traceT068040_eq p c.regs
  have htrace : (traceT068040 p c.regs).fpu = c.regs.fpu := by rw [hspc]
  exact congrArg FpuRegs.fp ((setAreg_fpu _ _ _).trans htrace)

theorem loaded_fp (opcode : Word) (ad : Long) (c : FpuCpu) : (loaded opcode ad c).regs.fpu.fp = c.regs.fpu.fp :=
  congrArg FpuRegs.fp (setAreg_fpu _ _ _)

theorem stored_areg (p : FpuPrefs) (opcode : Word) (ad : Long) (c : FpuCpu) :
    (stored p opcode ad c).regs.areg (eaReg opcode) = ad := areg_setAreg_self _ _ _

theorem frameTop_supervisor {r : Regs} (hs : r.s = true) : frameTop p r = r.areg 7 := by
  rw [frameTop, enterSupervisor, if_pos hs]
  rfl

theorem frameTop_setAreg (r : Regs) (i : Fin 8) (v : Long) :
    frameTop p (r.setAreg i v) = if r.s = true ∧ i = 7 then v else frameTop p r := by
  by_cases h7 : i = 7
  · subst h7
    have hset : r.setAreg 7 v = { r with sp := { r.sp with a7 := v } } := rfl
    rw [hset]
    by_cases hs : r.s = true
    · rw [if_pos ⟨hs, rfl⟩, frameTop_supervisor (r := { r with sp := { r.sp with a7 := v } }) hs]
      rfl
    · rw [if_neg fun h => hs h.1]
      unfold frameTop enterSupervisor
      simp only [if_neg hs]
  · have hlt : i.val < 7 := by
      have hi := i.isLt
      have hne : i.val ≠ 7 := fun h => h7 (Fin.ext h)
      omega
    rw [if_neg fun h => h7 h.2, Regs.setAreg, dif_pos hlt]
    exact frameTop_congr rfl rfl rfl

/-- Where the frames of a load are that follows a store. -/
theorem frameTop_between {c : FpuCpu} {ad : Long} (d' : Vector Long 8) (fp' : Vector (BitVec 80) 8)
    (hregs : s.cpu.regs = (stored p opcode ad c).regs) : frameTop p (between d' fp' s).cpu.regs =
      if c.regs.s = true ∧ eaReg opcode = 7 then ad else frameTop p c.regs := by
  obtain ⟨spc, hspc⟩ := traceT068040_eq p c.regs
  have htop : frameTop p (between d' fp' s).cpu.regs = frameTop p s.cpu.regs := frameTop_congr rfl rfl rfl
  have htrace : frameTop p (traceT068040 p c.regs) = frameTop p c.regs := by
    rw [hspc]
    exact frameTop_congr rfl rfl rfl
  have hs : (traceT068040 p c.regs).s = c.regs.s := by rw [hspc]
  have hstored : (stored p opcode ad c).regs = (traceT068040 p c.regs).setAreg (eaReg opcode) ad := rfl
  rw [htop, hregs, hstored, frameTop_setAreg, htrace, hs]

/-- A load of the images of `fp`. -/
theorem load_restores {fp F : Vector (BitVec 80) 8} {mem : Long → Byte} {an : Long} {c : FpuCpu}
    (hmem : ∀ x, Image L an x → c.mem x = storeMem fp mem (slots (-1) (registers L) an) x)
    (hF : ∀ r, r ∉ registers L → F.get r = c.regs.fpu.fp.get r) : ∃ F',
      loadRegs (withFp F c) (slots (-1) (registers L) an).reverse = withFp F' c ∧
      ∀ r : Fin 8, F'.get r = if L.getLsbD r.val then fp.get r else c.regs.fpu.fp.get r := by
  obtain ⟨F', hF', hget⟩ := loadRegs_images fp (slots (-1) (registers L) an).reverse (withFp F c) fun x hx => by
    rw [List.mem_reverse] at hx
    rw [← storeMem_holds (registers L) (registers_le L) mem an x hx]
    exact readImage_congr fun y hy => hmem y (image_iff.mpr ⟨x, hx, hy⟩)
  refine ⟨F', by rw [hF', withFp_withFp], fun r => ?_⟩
  have hfst : ((slots (-1) (registers L) an).reverse.map Prod.fst) = (registers L).reverse := by
    rw [List.map_reverse, slots_fst]
  rw [hfst] at hget
  by_cases hr : L.getLsbD r.val = true
  · rw [if_pos hr]
    exact (hget r).1 (List.mem_reverse.mpr ((mem_listed L r).mpr hr))
  · have hnot : r ∉ registers L := fun hmem => hr ((mem_listed L r).mp hmem)
    rw [if_neg hr, (hget r).2 fun hmem => hnot (List.mem_reverse.mp hmem), withFp_fp, hF r hnot]

/-- The images lie above where the load finds the supervisor stack. -/
theorem image_above {an x : Long} (h : Image L an x) : ¬ Covers (endAd (-1) (registers L) an - 92) 92 x := by
  have hle := registers_le L
  rw [endAd_down]
  rw [Image, ← registers_length] at h
  simp only [Covers] at h ⊢
  bv_omega

section Sufficient

variable {c : FpuCpu}

theorem movesBack (h : Pair opcode extra opcode' extra') (hmv : Moves p opcode extra c) (hmv' : Moves p opcode' extra' c)
    (hlist : fmovemList extra c.regs = L.setWidth 32)
    (hok : mmu030 p = false ∨ L = 0 ∨ loop = .mmu030 ∧ FramesClear p c.regs (eaReg opcode) L) :
    MovesBack p disp loop opcode extra opcode' extra' L c := by
  rintro s d' fp' faults faults' ⟨hfpu, G, hregs⟩ hlist' hplain
  have hareg : s.cpu.regs.areg (eaReg opcode) = c.regs.areg (eaReg opcode) := by
    rw [hregs]
    rfl
  have hsup : s.cpu.regs.s = c.regs.s := by
    rw [hregs]
    rfl
  have htop : frameTop p s.cpu.regs = frameTop p c.regs := by rw [hregs, frameTop_withFp]
  have hlists : fmovemList extra s.cpu.regs = L.setWidth 32 := by
    rw [hregs]
    exact hlist
  have hstarts (hp : mmu030 p = true) (t : BusState) (fs : List BusFault) (hno : L ≠ 0) : Starts loop fs t := by
    obtain ⟨rfl, -⟩ := (hok.resolve_left (by rw [hp]; exact Bool.true_eq_false_eq_False)).resolve_left hno
    exact ⟨⟨rfl, rfl⟩, fun _ => rfl⟩
  have hclear (hp : mmu030 p = true) (hno : L ≠ 0) : FramesClear p c.regs (eaReg opcode) L :=
    ((hok.resolve_left (by rw [hp]; exact Bool.true_eq_false_eq_False)).resolve_left hno).2
  obtain ⟨t, s₁, hrun, rfl, hs₁⟩ := store_returns disp loop faults h (hmv.congr hfpu) hlists (fun hp => (hplain hp).1)
    fun hp => (Classical.em (L = 0)).imp id fun hno => ⟨hstarts hp s faults hno, fun hcompat x himage hx => by
      have hfree := hclear hp hno
      unfold FramesClear at hfree
      by_cases h7 : c.regs.s = true ∧ eaReg opcode = 7
      · rw [if_pos h7, hcompat] at hfree
        exact Bool.false_ne_true hfree
      · rw [if_neg h7] at hfree
        rw [hareg] at himage
        refine hfree x himage ?_
        rw [FrameAt, ← htop]
        exact hx.2⟩
  obtain ⟨t, sp, hrunp, rfl, hsp⟩ := store_returns (p := { p with mmuModel := false }) disp loop []
    h (hmv.congr hfpu) hlists (fun _ => rfl) fun hp => absurd hp (by simp [mmu030])
  have hregs₁ := hs₁.regs
  have hmv₁ : Moves p opcode' extra' (between d' fp' s₁).cpu := hmv'.congr (hs₁.fpu.trans hfpu)
  have hlist₁ : fmovemList extra' (between d' fp' s₁).cpu.regs = L.reverse.setWidth 32 := hlist'
  have hareg₁ : (between d' fp' s₁).cpu.regs.areg (eaReg opcode') =
      endAd (-1) (registers L) (s.cpu.regs.areg (eaReg opcode)) := by
    rw [h.reg]
    change s₁.cpu.regs.areg (eaReg opcode) = _
    rw [hregs₁, stored_areg]
  have hmem₁ (x : Long) (hx : Image L (s.cpu.regs.areg (eaReg opcode)) x) : s₁.cpu.mem x =
      storeMem s.cpu.regs.fpu.fp s.cpu.mem (slots (-1) (registers L) (s.cpu.regs.areg (eaReg opcode))) x :=
    hs₁.mem x fun hboth => hboth.2 hx
  obtain ⟨t, s₂, hrun₂, rfl, F, hF, hs₂⟩ := load_returns disp loop faults' h hmv₁ hlist₁ hareg₁ (fun hp => (hplain hp).2)
    fun hp => (Classical.em (L = 0)).imp id fun hno => ⟨hstarts hp _ faults' hno, fun x himage hx => by
      have hframe := hx.2
      have hfree := hclear hp hno
      unfold FramesClear at hfree
      rw [FrameAt, frameTop_between d' fp' hregs₁] at hframe
      change Covers ((if s.cpu.regs.s = true ∧ eaReg opcode = 7 then _ else frameTop p s.cpu.regs) - 92) 92 x at hframe
      rw [hsup, htop] at hframe
      by_cases h7 : c.regs.s = true ∧ eaReg opcode = 7
      · rw [if_pos h7] at hframe
        exact image_above himage hframe
      · rw [if_neg h7] at hframe hfree
        rw [hareg] at himage
        exact hfree x himage hframe⟩
  obtain ⟨F', hF', hget⟩ := load_restores (c := (between d' fp' s₁).cpu) hmem₁ hF
  rw [hF'] at hs₂
  have hstored : Stored p L (s.cpu.regs.areg (eaReg opcode)) faults s s₁ := by
    refine ⟨fun x hx hframe => (hs₁.mem x fun hboth => hframe hboth.1).trans ?_, ?_⟩
    · rw [Image, ← registers_length] at hx
      exact storeMem_untouched (registers L) (registers_le L) _ _ x hx
    · rw [hregs₁, stored_fp]
      rfl
  have hback : Restored p L (eaReg opcode) faults' fp' s s₁ s₂ := by
    refine ⟨fun x hx => hs₂.mem x fun hframe => hx ⟨hframe.1, ?_⟩, ?_, fun r => ?_⟩
    · have hsame : frameTop p (between d' fp' s₁).cpu.regs = frameTop p s₁.cpu.regs := frameTop_congr rfl rfl rfl
      rw [FrameAt, ← hsame]
      exact hframe.2
    · rw [hs₂.regs, ← h.reg]
      refine (areg_setAreg_self _ _ _).trans ?_
      rw [endAd_up, endAd_down, List.length_reverse, h.reg]
      exact BitVec.sub_add_cancel _ _
    · rw [hs₂.regs, loaded_fp]
      exact hget r
  refine ⟨none, s₁, hrun, rfl, hstored, ⟨none, sp, hrunp, rfl, fun x hx => ?_⟩, none, s₂, hrun₂, rfl, hback⟩
  rw [hmem₁ x hx]
  exact hsp.mem x fun hboth => hboth.2 hx

end Sufficient

/-- The variables after a reset. -/
def RestartVars.zero : RestartVars := ⟨0, false, false, false, (0, 0), 0⟩

/-- A load that finds the counter behind its list does nothing. -/
theorem load_skips (disp : DispEa) (h : Pair opcode extra opcode' extra') (hp : mmu030 p = true)
    (hmv : Moves p opcode' extra' s.cpu)
    (hlist : fmovemList extra' s.cpu.regs = L.reverse.setWidth 32)
    (hbehind : 3 * (registers L).length ≤ s.vars.state0.toNat) : ∃ ad s',
      execute p .host (fpuopFmovem p disp opcode' extra') [] s = .ret none s' ∧ s'.cpu = loaded opcode' ad s.cpu := by
  let t : BusState := { s with accesses := none }
  have hrun : execute p .host (fpuopFmovem p disp opcode' extra') [] s = fpuopFmovem p disp opcode' extra' t := rfl
  have hmvt : Moves p opcode' extra' t.cpu := hmv
  have hlistt : fmovemList extra' t.cpu.regs = L.reverse.setWidth 32 := hlist
  have hnot : ¬ toMemory extra' = true := by
    rw [h.load]
    exact Bool.false_ne_true
  have hskip : numbered getUnit 0 (getAll 1 1 (L.reverse.setWidth 32) (t.cpu.regs.areg (eaReg opcode'))) (flagGet t) =
      .ret () (flagGet t) := by
    refine Resumable.skips getUnit (s := flagGet t) (k := s.vars.state0.toNat)
      (fun hj => getUnit_skip (Nat.ne_of_gt hj)) _ 0 ?_
    rw [getAll_length, listed_reverse, List.length_reverse, Nat.zero_add]
    exact hbehind
  rw [hrun, fpuopFmovem_moves hmvt (.inl h.up), moveLoop]
  simp only [if_neg hnot, hlistt, h.incr_up, h.regdir_up]
  rw [bind_apply, fmovem2fpp_eq hp, bind_ret hskip]
  exact ⟨_, _, rfl, rfl⟩

theorem exists_listed (hL : L ≠ 0) : ∃ r : Fin 8, L.getLsbD r.val = true := by
  refine Classical.byContradiction fun hno => hL (BitVec.eq_of_getLsbD_eq fun i hi => ?_)
  rw [show (0 : Byte) = 0#8 from rfl, BitVec.getLsbD_zero]
  exact Bool.eq_false_iff.mpr fun hbit => hno ⟨⟨i, hi⟩, hbit⟩

theorem Alike.of_fp {c : FpuCpu} (F : Vector (BitVec 80) 8) : Alike c (withFp F c) := ⟨rfl, F, rfl⟩

/-- `uae_host_run` leaves the counter behind the list, and the load that follows skips every long. -/
theorem not_movesBack_host (h : Pair opcode extra opcode' extra') (hp : mmu030 p = true) (hL : L ≠ 0) {c : FpuCpu}
    (d' : Vector Long 8) (hmv : Moves p opcode extra c) (hmv' : Moves p opcode' extra' c)
    (hlist : fmovemList extra c.regs = L.setWidth 32)
    (hlist' : fmovemList extra' { c.regs with d := d' } = L.reverse.setWidth 32) :
    ¬ MovesBack p disp .host opcode extra opcode' extra' L c := by
  intro hm
  let s : BusState := ⟨c, .zero, none, 0, false⟩
  let fp' : Vector (BitVec 80) 8 := Vector.ofFn fun i => c.regs.fpu.fp.get i + 1
  have hplain : mmu030 p = false → ([] : List BusFault) = [] ∧ ([] : List BusFault) = [] := fun _ => ⟨rfl, rfl⟩
  obtain ⟨t, s₁, hrun, rfl, -, -, t, s₂, hrun₂, rfl, hback⟩ := hm s d' fp' [] [] (.of_fp c.regs.fpu.fp) hlist' hplain
  obtain ⟨t, s₁', hrun', -, hcount, c', hbase, hcpu⟩ := store_execute (s := s) disp .host [] hp hmv h.down h.store
    hlist h.incr_down (h.regdir_down p _) rfl rfl rfl fun hne => absurd rfl hne
  obtain rfl : s₁ = s₁' := by
    rw [hrun] at hrun'
    exact (Outcome.ret.inj hrun').2
  have hmv₁ : Moves p opcode' extra' (between d' fp' s₁).cpu := hmv'.congr
    (hcpu.fpu.trans ((after_putEff _ _).2.trans hbase.fpu))
  have hbehind : 3 * (registers L).length ≤ (between d' fp' s₁).vars.state0.toNat := by
    refine Nat.le_of_eq (Eq.symm (hcount.trans ?_))
    exact putAll_length _ _ _ _ _
  obtain ⟨ad, s₂', hload, hcpu₂⟩ := load_skips (s := between d' fp' s₁) disp h hp hmv₁ hlist' hbehind
  obtain rfl : s₂ = s₂' := by
    rw [hrun₂] at hload
    exact (Outcome.ret.inj hload).2
  obtain ⟨r, hr⟩ := exists_listed hL
  have hsame : s₂.cpu.regs.fpu.fp.get r = c.regs.fpu.fp.get r := by
    rw [hback.fp r, if_pos hr]
  have hnew : s₂.cpu.regs.fpu.fp.get r = c.regs.fpu.fp.get r + 1 := by
    rw [hcpu₂, loaded_fp]
    exact Vector.getElem_ofFn r.isLt
  rw [hsame] at hnew
  exact absurd hnew (by bv_omega)

/-! A frame over an image changes a register, or what is left of it in memory. -/

theorem append_zero {m n : Nat} {a : BitVec m} {b : BitVec n} (h : a ++ b = 0) : a = 0 ∧ b = 0 := by
  constructor
  · apply BitVec.eq_of_getLsbD_eq
    intro i hi
    have hbit := congrArg (·.getLsbD (n + i)) h
    simpa [BitVec.getLsbD_append] using hbit
  · apply BitVec.eq_of_getLsbD_eq
    intro i hi
    have hbit := congrArg (·.getLsbD i) h
    simpa [BitVec.getLsbD_append, hi] using hbit

theorem toExten_eq (w0 w1 w2 : Long) : toExten ⟨w0, w1, w2⟩ = w0.extractLsb' 16 16 ++ (w1 ++ w2) := by
  apply BitVec.eq_of_getLsbD_eq
  intro i hi
  simp only [toExten, BitVec.getLsbD_append, BitVec.getLsbD_or, BitVec.getLsbD_shiftLeft, BitVec.getLsbD_setWidth,
    BitVec.getLsbD_ushiftRight, BitVec.getLsbD_extractLsb']
  grind

theorem high_word (a b : BitVec 16) : (a ++ b : BitVec 32).extractLsb' 16 16 = a := by
  apply BitVec.eq_of_getLsbD_eq
  intro i hi
  rw [BitVec.getLsbD_extractLsb', BitVec.getLsbD_append]
  simp [hi]

theorem rd16_zero {mem : Long → Byte} {a x : Long} (h : rd16 ofFun mem a = 0) (hx : Covers a 2 x) : mem x = 0 := by
  obtain ⟨h0, h1⟩ := append_zero h
  have hcases : x = a ∨ x = a + 1#32 := by
    simp only [Covers] at hx
    bv_omega
  rcases hcases with rfl | rfl
  · exact h0
  · exact h1

theorem rd32_zero {mem : Long → Byte} {a x : Long} (h : rd32 ofFun mem a = 0) (hx : Covers a 4 x) : mem x = 0 := by
  obtain ⟨hhigh, hlow⟩ := append_zero h
  by_cases hfirst : Covers a 2 x
  · exact rd16_zero hhigh hfirst
  · refine rd16_zero hlow ?_
    simp only [Covers] at hx hfirst ⊢
    bv_omega

/-- A register of zeros has an image of zeros, but for the word that FMOVEM leaves out of account. -/
theorem readImage_zero {mem : Long → Byte} {ad x : Long} (h : readImage mem ad = 0) (hx : Covers ad 12 x)
    (h2 : x ≠ ad + 2) (h3 : x ≠ ad + 3) : mem x = 0 := by
  rw [readImage, toExten_eq] at h
  obtain ⟨hw0, hrest⟩ := append_zero h
  obtain ⟨hw1, hw2⟩ := append_zero hrest
  rcases covers_register.mp hx with hx | hx | hx
  · rw [rd32, high_word] at hw0
    refine rd16_zero hw0 ?_
    simp only [Covers] at hx ⊢
    bv_omega
  · exact rd32_zero hw1 hx
  · exact rd32_zero hw2 hx

/-- A frame that reaches into the images reaches more of them than such words. -/
theorem overlap_read {an x : Long} {top : Long} (hx : Image L an x) (hframe : Covers (top - 92) 92 x) :
    ∃ y ∈ slots (-1) (registers L) an, ∃ z, Covers y.2 12 z ∧ z ≠ y.2 + 2 ∧ z ≠ y.2 + 3 ∧ Covers (top - 92) 92 z := by
  obtain ⟨y, hy, hc⟩ := image_iff.mp hx
  by_cases hlow : x = y.2 + 2 ∨ x = y.2 + 3
  · by_cases hfirst : Covers (top - 92) 90 x
    · refine ⟨y, hy, x + 2, ?_, ?_, ?_, ?_⟩
      · rcases hlow with rfl | rfl <;> simp only [Covers] <;> bv_omega
      · rcases hlow with rfl | rfl <;> bv_omega
      · rcases hlow with rfl | rfl <;> bv_omega
      · simp only [Covers] at hfirst ⊢
        bv_omega
    · refine ⟨y, hy, x - 2, ?_, ?_, ?_, ?_⟩
      · rcases hlow with rfl | rfl <;> simp only [Covers] <;> bv_omega
      · rcases hlow with rfl | rfl <;> bv_omega
      · rcases hlow with rfl | rfl <;> bv_omega
      · simp only [Covers] at hframe hfirst ⊢
        bv_omega
  · exact ⟨y, hy, x, hc, fun h => hlow (.inl h), fun h => hlow (.inr h), hframe⟩

theorem loadRegs_other (xs : List (Fin 8 × Long)) (c : FpuCpu) {r : Fin 8} (hr : r ∉ xs.map Prod.fst) :
    (loadRegs c xs).regs.fpu.fp.get r = c.regs.fpu.fp.get r := by
  induction xs generalizing c with
  | nil => rfl
  | cons x xs ih =>
    rw [List.map_cons, List.mem_cons, not_or] at hr
    refine (ih (c.setFp x.1 (readImage c.mem x.2)) hr.2).trans ?_
    exact Vector.getElem_set_ne x.1.isLt r.isLt fun hval => hr.1 (Fin.ext hval.symm)

theorem loadRegs_get {xs : List (Fin 8 × Long)} (hnodup : (xs.map Prod.fst).Nodup) (c : FpuCpu) {y : Fin 8 × Long}
    (hy : y ∈ xs) : (loadRegs c xs).regs.fpu.fp.get y.1 = readImage c.mem y.2 := by
  induction xs generalizing c with
  | nil => exact absurd hy List.not_mem_nil
  | cons x xs ih =>
    rw [List.map_cons, List.nodup_cons] at hnodup
    rcases List.mem_cons.mp hy with rfl | hy
    · refine (loadRegs_other xs (c.setFp y.1 (readImage c.mem y.2)) hnodup.1).trans ?_
      exact Vector.getElem_set_self _
    · exact ih hnodup.2 (c.setFp x.1 (readImage c.mem x.2)) hy

def onesFrame : Frame := Vector.replicate 92 0xFF

theorem pushFrame_ones {top x : Long} (mem : Long → Byte) (h : Covers (top - 92) 92 x) :
    pushFrame top onesFrame mem x = 0xFF := by
  rw [pushFrame, dif_pos h]
  exact Vector.getElem_replicate _

theorem execute_single {m : Bus (Option FmovemTrap)} {f : BusFault} {code : Int} {t' : BusState}
    (h : m { begin loop s with accesses := some f.accesses } = .thrown code t') :
    execute p loop m [f] s = m { restart p loop f t' with accesses := none } := by
  simp only [execute, retries, FaultM.tryCatch, h]

/-- Apart from nothing: the two are the same. -/
abbrev Nowhere (_ : Long) : Prop := False

theorem GetFaulted.under {k : Nat} {x : LoadUnit} {c : FpuCpu} {st : Long × Long} (frame : Frame)
    (h : GetFaulted Nowhere k x (c, st) s) :
    GetFaulted Nowhere k x (underFrame p frame c, st) (Fmovem.throughFrame p s frame) := by
  have hvars : (Fmovem.throughFrame p s frame).vars = s.vars := fromFrame_fmovem h.fmovem
  have hcpu : (Fmovem.throughFrame p s frame).cpu = underFrame p frame c := congrArg (underFrame p frame) h.cpu.eq
  exact ⟨⟨by rw [hvars]; exact h.count, by rw [hvars]; exact h.made, by rw [hvars]; exact h.movem1⟩,
    by rw [hvars]; exact h.fmovem, by rw [hcpu]; exact .refl _ _, by rw [hvars]; exact h.kept, h.addr, h.read⟩

theorem throws_of_settles {α : Type} {m : Bus α} {Q : α → BusState → Prop} {t' : BusState}
    (h : Settles m s Q (· = t')) (hQ : ∀ a s', ¬ Q a s') : ∃ code, m s = .thrown code t' := by
  unfold Settles at h
  cases hr : m s with
  | ret a s' =>
    rw [hr] at h
    exact absurd h (hQ a s')
  | thrown code s' =>
    rw [hr] at h
    exact ⟨code, congrArg _ h⟩
  | diverge =>
    rw [hr] at h
    exact h.elim

/-- A load whose first long faults. -/
theorem get_first_faults {u : LoadUnit} (rest : List LoadUnit) (hfresh : Fresh s) (ha : s.accesses = some 0) :
    ∃ t', numbered getUnit 0 (u :: rest) (flagGet s) = .thrown 2 t' ∧
      GetFaulted Nowhere 0 u (s.cpu, s.vars.fmovemStore) t' := by
  refine ⟨{ flagGet s with faultAddr := u.ad, faultRead := true }, ?_,
    ⟨⟨congrArg BitVec.toNat hfresh.1, hfresh.2, rfl⟩, rfl, .refl _ _, rfl, rfl, rfl⟩⟩
  have hzero : s.vars.state0 = 0 := hfresh.1
  have hmade : s.vars.movem2 = false := hfresh.2
  simp [numbered, getUnit, flagGet, BusState.mapVars, hzero, hmade, xGetLong, access, bind_apply, ha]

/-- A load whose first long faults reads what is in memory under the frame. -/
theorem load_under_frame (disp : DispEa) (frame : Frame) {list : Long} {incr regdir : Int} {u : LoadUnit}
    {rest : List LoadUnit} (hp : mmu030 p = true) (hmv : Moves p opcode extra s.cpu) (hm : eaMode opcode = 3)
    (ht : toMemory extra = false) (hlist : fmovemList extra s.cpu.regs = list) (hincr : fmovemIncr opcode = incr)
    (hdir : fmovemRegdir p opcode extra list = regdir)
    (hU : getAll incr regdir list (s.cpu.regs.areg (eaReg opcode)) = u :: rest) :
    Returns (execute p .mmu030 (fpuopFmovem p disp opcode extra) [⟨0, frame, [], none⟩]) s fun _ s' =>
      ∃ F st ad, s'.cpu = loaded opcode ad (after getEff (withFp F (underFrame p frame s.cpu), st) (u :: rest)).1 := by
  let f : BusFault := ⟨0, frame, [], none⟩
  let t : BusState := { begin .mmu030 s with accesses := some 0 }
  obtain ⟨t', hthrow, hfault⟩ := get_first_faults (s := t) (u := u) rest ⟨rfl, rfl⟩ rfl
  have htry := load_try (A := Nowhere) (s := t) (c := s.cpu) (F := s.cpu.regs.fpu.fp) (Q := fun _ => False)
    (E := (· = t')) disp hp hmv hm ht hlist hincr hdir hU (.refl _ _) (by
      unfold Settles
      rw [hthrow])
  obtain ⟨code, hthrown⟩ := throws_of_settles htry fun _ _ ⟨_, _, hno, _⟩ => hno
  have hexec : execute p .mmu030 (fpuopFmovem p disp opcode extra) [f] s = _ := execute_single hthrown
  obtain ⟨F, st, -, hw⟩ := load_rte (p := p) ⟨[], u, rest, rfl, hfault.under frame⟩ (fun _ _ _ _ hno => hno) none
  obtain ⟨a, s', hrun, -, hs'⟩ := (load_settles (c := withFp F (underFrame p frame s.cpu)) disp hp (hmv.congr rfl) hm
    ht hlist hincr hdir hU (fun _ _ _ _ hno => hno) (waiting_get_accesses none hw)).returns_of fun _ he => he.1 rfl
  exact ⟨a, s', hexec.trans hrun, F, st, _, hs'.eq⟩

/-- A fault at the first long of the load puts its frame over an image that is still to be read. -/
theorem not_movesBack_load (h : Pair opcode extra opcode' extra') (hp : mmu030 p = true) {c : FpuCpu}
    (d' : Vector Long 8) (hmv : Moves p opcode extra c) (hmv' : Moves p opcode' extra' c)
    (hlist : fmovemList extra c.regs = L.setWidth 32)
    (hlist' : fmovemList extra' { c.regs with d := d' } = L.reverse.setWidth 32)
    (hnot : ¬ (c.regs.s = true ∧ eaReg opcode = 7)) {x : Long} (himage : Image L (c.regs.areg (eaReg opcode)) x)
    (hframe : FrameAt p c.regs x) : ¬ MovesBack p disp .mmu030 opcode extra opcode' extra' L c := by
  intro hm
  let zeros : Vector (BitVec 80) 8 := Vector.replicate 8 0
  let s : BusState := ⟨withFp zeros c, .zero, none, 0, false⟩
  let f : BusFault := ⟨0, onesFrame, [], none⟩
  have hplain (hno : mmu030 p = false) : ([] : List BusFault) = [] ∧ [f] = [] := by
    rw [hp] at hno
    cases hno
  obtain ⟨t, s₁, hrun, rfl, -, -, t, s₂, hrun₂, rfl, hback⟩ := hm s d' zeros [] [f] (.of_fp zeros) hlist' hplain
  obtain ⟨t, s₁', hrun', -, hs₁⟩ := store_returns (s := s) disp .mmu030 [] h (hmv.congr rfl) hlist (fun _ => rfl)
    fun _ => .inr ⟨⟨⟨rfl, rfl⟩, fun _ => rfl⟩, fun _ _ _ hframed => hframed.1 rfl⟩
  obtain rfl : s₁ = s₁' := by
    rw [hrun] at hrun'
    exact (Outcome.ret.inj hrun').2
  let an : Long := c.regs.areg (eaReg opcode)
  let b : BusState := between d' zeros s₁
  have hareg : b.cpu.regs.areg (eaReg opcode') = endAd (-1) (registers L) an := by
    rw [h.reg]
    change s₁.cpu.regs.areg (eaReg opcode) = _
    rw [hs₁.regs, stored_areg]
    rfl
  have htop : frameTop p b.cpu.regs = frameTop p c.regs := by
    rw [frameTop_between d' zeros hs₁.regs]
    exact (if_neg hnot).trans (frameTop_withFp zeros c)
  have hU := getAll_back (L := L) an
  rw [← hareg] at hU
  obtain ⟨y, hy, z, hz, hz2, hz3, hzframe⟩ := overlap_read himage hframe
  obtain ⟨u, rest, hrest⟩ : ∃ u rest, ((slots (-1) (registers L) an).reverse.flatMap fun x => getUnits x.1 x.2) =
      u :: rest := List.exists_cons_of_ne_nil fun hnil =>
    absurd (List.flatMap_eq_nil_iff.mp hnil y (List.mem_reverse.mpr hy)) (List.cons_ne_nil _ _)
  rw [hrest] at hU
  obtain ⟨t, s₂', hrun₂', F, st, ad, hs₂⟩ := load_under_frame (s := b) disp onesFrame hp (hmv'.congr hs₁.fpu) h.up
    h.load hlist' h.incr_up (h.regdir_up p _) hU
  obtain rfl : s₂ = s₂' := (Outcome.ret.inj (hrun₂.symm.trans hrun₂')).2
  have hlisted : y.1 ∈ registers L := by
    rw [← slots_fst (-1) (registers L) an]
    exact List.mem_map_of_mem hy
  have hzero : s₂.cpu.regs.fpu.fp.get y.1 = 0 := by
    rw [hback.fp y.1, if_pos ((mem_listed L y.1).mp hlisted)]
    exact Vector.getElem_replicate y.1.isLt
  have hnodup : ((slots (-1) (registers L) an).reverse.map Prod.fst).Nodup := by
    rw [List.map_reverse, slots_fst]
    exact (List.reverse_perm _).nodup_iff.mpr (registers_nodup L)
  let c' : FpuCpu := underFrame p onesFrame b.cpu
  have hread : s₂.cpu.regs.fpu.fp.get y.1 = readImage c'.mem y.2 := by
    rw [hs₂, loaded_fp, ← hrest, after_get]
    exact loadRegs_get hnodup (withFp F c') (List.mem_reverse.mpr hy)
  have hbyte : c'.mem z = 0 := readImage_zero (hread.symm.trans hzero) hz hz2 hz3
  have hones : c'.mem z = 0xFF := pushFrame_ones _ (by rw [htop]; exact hzframe)
  rw [hones] at hbyte
  exact absurd hbyte (by decide)

theorem PutFaulted.under {k : Nat} {x : Long × Long} {c : FpuCpu} (frame : Frame)
    (h : PutFaulted Nowhere k x c s) :
    PutFaulted Nowhere k x (underFrame p frame c) (Fmovem.throughFrame p s frame) := by
  have hcpu : (Fmovem.throughFrame p s frame).cpu = underFrame p frame c := congrArg (underFrame p frame) h.cpu.eq
  exact ⟨⟨h.count, h.made, h.movem1⟩, by rw [hcpu]; exact .refl _ _, h.addr, h.write, h.data⟩

/-- A store whose second long faults. -/
theorem put_second_faults {u v : Long × Long} (rest : List (Long × Long)) (hfresh : Fresh s)
    (ha : s.accesses = some 1) :
    ∃ t', numbered putUnit 0 (u :: v :: rest) (flagPut s) = .thrown 2 t' ∧
      PutFaulted Nowhere 1 v (putEff u s.cpu) t' := by
  have hzero : s.vars.state0 = 0 := hfresh.1
  have hmade : s.vars.movem2 = false := hfresh.2
  let vars : RestartVars := { s.vars with state0 := 1, movem1 := true, dataBufferOut := v.2 }
  refine ⟨{ s with
      cpu := putEff u s.cpu, vars := vars, accesses := some 0, faultAddr := v.1, faultRead := false }, ?_,
    ⟨⟨rfl, hmade, rfl⟩, .refl _ _, rfl, rfl, rfl⟩⟩
  simp [numbered, putUnit, flagPut, BusState.mapVars, BusState.mapCpu, hzero, hmade, xPutLong, access, bind_apply, ha,
    putEff, vars]

/-- A store whose second long faults writes the rest over the frame. -/
theorem store_under_frame (disp : DispEa) (frame : Frame) {list : Long} {incr regdir : Int} {u v : Long × Long}
    {rest : List (Long × Long)} (hp : mmu030 p = true) (hcompat : p.cpuCompatible = false)
    (hmv : Moves p opcode extra s.cpu) (hm : eaMode opcode = 4) (ht : toMemory extra = true)
    (hlist : fmovemList extra s.cpu.regs = list) (hincr : fmovemIncr opcode = incr)
    (hdir : fmovemRegdir p opcode extra list = regdir)
    (hU : putAll s.cpu.regs.fpu.fp incr regdir list (s.cpu.regs.areg (eaReg opcode)) = u :: v :: rest) :
    Returns (execute p .mmu030 (fpuopFmovem p disp opcode extra) [⟨1, frame, [], none⟩]) s fun _ s' =>
      s'.cpu.mem = (after putEff (underFrame p frame (putEff u s.cpu)) (v :: rest)).mem := by
  let f : BusFault := ⟨1, frame, [], none⟩
  have hlen : (u :: v :: rest).length ≤ 24 := by
    rw [← hU]
    exact putAll_le _ _ _ _ _
  -- the first try
  let t : BusState := { begin .mmu030 s with accesses := some 1 }
  obtain ⟨t', hthrow, hfault⟩ := put_second_faults (s := t) (u := u) (v := v) rest ⟨rfl, rfl⟩ rfl
  have hfirst := store_try (s := t) (c := s.cpu) (Q := fun _ => False) (E := (· = t')) disp hp hmv hm ht hlist hincr
    hdir hU rfl rfl (by
      unfold Settles
      rw [hthrow])
  obtain ⟨code, hthrown⟩ := throws_of_settles hfirst fun _ _ ⟨_, _, hno, _⟩ => hno
  have hexec : execute p .mmu030 (fpuopFmovem p disp opcode extra) [f] s = _ := execute_single hthrown
  -- the second
  let q : FpuCpu := underFrame p frame (putEff u s.cpu)
  let t₂ : BusState := { restart p .mmu030 f t' with accesses := none }
  have hrestart : restart p .mmu030 f t' = makeGood none (throughFrame p t' frame) := by
    rw [restart, rte, if_neg (by rw [hcompat]; exact Bool.false_ne_true)]
    rfl
  have hpend : PutPending Nowhere 1 v q (flagPut t₂) := by
    have hgood := (hfault.under (p := p) frame).makeGood none
    rw [← hrestart] at hgood
    exact ⟨⟨hgood.count, hgood.made, hgood.movem1⟩, hgood.cpu⟩
  have hsecond := store_try (s := t₂) (c := s.cpu) (Q := fun s'' => AgreeOff Nowhere (after putEff q (v :: rest)) s''.cpu)
    (E := fun _ => ¬ Calm t₂) disp hp hmv hm ht hlist hincr hdir hU hpend.cpu.regs hpend.cpu.fpu
    (((put_resumable Nowhere).settles_next [u] (v :: rest) rfl (fun _ _ => trivial) hlen
      (.inr ⟨v, rest, rfl, hpend⟩)).mono (fun _ _ hq => hq.1.cpu) fun _ he => he.1)
  obtain ⟨a, s', hrun, rfl, s'', hs'', rfl⟩ := hsecond.returns_of fun _ he => he rfl
  have hmem : s''.cpu.mem = (after putEff q (v :: rest)).mem := congrArg FpuCpu.mem hs''.eq
  exact ⟨none, _, hexec.trans hrun, hmem⟩

/-- The longs of a store below `ad`, but for the first. -/
def afterFirst (fp : Vector (BitVec 80) 8) (v : Fin 8) (vs : List (Fin 8)) (ad : Long) : List (Long × Long) :=
  (ad - 12 + 2 * 4, (fromExtenFmovem (fp.get v)).w2) :: (slots (-1) vs (ad - 12)).flatMap fun y => putUnits fp y.1 y.2

theorem putAll_first {fp : Vector (BitVec 80) 8} {v : Fin 8} {vs : List (Fin 8)} {ad : Long}
    (h : registers L = v :: vs) : putAll fp (-1) (-1) (L.setWidth 32) ad =
      (ad - 12, (fromExtenFmovem (fp.get v)).w0) :: (ad - 12 + 1 * 4, (fromExtenFmovem (fp.get v)).w1) ::
        afterFirst fp v vs ad := by
  have hlist : listed (-1) allRegs (L.setWidth 32) = registers L := rfl
  rw [putAll, hlist, h, slots_down, List.flatMap_cons]
  rfl

theorem first_not_stored {fp : Vector (BitVec 80) 8} {v : Fin 8} {vs : List (Fin 8)} {ad w : Long}
    (hn : vs.length < 8) : ¬ Stores ((ad - 12 + 1 * 4, w) :: afterFirst fp v vs ad) (ad - 12) := by
  rintro ⟨y, hy, hc⟩
  rw [afterFirst, List.mem_cons, List.mem_cons] at hy
  rcases hy with rfl | rfl | hy
  · simp only [Covers] at hc
    bv_omega
  · simp only [Covers] at hc
    bv_omega
  · obtain ⟨slot, hslot, hmem⟩ := List.mem_flatMap.mp hy
    have hbelow := slots_covers vs (by omega) hslot (covers_of_mem_putUnits hmem hc)
    simp only [Covers] at hbelow
    bv_omega

/-- In supervisor mode the frame of a fault at the second long of a store below A7 lies over the first. -/
theorem not_movesBack_store (h : Pair opcode extra opcode' extra') (hp : mmu030 p = true) (hL : L ≠ 0) {c : FpuCpu}
    (d' : Vector Long 8) (hmv : Moves p opcode extra c)
    (hlist : fmovemList extra c.regs = L.setWidth 32)
    (hlist' : fmovemList extra' { c.regs with d := d' } = L.reverse.setWidth 32)
    (h7 : c.regs.s = true ∧ eaReg opcode = 7) (hcompat : p.cpuCompatible = false) :
    ¬ MovesBack p disp .mmu030 opcode extra opcode' extra' L c := by
  intro hm
  let zeros : Vector (BitVec 80) 8 := Vector.replicate 8 0
  let s : BusState := ⟨withFp zeros c, .zero, none, 0, false⟩
  let f : BusFault := ⟨1, onesFrame, [], none⟩
  have hplain (hno : mmu030 p = false) : [f] = [] ∧ ([] : List BusFault) = [] := by
    rw [hp] at hno
    cases hno
  obtain ⟨t, s₁, hrun, rfl, -, ⟨t, sp, hrunp, rfl, hsame⟩, -⟩ := hm s d' zeros [f] [] (.of_fp zeros) hlist' hplain
  obtain ⟨t, sp', hrunp', -, hsp⟩ := store_returns (p := { p with mmuModel := false }) (s := s) disp .mmu030 []
    h (hmv.congr rfl) hlist (fun _ => rfl) fun hno => absurd hno (by simp [mmu030])
  obtain rfl : sp = sp' := (Outcome.ret.inj (hrunp.symm.trans hrunp')).2
  obtain ⟨v, vs, hregs⟩ : ∃ v vs, registers L = v :: vs := by
    obtain ⟨r, hr⟩ := exists_listed hL
    exact List.exists_cons_of_ne_nil (List.ne_nil_of_mem ((mem_listed L r).mpr hr))
  have hvs : vs.length < 8 := by
    have hle := registers_le L
    rw [hregs, List.length_cons] at hle
    omega
  let an : Long := c.regs.areg (eaReg opcode)
  obtain ⟨t, s₁', hrun', hs₁⟩ := store_under_frame (s := s) disp onesFrame hp hcompat (hmv.congr rfl) h.down h.store
    hlist h.incr_down (h.regdir_down p _) (putAll_first hregs)
  obtain rfl : s₁ = s₁' := (Outcome.ret.inj (hrun.symm.trans hrun')).2
  have hslot : (v, an - 12) ∈ slots (-1) (registers L) an := by
    rw [hregs, slots_down]
    exact .head _
  have hself : Covers (an - 12) 12 (an - 12) := by
    simp only [Covers, BitVec.sub_self]
    decide
  have hones : s₁.cpu.mem (an - 12) = 0xFF := by
    rw [hs₁]
    refine ((AgreeOff.of_puts _ _ fun _ hstores => hstores).mem (an - 12) (first_not_stored hvs)).trans ?_
    refine pushFrame_ones _ ?_
    have htop : frameTop p s.cpu.regs = an := by
      rw [frameTop_supervisor (r := s.cpu.regs) h7.1, ← h7.2]
      rfl
    change Covers (frameTop p s.cpu.regs - 92) 92 (an - 12)
    rw [htop]
    simp only [Covers]
    bv_omega
  have hzero : sp.cpu.mem (an - 12) = 0 := by
    rw [hsp.mem (an - 12) fun hboth => hboth.1.1 rfl]
    refine readImage_zero (?_ : readImage _ (an - 12) = 0) hself (by bv_omega) (by bv_omega)
    exact (storeMem_holds (registers L) (registers_le L) s.cpu.mem an (v, an - 12) hslot).trans
      (Vector.getElem_replicate v.isLt)
  have hbyte := hsame (an - 12) (image_iff.mpr ⟨_, hslot, hself⟩)
  rw [hzero] at hbyte
  exact absurd (hbyte.trans hones) (by decide)

/-- A store and a load of the same list, wherever both move something, are a round trip if and only
if the loops are the plain ones, or the list is empty, or the run loop clears `mmu030_state` and the
frames of the faults do no harm. -/
theorem fmovem_round_trip (h : Pair opcode extra opcode' extra') {c : FpuCpu} (d' : Vector Long 8)
    (hmv : Moves p opcode extra c) (hmv' : Moves p opcode' extra' c)
    (hlist : fmovemList extra c.regs = L.setWidth 32)
    (hlist' : fmovemList extra' { c.regs with d := d' } = L.reverse.setWidth 32) :
    MovesBack p disp loop opcode extra opcode' extra' L c ↔
      mmu030 p = false ∨ L = 0 ∨ loop = .mmu030 ∧ FramesClear p c.regs (eaReg opcode) L := by
  refine ⟨fun hm => ?_, movesBack h hmv hmv' hlist⟩
  by_contra hno
  obtain ⟨hp, hL, hloop⟩ := by simpa only [not_or, Bool.not_eq_false] using hno
  cases loop with
  | host => exact not_movesBack_host h hp hL d' hmv hmv' hlist hlist' hm
  | mmu030 =>
    refine hloop ⟨rfl, ?_⟩
    unfold FramesClear
    by_cases h7 : c.regs.s = true ∧ eaReg opcode = 7
    · rw [if_pos h7]
      by_contra hcompat
      exact not_movesBack_store h hp hL d' hmv hlist hlist' h7 (Bool.not_eq_true _ ▸ hcompat) hm
    · rw [if_neg h7]
      intro x himage hframe
      exact not_movesBack_load h hp d' hmv hmv' hlist hlist' h7 himage hframe hm

end Pair

/-! `FMOVEM.X FP0,-(A0)` and `FMOVEM.X (A0)+,FP0` on a 68030 with its MMU and a 68882. -/

/-- The 68030 with its MMU. -/
def prefs030 : FpuPrefs := { FpuPrefs.plain .m68030 .m68882 with mmuModel := true }

theorem pair_fp0 : Pair 0xF220 0xE001 0xF218 0xD080 :=
  ⟨by decide, by decide, by decide, by decide, by decide, by decide, by decide⟩

theorem fp0_stores : Moves prefs030 0xF220 0xE001 fpIdle := ⟨by decide, by decide, by decide⟩

theorem fp0_loads : Moves prefs030 0xF218 0xD080 fpIdle := ⟨by decide, by decide, by decide⟩

/-- In user mode with A0 at 0x2000 and the supervisor stack at 0x10000. -/
def fpUser : FpuCpu := fpIdle.mapRegs fun r =>
  { r with s := false, m := false, a := r.a.set 0 0x2000, sp := { r.sp with isp := 0x10000 } }

/-- In supervisor mode. -/
def fpSupervisor : FpuCpu := fpIdle.mapRegs fun r => { r with s := true }

theorem pair_a7 : Pair 0xF227 0xE001 0xF21F 0xD080 :=
  ⟨by decide, by decide, by decide, by decide, by decide, by decide, by decide⟩

theorem fpUser_clear : FramesClear prefs030 fpUser.regs (eaReg 0xF220) 1 := by
  have htop : frameTop prefs030 fpUser.regs = 0x10000 := by decide
  have ha0 : fpUser.regs.areg (eaReg 0xF220) = 0x2000 := by decide
  have hcount : count 1 = 1 := by decide
  rw [FramesClear, if_neg (by decide), ha0]
  intro x himage
  rw [FrameAt, htop]
  simp only [Image, hcount, Covers] at himage ⊢
  bv_omega

/-- Under `m68k_run_mmu030` it comes back in user mode; pushed on A7 in supervisor mode it may not. -/
theorem fmovem_round_trip_fp0 :
    MovesBack prefs030 (fun _ a => (a, 0)) .mmu030 0xF220 0xE001 0xF218 0xD080 1 fpUser ∧
    ¬ MovesBack prefs030 (fun _ a => (a, 0)) .mmu030 0xF227 0xE001 0xF21F 0xD080 1 fpSupervisor := by
  have hstores : Moves prefs030 0xF220 0xE001 fpUser := ⟨by decide, by decide, by decide⟩
  have hloads : Moves prefs030 0xF218 0xD080 fpUser := ⟨by decide, by decide, by decide⟩
  have hpushes : Moves prefs030 0xF227 0xE001 fpSupervisor := ⟨by decide, by decide, by decide⟩
  have hpops : Moves prefs030 0xF21F 0xD080 fpSupervisor := ⟨by decide, by decide, by decide⟩
  refine ⟨(fmovem_round_trip pair_fp0 fpUser.regs.d hstores hloads (by decide) (by decide)).mpr
    (.inr (.inr ⟨rfl, fpUser_clear⟩)), fun h => ?_⟩
  obtain hno | hno | ⟨-, hclear⟩ :=
    (fmovem_round_trip pair_a7 fpSupervisor.regs.d hpushes hpops (by decide) (by decide)).mp h
  · exact absurd hno (by decide)
  · exact absurd hno (by decide)
  · rw [FramesClear, if_pos (by decide)] at hclear
    exact absurd hclear (by decide)

/-- Under `uae_host_run` it does not come back. -/
theorem fp0_lost_on_host :
    ¬ MovesBack prefs030 (fun _ a => (a, 0)) .host 0xF220 0xE001 0xF218 0xD080 1 fpIdle := by
  have hone : (1 : Byte) ≠ 0 := by decide
  exact not_movesBack_host pair_fp0 rfl hone fpIdle.regs.d fp0_stores fp0_loads (by decide) (by decide)

end UaeCpu.Fmovem
