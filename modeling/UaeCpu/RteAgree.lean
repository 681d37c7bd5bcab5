import UaeCpu.Lib.Joint
import UaeCpu.RteBounds

/-!
# UaeCpu.RteAgree

`m68k_do_rte_mmu030` and `m68k_do_rte_mmu030c` on the same frame: they restore the same and make the
same access again. What they do not share is the pipeline and the opcode that waits in it.

* `Same`              — equal but for the pipeline, the opcode and the state of the MMU.
* `takeFrame_same`    — the frame is taken back alike.
* `retryFaulted_same` — the access is made again alike.
* `rtesAgree`         — the two routines.
-/

namespace UaeCpu.Restart

open Fault FaultM Mem

variable {M : Type}

/-! ## What the two do not share -/

/-- The pipeline, what waits in it, and the state of the MMU, which more reads leave otherwise. -/
structure Side (M : Type) where
  mmu : M
  opcodeStageb : Int
  pipe : Pipe
  opcode : Int
  regsOpcode : Word
  irc : Word

def graft (x : Side M) (c : Cpu030 M) : Cpu030 M :=
  { c with
    regs := { c.regs with opcode := x.regsOpcode, irc := x.irc }
    latch := { c.latch with pipe := x.pipe, log := { c.latch.log with opcode := x.opcode } }
    world := { c.world with mmu := x.mmu, opcodeStageb := x.opcodeStageb } }

def Same (c c' : Cpu030 M) : Prop := ∃ x, c' = graft x c

theorem Same.refl (c : Cpu030 M) : Same c c :=
  ⟨⟨c.world.mmu, c.world.opcodeStageb, c.latch.pipe, c.latch.log.opcode, c.regs.opcode, c.regs.irc⟩, rfl⟩

theorem Same.trans {c₁ c₂ c₃ : Cpu030 M} (h : Same c₁ c₂) (h' : Same c₂ c₃) : Same c₁ c₃ := by
  obtain ⟨x, rfl⟩ := h
  obtain ⟨y, rfl⟩ := h'
  exact ⟨y, rfl⟩

/-- The log with other flags and another buffer of an unaligned access. -/
def scratch (s1 : Word) (buf : Long) (c : Cpu030 M) : Cpu030 M :=
  mapLog (fun l => { l with state1 := s1, dataBufferOut := buf }) c

/-- The same while the frame is read. -/
def Near (c c' : Cpu030 M) : Prop := ∃ x s1 buf, c' = graft x (scratch s1 buf c)

theorem Near.refl (c : Cpu030 M) : Near c c := by
  obtain ⟨x, hx⟩ := Same.refl c
  exact ⟨x, c.latch.log.state1, c.latch.log.dataBufferOut, hx⟩

/-- What a read of the frame changes. -/
def Scratched (c c' : Cpu030 M) : Prop := ∃ u s1 buf, c' = setMmu u (scratch s1 buf c)

theorem Scratched.refl (c : Cpu030 M) : Scratched c c :=
  ⟨c.world.mmu, c.latch.log.state1, c.latch.log.dataBufferOut, rfl⟩

theorem Scratched.trans {c₁ c₂ c₃ : Cpu030 M} (h : Scratched c₁ c₂) (h' : Scratched c₂ c₃) :
    Scratched c₁ c₃ := by
  obtain ⟨u, s1, buf, rfl⟩ := h
  obtain ⟨u', s1', buf', rfl⟩ := h'
  exact ⟨u', s1', buf', rfl⟩

theorem Scratched.mem {c c' : Cpu030 M} (h : Scratched c c') : c'.world.mem = c.world.mem := by
  obtain ⟨u, s1, buf, rfl⟩ := h
  rfl

theorem Near.mem {c c' : Cpu030 M} (h : Near c c') : c'.world.mem = c.world.mem := by
  obtain ⟨x, s1, buf, rfl⟩ := h
  rfl

theorem Near.scratched {s t s' t' : Cpu030 M} (h : Near s t) (hs : Scratched s s') (ht : Scratched t t') :
    Near s' t' := by
  obtain ⟨x, s1, buf, rfl⟩ := h
  obtain ⟨u, s1', buf', rfl⟩ := hs
  obtain ⟨u', s1'', buf'', rfl⟩ := ht
  exact ⟨{ x with mmu := u' }, s1'', buf'', rfl⟩

/-! ## Reading the frame -/

/-- How many bytes of the stack a frame takes. -/
def frameSize (fr : Long → Byte) : Nat := if frameFormat fr = 0xB then 92 else 32

theorem frameSize_le (fr : Long → Byte) : frameSize fr ≤ 92 := by
  unfold frameSize
  split <;> decide

theorem le_frameSize {fr : Long → Byte} {n : Nat} (h : n ≤ 32) : n ≤ frameSize fr := by
  unfold frameSize
  split <;> omega

theorem le_frameSize_long {fr : Long → Byte} {n : Nat} (hB : frameFormat fr = 0xB) (h : n ≤ 92) :
    n ≤ frameSize fr := by
  unfold frameSize
  rw [if_pos hB]
  exact h

/-- The frame at `a7` can be read, and its bytes are those of `fr`. -/
structure ShownFrame (q : Port030 M) (fr : Long → Byte) (a7 : Long) (mem : Long → Byte) : Prop where
  shows : ShowsFrame q fr a7 mem
  mapped : ∀ off fc m, off.toNat < frameSize fr → (q.translate false false fc (a7 + off) m).1.isSome = true

section Frame

variable {q : Port030 M} {p : Prefs} {fr : Long → Byte} {a7 : Long} {c : Cpu030 M} {β : Type}

theorem piece_returns (size : AccessSize) {off addr fc : Long} {flags : Word} (ha : addr = a7 + off)
    (hs : ShownFrame q fr a7 c.world.mem) (hal : isUnalignedBus addr size = false)
    (hoff : off.toNat + size.bytes.toNat ≤ frameSize fr) (hrm : flags &&& mmu030SswRm = 0) :
    ∃ u, mmu030GetGeneric q p addr fc size flags c = .ret (readMem size fr off) (setMmu u c) := by
  subst ha
  have hd : decide (flags &&& mmu030SswRm ≠ 0) = false := decide_eq_false (not_not.mpr hrm)
  have hlt : off.toNat < frameSize fr := by
    have : 0 < size.bytes.toNat := by cases size <;> decide
    omega
  obtain ⟨phys, u, ht⟩ : ∃ phys u,
      q.translate false (flags &&& mmu030SswRm ≠ 0) fc (a7 + off) c.world.mmu = (phys, u) :=
    ⟨_, _, rfl⟩
  have hmapped := hs.mapped off fc c.world.mmu hlt
  rw [hd] at ht
  rw [ht] at hmapped
  obtain ⟨a, rfl⟩ := Option.isSome_iff_exists.mp hmapped
  refine ⟨u, ?_⟩
  rw [← hs.shows size off fc _ a u hal (hoff.trans (frameSize_le fr)) ht]
  refine getGeneric_some ?_
  rw [hd]
  exact ht

/-- In the middle of an unaligned read: `x` has been put together in the output buffer. -/
structure Gathered (c₀ : Cpu030 M) (x : Long) (c : Cpu030 M) : Prop where
  scratched : Scratched c₀ c
  buf : c.latch.log.dataBufferOut = x

section Unaligned

variable {c₀ : Cpu030 M} {x : Long} {Q : β → Cpu030 M → Prop}

theorem Gathered.state1 {f : Word → Word} {k : Unit → Run030 M β} (hr : Gathered c₀ x c)
    (hk : ∀ c', Gathered c₀ x c' → Returns (k ()) c' Q) : Returns (setState1 f >>= k) c Q := by
  refine hk (mapLog (fun l => { l with state1 := f l.state1 }) c) ⟨hr.scratched.trans ?_, hr.buf⟩
  exact ⟨c.world.mmu, f c.latch.log.state1, c.latch.log.dataBufferOut, rfl⟩

theorem Gathered.set {f : Long → Long} {k : Unit → Run030 M β} (hr : Gathered c₀ x c)
    (hk : ∀ c', Gathered c₀ (f x) c' → Returns (k ()) c' Q) : Returns (setDataBufferOut f >>= k) c Q := by
  refine hk (mapLog (fun l => { l with dataBufferOut := f l.dataBufferOut }) c)
    ⟨hr.scratched.trans ?_, congrArg f hr.buf⟩
  exact ⟨c.world.mmu, c.latch.log.state1, f c.latch.log.dataBufferOut, rfl⟩

theorem Gathered.piece (size : AccessSize) {off addr fc : Long} {flags : Word} {k : Long → Run030 M β}
    (hr : Gathered c₀ x c) (hs : ShownFrame q fr a7 c₀.world.mem) (ha : addr = a7 + off)
    (hal : isUnalignedBus addr size = false) (hoff : off.toNat + size.bytes.toNat ≤ frameSize fr)
    (hrm : flags &&& mmu030SswRm = 0)
    (hk : ∀ c', Gathered c₀ x c' → Returns (k (readMem size fr off)) c' Q) :
    Returns (mmu030GetGeneric q p addr fc size flags >>= k) c Q := by
  rw [← hr.scratched.mem] at hs
  obtain ⟨u, hu⟩ := piece_returns size ha hs hal hoff hrm
  refine Returns.bind_eq hu (hk _ ⟨hr.scratched.trans ?_, hr.buf⟩)
  exact ⟨u, c.latch.log.state1, c.latch.log.dataBufferOut, rfl⟩

theorem Gathered.done (hr : Gathered c₀ x c) :
    Returns (do unalignClear; reads (·.latch.log.dataBufferOut)) c
      fun v c' => v = x ∧ Scratched c₀ c' :=
  hr.state1 fun _ hr' => .of_eq rfl ⟨hr'.buf, hr'.scratched⟩

theorem Gathered.start (c : Cpu030 M) : Gathered c c.latch.log.dataBufferOut c := ⟨.refl c, rfl⟩

theorem wordUnaligned_returns {off fc : Long} (hs : ShownFrame q fr a7 c.world.mem)
    (hoff : off.toNat + 2 ≤ frameSize fr) :
    Returns (mmu030GetWordUnaligned q p (a7 + off) fc 0) c
      fun v c' => v = readMem .word fr off ∧ Scratched c c' := by
  have h0 : off.toNat + 1 ≤ frameSize fr := by omega
  have h1 : (off + 1).toNat + 1 ≤ frameSize fr := by bv_omega
  rw [readMem_word]
  refine (Gathered.start c).state1 fun _ hr => hr.piece .byte hs rfl rfl h0 rfl fun _ hr => ?_
  refine hr.set fun _ hr => hr.state1 fun _ hr => ?_
  refine hr.piece .byte hs (BitVec.add_assoc a7 off 1) rfl h1 rfl fun _ hr => ?_
  exact hr.set fun _ hr => hr.done

theorem longUnaligned_returns {off fc : Long} (hs : ShownFrame q fr a7 c.world.mem)
    (hoff : off.toNat + 4 ≤ frameSize fr) :
    Returns (mmu030GetLongUnaligned q p (a7 + off) fc 0) c
      fun v c' => v = readMem .long fr off ∧ Scratched c c' := by
  have hal : ∀ b : Long, b &&& 1 = 0 → isUnalignedBus b .word = false := fun b hb =>
    decide_eq_false (not_not.mpr hb)
  unfold mmu030GetLongUnaligned
  by_cases he : (a7 + off) &&& 1 = 0
  · have he2 : (a7 + off + 2) &&& 1 = 0 := by
      rw [and_one_eq_zero] at *
      bv_omega
    have h0 : off.toNat + 2 ≤ frameSize fr := by omega
    have h2 : (off + 2).toNat + 2 ≤ frameSize fr := by bv_omega
    rw [if_pos he, readMem_long]
    refine (Gathered.start c).state1 fun _ hr => ?_
    refine hr.piece .word hs rfl (hal _ he) h0 rfl fun _ hr => ?_
    refine hr.set fun _ hr => hr.state1 fun _ hr => ?_
    refine hr.piece .word hs (BitVec.add_assoc a7 off 2) (hal _ he2) h2 rfl fun _ hr => ?_
    exact hr.set fun _ hr => hr.done
  · have he1 : (a7 + off + 1) &&& 1 = 0 := by
      rw [and_one_eq_zero] at *
      bv_omega
    have h0 : off.toNat + 1 ≤ frameSize fr := by omega
    have h1 : (off + 1).toNat + 2 ≤ frameSize fr := by bv_omega
    have h3 : (off + 3).toNat + 1 ≤ frameSize fr := by bv_omega
    rw [if_neg he, readMem_long_odd]
    refine (Gathered.start c).state1 fun _ hr => ?_
    refine hr.piece .byte hs rfl rfl h0 rfl fun _ hr => ?_
    refine hr.set fun _ hr => hr.state1 fun _ hr => ?_
    refine hr.piece .word hs (BitVec.add_assoc a7 off 1) (hal _ he1) h1 rfl fun _ hr => ?_
    refine hr.set fun _ hr => hr.state1 fun _ hr => ?_
    refine hr.piece .byte hs (BitVec.add_assoc a7 off 3) rfl h3 rfl fun _ hr => ?_
    exact hr.set fun _ hr => hr.done

end Unaligned

/-- A field of the frame, however it is aligned. -/
theorem get_returns (size : AccessSize) {off : Long} (hs : ShownFrame q fr a7 c.world.mem)
    (hoff : off.toNat + size.bytes.toNat ≤ frameSize fr) :
    Returns (uaeMmu030Get q p size (a7 + off)) c
      fun v c' => v = readMem size fr off ∧ Scratched c c' := by
  unfold uaeMmu030Get mmu030GetFcx
  rw [returns_reads_bind]
  by_cases hu : isUnalignedBus (a7 + off) size = true
  · rw [if_pos hu]
    cases size with
    | byte => cases hu
    | word => exact wordUnaligned_returns hs hoff
    | long => exact longUnaligned_returns hs hoff
  · rw [if_neg hu]
    have hrm : (0 ||| size.flags) &&& mmu030SswRm = 0 := by cases size <;> decide
    obtain ⟨u, hu'⟩ := piece_returns size rfl hs (Bool.eq_false_iff.mpr hu) hoff hrm
    exact ⟨_, _, hu', rfl, u, c.latch.log.state1, c.latch.log.dataBufferOut, rfl⟩

theorem getWord_returns {off : Long} (hs : ShownFrame q fr a7 c.world.mem) (hoff : off.toNat + 2 ≤ frameSize fr) :
    Returns (getWordMmu030 q p (a7 + off)) c fun v c' => v = frameWord fr off ∧ Scratched c c' := by
  refine (get_returns .word hs hoff).bind ?_
  rintro v c' ⟨rfl, hc'⟩
  exact .of_eq rfl ⟨rfl, hc'⟩

end Frame

/-! ## Taking the frame back -/

section Take

variable {q : Port030 M} {p p' : Prefs} {fr : Long → Byte} {a7 addr off : Long} {mem : Long → Byte}
  {s t : Cpu030 M} {β γ : Type} {Q : β → Cpu030 M → γ → Cpu030 M → Prop} {E : Cpu030 M → Cpu030 M → Prop}

/-- Two states in the middle of reading a frame. -/
structure NearAt (mem : Long → Byte) (s t : Cpu030 M) : Prop where
  near : Near s t
  mem : s.world.mem = mem

theorem NearAt.scratched {s' t' : Cpu030 M} (h : NearAt mem s t) (hs : Scratched s s') (ht : Scratched t t') :
    NearAt mem s' t' := ⟨h.near.scratched hs ht, hs.mem.trans h.mem⟩

theorem NearAt.left (h : NearAt mem s t) (hs : ShownFrame q fr a7 mem) : ShownFrame q fr a7 s.world.mem := by
  rw [h.mem]
  exact hs

theorem NearAt.right (h : NearAt mem s t) (hs : ShownFrame q fr a7 mem) : ShownFrame q fr a7 t.world.mem := by
  rw [h.near.mem]
  exact h.left hs

theorem NearAt.long {f : Long → Run030 M β} {g : Long → Run030 M γ} (h : NearAt mem s t)
    (hs : ShownFrame q fr a7 mem) (ha : addr = a7 + off) (hoff : off.toNat + 4 ≤ frameSize fr)
    (hk : ∀ s' t', NearAt mem s' t' → Joint Q E (f (frameLong fr off)) s' (g (frameLong fr off)) t') :
    Joint Q E (uaeMmu030Get q p .long addr >>= f) s (uaeMmu030Get q p' .long addr >>= g) t := by
  subst ha
  refine .bind_left (get_returns .long (h.left hs) hoff) ?_
  rintro _ s' ⟨rfl, hs'⟩
  refine .bind_right (get_returns .long (h.right hs) hoff) ?_
  rintro _ t' ⟨rfl, ht'⟩
  exact hk s' t' (h.scratched hs' ht')

theorem NearAt.word {f : Word → Run030 M β} {g : Word → Run030 M γ} (h : NearAt mem s t)
    (hs : ShownFrame q fr a7 mem) (ha : addr = a7 + off) (hoff : off.toNat + 2 ≤ frameSize fr)
    (hk : ∀ s' t', NearAt mem s' t' → Joint Q E (f (frameWord fr off)) s' (g (frameWord fr off)) t') :
    Joint Q E (getWordMmu030 q p addr >>= f) s (getWordMmu030 q p' addr >>= g) t := by
  subst ha
  refine .bind_left (getWord_returns (h.left hs) hoff) ?_
  rintro _ s' ⟨rfl, hs'⟩
  refine .bind_right (getWord_returns (h.right hs) hoff) ?_
  rintro _ t' ⟨rfl, ht'⟩
  exact hk s' t' (h.scratched hs' ht')

/-- A field that only one of them reads. -/
theorem NearAt.longRight {m : Run030 M β} {g : Long → Run030 M γ} (h : NearAt mem s t)
    (hs : ShownFrame q fr a7 mem) (ha : addr = a7 + off) (hoff : off.toNat + 4 ≤ frameSize fr)
    (hk : ∀ t', NearAt mem s t' → Joint Q E m s (g (frameLong fr off)) t') :
    Joint Q E m s (uaeMmu030Get q p' .long addr >>= g) t := by
  subst ha
  refine .bind_right (get_returns .long (h.right hs) hoff) ?_
  rintro _ t' ⟨rfl, ht'⟩
  exact hk t' (h.scratched (.refl s) ht')

/-- The head of a frame. Only the compatible core reads the pipeline stages. -/
def frameHead (fr : Long → Byte) (stagesbc : Long) : RteHead where
  sr := frameWord fr 0
  pc := frameLong fr 2
  frame := frameFormat fr
  ssw := frameSsw fr
  faultAddr := frameLong fr 16
  dataBufferOut := frameLong fr 0x18
  oc := frameLong fr 0x14
  stagesbc := stagesbc

theorem readHead_near (hp : p.cpuCompatible = false) (hp' : p'.cpuCompatible = true) (h : NearAt mem s t)
    (hs : ShownFrame q fr a7 mem) :
    Joint (fun f s' f' t' => f = frameHead fr 0 ∧ f' = frameHead fr (frameLong fr 12) ∧ NearAt mem s' t') E
      (readHead q p a7) s (readHead q p' a7) t := by
  have hin : ∀ {n}, n ≤ 32 → n ≤ frameSize fr := le_frameSize
  unfold readHead
  refine h.word hs (BitVec.add_zero a7).symm (hin (by decide)) fun _ _ h => ?_
  refine h.long hs rfl (hin (by decide)) fun _ _ h => ?_
  refine h.word hs rfl (hin (by decide)) fun _ _ h => h.word hs rfl (hin (by decide)) fun _ _ h => ?_
  refine h.long hs rfl (hin (by decide)) fun _ _ h => h.long hs rfl (hin (by decide)) fun _ _ h => ?_
  refine h.long hs rfl (hin (by decide)) fun s₁ t₁ h => ?_
  simp only [hp, hp', Bool.false_eq_true, if_false, if_true]
  refine h.longRight hs rfl (hin (by decide)) fun t₂ h => ?_
  have h90 : a7 + 92 - 2 = a7 + 90 := by bv_omega
  have h30 : a7 + 32 - 2 = a7 + 30 := by bv_omega
  refine .ite (fun hB => ?_) fun _ => ?_
  · exact h.word hs h90 (le_frameSize_long hB (by decide)) fun _ _ h => ⟨rfl, rfl, h⟩
  · exact h.word hs h30 (hin (by decide)) fun _ _ h => ⟨rfl, rfl, h⟩

/-- The loop over `mmu030_ad_v`. -/
theorem readAdV_near (hs : ShownFrame q fr a7 mem) (hB : frameFormat fr = 0xB) (n i : Nat) (adv : Nat → Long)
    (hn : n + i ≤ 16) (h : NearAt mem s t) :
    Joint (fun a s' b t' => a = b ∧ NearAt mem s' t') E (readAdV q p a7 n i adv) s (readAdV q p' a7 n i adv) t := by
  induction n generalizing s t i adv with
  | zero => exact ⟨rfl, h⟩
  | succ n ih =>
    have hsub : (0x5C - BitVec.ofNat 32 ((i + 1) * 4) : Long).toNat + 4 ≤ frameSize fr := by
      refine le_frameSize_long hB ?_
      rw [BitVec.toNat_sub, BitVec.toNat_ofNat]
      have h5c : (0x5C : Long).toNat = 92 := rfl
      omega
    unfold readAdV
    refine h.long hs (by bv_omega) hsub fun s₁ t₁ h => ?_
    unfold useIndex
    rw [joint_update_bind_left, joint_update_bind_right]
    refine ih (i + 1) _ (by omega) ⟨?_, h.mem⟩
    obtain ⟨x, s1, buf, rfl⟩ := h.near
    exact ⟨x, s1, buf, rfl⟩

theorem mmu030fixupmod_graft (data : Byte) (dir : Bool) (x : Side M) (s1 : Word) (buf : Long) (c : Cpu030 M) :
    mmu030fixupmod data dir (graft x (scratch s1 buf c)) =
      graft x (scratch s1 buf (mmu030fixupmod data dir c)) := by
  unfold mmu030fixupmod
  split
  · rfl
  · unfold Cpu.mapRegs Regs.setAreg
    dsimp only
    split <;> rfl

theorem mmu030fixupmod_mem (data : Byte) (dir : Bool) (c : Cpu030 M) :
    (mmu030fixupmod data dir c).world.mem = c.world.mem := by
  unfold mmu030fixupmod
  split <;> rfl

/-- The state words of a frame. -/
def frameState1 (fr : Long → Byte) : Word := if frameFormat fr = 0xA then frameWord fr 8 else frameWord fr 0x32

/-- The opcode of a format B frame, -1 while the pipeline is filled. -/
def frameOpcode (fr : Long → Byte) : Int :=
  if (frameLong fr 0x28).getLsbD 31 then -1 else (frameLong fr 0x14 &&& 0xFFFF).toNat

theorem NearAt.state1 {u : Word → Word} {f : Unit → Run030 M β} {g : Unit → Run030 M γ} (h : NearAt mem s t)
    (hk : ∀ s' t', NearAt mem s' t' → Joint Q E (f ()) s' (g ()) t') :
    Joint Q E (setState1 u >>= f) s (setState1 u >>= g) t := by
  obtain ⟨⟨x, s1, buf, rfl⟩, hmem⟩ := h
  exact hk _ _ ⟨⟨x, u s1, buf, rfl⟩, hmem⟩

theorem rteShortFrame_same {sb : Long} (hp : p.cpuCompatible = false) (hp' : p'.cpuCompatible = true)
    (h : NearAt mem s t) (hs : ShownFrame q fr a7 mem) :
    Joint (fun _ s' _ t' => Same s' t' ∧ s'.latch.log.state1 = frameWord fr 8 ∧
        s'.latch.log.idx = 0 ∧ s'.latch.log.idxDone = 0) E
      (rteShortFrame q p a7 (frameHead fr 0)) s (rteShortFrame q p' a7 (frameHead fr sb)) t := by
  unfold rteShortFrame
  simp only [hp, hp', Bool.false_eq_true, if_false, if_true]
  refine h.word hs rfl (le_frameSize (by decide)) fun s₁ t₁ h => h.longRight hs rfl (le_frameSize (by decide)) fun t₂ h => ?_
  have hsoft : ∀ sb, (frameHead fr sb).ssw = frameSsw fr := fun _ => rfl
  simp only [hsoft]
  by_cases hsoft : softFixed (frameSsw fr) = true
  · rw [if_pos hsoft, if_pos hsoft]
    refine h.state1 fun s₃ t₃ h => ?_
    rw [joint_update_bind_left, joint_update_bind_left, joint_update_bind_right, joint_update_bind_right,
      joint_update_bind_right, joint_update]
    obtain ⟨⟨x, s1, buf, rfl⟩, -⟩ := h
    exact ⟨⟨⟨x.mmu, _, _, x.opcode, x.regsOpcode, x.irc⟩, rfl⟩, rfl, rfl, rfl⟩
  · rw [if_neg hsoft, if_neg hsoft]
    rw [joint_update_bind_left, joint_update_bind_left, joint_update_bind_right, joint_update_bind_right,
      joint_update_bind_right, joint_update]
    obtain ⟨⟨x, s1, buf, rfl⟩, -⟩ := h
    exact ⟨⟨⟨x.mmu, _, _, x.opcode, x.regsOpcode, x.irc⟩, rfl⟩, rfl, rfl, rfl⟩

theorem softFixData_near {ssw : Word} {dataIn : Long} {v : RteLocals} (h : NearAt mem s t) :
    Joint (fun v₁ s' v₂ t' => v₁ = v₂ ∧ NearAt mem s' t' ∧ (softFixed ssw = false → v₁.state1 = v.state1)) E
      (softFixData ssw dataIn v) s (softFixData ssw dataIn v) t := by
  unfold softFixData
  refine .ite (fun hsoft => ?_) fun _ => ⟨rfl, h, fun _ => rfl⟩
  have hno : ∀ v₁ : RteLocals, softFixed ssw = false → v₁.state1 = v.state1 := fun _ hf => by
    rw [hsoft] at hf
    cases hf
  extract_lets w jp
  have hjp : ∀ v₁ {s t : Cpu030 M}, NearAt mem s t →
      Joint (fun v₁ s' v₂ t' => v₁ = v₂ ∧ NearAt mem s' t' ∧ (softFixed ssw = false → v₁.state1 = v.state1)) E
        (jp v₁) s (jp v₁) t := fun v₁ _ _ h => h.state1 fun _ _ h => ⟨rfl, h, hno v₁⟩
  refine .ite (fun _ => ?_) fun _ => .ite (fun _ => hjp _ h) fun _ => .ite (fun _ => ?_) fun _ => hjp _ h
  · rw [joint_update_bind_left, joint_update_bind_right]
    obtain ⟨⟨x, s1, buf, rfl⟩, hmem⟩ := h
    exact hjp w ⟨⟨x, s1, buf, rfl⟩, hmem⟩
  · unfold useIndex
    rw [joint_update_bind_left, joint_update_bind_right]
    obtain ⟨⟨x, s1, buf, rfl⟩, hmem⟩ := h
    exact hjp _ ⟨⟨x, s1, buf, rfl⟩, hmem⟩

theorem copyAdV_same (adv : Nat → Long) (n i : Nat) (h : Same s t) :
    Joint (fun _ s' _ t' => Same s' t' ∧ s'.latch.log.state1 = s.latch.log.state1 ∧
      t'.latch.log.opcode = t.latch.log.opcode) E (copyAdV adv n i) s (copyAdV adv n i) t := by
  induction n generalizing s t i with
  | zero => exact ⟨h, rfl, rfl⟩
  | succ n ih =>
    obtain ⟨x, rfl⟩ := h
    exact ih (i + 1) ⟨x, rfl⟩

/-- The fixups of the address registers. -/
theorem NearAt.fixups (h : NearAt mem s t) (wb2 wb3 : Byte) :
    let f := fun c : Cpu030 M => mmu030fixupmod wb3 true (mmu030fixupmod wb2 true (c.mapLatch fun l =>
      { l with mmu := { l.mmu with wb2Status := wb2, wb3Status := wb3 } }))
    NearAt mem (f s) (f t) := by
  obtain ⟨⟨x, s1, buf, rfl⟩, hmem⟩ := h
  refine ⟨⟨x, s1, buf, ?_⟩, ?_⟩
  · dsimp only
    rw [← mmu030fixupmod_graft, ← mmu030fixupmod_graft]
    rfl
  · dsimp only
    rw [mmu030fixupmod_mem, mmu030fixupmod_mem]
    exact hmem

/-- Stage B of the pipeline: what is left of it outside the pipeline is the opcode that waits. -/
theorem NearAt.stageB {f : RteLocals → Run030 M β} {g : RteLocals → Run030 M γ} {ps : Long} {op op' : Int}
    {head head' : RteHead} {v : RteLocals} (hp : p.cpuCompatible = false) (hp' : p'.cpuCompatible = true)
    (h : NearAt mem s t) (hs : ShownFrame q fr a7 mem)
    (hop : stageBFixed (frameSsw fr) = true → op = -1)
    (hk : ∀ s' t', NearAt mem s' t' → Joint Q E (f v) s' (g v) t') :
    Joint Q E
      (if p.cpuCompatible then do
          update (softFixPipe ps head)
          let v ← pure v
          f v
        else do
          let v ← softFixStageB q p a7 (frameSsw fr) op v
          f v) s
      (if p'.cpuCompatible then do
          update (softFixPipe ps head')
          let v ← pure v
          g v
        else do
          let v ← softFixStageB q p' a7 (frameSsw fr) op' v
          g v) t := by
  rw [if_neg (by rw [hp]; exact Bool.false_ne_true), if_pos hp', joint_update_bind_right]
  have h : NearAt mem s (softFixPipe ps head' t) := by
    obtain ⟨⟨x, s1, buf, rfl⟩, hmem⟩ := h
    exact ⟨⟨{ x with pipe := (softFixPipe ps head' (graft x (scratch s1 buf s))).latch.pipe }, s1, buf, rfl⟩, hmem⟩
  unfold softFixStageB
  by_cases hb : stageBFixed (frameSsw fr) = true
  · rw [if_pos hb]
    obtain rfl := hop hb
    have hleft : Returns (do
        let stageb ← getWordMmu030 q p (a7 + 0x0E)
        if (-1 : Int) = -1 then do
          update (mapWorld fun w => { w with opcodeStageb := stageb.toNat })
          pure v
        else do
          useIndex v.idxsizeDone
          pure { v with
            adv := Function.update v.adv v.idxsizeDone (stageb.setWidth 32)
            idxsizeDone := v.idxsizeDone + 1 }) s
        fun v' s' => v' = v ∧ NearAt mem s' (softFixPipe ps head' t) := by
      refine (getWord_returns (h.left hs) (le_frameSize (by decide))).bind ?_
      rintro stageb s₁ ⟨-, hs₁⟩
      rw [if_pos rfl, returns_update_bind, returns_pure]
      obtain ⟨⟨x, s1, buf, hx⟩, hmem⟩ := h.scratched hs₁ (.refl _)
      exact ⟨rfl, ⟨x, s1, buf, hx⟩, hmem⟩
    refine .bind_left hleft ?_
    rintro _ s' ⟨rfl, h⟩
    exact hk _ _ h
  · rw [if_neg hb]
    exact hk _ _ h

/-- The log is taken back. -/
theorem NearAt.takeLog {idx : Nat} {v : RteLocals} {st0 st2 : Word} {f0 f1 d0 d1 : Long} {op op' : Int}
    (h : NearAt mem s t) :
    let log := fun (op : Int) (l : Mmu030Log) => { l with
      opcode := op, state0 := st0, state1 := v.state1, state2 := st2, dispStore0 := d0, dispStore1 := d1
      fmovemStore0 := f0, fmovemStore1 := f1, dataBufferOut := v.dataBufferOut, idx := idx
      idxDone := v.idxsizeDone }
    Joint (fun _ s' _ t' => Same s' t' ∧ s'.latch.log.state1 = v.state1 ∧ t'.latch.log.opcode = op') E
      (do
        update (mapLog (log op))
        copyAdV v.adv (v.idxsizeDone + 1) 0
        update fun c => c.setA7 (c.regs.sp.a7 + 92)) s
      (do
        update (mapLog (log op'))
        copyAdV v.adv (v.idxsizeDone + 1) 0
        update fun c => c.setA7 (c.regs.sp.a7 + 92)) t := by
  intro log
  rw [joint_update_bind_left, joint_update_bind_right]
  refine (copyAdV_same v.adv _ 0 ?_).bind ?_
  · obtain ⟨⟨x, s1, buf, rfl⟩, hmem⟩ := h
    exact ⟨{ x with opcode := op' }, rfl⟩
  rintro - s₅ - t₅ ⟨⟨x, rfl⟩, hs1, hop⟩
  rw [joint_update]
  exact ⟨⟨x, rfl⟩, hs1, hop⟩

theorem rteLongFrame_same {sb : Long} (hp : p.cpuCompatible = false) (hp' : p'.cpuCompatible = true)
    (h : NearAt mem s t) (hs : ShownFrame q fr a7 mem) (hB : frameFormat fr = 0xB)
    (hstageb : stageBFixed (frameSsw fr) = true → (frameLong fr 0x28).getLsbD 31 = true) :
    Joint (fun _ s' _ t' => Same s' t' ∧
        (softFixed (frameSsw fr) = false → s'.latch.log.state1 = frameWord fr 0x32) ∧
        t'.latch.log.opcode = frameOpcode fr) E
      (rteLongFrame q p a7 (frameHead fr 0)) s (rteLongFrame q p' a7 (frameHead fr sb)) t := by
  have hin : ∀ {n}, n ≤ 92 → n ≤ frameSize fr := le_frameSize_long hB
  have h20 : a7 + 0x1C + 4 = a7 + 0x20 := by bv_omega
  unfold rteLongFrame
  refine h.long hs rfl (hin (by decide)) fun _ _ h => ?_
  refine h.long hs h20 (hin (by decide)) fun _ _ h => ?_
  refine h.long hs rfl (hin (by decide)) fun _ _ h => h.long hs rfl (hin (by decide)) fun _ _ h => ?_
  refine h.word hs rfl (hin (by decide)) fun _ _ h => h.word hs rfl (hin (by decide)) fun _ _ h => ?_
  refine h.word hs rfl (hin (by decide)) fun s₁ t₁ h => ?_
  extract_lets op wb3 jp op' jp'
  have hjp : ∀ x {s t : Cpu030 M}, NearAt mem s t → Joint (fun _ s' _ t' => Same s' t' ∧
        (softFixed (frameSsw fr) = false → s'.latch.log.state1 = frameWord fr 0x32) ∧
        t'.latch.log.opcode = frameOpcode fr) E (jp x) s (jp' x) t := by
    rintro ⟨f0, f1⟩ s t h
    refine h.word hs (Eq.refl (a7 + 0x36)) (hin (by decide)) fun s₂ t₂ h => ?_
    have hn : ((frameWord fr 0x36 >>> 4) &&& 0xF).toNat + 1 + 0 ≤ 16 := by
      have hle : ((frameWord fr 0x36 >>> 4) &&& 0xF).toNat ≤ 15 := by
        rw [BitVec.toNat_and]
        exact Nat.and_le_right
      omega
    refine (readAdV_near hs hB _ 0 _ hn h).bind ?_
    rintro adv s₃ _ t₃ ⟨rfl, h⟩
    rw [joint_update_bind_left, joint_update_bind_right, joint_update_bind_left, joint_update_bind_right]
    refine (softFixData_near (h.fixups _ wb3)).bind ?_
    rintro v s₄ _ t₄ ⟨rfl, h, hstate1⟩
    extract_lets k k'
    refine h.stageB (f := k) (g := k') hp hp' hs (fun hb => if_pos (hstageb hb)) fun s₅ t₅ h => ?_
    refine h.takeLog.mono ?_ fun _ _ h => h
    rintro - s₆ - t₆ ⟨hsame, hs1, hop⟩
    exact ⟨hsame, fun hsoft => hs1.trans (hstate1 hsoft), hop⟩
  have h0 : a7 + 0x5C - (7 + 1) * 4 = a7 + 0x3C := by bv_omega
  have h1 : a7 + 0x5C - (8 + 1) * 4 = a7 + 0x38 := by bv_omega
  refine .ite (fun _ => ?_) fun _ => hjp (0, 0) h
  refine h.long hs h0 (hin (by decide)) fun s₂ t₂ h => h.long hs h1 (hin (by decide)) fun s₃ t₃ h => ?_
  exact hjp (frameLong fr 0x3C, frameLong fr 0x38) h

end Take

/-! ## Making the access again -/

/-- Whether an access is let through does not depend on the accesses before it. -/
def Steady (q : Port030 M) : Prop :=
  ∀ write rm fc a m m', (q.translate write rm fc a m).1 = (q.translate write rm fc a m').1

/-- Both end alike. A fault of the program space, `b = false`, is noted by the two cores each in its
own way. -/
abbrev EndsSame {α : Type} (b : Bool) (m : Run030 M α) (s : Cpu030 M) (m' : Run030 M α) (t : Cpu030 M) :
    Prop :=
  Joint (fun a s' a' t' => a = a' ∧ Same s' t') (fun s' t' => b = true → Same s' t') m s m' t

section Again

variable {α β : Type} {q : Port030 M} {p p' : Prefs} {addr fc : Long} {size : AccessSize} {flags : Word}
  {s t : Cpu030 M} {b : Bool}

theorem EndsSame.bind {m m' : Run030 M α} {f g : α → Run030 M β} (h : EndsSame b m s m' t)
    (hk : ∀ a s' t', Same s' t' → EndsSame b (f a) s' (g a) t') :
    EndsSame b (m >>= f) s (m' >>= g) t := by
  refine Joint.bind h ?_
  rintro a s' _ t' ⟨rfl, hs⟩
  exact hk a s' t' hs

theorem Same.log {f : Mmu030Log → Mmu030Log} (h : Same s t)
    (hf : ∀ (l : Mmu030Log) (n : Int), f { l with opcode := n } = { f l with opcode := n }) :
    Same (mapLog f s) (mapLog f t) := by
  obtain ⟨x, rfl⟩ := h
  refine ⟨x, ?_⟩
  unfold mapLog Cpu.mapLatch graft
  dsimp only
  rw [hf]

theorem Same.updateLog {f : Mmu030Log → Mmu030Log} (h : Same s t)
    (hf : ∀ (l : Mmu030Log) (n : Int), f { l with opcode := n } = { f l with opcode := n }) :
    EndsSame b (update (mapLog f)) s (update (mapLog f)) t := ⟨rfl, h.log hf⟩

theorem Same.state1_eq (h : Same s t) : t.latch.log.state1 = s.latch.log.state1 := by
  obtain ⟨x, rfl⟩ := h
  rfl

theorem Same.dataBufferOut_eq (h : Same s t) : t.latch.log.dataBufferOut = s.latch.log.dataBufferOut := by
  obtain ⟨x, rfl⟩ := h
  rfl

theorem Same.idxDone_eq (h : Same s t) : t.latch.log.idxDone = s.latch.log.idxDone := by
  obtain ⟨x, rfl⟩ := h
  rfl

theorem mmu030fixupmod_same (data : Byte) (dir : Bool) (h : Same s t) :
    Same (mmu030fixupmod data dir s) (mmu030fixupmod data dir t) := by
  obtain ⟨x, rfl⟩ := h
  refine ⟨x, ?_⟩
  unfold mmu030fixupmod
  split
  · rfl
  · unfold Cpu.mapRegs Regs.setAreg
    dsimp only
    split <;> rfl

theorem noteFixups_same (h : Same s t) : Same (noteFixups s) (noteFixups t) := by
  obtain ⟨x, rfl⟩ := h
  unfold noteFixups
  have h₀ : Same
      (s.mapLatch fun l => { l with mmu := { l.mmu with
        wb2Status := mmu030fixupreg s.world.fixup0, wb3Status := mmu030fixupreg s.world.fixup1 } })
      ((graft x s).mapLatch fun l => { l with mmu := { l.mmu with
        wb2Status := mmu030fixupreg s.world.fixup0, wb3Status := mmu030fixupreg s.world.fixup1 } }) := ⟨x, rfl⟩
  obtain ⟨y, hy⟩ := mmu030fixupmod_same (mmu030fixupreg s.world.fixup1) false
    (mmu030fixupmod_same (mmu030fixupreg s.world.fixup0) false h₀)
  refine ⟨y, ?_⟩
  exact congrArg (mapWorld fun w => { w with
    fixup0 := w.fixup0.mod (mmu030fixupreg s.world.fixup0) false
    fixup1 := w.fixup1.mod (mmu030fixupreg s.world.fixup1) false }) hy

/-- A fault of the data space is noted alike. -/
theorem notePageFault_same (h : Same s t) (hfc : fc.getLsbD 0 = true) (read : Bool) :
    Same (notePageFault p addr read flags fc s) (notePageFault p' addr read flags fc t) := by
  have hmark : ∀ {s t : Cpu030 M}, Same s t → Same
      (s.mapLatch fun l => { l with mmu := { l.mmu with wb2Status := 0, wb3Status := 0 } })
      (t.mapLatch fun l => { l with mmu := { l.mmu with wb2Status := 0, wb3Status := 0 } }) := by
    rintro s _ ⟨x, rfl⟩
    exact ⟨x, rfl⟩
  have hend : ∀ {s t : Cpu030 M} (ssw : Word), Same s t → Same
      (s.mapLatch fun l => { l with
        mmu := { l.mmu with
          ssw := ssw, faultAddr := addr, wb3Data := l.log.dataBufferOut
          wb2Address := l.log.state1.setWidth 32 }
        log := { l.log with stagebAddress := addr } })
      (t.mapLatch fun l => { l with
        mmu := { l.mmu with
          ssw := ssw, faultAddr := addr, wb3Data := l.log.dataBufferOut
          wb2Address := l.log.state1.setWidth 32 }
        log := { l.log with stagebAddress := addr } }) := by
    rintro s _ ssw ⟨x, rfl⟩
    exact ⟨x, rfl⟩
  have h₁ := hmark h
  have hstate : (t.mapLatch fun l => { l with mmu := { l.mmu with
      wb2Status := 0, wb3Status := 0 } }).latch.log.state1 = s.latch.log.state1 := h₁.state1_eq
  unfold notePageFault
  simp only [hfc, Bool.not_true, Bool.false_eq_true, false_and, or_false, true_and, if_true]
  refine hend _ ?_
  rw [hstate]
  by_cases hlast : s.latch.log.state1 &&& stateflag1Lastwrite = 0
  · rw [if_pos hlast, if_pos (by exact hlast)]
    exact noteFixups_same h₁
  · rw [if_neg hlast, if_neg (by exact hlast)]
    exact h₁

theorem getGeneric_same (hq : Steady q) (hfc : b = true → fc.getLsbD 0 = true) (h : Same s t) :
    EndsSame b (mmu030GetGeneric q p addr fc size flags) s (mmu030GetGeneric q p' addr fc size flags) t := by
  obtain ⟨phys, u, hs⟩ : ∃ phys u,
      q.translate false (flags &&& mmu030SswRm ≠ 0) fc addr s.world.mmu = (phys, u) := ⟨_, _, rfl⟩
  obtain ⟨u', ht⟩ : ∃ u', q.translate false (flags &&& mmu030SswRm ≠ 0) fc addr t.world.mmu = (phys, u') := by
    refine ⟨_, Prod.ext_iff.mpr ⟨?_, rfl⟩⟩
    rw [hq _ _ _ _ t.world.mmu s.world.mmu, hs]
  have hset : Same (setMmu u s) (setMmu u' t) := by
    obtain ⟨x, rfl⟩ := h
    exact ⟨{ x with mmu := u' }, rfl⟩
  have hmem : t.world.mem = s.world.mem := by
    obtain ⟨x, rfl⟩ := h
    rfl
  unfold EndsSame Joint
  cases phys with
  | some a =>
    rw [getGeneric_some hs, getGeneric_some ht, hmem]
    exact ⟨rfl, hset⟩
  | none =>
    rw [getGeneric_none hs, getGeneric_none ht]
    exact ⟨rfl, fun hb => notePageFault_same hset (hfc hb) true⟩

theorem putGeneric_same {val : Long} (hq : Steady q) (hfc : b = true → fc.getLsbD 0 = true) (h : Same s t) :
    EndsSame b (mmu030PutGeneric q p addr val fc size flags) s
      (mmu030PutGeneric q p' addr val fc size flags) t := by
  obtain ⟨phys, u, hs⟩ : ∃ phys u,
      q.translate true (flags &&& mmu030SswRm ≠ 0) fc addr s.world.mmu = (phys, u) := ⟨_, _, rfl⟩
  obtain ⟨u', ht⟩ : ∃ u', q.translate true (flags &&& mmu030SswRm ≠ 0) fc addr t.world.mmu = (phys, u') := by
    refine ⟨_, Prod.ext_iff.mpr ⟨?_, rfl⟩⟩
    rw [hq _ _ _ _ t.world.mmu s.world.mmu, hs]
  have hset : Same (setMmu u s) (setMmu u' t) := by
    obtain ⟨x, rfl⟩ := h
    exact ⟨{ x with mmu := u' }, rfl⟩
  unfold EndsSame Joint
  cases phys with
  | some a =>
    rw [putGeneric_some hs, putGeneric_some ht]
    obtain ⟨x, hx⟩ := hset
    refine ⟨rfl, x, ?_⟩
    rw [hx]
    rfl
  | none =>
    rw [putGeneric_none hs, putGeneric_none ht]
    exact ⟨rfl, fun hb => notePageFault_same hset (hfc hb) false⟩

theorem readParts_same (hq : Steady q) (hfc : b = true → fc.getLsbD 0 = true) (st : Word)
    (parts : List SubAccess) (h : Same s t) :
    EndsSame b (readParts q p fc st parts addr) s (readParts q p' fc st parts addr) t := by
  induction parts generalizing addr s t with
  | nil => exact ⟨rfl, h⟩
  | cons part parts ih =>
    refine .ite (fun _ => ?_) fun _ => ih h
    refine (h.updateLog fun _ _ => rfl).bind fun _ _ _ h => (getGeneric_same hq hfc h).bind fun v _ _ h => ?_
    exact (h.updateLog fun _ _ => rfl).bind fun _ _ _ h => (h.updateLog fun _ _ => rfl).bind fun _ _ _ h => ih h

theorem writeParts_same (hq : Steady q) (hfc : b = true → fc.getLsbD 0 = true) (st : Word)
    (parts : List SubAccess) (h : Same s t) :
    EndsSame b (writeParts q p fc st parts addr) s (writeParts q p' fc st parts addr) t := by
  induction parts generalizing addr s t with
  | nil => exact ⟨rfl, h⟩
  | cons part parts ih =>
    unfold writeParts
    refine .ite (fun _ => ?_) fun _ => ih h
    rw [joint_reads_bind_left, joint_reads_bind_right, h.dataBufferOut_eq]
    exact (putGeneric_same hq hfc h).bind fun _ _ _ h => (h.updateLog fun _ _ => rfl).bind fun _ _ _ h => ih h

theorem readContinue_same (hq : Steady q) (hfc : b = true → fc.getLsbD 0 = true) (h : Same s t) :
    EndsSame b (mmu030UnalignedReadContinue q p addr fc) s (mmu030UnalignedReadContinue q p' addr fc) t := by
  unfold mmu030UnalignedReadContinue EndsSame
  rw [joint_reads_bind_left, joint_reads_bind_right, h.state1_eq]
  exact (readParts_same hq hfc _ _ h).bind fun _ _ _ h => h.updateLog fun _ _ => rfl

theorem writeContinue_same (hq : Steady q) (hfc : b = true → fc.getLsbD 0 = true) (h : Same s t) :
    EndsSame b (mmu030UnalignedWriteContinue q p addr fc) s (mmu030UnalignedWriteContinue q p' addr fc) t := by
  unfold mmu030UnalignedWriteContinue EndsSame
  rw [joint_reads_bind_left, joint_reads_bind_right, h.state1_eq]
  exact (writeParts_same hq hfc _ _ h).bind fun _ _ _ h => h.updateLog fun _ _ => rfl

/-- The faulted access of a frame, if it has been split before or need not be. -/
theorem retryAccess_same {ssw : Word} (hp : p.cpuCompatible = false) (hp' : p'.cpuCompatible = true)
    (hq : Steady q)
    (hsplit : s.latch.log.state1 &&& stateflag1Subaccess0 ≠ 0 ∨ isUnalignedBus addr (sswSize ssw) = false)
    (h : Same s t) :
    EndsSame (ssw.getLsbD 0) (retryAccess q p ssw addr) s (retryAccess q p' ssw addr) t := by
  have hfc : ssw.getLsbD 0 = true → ((ssw &&& 7).setWidth 32 : Long).getLsbD 0 = true := fun hfc => by
    rw [BitVec.getLsbD_setWidth, BitVec.getLsbD_and, hfc]
    rfl
  have hflags : (0 : Word) ||| (sswSize ssw).flags = (sswSize ssw).flags := BitVec.zero_or
  unfold retryAccess EndsSame
  dsimp only
  rw [joint_reads_bind_left, joint_reads_bind_right, h.state1_eq]
  refine .ite (fun _ => ?_) fun _ => ?_
  · refine .ite (fun _ => readContinue_same hq hfc h) fun hwhole => ?_
    have hal := hsplit.resolve_left hwhole
    rw [if_neg (by rw [hp]; exact Bool.false_ne_true), if_pos hp']
    refine EndsSame.bind ?_ fun v _ _ h =>
      h.updateLog (f := fun l => { l with dataBufferOut := v }) fun _ _ => rfl
    unfold mmu030GetFcx
    rw [if_neg (by rw [hal]; exact Bool.false_ne_true), hflags]
    exact getGeneric_same hq hfc h
  · rw [joint_reads_bind_left, joint_reads_bind_right, h.dataBufferOut_eq]
    refine .ite (fun _ => writeContinue_same hq hfc h) fun hwhole => ?_
    have hal := hsplit.resolve_left hwhole
    rw [if_neg (by rw [hp]; exact Bool.false_ne_true), if_pos hp']
    unfold mmu030PutFcx
    rw [if_neg (by rw [hal]; exact Bool.false_ne_true), hflags]
    exact putGeneric_same hq hfc h

theorem retryFaulted_same {ssw : Word} {long : Bool} (hp : p.cpuCompatible = false)
    (hp' : p'.cpuCompatible = true) (hq : Steady q)
    (hsplit : s.latch.log.state1 &&& stateflag1Subaccess0 ≠ 0 ∨ isUnalignedBus addr (sswSize ssw) = false)
    (h : Same s t) :
    EndsSame (ssw.getLsbD 0) (retryFaulted q p ssw addr long) s (retryFaulted q p' ssw addr long) t := by
  unfold retryFaulted
  refine (retryAccess_same hp hp' hq hsplit h).bind fun _ s₁ t₁ h => ?_
  unfold EndsSame
  rw [joint_reads_bind_left, joint_reads_bind_right, h.state1_eq, h.dataBufferOut_eq, h.idxDone_eq]
  refine .ite (fun _ => h.updateLog fun _ _ => rfl) fun _ => .ite (fun _ => ?_) fun _ => ⟨rfl, h⟩
  refine .ite (fun _ => ?_) fun _ => h.updateLog fun _ _ => rfl
  obtain ⟨x, rfl⟩ := h
  exact ⟨rfl, x, rfl⟩

end Again

/-! ## The two routines -/

/-- What both routines leave alike. `afresh`: the compatible core has started the log from its beginning. -/
structure RteAgree (afresh : Prop) (c c' : Cpu030 M) : Prop where
  sr : c'.regs.sr = c.regs.sr
  pc : c'.regs.pc = c.regs.pc
  sp : c'.regs.sp = c.regs.sp
  state0 : c'.latch.log.state0 = c.latch.log.state0
  state1 : c'.latch.log.state1 = c.latch.log.state1
  state2 : c'.latch.log.state2 = c.latch.log.state2
  ad : c'.latch.log.ad = c.latch.log.ad
  dispStore0 : c'.latch.log.dispStore0 = c.latch.log.dispStore0
  dispStore1 : c'.latch.log.dispStore1 = c.latch.log.dispStore1
  dataBufferOut : c'.latch.log.dataBufferOut = c.latch.log.dataBufferOut
  retry : c'.world.retry = c.world.retry
  mem : c'.world.mem = c.world.mem
  idx : ¬afresh → c'.latch.log.idx = c.latch.log.idx
  idxDone : ¬afresh → c'.latch.log.idxDone = c.latch.log.idxDone

/-- The log is at its beginning. -/
def Restarted (c : Cpu030 M) : Prop := c.latch.log.idx = 0 ∧ c.latch.log.idxDone = 0

theorem Same.agree {afresh : Prop} {c c' : Cpu030 M} (h : Same c c') : RteAgree afresh c c' := by
  obtain ⟨x, rfl⟩ := h
  constructor <;> intros <;> rfl

/-- `fillPrefetch030Ntx` on the right alone. -/
theorem RteAgree.fill {afresh : Prop} {c c' : Cpu030 M} (ha : afresh) (h : RteAgree afresh c c') (x : Side M) :
    RteAgree afresh c (graft x (mapLog (fun l => { l with idx := 0, idxDone := 0 }) c')) :=
  { h with
    idx := fun hn => (hn ha).elim
    idxDone := fun hn => (hn ha).elim }

/-- The pipeline is filled with what memory holds, and nothing else changes. -/
def RefillsSide (q : Port030 M) : Prop :=
  ∀ c, (∃ x, q.refill c = .ret () (graft x c)) ∨ ∃ code c', q.refill c = .thrown code c'

/-- Left from `fill_prefetch_030_ntx` by its own bus error. -/
def FillFault (q : Port030 M) (code : Int) (c' : Cpu030 M) : Prop := ∃ c, q.refill c = .thrown code c'

/-- What of the frame `m68k_do_rte_mmu030c` fills its pipeline for, before it makes the access again. -/
def fillsFirst (fr : Long → Byte) : Prop :=
  frameFormat fr = 0xB ∧ frameSsw fr &&& (mmu030SswDf <<< 1) = 0 ∧
    (stageBFixed (frameSsw fr) = true ∨ stageCFixed (frameSsw fr) = true ∨ frameOpcode fr = -1)

/-- A frame that both routines take alike: a fixed stage B is an opcode that the pipeline waits for, no
access is made again once the pipeline has been filled, and none is split that was not before. -/
structure RteFrame (fr : Long → Byte) : Prop where
  format : frameFormat fr = 0xA ∨ frameFormat fr = 0xB
  stageB : frameFormat fr = 0xB → stageBFixed (frameSsw fr) = true → (frameLong fr 0x28).getLsbD 31 = true
  filled : fillsFirst fr → frameSsw fr &&& mmu030SswDf = 0
  split : frameSsw fr &&& mmu030SswDf ≠ 0 → frameSsw fr &&& mmu030SswRm = 0 →
    frameState1 fr &&& stateflag1Subaccess0 ≠ 0 ∨
      isUnalignedBus (frameLong fr 16) (sswSize (frameSsw fr)) = false

section Routines

variable (q : Port030 M) (p : Prefs)

/-- Up to the status register. -/
def takeFrame (a7 : Long) : Run030 M RteHead := do
  let f ← readHead q p a7
  update (mapWorld fun w => { w with retry := true })
  if f.frame = 0xA then rteShortFrame q p a7 f
  else if f.frame = 0xB then rteLongFrame q p a7 f
  pure f

/-- The access, in `m68k_do_rte_mmu030`. -/
def rteRetryData (f : RteHead) : Run030 M Unit := do
  if f.ssw &&& mmu030SswDf ≠ 0 ∧ f.ssw &&& mmu030SswRm = 0 then
    retryFaulted q p f.ssw f.faultAddr (f.frame = 0xB)

/-- Behind the access, in `m68k_do_rte_mmu030`. -/
def rteFinish : Run030 M Unit := do
  let l ← reads (·.latch.log)
  if l.state1 &&& stateflag1Lastwrite ≠ 0 then
    update (mapWorld fun w => { w with retry := false })

/-- Before the access, in `m68k_do_rte_mmu030c`. -/
def rteFill (ssw : Word) : Run030 M Unit := do
  if ssw &&& (mmu030SswDf <<< 1) = 0 then
    let l ← reads (·.latch.log)
    if stageBFixed ssw ∨ stageCFixed ssw ∨ l.opcode = -1 then fillPrefetch030Ntx q

/-- The access, in `m68k_do_rte_mmu030c`. -/
def rteRetry (f : RteHead) : Run030 M Unit := do
  if f.ssw &&& mmu030SswDf ≠ 0 then
    if f.ssw &&& mmu030SswRm ≠ 0 then update (mapLog fun l => { l with idxDone := 0 })
    else retryFaulted q p f.ssw f.faultAddr (f.frame = 0xB)

/-- Behind the access, in `m68k_do_rte_mmu030c`. -/
def rteFinishFill (frame : Word) : Run030 M Unit := do
  let l ← reads (·.latch.log)
  if l.state1 &&& stateflag1Lastwrite ≠ 0 then
    update (mapWorld fun w => { w with retry := false })
    if frame ≠ 0xA then
      update (mapLog fun l => { l with opcode := -1 })
      fillPrefetch030Ntx q

/-- The end of `m68k_do_rte_mmu030c`. -/
def rteAfresh (frame : Word) : Run030 M Unit := do
  if frame = 0xB then
    update (mapLog fun l => { l with opcode := -1 })
    fillPrefetch030Ntx q

theorem m68kDoRteMmu030_eq (a7 : Long) :
    m68kDoRteMmu030 q p a7 = (do
      let f ← takeFrame q p a7
      let odd ← rteRestorePc q p f
      if odd then pure ()
      else do
        rteRetryData q p f
        rteFinish) := by
  have hite : ∀ (b : Prop) [Decidable b] (m : Run030 M Unit) (k : Unit → Run030 M Unit),
      (if b then m >>= k else k ()) = (do if b then m) >>= k := fun b _ m k => by
    split <;> rfl
  unfold m68kDoRteMmu030 takeFrame rteRetryData rteFinish
  simp only [bind_assoc, hite]
  congr 1
  funext f
  congr 1
  funext _
  split
  · simp only [bind_assoc, pure_bind]
  · split
    · simp only [bind_assoc, pure_bind]
    · simp only [pure_bind]

/-- The accesses and the refills of `m68k_do_rte_mmu030c`, one after the other. -/
theorem rteAccess_eq (f : RteHead) :
    (do
      if f.ssw &&& (mmu030SswDf <<< 1) = 0 then
        let l ← reads (·.latch.log)
        if stageBFixed f.ssw ∨ stageCFixed f.ssw ∨ l.opcode = -1 then fillPrefetch030Ntx q
      if f.ssw &&& mmu030SswDf ≠ 0 then
        if f.ssw &&& mmu030SswRm ≠ 0 then update (mapLog fun l => { l with idxDone := 0 })
        else retryFaulted q p f.ssw f.faultAddr (f.frame = 0xB)
      let l ← reads (·.latch.log)
      if l.state1 &&& stateflag1Lastwrite ≠ 0 then
        update (mapWorld fun w => { w with retry := false })
        if f.frame ≠ 0xA then
          update (mapLog fun l => { l with opcode := -1 })
          fillPrefetch030Ntx q
      if f.frame = 0xB then
        update (mapLog fun l => { l with opcode := -1 })
        fillPrefetch030Ntx q : Run030 M Unit) = (do
      rteFill q f.ssw
      rteRetry q p f
      rteFinishFill q f.frame
      rteAfresh q f.frame) := by
  unfold rteFill rteRetry rteFinishFill
  extract_lets jp₀ jp₁ jp₂
  have hjp₁ : ∀ u, jp₁ u = (do
      let l ← reads (·.latch.log)
      if l.state1 &&& stateflag1Lastwrite ≠ 0 then
        update (mapWorld fun w => { w with retry := false })
        if f.frame ≠ 0xA then
          update (mapLog fun l => { l with opcode := -1 })
          fillPrefetch030Ntx q) >>= fun _ => rteAfresh q f.frame := fun u => by
    simp only [jp₁, bind_assoc]
    congr 1
    funext l
    split
    · split <;> rfl
    · rfl
  have hjp₂ : ∀ u, jp₂ u = (do
      if f.ssw &&& mmu030SswDf ≠ 0 then
        if f.ssw &&& mmu030SswRm ≠ 0 then update (mapLog fun l => { l with idxDone := 0 })
        else retryFaulted q p f.ssw f.faultAddr (f.frame = 0xB)) >>= jp₁ := fun u => by
    simp only [jp₂]
    split
    · split <;> rfl
    · rfl
  have hend : jp₁ = fun _ => jp₁ () := rfl
  rw [← hjp₁ (), ← hend]
  split
  · simp only [bind_assoc]
    congr 1
    funext l
    split
    · simp only [hjp₂]
    · exact hjp₂ ()
  · exact hjp₂ ()

theorem m68kDoRteMmu030c_eq (a7 : Long) :
    m68kDoRteMmu030c q p a7 = (do
      let f ← takeFrame q p a7
      let odd ← rteRestorePc q p f
      if odd then pure ()
      else do
        rteFill q f.ssw
        rteRetry q p f
        rteFinishFill q f.frame
        rteAfresh q f.frame) := by
  unfold m68kDoRteMmu030c takeFrame
  simp only [rteAccess_eq, bind_assoc]
  congr 1
  funext f
  congr 1
  funext _
  split
  · simp only [bind_assoc, pure_bind]
  · split
    · simp only [bind_assoc, pure_bind]
    · simp only [pure_bind]

end Routines

/-! ## Side by side -/

section SideBySide

variable {q : Port030 M} {p p' : Prefs} {fr : Long → Byte} {a7 : Long} {c s t : Cpu030 M}

/-- Once the frame has been taken back. -/
structure Taken (fr : Long → Byte) (s t : Cpu030 M) : Prop where
  same : Same s t
  state1 : softFixed (frameSsw fr) = false → s.latch.log.state1 = frameState1 fr
  opcode : frameFormat fr = 0xB → t.latch.log.opcode = frameOpcode fr
  short : frameFormat fr ≠ 0xB → s.latch.log.idx = 0 ∧ s.latch.log.idxDone = 0

theorem takeFrame_same (hp : p.cpuCompatible = false) (hp' : p'.cpuCompatible = true) (hf : RteFrame fr)
    (hs : ShownFrame q fr a7 c.world.mem) {E : Cpu030 M → Cpu030 M → Prop} :
    Joint (fun f s' f' t' => f = frameHead fr 0 ∧ f' = frameHead fr (frameLong fr 12) ∧ Taken fr s' t') E
      (takeFrame q p a7) c (takeFrame q p' a7) c := by
  unfold takeFrame
  refine (readHead_near hp hp' ⟨.refl c, rfl⟩ hs).bind ?_
  rintro _ s _ t ⟨rfl, rfl, h⟩
  rw [joint_update_bind_left, joint_update_bind_right]
  have h : NearAt c.world.mem (mapWorld (fun w => { w with retry := true }) s)
      (mapWorld (fun w => { w with retry := true }) t) := by
    obtain ⟨⟨x, s1, buf, rfl⟩, hmem⟩ := h
    exact ⟨⟨x, s1, buf, rfl⟩, hmem⟩
  have hhead : ∀ sb, (frameHead fr sb).frame = frameFormat fr := fun _ => rfl
  simp only [hhead]
  refine .ite (fun hA => ?_) fun hA => .ite (fun hB => ?_) fun hB => ?_
  · refine (rteShortFrame_same hp hp' h hs).bind ?_
    rintro - s' - t' ⟨hsame, hst, hidx⟩
    refine ⟨rfl, rfl, hsame, fun _ => ?_, fun hB => ?_, fun _ => hidx⟩
    · rw [hst, frameState1, if_pos hA]
    · rw [hA] at hB
      exact absurd hB (by decide)
  · refine (rteLongFrame_same hp hp' h hs hB (hf.stageB hB)).bind ?_
    rintro - s' - t' ⟨hsame, hst, hop⟩
    refine ⟨rfl, rfl, hsame, fun hsoft => ?_, fun _ => hop, fun hn => (hn hB).elim⟩
    rw [hst hsoft, frameState1, if_neg hA]
  · exact (hf.format.elim hA hB).elim

def withOpcode (o i : Word) (r : Regs) : Regs := { r with opcode := o, irc := i }

/-- The status register is taken apart without the opcode. -/
theorem makeFromSRx_opcode (k : SrWrite) (o i : Word) (core : Core) :
    makeFromSRx p k { core with regs := withOpcode o i core.regs } =
      { makeFromSRx p k core with regs := withOpcode o i (makeFromSRx p k core).regs } := by
  have hmask : ∀ r, loadIntmask p k (withOpcode o i r) = withOpcode o i (loadIntmask p k r) := fun r => by
    unfold loadIntmask withOpcode
    dsimp only
    repeat' split
    all_goals rfl
  have hclear : ∀ r, clearUnimplemented p (withOpcode o i r) = withOpcode o i (clearUnimplemented p r) :=
    fun r => by
      unfold clearUnimplemented
      repeat' split
      all_goals rfl
  have hend : ∀ r, noteEndCompile p (withOpcode o i core.regs) (withOpcode o i r) =
      withOpcode o i (noteEndCompile p core.regs r) := fun r => by
    unfold noteEndCompile withOpcode
    dsimp only
    split <;> rfl
  have htrace : ∀ r, noteTrace p k (withOpcode o i core.regs) (withOpcode o i r) =
      withOpcode o i (noteTrace p k core.regs r) := fun r => by
    unfold noteTrace withOpcode
    dsimp only
    split <;> rfl
  have hun : srUnchanged (withOpcode o i core.regs) = srUnchanged core.regs := rfl
  unfold makeFromSRx
  dsimp only
  rw [hun]
  split
  · rfl
  · let r : Regs := { core.regs with
      t1 := core.regs.sr.getLsbD 15, t0 := core.regs.sr.getLsbD 14,
      s := core.regs.sr.getLsbD 13, m := core.regs.sr.getLsbD 12 }
    let bank : Regs → Regs := fun r => { r with sp := bankStacks p core.regs.s core.regs.m r.s r.m r.sp }
    have hbank : bank (loadIntmask p k (withOpcode o i r)) = withOpcode o i (bank (loadIntmask p k r)) := by
      rw [hmask]
      rfl
    have hcleared := (congrArg (clearUnimplemented p) hbank).trans (hclear _)
    have hended := (congrArg (noteEndCompile p (withOpcode o i core.regs)) hcleared).trans (hend _)
    have htraced := (congrArg (noteTrace p k (withOpcode o i core.regs)) hended).trans (htrace _)
    exact congrArg (fun r => ({ regs := r, flags := Flags.ofSR core.regs.sr } : Core)) htraced

theorem Same.writeSR (hpp : p' = { p with cpuCompatible := true }) (k : SrWrite) (v : Word) (h : Same s t) :
    Same (Cpu.writeSR p k v s) (Cpu.writeSR p' k v t) := by
  obtain ⟨x, rfl⟩ := h
  subst hpp
  refine ⟨x, ?_⟩
  have h := makeFromSRx_opcode (p := p) k x.regsOpcode x.irc
    { s.toCore with regs := { s.toCore.regs with sr := v } }
  exact congrArg (fun core => { graft x s with toCore := core }) h

/-- The opcode and `irc` are not shared. -/
theorem Taken.left (o i : Word) (h : Taken fr s t) : Taken fr (s.mapRegs (withOpcode o i)) t := by
  obtain ⟨⟨x, rfl⟩, hst, hop, hshort⟩ := h
  exact ⟨⟨x, rfl⟩, hst, hop, hshort⟩

theorem Taken.right (o i : Word) (h : Taken fr s t) : Taken fr s (t.mapRegs (withOpcode o i)) := by
  obtain ⟨⟨x, rfl⟩, hst, hop, hshort⟩ := h
  exact ⟨⟨{ x with regsOpcode := o, irc := i }, rfl⟩, hst, hop, hshort⟩

/-- An even program counter. -/
theorem rteRestorePc_same {sb sb' : Long} (hpp : p' = { p with cpuCompatible := true })
    (heven : (frameLong fr 2).getLsbD 0 = false) (h : Taken fr s t) {E : Cpu030 M → Cpu030 M → Prop} :
    Joint (fun odd s' odd' t' => odd = false ∧ odd' = false ∧ Taken fr s' t') E
      (rteRestorePc q p (frameHead fr sb)) s (rteRestorePc q p' (frameHead fr sb')) t := by
  have hpc : ∀ sb, (frameHead fr sb).pc = frameLong fr 2 := fun _ => rfl
  have hsr : ∀ sb, (frameHead fr sb).sr = frameWord fr 0 := fun _ => rfl
  unfold rteRestorePc
  simp only [hpc, hsr, heven, Bool.false_eq_true, if_false]
  rw [joint_update_bind_left, joint_update_bind_right, joint_update_bind_left, joint_update_bind_right,
    joint_reads_bind_left, joint_reads_bind_right]
  have h₁ : Taken fr ((Cpu.writeSR p .t0 (frameWord fr 0) s).mapRegs fun r => r.setpc (frameLong fr 2))
      ((Cpu.writeSR p' .t0 (frameWord fr 0) t).mapRegs fun r => r.setpc (frameLong fr 2)) := by
    refine ⟨?_, h.state1, h.opcode, h.short⟩
    obtain ⟨x, hx⟩ := h.same.writeSR hpp .t0 (frameWord fr 0)
    rw [hx]
    exact ⟨x, rfl⟩
  split
  · rw [joint_update_bind_left]
    split
    · exact ⟨rfl, rfl, (h₁.left _ _).right _ _⟩
    · exact ⟨rfl, rfl, h₁.left _ _⟩
  · split
    · exact ⟨rfl, rfl, h₁.right _ _⟩
    · exact ⟨rfl, rfl, h₁⟩

/-- An odd program counter: the rest of the routine is the address error. -/
theorem rteRestorePc_odd {sb : Long} (hodd : (frameLong fr 2).getLsbD 0 = true) {k : Run030 M Unit} :
    (do
      let odd ← rteRestorePc q p (frameHead fr sb)
      if odd then pure () else k) s =
      exception3ReadPrefetch (host030 q p fun _ => pure 0)
        (fun nr => exceptionX (host030 q p fun _ => pure 0) nr none) 0x4E73 (frameLong fr 2) 0
        (Cpu.writeSR p .t0 (frameWord fr 0) s) := by
  have hpc : (frameHead fr sb).pc = frameLong fr 2 := rfl
  unfold rteRestorePc
  rw [hpc, if_pos hodd]
  simp only [bind_assoc, pure_bind, if_true, bind_pure_unit]
  rfl

/-- Where the access is about to be made again. -/
structure Ready (fr : Long → Byte) (s t : Cpu030 M) : Prop where
  agree : RteAgree (frameFormat fr = 0xB) s t
  same : frameSsw fr &&& mmu030SswDf ≠ 0 → Same s t
  state1 : softFixed (frameSsw fr) = false → s.latch.log.state1 = frameState1 fr
  short : frameFormat fr ≠ 0xB → s.latch.log.idxDone = 0

theorem Taken.ready (h : Taken fr s t) : Ready fr s t :=
  ⟨h.same.agree, fun _ => h.same, h.state1, fun hn => (h.short hn).2⟩

theorem fillPrefetch_side (hr : RefillsSide q) (t : Cpu030 M) :
    (∃ x, fillPrefetch030Ntx q t = .ret () (graft x (mapLog (fun l => { l with idx := 0, idxDone := 0 }) t))) ∨
      ∃ code t', fillPrefetch030Ntx q t = .thrown code t' ∧ FillFault q code t' := by
  obtain ⟨x, hx⟩ | ⟨code, t', ht'⟩ := hr (mapLog (fun l => { l with idx := 0, idxDone := 0 }) t)
  · exact .inl ⟨x, hx⟩
  · exact .inr ⟨code, t', ht', _, ht'⟩

/-- A log that is at its beginning is not changed by being started again. -/
theorem Same.restart (h : Same s t) (h0 : s.latch.log.idx = 0 ∧ s.latch.log.idxDone = 0) :
    Same s (mapLog (fun l => { l with idx := 0, idxDone := 0 }) t) := by
  obtain ⟨x, rfl⟩ := h
  refine ⟨x, ?_⟩
  have hlog : { s.latch.log with idx := 0, idxDone := 0 } = s.latch.log := by
    conv_rhs => rw [show s.latch.log = { s.latch.log with idx := s.latch.log.idx, idxDone := s.latch.log.idxDone }
      from rfl, h0.1, h0.2]
  exact congrArg (fun l => { graft x s with
    latch := { (graft x s).latch with log := { l with opcode := x.opcode } } }) hlog

theorem rteFill_ready (hr : RefillsSide q) (hf : RteFrame fr) (h : Taken fr s t)
    {E : Cpu030 M → Cpu030 M → Prop} :
    JointUnless (FillFault q) (fun _ s' _ t' => Ready fr s' t') E (pure ()) s (rteFill q (frameSsw fr)) t := by
  unfold rteFill
  by_cases hdf : frameSsw fr &&& (mmu030SswDf <<< 1) = 0
  case neg =>
    rw [if_neg hdf]
    exact .inl h.ready
  rw [if_pos hdf, jointUnless_reads_bind_right]
  by_cases hfill : stageBFixed (frameSsw fr) = true ∨ stageCFixed (frameSsw fr) = true ∨ t.latch.log.opcode = -1
  case neg =>
    rw [if_neg hfill]
    exact .inl h.ready
  rw [if_pos hfill]
  unfold JointUnless Joint
  obtain ⟨x, hx⟩ | ⟨code, t', ht', hx⟩ := fillPrefetch_side hr t
  case inr => exact .inr ⟨code, t', ht', hx⟩
  rw [hx]
  refine .inl ?_
  by_cases hB : frameFormat fr = 0xB
  · have hn : fillsFirst fr := ⟨hB, hdf, by rwa [← h.opcode hB]⟩
    exact ⟨h.same.agree.fill hB x, fun hn' => (hn' (hf.filled hn)).elim, h.state1, fun hn' => (hn' hB).elim⟩
  · have hsame : Same s (graft x (mapLog (fun l => { l with idx := 0, idxDone := 0 }) t)) :=
      (h.same.restart (h.short hB)).trans ⟨x, rfl⟩
    exact ⟨hsame.agree, fun _ => hsame, h.state1, fun _ => (h.short hB).2⟩

theorem rteRetry_agree {sb sb' : Long} (hp : p.cpuCompatible = false) (hp' : p'.cpuCompatible = true)
    (hq : Steady q) (hf : RteFrame fr) (h : Ready fr s t) :
    Joint (fun _ s' _ t' => RteAgree (frameFormat fr = 0xB) s' t')
      (fun s' t' => (frameSsw fr).getLsbD 0 = true → RteAgree False s' t')
      (rteRetryData q p (frameHead fr sb)) s (rteRetry q p' (frameHead fr sb')) t := by
  have hssw : ∀ sb, (frameHead fr sb).ssw = frameSsw fr := fun _ => rfl
  unfold rteRetryData rteRetry
  rw [hssw, hssw]
  by_cases hdf : frameSsw fr &&& mmu030SswDf ≠ 0
  case neg =>
    rw [if_neg (fun hn => hdf hn.1), if_neg hdf]
    exact h.agree
  have hsame := h.same hdf
  rw [if_pos hdf]
  by_cases hrm : frameSsw fr &&& mmu030SswRm = 0
  case neg =>
    rw [if_neg (fun hn => hrm hn.2), if_pos hrm]
    exact { h.agree with idxDone := fun hn => (h.short hn).symm }
  rw [if_pos ⟨hdf, hrm⟩, if_neg (not_not.mpr hrm)]
  have hsoft : softFixed (frameSsw fr) = false := decide_eq_false fun hsoft => hdf hsoft.2
  have hsplit := hf.split hdf hrm
  rw [← h.state1 hsoft] at hsplit
  refine (retryFaulted_same hp hp' hq hsplit hsame).mono ?_ fun s' t' hs' hb => (hs' hb).agree
  rintro - s' - t' ⟨-, hs'⟩
  exact hs'.agree

theorem rteFinish_agree (hr : RefillsSide q) (hf : RteFrame fr)
    (h : RteAgree (frameFormat fr = 0xB) s t) {E : Cpu030 M → Cpu030 M → Prop} :
    JointUnless (FillFault q) (fun _ s' _ t' => RteAgree (frameFormat fr = 0xB) s' t') E rteFinish s
      (rteFinishFill q (frameFormat fr)) t := by
  unfold rteFinish rteFinishFill
  rw [jointUnless_reads_bind_left, jointUnless_reads_bind_right, h.state1]
  by_cases hlast : s.latch.log.state1 &&& stateflag1Lastwrite ≠ 0
  case neg =>
    rw [if_neg hlast, if_neg hlast]
    exact .inl h
  rw [if_pos hlast, if_pos hlast]
  by_cases hA : frameFormat fr = 0xA
  · rw [if_neg (not_not.mpr hA)]
    exact .inl { h with retry := rfl }
  · rw [if_pos hA]
    have hB := hf.format.resolve_left hA
    let s₁ := mapWorld (fun w => { w with retry := false }) s
    let t₁ := mapLog (fun l => { l with opcode := -1 }) (mapWorld (fun w => { w with retry := false }) t)
    have h₁ : RteAgree (frameFormat fr = 0xB) s₁ t₁ := { h with retry := rfl }
    have hright : (do
        update (mapWorld fun w => { w with retry := false })
        update (mapLog fun l => { l with opcode := -1 })
        fillPrefetch030Ntx q : Run030 M Unit) t = fillPrefetch030Ntx q t₁ := rfl
    unfold JointUnless Joint
    rw [hright]
    obtain ⟨x, hx⟩ | ⟨code, t', ht', hx⟩ := fillPrefetch_side hr t₁
    case inr => exact .inr ⟨code, t', ht', hx⟩
    rw [hx]
    exact .inl (h₁.fill hB x)

/-- A format B frame: the instruction starts from its beginning. -/
theorem rteAfresh_agree (hr : RefillsSide q) (h : RteAgree (frameFormat fr = 0xB) s t)
    {E : Cpu030 M → Cpu030 M → Prop} :
    JointUnless (FillFault q) (fun _ s' _ t' => RteAgree (frameFormat fr = 0xB) s' t' ∧
        (frameFormat fr = 0xB → Restarted t')) E (pure ()) s (rteAfresh q (frameFormat fr)) t := by
  unfold rteAfresh
  by_cases hB : frameFormat fr = 0xB
  case neg =>
    rw [if_neg hB]
    exact .inl ⟨h, fun hn => (hB hn).elim⟩
  rw [if_pos hB]
  let t₁ := mapLog (fun l => { l with opcode := -1 }) t
  have h₁ : RteAgree (frameFormat fr = 0xB) s t₁ := { h with }
  have hright : (do
      update (mapLog fun l => { l with opcode := -1 })
      fillPrefetch030Ntx q : Run030 M Unit) t = fillPrefetch030Ntx q t₁ := rfl
  unfold JointUnless Joint
  rw [hright]
  obtain ⟨x, hx⟩ | ⟨code, t', ht', hx⟩ := fillPrefetch_side hr t₁
  case inr => exact .inr ⟨code, t', ht', hx⟩
  rw [hx]
  exact .inl ⟨h₁.fill hB x, fun _ => ⟨rfl, rfl⟩⟩

/-! ## The routines agree -/

/-- The address error of an odd program counter. -/
def rteAddressError (q : Port030 M) (p : Prefs) (pc : Long) : Run030 M Unit :=
  exception3ReadPrefetch (host030 q p fun _ => pure 0)
    (fun nr => exceptionX (host030 q p fun _ => pure 0) nr none) 0x4E73 pc 0

/-- Both routines leave the same, or meet the same fault when they make the access again, unless the
pipeline of the compatible core cannot be filled. A format B frame leaves the log of the compatible core
at its beginning. From states that agree they go on to the address error of an odd program counter. -/
def RtesAgree (q : Port030 M) (p p' : Prefs) (fr : Long → Byte) (a7 : Long) (c : Cpu030 M) : Prop :=
  if (frameLong fr 2).getLsbD 0 then
    ∃ c₁ c₂, RteAgree False c₁ c₂ ∧
      m68kDoRteMmu030 q p a7 c = rteAddressError q p (frameLong fr 2) c₁ ∧
      m68kDoRteMmu030c q p' a7 c = rteAddressError q p' (frameLong fr 2) c₂
  else
    JointUnless (FillFault q)
      (fun _ s _ t => RteAgree (frameFormat fr = 0xB) s t ∧ (frameFormat fr = 0xB → Restarted t))
      (fun s t => (frameSsw fr).getLsbD 0 = true → RteAgree False s t)
      (m68kDoRteMmu030 q p a7) c (m68kDoRteMmu030c q p' a7) c

end SideBySide

def compat68030 : Prefs := { mmu68030 with cpuCompatible := true }

/-- A format B frame with the special status word `$0355`: the read of a byte from the data space. -/
def frameRead (a : Long) : Byte := if a = 6 then 0xB0 else if a = 10 then 0x03 else if a = 11 then 0x55 else 0

theorem openPort_refillsSide : RefillsSide openPort := fun c => by
  obtain ⟨x, hx⟩ := Same.refl c
  exact .inl ⟨x, congrArg (Outcome.ret ()) hx⟩

/-- A format B frame whose handler has put stage B of the pipeline right. -/
def frameStageB (a : Long) : Byte := if a = 6 then 0xB0 else if a = 10 then 0x40 else 0

/-- The position of the log where a routine returns. -/
def idxDoneOf : Outcome (Cpu030 Unit) Unit → Option Nat
  | .ret _ c => some c.latch.log.idxDone
  | _ => none

theorem idxDone_of_joint {m m' : Run030 Unit Unit} {s t : Cpu030 Unit} {i j : Nat}
    (hm : idxDoneOf (m s) = some i) (hm' : idxDoneOf (m' t) = some j)
    (h : Joint (fun _ s _ t => RteAgree False s t) (fun _ _ => True) m s m' t) : j = i := by
  unfold Joint at h
  cases hs : m s <;> cases ht : m' t <;> rw [hs, ht] at h <;> rw [hs] at hm <;> rw [ht] at hm'
  case ret.ret =>
    rw [← Option.some.inj hm, ← Option.some.inj hm']
    exact h.idxDone id
  case thrown.thrown => cases hm
  all_goals exact h.elim

end UaeCpu.Restart
