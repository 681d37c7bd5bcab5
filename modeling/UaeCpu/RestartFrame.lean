import UaeCpu.Rte030

/-!
# UaeCpu.RestartFrame

What the accesses of a 68030 with MMU change, as two sets of conditions on a relation: `ReadRel`
for reads and `WriteRel` for writes. Every accessor below the access log stays within a relation
that meets them.
-/

namespace UaeCpu.Restart

open Fault FaultM

variable {M α : Type}

/-! ## One access -/

def setMmu (u : M) (c : Cpu030 M) : Cpu030 M := mapWorld (fun w => { w with mmu := u }) c

section Generic

variable {q : Port030 M} {p : Prefs} {addr fc a : Long} {size : AccessSize} {flags : Word} {u : M}
  {c : Cpu030 M}

theorem getGeneric_some
    (ht : q.translate false (flags &&& mmu030SswRm ≠ 0) fc addr c.world.mmu = (some a, u)) :
    mmu030GetGeneric q p addr fc size flags c =
      .ret (readMem size c.world.mem a) (setMmu u c) := by
  simp only [mmu030GetGeneric, reads_bind_apply, ht]
  rfl

theorem getGeneric_none
    (ht : q.translate false (flags &&& mmu030SswRm ≠ 0) fc addr c.world.mmu = (none, u)) :
    mmu030GetGeneric q p addr fc size flags c =
      .thrown 2 (notePageFault p addr true flags fc (setMmu u c)) := by
  simp only [mmu030GetGeneric, reads_bind_apply, ht]
  rfl

theorem putGeneric_some {val : Long}
    (ht : q.translate true (flags &&& mmu030SswRm ≠ 0) fc addr c.world.mmu = (some a, u)) :
    mmu030PutGeneric q p addr val fc size flags c =
      .ret () (mapWorld (fun w => { w with mem := writeMem size w.mem a val }) (setMmu u c)) := by
  simp only [mmu030PutGeneric, reads_bind_apply, ht]
  rfl

theorem putGeneric_none {val : Long}
    (ht : q.translate true (flags &&& mmu030SswRm ≠ 0) fc addr c.world.mmu = (none, u)) :
    mmu030PutGeneric q p addr val fc size flags c =
      .thrown 2 (notePageFault p addr false flags fc (setMmu u c)) := by
  simp only [mmu030PutGeneric, reads_bind_apply, ht]
  rfl

end Generic

/-! ## What accesses change -/

/-- The flags of `mmu030_state[1]` but for those of an access in parts. -/
def wholeFlags : Word := 0xFF03

def OnlySubaccess (f : Word → Word) : Prop := ∀ s, f s &&& wholeFlags = s &&& wholeFlags

theorem or_and_of_apart {x m : Word} (hx : x &&& m = 0) (s : Word) : (s ||| x) &&& m = s &&& m := by
  rw [BitVec.and_comm, BitVec.and_or_distrib_left, BitVec.and_comm m x, hx, BitVec.and_comm]
  exact BitVec.or_zero

theorem onlySubaccess_or {x : Word} (hx : x &&& wholeFlags = 0) : OnlySubaccess (· ||| x) := or_and_of_apart hx

theorem unalignInit_only (l l2 : Bool) : OnlySubaccess fun s => s ||| (if l2 then stateflag1Subaccessx else 0) |||
    (if l then stateflag1Subaccessl else 0) ||| stateflag1Subaccess0 := fun s => by
  beta_reduce
  rw [BitVec.or_assoc, BitVec.or_assoc]
  exact onlySubaccess_or (by cases l <;> cases l2 <;> decide) s

theorem unalignClear_only : OnlySubaccess (· &&& ~~~(stateflag1Subaccessl ||| stateflag1Subaccessx |||
    stateflag1Subaccess0 ||| stateflag1Subaccess1 ||| stateflag1Subaccess2 ||| stateflag1Subaccess3)) := fun s => by
  beta_reduce
  rw [BitVec.and_assoc]
  congr 1

theorem subAccesses_only (st : Word) : ∀ s ∈ subAccesses st, s.done &&& wholeFlags = 0 := by
  unfold subAccesses
  split
  · split <;> decide
  · decide

/-- The changes `R` allows cover what a read does to the CPU: the flags and the buffer of an
unaligned access, the state of the MMU, and the notes of a page fault. -/
structure ReadRel (R : Cpu030 M → Cpu030 M → Prop) : Prop where
  state1 : ∀ (f : Word → Word), OnlySubaccess f → ∀ c, R c (mapLog (fun l => { l with state1 := f l.state1 }) c)
  dataBufferOut : ∀ (f : Long → Long) c,
    R c (mapLog (fun l => { l with dataBufferOut := f l.dataBufferOut }) c)
  mmu : ∀ u c, R c (mapWorld (fun w => { w with mmu := u }) c)
  pageFault : ∀ p addr read flags fc c, R c (notePageFault p addr read flags fc c)

/-- .. and those of a write, which also changes memory. -/
structure WriteRel (R : Cpu030 M → Cpu030 M → Prop) : Prop extends ReadRel R where
  mem : ∀ (f : (Long → Byte) → Long → Byte) c, R c (mapWorld (fun w => { w with mem := f w.mem }) c)

variable {R : Cpu030 M → Cpu030 M → Prop}

namespace ReadRel

variable (hr : ReadRel R)
include hr

theorem setState1_stays {f : Word → Word} (hf : OnlySubaccess f) : Stays R (setState1 f : Run030 M Unit) :=
  hr.state1 f hf

theorem setDataBufferOut_stays (f : Long → Long) :
    Stays R (setDataBufferOut f : Run030 M Unit) := hr.dataBufferOut f

theorem unalignInit_stays (l l2 : Bool) : Stays R (unalignInit l l2 : Run030 M Unit) :=
  hr.setState1_stays (unalignInit_only l l2)

theorem unalignSet_stays {i : Nat} (hi : ((1 <<< i) <<< 3 : Word) &&& wholeFlags = 0) :
    Stays R (unalignSet i : Run030 M Unit) := hr.setState1_stays (onlySubaccess_or hi)

theorem unalignClear_stays : Stays R (unalignClear : Run030 M Unit) := hr.setState1_stays unalignClear_only

variable [Std.Refl R] [IsTrans (Cpu030 M) R] (q : Port030 M) (p : Prefs)

theorem mmu030PageFault_stays (addr : Long) (read : Bool) (flags : Word) (fc : Long) :
    Stays R (mmu030PageFault p addr read flags fc : Run030 M α) :=
  .update_bind (fun c => hr.pageFault p addr read flags fc c) fun c => Std.Refl.refl c

theorem getGeneric_stays (addr fc : Long) (size : AccessSize) (flags : Word) :
    Stays R (mmu030GetGeneric q p addr fc size flags) := by
  refine .reads_bind fun w => .update_bind (fun c => hr.mmu _ c) ?_
  cases (q.translate false (flags &&& mmu030SswRm ≠ 0) fc addr w.mmu).1 with
  | some a => exact .reads _
  | none => exact hr.mmu030PageFault_stays p addr true flags fc

theorem getWordUnaligned_stays (addr fc : Long) (flags : Word) :
    Stays R (mmu030GetWordUnaligned q p addr fc flags) :=
  .bind (hr.unalignInit_stays _ _) fun _ => .bind (hr.getGeneric_stays q p _ _ _ _) fun _ =>
    .bind (hr.setDataBufferOut_stays _) fun _ => .bind (hr.unalignSet_stays (by decide)) fun _ =>
    .bind (hr.getGeneric_stays q p _ _ _ _) fun _ => .bind (hr.setDataBufferOut_stays _) fun _ =>
    .bind hr.unalignClear_stays fun _ => .reads _

theorem getLongUnaligned_stays (addr fc : Long) (flags : Word) :
    Stays R (mmu030GetLongUnaligned q p addr fc flags) := by
  have hend : Stays R (do unalignClear; reads (·.latch.log.dataBufferOut) : Run030 M Long) :=
    .bind hr.unalignClear_stays fun _ => .reads _
  refine .ite (fun _ => ?_) fun _ => ?_
  · exact .bind (hr.unalignInit_stays _ _) fun _ =>
      .bind (hr.getGeneric_stays q p _ _ _ _) fun _ =>
      .bind (hr.setDataBufferOut_stays _) fun _ => .bind (hr.unalignSet_stays (by decide)) fun _ =>
      .bind (hr.getGeneric_stays q p _ _ _ _) fun _ =>
      .bind (hr.setDataBufferOut_stays _) fun _ =>
      hend
  · exact .bind (hr.unalignInit_stays _ _) fun _ =>
      .bind (hr.getGeneric_stays q p _ _ _ _) fun _ =>
      .bind (hr.setDataBufferOut_stays _) fun _ => .bind (hr.unalignSet_stays (by decide)) fun _ =>
      .bind (hr.getGeneric_stays q p _ _ _ _) fun _ =>
      .bind (hr.setDataBufferOut_stays _) fun _ =>
      .bind (hr.unalignSet_stays (by decide)) fun _ => .bind (hr.getGeneric_stays q p _ _ _ _) fun _ =>
      .bind (hr.setDataBufferOut_stays _) fun _ => hend

theorem getFcx_stays (size : AccessSize) (addr fc : Long) (rm : Word) :
    Stays R (mmu030GetFcx q p size addr fc rm) := by
  refine .ite (fun _ => ?_) fun _ => hr.getGeneric_stays q p _ _ _ _
  cases size with
  | long => exact hr.getLongUnaligned_stays q p addr fc rm
  | _ => exact hr.getWordUnaligned_stays q p addr fc rm

theorem uaeMmu030Get_stays (size : AccessSize) (addr : Long) :
    Stays R (uaeMmu030Get q p size addr) := .reads_bind fun _ => hr.getFcx_stays q p _ _ _ _

theorem uaeMmu030GetIword_stays (addr : Long) : Stays R (uaeMmu030GetIword q p addr) :=
  .reads_bind fun _ => hr.getGeneric_stays q p _ _ _ _

theorem uaeMmu030GetIlong_stays (addr : Long) : Stays R (uaeMmu030GetIlong q p addr) :=
  .ite
    (fun _ => .bind (hr.uaeMmu030GetIword_stays q p _) fun _ =>
      .bind (hr.uaeMmu030GetIword_stays q p _) fun _ => .pure _)
    fun _ => .reads_bind fun _ => hr.getGeneric_stays q p _ _ _ _

theorem getWordMmu030_stays (a : Long) : Stays R (getWordMmu030 q p a) :=
  .bind (hr.uaeMmu030Get_stays q p _ _) fun _ => .pure _

theorem readParts_stays (fc : Long) (st : Word) :
    ∀ (xs : List SubAccess) (addr : Long), (∀ s ∈ xs, s.done &&& wholeFlags = 0) →
      Stays R (readParts q p fc st xs addr)
  | [], _, _ => .pure ()
  | s :: rest, _, hs =>
    .ite
      (fun _ => .bind (hr.setDataBufferOut_stays _) fun _ =>
        .bind (hr.getGeneric_stays q p _ _ _ _) fun _ =>
        .bind (hr.setDataBufferOut_stays _) fun _ =>
        .bind (hr.setState1_stays (onlySubaccess_or (hs s List.mem_cons_self))) fun _ =>
        readParts_stays fc st rest _ fun x hx => hs x (List.mem_cons_of_mem s hx))
      fun _ => readParts_stays fc st rest _ fun x hx => hs x (List.mem_cons_of_mem s hx)

end ReadRel

namespace WriteRel

variable [Std.Refl R] [IsTrans (Cpu030 M) R] (hw : WriteRel R) (q : Port030 M) (p : Prefs)
include hw

theorem putGeneric_stays (addr val fc : Long) (size : AccessSize) (flags : Word) :
    Stays R (mmu030PutGeneric q p addr val fc size flags) := by
  refine .reads_bind fun w => .update_bind (fun c => hw.mmu _ c) ?_
  cases (q.translate true (flags &&& mmu030SswRm ≠ 0) fc addr w.mmu).1 with
  | some a => exact .update (hw.mem fun mem => writeMem size mem a val)
  | none => exact hw.mmu030PageFault_stays p addr false flags fc

theorem putWordUnaligned_stays (addr val fc : Long) (flags : Word) :
    Stays R (mmu030PutWordUnaligned q p addr val fc flags) :=
  .bind (hw.unalignInit_stays _ _) fun _ => .bind (hw.putGeneric_stays q p _ _ _ _ _) fun _ =>
    .bind (hw.unalignSet_stays (by decide)) fun _ => .bind (hw.putGeneric_stays q p _ _ _ _ _) fun _ =>
    hw.unalignClear_stays

theorem putLongUnaligned_stays (addr val fc : Long) (flags : Word) :
    Stays R (mmu030PutLongUnaligned q p addr val fc flags) := by
  refine .ite (fun _ => ?_) fun _ => ?_
  · exact .bind (hw.unalignInit_stays _ _) fun _ =>
      .bind (hw.putGeneric_stays q p _ _ _ _ _) fun _ =>
      .bind (hw.unalignSet_stays (by decide)) fun _ => .bind (hw.putGeneric_stays q p _ _ _ _ _) fun _ =>
      hw.unalignClear_stays
  · exact .bind (hw.unalignInit_stays _ _) fun _ =>
      .bind (hw.putGeneric_stays q p _ _ _ _ _) fun _ =>
      .bind (hw.unalignSet_stays (by decide)) fun _ => .bind (hw.putGeneric_stays q p _ _ _ _ _) fun _ =>
      .bind (hw.unalignSet_stays (by decide)) fun _ => .bind (hw.putGeneric_stays q p _ _ _ _ _) fun _ =>
      hw.unalignClear_stays

theorem putFcx_stays (size : AccessSize) (addr val fc : Long) (rm : Word) :
    Stays R (mmu030PutFcx q p size addr val fc rm) := by
  refine .ite (fun _ => ?_) fun _ => hw.putGeneric_stays q p _ _ _ _ _
  cases size with
  | long => exact hw.putLongUnaligned_stays q p addr val fc rm
  | _ => exact hw.putWordUnaligned_stays q p addr val fc rm

theorem uaeMmu030Put_stays (size : AccessSize) (addr val : Long) :
    Stays R (uaeMmu030Put q p size addr val) :=
  .reads_bind fun _ => hw.putFcx_stays q p _ _ _ _ _

theorem writeParts_stays (fc : Long) (st : Word) :
    ∀ (xs : List SubAccess) (addr : Long), (∀ s ∈ xs, s.done &&& wholeFlags = 0) →
      Stays R (writeParts q p fc st xs addr)
  | [], _, _ => .pure ()
  | s :: rest, _, hs =>
    .ite
      (fun _ => .reads_bind fun _ => .bind (hw.putGeneric_stays q p _ _ _ _ _) fun _ =>
        .bind (hw.setState1_stays (onlySubaccess_or (hs s List.mem_cons_self))) fun _ =>
        writeParts_stays fc st rest _ fun x hx => hs x (List.mem_cons_of_mem s hx))
      fun _ => writeParts_stays fc st rest _ fun x hx => hs x (List.mem_cons_of_mem s hx)

theorem retryAccess_stays (ssw : Word) (addr : Long) :
    Stays R (retryAccess q p ssw addr) := by
  refine .reads_bind fun st => .ite (fun _ => ?_) fun _ => ?_
  · refine .ite (fun _ => ?_) fun _ => ?_
    · exact .reads_bind fun st => .bind (hw.readParts_stays q p _ _ _ _ (subAccesses_only _)) fun _ =>
        hw.unalignClear_stays
    · exact .ite
        (fun _ => .bind (hw.getGeneric_stays q p _ _ _ _) fun _ => hw.setDataBufferOut_stays _)
        fun _ => .bind (hw.getFcx_stays q p _ _ _ _) fun _ => hw.setDataBufferOut_stays _
  · refine .reads_bind fun v => .ite (fun _ => ?_) fun _ => ?_
    · exact .reads_bind fun st => .bind (hw.writeParts_stays q p _ _ _ _ (subAccesses_only _)) fun _ =>
        hw.unalignClear_stays
    · exact .ite (fun _ => hw.putGeneric_stays q p _ _ _ _ _) fun _ =>
        hw.putFcx_stays q p _ _ _ _ _

end WriteRel

end UaeCpu.Restart
