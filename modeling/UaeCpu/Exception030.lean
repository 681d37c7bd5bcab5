import UaeCpu.Exception

/-!
# UaeCpu.Exception030

What an exception of a 68030 with MMU changes: registers and latches, the stack through the port,
and nothing else. `Exceptional` says it of any relation that allows these.
-/

namespace UaeCpu

open Fault FaultM

variable {μ α : Type}

/-- Neither the world behind the bus nor the counters of the access log have changed. -/
structure WorldKept (c c' : Cpu μ) : Prop where
  world : c'.world = c.world
  idx : c'.latch.log.idx = c.latch.log.idx
  idxDone : c'.latch.log.idxDone = c.latch.log.idxDone

/-- The changes `R` allows cover what a 68030 with MMU does in an exception: its own state, and the
ways out of the core. -/
structure Exceptional (h : Host μ) (R : Cpu μ → Cpu μ → Prop) : Prop where
  model : h.prefs.cpuModel = .m68030
  mmu : h.prefs.mmuModel = true
  kept : ∀ c c', WorldKept c c' → R c c'
  getLong : ∀ a, Stays R (h.port.getLong a)
  putLong : ∀ a v, Stays R (h.port.putLong a v)
  putWord : ∀ a v, Stays R (h.port.putWord a v)
  fillPrefetch : Stays R h.port.fillPrefetch
  intAck : ∀ m, h.intAck = some m → ∀ l, Stays R (m l)
  trap : ∀ m, h.trap = some m → ∀ n, Stays R (m n)
  exception : ∀ m, h.exception = some m → ∀ i, Stays R (m i)

namespace Exceptional

variable {h : Host μ} {R : Cpu μ → Cpu μ → Prop} [Std.Refl R] [IsTrans (Cpu μ) R]
  (hr : Exceptional h R)
include hr

theorem update {f : Cpu μ → Cpu μ} (hf : ∀ c, WorldKept c (f c)) : Stays R (update f) :=
  fun c => hr.kept c (f c) (hf c)

theorem update_bind {g : Cpu μ → Cpu μ} {f : Unit → FaultM (Cpu μ) α}
    (hg : ∀ c, WorldKept c (g c)) (hf : Stays R (f ())) : Stays R (FaultM.update g >>= f) :=
  .update_bind (fun c => hr.kept c (g c) (hg c)) hf

theorem pushWord (v : Word) : Stays R (pushWord h v) :=
  hr.update_bind (fun _ => ⟨rfl, rfl, rfl⟩) (.reads_bind fun a => hr.putWord a v)

theorem pushLong (v : Long) : Stays R (pushLong h v) :=
  hr.update_bind (fun _ => ⟨rfl, rfl, rfl⟩) (.reads_bind fun a => hr.putLong a v)

theorem pushAll : ∀ xs : List Push, Stays R (pushAll h xs)
  | [] => .pure ()
  | x :: xs => by
    refine .bind ?_ fun _ => pushAll xs
    cases x with
    | word v => exact hr.pushWord v
    | long v => exact hr.pushLong v
    | skip => exact hr.update fun _ => ⟨rfl, rfl, rfl⟩
    | clearWb2 => exact hr.update fun _ => ⟨rfl, rfl, rfl⟩
    | clearWb3 => exact hr.update fun _ => ⟨rfl, rfl, rfl⟩

theorem buildStackFrame (oldpc currpc ssw : Long) (nr : Nat) (f : FrameFormat) :
    Stays R (exceptionBuildStackFrame h oldpc currpc ssw nr f) := by
  simp only [exceptionBuildStackFrame]
  have hrest : Stays R (do
      let c ← reads id
      UaeCpu.pushAll h (frameBody oldpc ssw c.regs.irc c.latch f ++
        frameTail currpc c.regs.sr nr f)) := .reads_bind fun c => hr.pushAll _
  split
  · exact hr.update_bind (fun _ => ⟨rfl, rfl, rfl⟩) hrest
  · exact hrest

theorem buildStackFrameCommon (oldpc currpc : Long) (nr vectorNr : Nat) :
    Stays R (exceptionBuildStackFrameCommon h oldpc currpc nr vectorNr) := by
  have hb := fun a b d n f => hr.buildStackFrame a b d n f
  simp only [exceptionBuildStackFrameCommon]
  refine .reads_bind fun c => ?_
  refine .ite (fun _ => hb _ _ _ _ _) fun _ => .ite (fun _ => hb _ _ _ _ _) fun _ => ?_
  refine .ite (fun _ => ?_) fun _ => .ite (fun _ => ?_) fun _ => hb _ _ _ _ _
  · exact .ite (fun _ => .ite (fun _ => hb _ _ _ _ _) fun _ => hb _ _ _ _ _)
      fun _ => .ite (fun _ => hb _ _ _ _ _) fun _ => hb _ _ _ _ _
  · exact hr.update_bind (fun _ => ⟨rfl, rfl, rfl⟩)
      (.ite (fun _ => hb _ _ _ _ _) fun _ => hb _ _ _ _ _)

theorem iackCycle (nr : Nat) : Stays R (iackCycle h nr) := by
  simp only [UaeCpu.iackCycle]
  split
  · rename_i hook hg
    exact .bind (hr.intAck hook hg _) fun _ => .pure _
  · exact .pure _

/-- The vector of an exception, before something else. -/
theorem vectorNr {nr : Nat} {f : Nat → FaultM (Cpu μ) α} (hf : ∀ vec, Stays R (f vec)) :
    Stays R (if isInterrupt nr = true then UaeCpu.iackCycle h nr >>= f else pure nr >>= f) :=
  .ite (fun _ => .bind (hr.iackCycle nr) hf) fun _ => .bind (.pure nr) hf

section Nested

variable {nested : Nat → FaultM (Cpu μ) Unit} (hne : ∀ n, Stays R (nested n))
include hne

theorem exception3f (op addr : Long) (w i ni : Bool) (pc : Option Long) (size : Int)
    (fc : Option Word) (sr : Word) :
    Stays R (exception3f h nested op addr w i ni pc size fc sr) :=
  hr.update_bind (fun _ => ⟨rfl, rfl, rfl⟩) (hne 3)

theorem exception3ReadPrefetch (op addr : Long) (sr : Word) :
    Stays R (exception3ReadPrefetch h nested op addr sr) := by
  refine hr.update_bind (fun c => ?_) (hr.update_bind (fun _ => ⟨rfl, rfl, rfl⟩) ?_)
  · simp only [Cpu.xDoCycles]
    split <;> exact ⟨rfl, rfl, rfl⟩
  · rw [hr.model]
    exact .reads_bind fun pc => hr.exception3f hne _ _ _ _ _ _ _ _ _

theorem exceptionMmu030 (nr : Nat) (oldpc : Long) :
    Stays R (exceptionMmu030 h nested nr oldpc) := by
  have hb := fun a b d n f => hr.buildStackFrame a b d n f
  refine .reads_bind fun pc => hr.vectorNr fun vec => hr.update_bind (fun _ => ⟨rfl, rfl, rfl⟩)
    (hr.update_bind (fun _ => ⟨rfl, rfl, rfl⟩)
      (.reads_bind fun c => .bind (hr.getLong _) fun newpc => ?_))
  extract_lets _ jp
  have hend : Stays R (do
      FaultM.update fun c => c.mapRegs fun r => r.setpc newpc
      h.port.fillPrefetch
      FaultM.update fun c => c.mapRegs (exceptionCheckTrace h.prefs nr)) :=
    hr.update_bind (fun _ => ⟨rfl, rfl, rfl⟩) (.bind hr.fillPrefetch fun _ =>
      hr.update fun _ => ⟨rfl, rfl, rfl⟩)
  have hjp : ∀ u, Stays R (jp u) := fun u =>
    .ite (fun _ => .ite (fun _ => .pure _) fun _ => hr.exception3f hne _ _ _ _ _ _ _ _ _)
      fun _ => .ite (fun _ => hr.update_bind (fun _ => ⟨rfl, rfl, rfl⟩) hend) fun _ => hend
  refine .ite (fun _ => ?_) fun _ => .ite (fun _ => ?_) fun _ => .ite (fun _ => ?_) fun _ => ?_
  · exact .bind (hb _ _ _ _ _) fun _ => hr.update_bind (fun _ => ⟨rfl, rfl, rfl⟩)
      (hr.update_bind (fun _ => ⟨rfl, rfl, rfl⟩) (.bind (hb _ _ _ _ _) hjp))
  · exact .bind (hb _ _ _ _ _) hjp
  · exact hr.update_bind (fun _ => ⟨rfl, rfl, rfl⟩) (.bind (hb _ _ _ _ _) hjp)
  · exact .bind (hr.buildStackFrameCommon _ _ _ _) hjp

theorem exceptionXWith (nr : Nat) (oldpc : Option Long) :
    Stays R (exceptionXWith h nested nr oldpc) := by
  have hengine : Stays R (exceptionEngine h nested nr) := by
    refine .ite (fun hce => ?_) fun _ => .ite (fun _ => .reads_bind fun pc => ?_) fun hmmu => ?_
    · rw [hr.model] at hce
      exact absurd hce.2 (by decide)
    · exact .ite (fun _ => hr.exceptionMmu030 hne nr pc) fun hm => absurd hr.model hm
    · exact absurd hr.mmu hmmu
  have hbody : Stays R (exceptionXBody h nested nr oldpc) := by
    refine .reads_bind fun c => .bind ?_ fun _ => hr.update_bind (fun _ => ⟨rfl, rfl, rfl⟩)
      (hr.update_bind (fun _ => ⟨rfl, rfl, rfl⟩) (.bind hengine fun _ =>
        hr.update fun _ => ⟨rfl, rfl, rfl⟩))
    simp only [noteException]
    split
    · rename_i hook hg
      exact hr.update_bind (fun _ => ⟨rfl, rfl, rfl⟩)
        (.reads_bind fun c => hr.exception hook hg _)
    · exact .pure ()
  simp only [UaeCpu.exceptionXWith]
  split
  · rename_i hook hg
    refine .ite (fun _ => .bind (hr.trap hook hg _) fun b => ?_) fun _ => hbody
    exact .ite (fun _ => hr.fillPrefetch) fun _ => hbody
  · exact hbody

end Nested

theorem exceptionX (nr : Nat) (oldpc : Option Long) : Stays R (exceptionX h nr oldpc) :=
  hr.exceptionXWith (fun n => hr.exceptionXWith (fun _ => .pure ()) n none) nr oldpc

end Exceptional

end UaeCpu
