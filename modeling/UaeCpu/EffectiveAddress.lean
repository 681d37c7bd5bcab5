import UaeCpu.Restart030
import UaeCpu.Lib.Replay
import UaeCpu.Lib.Paged

/-!
# UaeCpu.EffectiveAddress

The decoders of the 68020's indexed addressing modes.

* `ea`                 — the address an extension word stands for, the words it takes, what it reads.
* `getDispEa020`, ..   — the decoders of the plain cores, one fetch function each.
* `eaTree`             — what every decoder asks for.
* `dispEa020_settles`  — the plain decoders.
-/

namespace UaeCpu.Restart.Ea

open Fault FaultM

/-! ## The address -/

section Formula

variable (regs : BitVec 4 → Long) (mem : Long → Long) (stream : Nat → Word)

/-- The displacement of size `s` at word `pos`, and the words it takes. -/
def displacement (pos : Nat) (s : Word) : Long × Nat :=
  if s = 2 then ((stream pos).signExtend 32, 1)
  else if s = 3 then (stream pos ++ stream (pos + 1), 2)
  else (0, 0)

def scale (dp : Word) : Long :=
  match ((dp >>> 9) &&& 3).toNat with
  | 0 => 1
  | 1 => 2
  | 2 => 4
  | _ => 8

/-- The index register, as a word or a long. -/
def index (dp : Word) : Long :=
  let x := regs (dp.extractLsb' 12 4)
  (if dp &&& 0x800 = 0 then (x.setWidth 16).signExtend 32 else x) * scale dp

structure Address where
  addr : Long
  words : Nat
  reads : List Long
  deriving DecidableEq, Repr

/-- The full format: base, index and either indirection may be left out. -/
def fullEa (base : Long) : Address :=
  let dp := stream 0
  let b := if dp &&& 0x80 ≠ 0 then 0 else base
  let x := if dp &&& 0x40 ≠ 0 then 0 else index regs dp
  let (bd, n) := displacement stream 1 ((dp &&& 0x30) >>> 4)
  let (od, k) := displacement stream (1 + n) (dp &&& 3)
  let words := 1 + n + k
  if dp &&& 3 = 0 then { addr := b + bd + x + od, words := words, reads := [] }
  else if dp &&& 4 = 0 then { addr := mem (b + bd + x) + od, words := words, reads := [b + bd + x] }
  else { addr := mem (b + bd) + x + od, words := words, reads := [b + bd] }

def ea (base : Long) : Address :=
  let dp := stream 0
  if dp &&& 0x100 ≠ 0 then fullEa regs mem stream base
  else { addr := base + (dp.setWidth 8).signExtend 32 + index regs dp, words := 1, reads := [] }

end Formula

section Bounds

variable {regs : BitVec 4 → Long} {mem : Long → Long} {stream : Nat → Word}

theorem displacement_le (pos : Nat) (s : Word) : (displacement stream pos s).2 ≤ 2 := by
  rw [displacement]
  split
  · exact Nat.le_succ 1
  · split
    · exact Nat.le_refl 2
    · exact Nat.zero_le 2

theorem ea_words_le (base : Long) : (ea regs mem stream base).words ≤ 5 := by
  have hbd : (displacement stream 1 ((stream 0 &&& 0x30) >>> 4)).2 ≤ 2 := displacement_le _ _
  have hod : (displacement stream (1 + (displacement stream 1 ((stream 0 &&& 0x30) >>> 4)).2) (stream 0 &&& 3)).2 ≤ 2 :=
    displacement_le _ _
  simp only [ea, fullEa]
  split
  · split
    · change 1 + _ + _ ≤ 5
      omega
    · split
      all_goals
        change 1 + _ + _ ≤ 5
        omega
  · change 1 ≤ 5
    decide

/-- Memory is read at most once. -/
theorem ea_reads_le (base : Long) : (ea regs mem stream base).reads.length ≤ 1 := by
  simp only [ea, fullEa]
  split
  · split
    · exact Nat.zero_le 1
    · split <;> exact Nat.le_refl 1
  · exact Nat.zero_le 1

end Bounds

/-! ## The plain decoders -/

/-- What a decoder fetches its words and reads memory with. -/
structure Fetch (σ : Type) where
  nextIword : FaultM σ Long
  nextIlong : FaultM σ Long
  getLong : Long → FaultM σ Long

/-- The fetch functions of the cores. -/
structure Fetches (σ : Type) where
  nextDiword : FaultM σ Long
  nextDilong : FaultM σ Long
  getLong : Long → FaultM σ Long
  xNextIword : FaultM σ Long
  xNextIlong : FaultM σ Long
  xGetLong : Long → FaultM σ Long
  nextIword030ce : FaultM σ Long
  nextIlong030ce : FaultM σ Long
  nextIword020ce : FaultM σ Long
  nextIlong020ce : FaultM σ Long
  nextIwordCache040 : FaultM σ Long
  nextIlongCache040 : FaultM σ Long

variable {μ M : Type}

section Decoders

/-- What a decoder does behind the extension word. -/
def extEa (f : Fetch (Cpu μ)) (r : Regs) (dp : Word) (base : Long) : FaultM (Cpu μ) Long :=
  let regd := reg16 r (dp.extractLsb' 12 4)
  let regd := if dp &&& 0x800 = 0 then (regd.setWidth 16).signExtend 32 else regd
  let regd := regd <<< ((dp >>> 9) &&& 3)
  if dp &&& 0x100 ≠ 0 then do
    let base := if dp &&& 0x80 ≠ 0 then 0 else base
    let regd := if dp &&& 0x40 ≠ 0 then 0 else regd
    let base ← if dp &&& 0x30 = 0x20 then do
        let v ← f.nextIword
        pure (base + (v.setWidth 16).signExtend 32)
      else pure base
    let base ← if dp &&& 0x30 = 0x30 then do
        let v ← f.nextIlong
        pure (base + v)
      else pure base
    let outer ← if dp &&& 3 = 2 then do
        let v ← f.nextIword
        pure ((v.setWidth 16).signExtend 32)
      else pure (0 : Long)
    let outer ← if dp &&& 3 = 3 then f.nextIlong else pure outer
    let base := if dp &&& 4 = 0 then base + regd else base
    let base ← if dp &&& 3 ≠ 0 then f.getLong base else pure base
    let base := if dp &&& 4 ≠ 0 then base + regd else base
    pure (base + outer)
  else pure (base + (dp.setWidth 8).signExtend 32 + regd)

def dispEa020 (f : Fetch (Cpu μ)) (base : Long) : FaultM (Cpu μ) Long := do
  let v ← f.nextIword
  let r ← reads (·.regs)
  extEa f r (v.setWidth 16) base

variable (f : Fetches (Cpu μ))

/-- `get_disp_ea_020`. -/
def getDispEa020 : Long → FaultM (Cpu μ) Long := dispEa020 ⟨f.nextDiword, f.nextDilong, f.getLong⟩

/-- `x_get_disp_ea_020`. -/
def xGetDispEa020 : Long → FaultM (Cpu μ) Long := dispEa020 ⟨f.xNextIword, f.xNextIlong, f.xGetLong⟩

/-- `x_get_disp_ea_ce030`. -/
def xGetDispEaCe030 : Long → FaultM (Cpu μ) Long := dispEa020 ⟨f.nextIword030ce, f.nextIlong030ce, f.xGetLong⟩

/-- `x_get_disp_ea_ce020`. -/
def xGetDispEaCe020 : Long → FaultM (Cpu μ) Long := dispEa020 ⟨f.nextIword020ce, f.nextIlong020ce, f.xGetLong⟩

/-- `x_get_disp_ea_040`. -/
def xGetDispEa040 : Long → FaultM (Cpu μ) Long := dispEa020 ⟨f.nextIwordCache040, f.nextIlongCache040, f.xGetLong⟩

end Decoders

/-! ## What they ask for -/

inductive Ask where
  | iword
  | ilong
  | long (a : Long)
  deriving DecidableEq, Repr

/-- The words of the instruction a question takes. -/
def Ask.words : Ask → Nat
  | .iword => 1
  | .ilong => 2
  | .long _ => 0

def words (done : List Ask) : Nat := (done.map Ask.words).sum

def Ask.read : Ask → Option Long
  | .long a => some a
  | _ => none

/-- The addresses in memory that were read. -/
def readsOf (done : List Ask) : List Long := done.filterMap Ask.read

/-- The answer to a question after others. -/
def answer (mem : Long → Long) (stream : Nat → Word) (i : Ask) (done : List Ask) : Long × List Ask :=
  (match i with
    | .iword => (stream (words done)).setWidth 32
    | .ilong => stream (words done) ++ stream (words done + 1)
    | .long a => mem a,
   done ++ [i])

section Trees

variable (long : Tree Ask Long Long)

/-- `long` fetches a long. -/
def dispTree (s : Word) : Tree Ask Long (Long × Word) := do
  if s = 2 then
    let v ← Tree.query .iword
    pure ((v.setWidth 16).signExtend 32, 1)
  else if s = 3 then
    let v ← long
    pure (v, 2)
  else pure (0, 0)

def fullTree (dp : Word) (base regd : Long) : Tree Ask Long (Long × Word) := do
  let base := if dp &&& 0x80 ≠ 0 then 0 else base
  let regd := if dp &&& 0x40 ≠ 0 then 0 else regd
  let (disp, n) ← dispTree long ((dp &&& 0x30) >>> 4)
  let (outer, k) ← dispTree long (dp &&& 3)
  let base := base + disp + if dp &&& 4 = 0 then regd else 0
  let base ← if dp &&& 3 ≠ 0 then Tree.query (.long base) else pure base
  pure (base + (if dp &&& 4 ≠ 0 then regd else 0) + outer, 1 + n + k)

def extTree (regs : BitVec 4 → Long) (dp : Word) (base : Long) : Tree Ask Long (Long × Word) :=
  let regd := regs (dp.extractLsb' 12 4)
  let regd := if dp &&& 0x800 = 0 then (regd.setWidth 16).signExtend 32 else regd
  let regd := regd <<< ((dp >>> 9) &&& 3)
  if dp &&& 0x100 ≠ 0 then fullTree long dp base regd
  else pure (base + (dp.setWidth 8).signExtend 32 + regd, 1)

def eaTree (regs : BitVec 4 → Long) (base : Long) : Tree Ask Long (Long × Word) := do
  let dp ← Tree.query .iword
  extTree long regs (dp.setWidth 16) base

end Trees

/-- A long of the instruction, fetched in one. -/
def oneLong : Tree Ask Long Long := Tree.query .ilong

/-- .. or as two words. -/
def twoWords : Tree Ask Long Long := do
  let hi ← Tree.query .iword
  let lo ← Tree.query .iword
  pure ((hi <<< 16) ||| (lo &&& 0xFFFF))

/-! ## What the answers come to -/

section Answers

variable {regs : BitVec 4 → Long} {mem : Long → Long} {stream : Nat → Word} {done : List Ask} {long : Tree Ask Long Long}

/-- After `done`, the tree ends in `b`, with `n` more words fetched and `rs` read. -/
def Gives (mem : Long → Long) (stream : Nat → Word) {β : Type} (t : Tree Ask Long β) (done : List Ask) (b : β) (n : Nat)
    (rs : List Long) : Prop :=
  ∃ done', t.run (answer mem stream) done = (b, done') ∧ words done' = words done + n ∧
    readsOf done' = readsOf done ++ rs

theorem words_append (done : List Ask) (i : Ask) : words (done ++ [i]) = words done + i.words := by
  simp [words]

theorem readsOf_append (done : List Ask) (i : Ask) : readsOf (done ++ [i]) = readsOf done ++ i.read.toList := by
  cases i <;> simp [readsOf, Ask.read]

theorem gives_pure {β : Type} (b : β) : Gives mem stream (pure b) done b 0 [] :=
  ⟨done, rfl, rfl, (List.append_nil _).symm⟩

theorem gives_iword : Gives mem stream (Tree.query .iword) done ((stream (words done)).setWidth 32) 1 [] :=
  ⟨_, rfl, words_append done .iword, readsOf_append done .iword⟩

theorem gives_ilong : Gives mem stream (Tree.query .ilong) done (stream (words done) ++ stream (words done + 1)) 2 [] :=
  ⟨_, rfl, words_append done .ilong, readsOf_append done .ilong⟩

theorem Gives.bind {β γ : Type} {t : Tree Ask Long β} {f : β → Tree Ask Long γ} {b : β} {c : γ} {n k m : Nat}
    {rs rs' rs'' : List Long} (h : Gives mem stream t done b n rs)
    (hf : ∀ done', words done' = words done + n → Gives mem stream (f b) done' c k rs') (hn : m = n + k)
    (hrs : rs'' = rs ++ rs') : Gives mem stream (t >>= f) done c m rs'' := by
  obtain ⟨done', hrun, hwords, hreads⟩ := h
  obtain ⟨done'', hrun', hwords', hreads'⟩ := hf done' hwords
  refine ⟨done'', ?_, by rw [hwords', hwords, hn, Nat.add_assoc], by rw [hreads', hreads, hrs, List.append_assoc]⟩
  rw [Tree.run_bind, hrun]
  exact hrun'

/-- Either way to fetch a long. -/
def FetchesLong (long : Tree Ask Long Long) : Prop :=
  ∀ mem stream done, Gives mem stream long done (stream (words done) ++ stream (words done + 1)) 2 []

theorem oneLong_fetches : FetchesLong oneLong := fun _ _ _ => gives_ilong

theorem two_words (hi lo : Word) :
    (hi.setWidth 32 : Long) <<< 16 ||| ((lo.setWidth 32 : Long) &&& 0xFFFF) = hi ++ lo := by
  have hlow : (lo.setWidth 32 : Long) &&& 0xFFFF = lo.setWidth 32 := by
    refine BitVec.eq_of_toNat_eq ?_
    rw [BitVec.toNat_and]
    exact (Nat.and_two_pow_sub_one_eq_mod _ 16).trans (Nat.mod_eq_of_lt (by simp; omega))
  rw [hlow, Paged.long_words]

theorem twoWords_fetches : FetchesLong twoWords := by
  intro mem stream done
  refine gives_iword.bind (k := 1) (fun done' hw => gives_iword.bind (k := 0) (fun done'' _ => ?_) rfl rfl) rfl rfl
  rw [hw, two_words]
  exact gives_pure _

theorem dispTree_gives (hl : FetchesLong long) (s : Word) :
    Gives mem stream (dispTree long s) done
      ((displacement stream (words done) s).1, BitVec.ofNat 16 (displacement stream (words done) s).2)
      (displacement stream (words done) s).2 [] := by
  rw [dispTree, displacement]
  by_cases hword : s = 2
  · rw [if_pos hword, if_pos hword]
    have htrunc : ((stream (words done)).setWidth 32 : Long).setWidth 16 = stream (words done) := by simp
    refine gives_iword.bind (k := 0) (fun _ _ => ?_) rfl rfl
    rw [htrunc]
    exact gives_pure _
  · rw [if_neg hword, if_neg hword]
    by_cases hlong : s = 3
    · rw [if_pos hlong, if_pos hlong]
      exact (hl mem stream done).bind (k := 0) (fun _ _ => gives_pure _) rfl rfl
    · rw [if_neg hlong, if_neg hlong]
      exact gives_pure _

theorem scale_shift (x : Long) (dp : Word) : x <<< ((dp >>> 9) &&& 3) = x * scale dp := by
  have hlt : ((dp >>> 9) &&& 3).toNat < 4 := by
    rw [BitVec.toNat_and]
    exact Nat.lt_of_le_of_lt Nat.and_le_right (by decide)
  change x <<< ((dp >>> 9) &&& 3).toNat = _
  rw [scale]
  generalize ((dp >>> 9) &&& 3).toNat = s at hlt
  have hs : s = 0 ∨ s = 1 ∨ s = 2 ∨ s = 3 := by omega
  rcases hs with rfl | rfl | rfl | rfl <;> bv_omega

theorem words_ofNat (n k : Nat) : (1 : Word) + BitVec.ofNat 16 n + BitVec.ofNat 16 k = BitVec.ofNat 16 (1 + n + k) := by
  rw [BitVec.ofNat_add, BitVec.ofNat_add]
  rfl

/-- Behind the extension word. -/
theorem fullTree_gives (hl : FetchesLong long) (base : Long) (hdone : words done = 1) :
    ∃ n, (fullEa regs mem stream base).words = 1 + n ∧
      Gives mem stream (fullTree long (stream 0) base (index regs (stream 0))) done
        ((fullEa regs mem stream base).addr, BitVec.ofNat 16 (fullEa regs mem stream base).words) n
        (fullEa regs mem stream base).reads := by
  simp only [fullTree, fullEa]
  generalize hb : (if stream 0 &&& 0x80 ≠ 0 then (0 : Long) else base) = b
  generalize hx : (if stream 0 &&& 0x40 ≠ 0 then (0 : Long) else index regs (stream 0)) = x
  have hbd : Gives mem stream (dispTree long ((stream 0 &&& 0x30) >>> 4)) done _ _ _ := dispTree_gives hl _
  rw [hdone] at hbd
  generalize displacement stream 1 ((stream 0 &&& 0x30) >>> 4) = d at *
  obtain ⟨bd, n⟩ := d
  obtain ⟨done₁, hrun₁, hwords₁, hreads₁⟩ := hbd
  have hod : Gives mem stream (dispTree long (stream 0 &&& 3)) done₁ _ _ _ := dispTree_gives hl _
  rw [hwords₁, hdone] at hod
  change Gives mem stream _ _ ((displacement stream (1 + n) (stream 0 &&& 3)).1, _) _ _ at hod
  generalize displacement stream (1 + n) (stream 0 &&& 3) = e at *
  obtain ⟨od, k⟩ := e
  obtain ⟨done₂, hrun₂, hwords₂, hreads₂⟩ := hod
  have hwords : words done₂ = words done + (n + k) := by rw [hwords₂, hwords₁, Nat.add_assoc]
  have hreads : readsOf done₂ = readsOf done := by rw [hreads₂, hreads₁, List.append_nil, List.append_nil]
  simp only [Gives, Tree.run_bind, hrun₁, hrun₂, words_ofNat]
  have hzero : ∀ y : Long, y + 0 = y := BitVec.add_zero
  by_cases hindirect : stream 0 &&& 3 = 0
  · rw [if_neg (not_not.mpr hindirect), if_pos hindirect]
    refine ⟨n + k, Nat.add_assoc 1 n k, done₂, ?_, hwords, by rw [hreads, List.append_nil]⟩
    by_cases hpost : stream 0 &&& 4 = 0
    · simp only [if_pos hpost, if_neg (not_not.mpr hpost), hzero, Tree.run_bind, Tree.run_pure]
    · simp only [if_neg hpost, if_pos hpost, hzero, Tree.run_bind, Tree.run_pure]
  · rw [if_pos hindirect, if_neg hindirect]
    by_cases hpost : stream 0 &&& 4 = 0
    · rw [if_pos hpost]
      refine ⟨n + k, Nat.add_assoc 1 n k, done₂ ++ [.long (b + bd + x)], ?_, ?_, ?_⟩
      · simp only [if_pos hpost, if_neg (not_not.mpr hpost), hzero, Tree.run_bind, Tree.run_pure,
          Tree.run_query, answer]
      · rw [words_append, hwords]; rfl
      · rw [readsOf_append, hreads]; rfl
    · rw [if_neg hpost]
      refine ⟨n + k, Nat.add_assoc 1 n k, done₂ ++ [.long (b + bd)], ?_, ?_, ?_⟩
      · simp only [if_neg hpost, if_pos hpost, hzero, Tree.run_bind, Tree.run_pure, Tree.run_query, answer]
      · rw [words_append, hwords]; rfl
      · rw [readsOf_append, hreads]; rfl

/-- What a decoder asks for, and what it makes of the answers. -/
theorem eaTree_gives (hl : FetchesLong long) (base : Long) :
    Gives mem stream (eaTree long regs base) []
      ((ea regs mem stream base).addr, BitVec.ofNat 16 (ea regs mem stream base).words)
      (ea regs mem stream base).words (ea regs mem stream base).reads := by
  have htrunc : ((stream 0).setWidth 32 : Long).setWidth 16 = stream 0 := by simp
  have hext : ∀ done, words done = 1 → ∃ n, (ea regs mem stream base).words = 1 + n ∧
      Gives mem stream (extTree long regs (stream 0) base) done
        ((ea regs mem stream base).addr, BitVec.ofNat 16 (ea regs mem stream base).words) n
        (ea regs mem stream base).reads := by
    intro done hdone
    simp only [ea, extTree, scale_shift]
    by_cases hfull : stream 0 &&& 0x100 ≠ 0
    · rw [if_pos hfull, if_pos hfull]
      exact fullTree_gives hl base hdone
    · rw [if_neg hfull, if_neg hfull]
      exact ⟨0, rfl, gives_pure _⟩
  have hpos : (ea regs mem stream base).words = 1 + ((ea regs mem stream base).words - 1) := by
    obtain ⟨n, hn, -⟩ := hext [.iword] rfl
    omega
  refine Gives.bind gives_iword (k := (ea regs mem stream base).words - 1) (fun done hw => ?_) hpos rfl
  change Gives mem stream (extTree long regs (((stream 0).setWidth 32 : Long).setWidth 16) base) _ _ _ _
  obtain ⟨n, hn, htree⟩ := hext done hw
  rw [htrunc]
  rwa [show (ea regs mem stream base).words - 1 = n by omega]

end Answers

/-! ## The plain decoders ask so -/

theorem and_shiftLeft (dp m : Word) : dp &&& (m <<< 4) = ((dp >>> 4) &&& m) <<< 4 := by
  ext i h
  by_cases h4 : i < 4
  · simp [h4]
  · simp [h4, show 4 + (i - 4) = i by omega, BitVec.getLsbD_eq_getElem h]

/-- The size of a base displacement, in its place and on its own. -/
theorem base_sizes (dp : Word) :
    (dp &&& 0x30 = 0x20 ↔ (dp &&& 0x30) >>> 4 = 2) ∧ (dp &&& 0x30 = 0x30 ↔ (dp &&& 0x30) >>> 4 = 3) := by
  have hmask : dp &&& (0x30 : Word) = ((dp >>> 4) &&& 3) <<< 4 := and_shiftLeft dp 3
  rw [hmask]
  have hlt : (dp >>> 4) &&& 3 < 4 := by
    rw [BitVec.lt_def, BitVec.toNat_and]
    exact Nat.lt_of_le_of_lt Nat.and_le_right (by decide)
  generalize (dp >>> 4) &&& 3 = z at hlt
  have hz : z = 0 ∨ z = 1 ∨ z = 2 ∨ z = 3 := by bv_omega
  rcases hz with rfl | rfl | rfl | rfl <;> decide

section Plain

variable {f : Fetch (Cpu μ)} {regs : BitVec 4 → Long} {mem : Long → Long} {stream : Nat → Word}
  {World : List Ask → Cpu μ → Prop} {E : Cpu μ → Prop} {c : Cpu μ}

def Fetch.step (f : Fetch (Cpu μ)) : Ask → FaultM (Cpu μ) Long
  | .iword => f.nextIword
  | .ilong => f.nextIlong
  | .long a => f.getLong a

/-- In `World done` the questions of `done` have been asked. The words of the instruction are fetched
in turn, memory is read as it is, and neither changes a register of the instruction. A fault ends in `E`. -/
structure Delivers (f : Fetch (Cpu μ)) (regs : BitVec 4 → Long) (mem : Long → Long) (stream : Nat → Word)
    (World : List Ask → Cpu μ → Prop) (E : Cpu μ → Prop) : Prop where
  step : ∀ i done c, World done c →
    Settles (f.step i) c (fun v c' => v = (answer mem stream i done).1 ∧ World (done ++ [i]) c') E
  regs : ∀ done c, World done c → ∀ i, reg16 c.regs i = regs i

theorem base_exec (f : Fetch (Cpu μ)) (dp : Word) (base : Long) (k : Long → FaultM (Cpu μ) Long) :
    (do
      let base ← if dp &&& 0x30 = 0x20 then do
          let v ← f.nextIword
          pure (base + (v.setWidth 16).signExtend 32)
        else pure base
      let base ← if dp &&& 0x30 = 0x30 then do
          let v ← f.nextIlong
          pure (base + v)
        else pure base
      k base) = (dispTree oneLong ((dp &&& 0x30) >>> 4)).exec f.step >>= fun x => k (base + x.1) := by
  obtain ⟨hword, hlong⟩ := base_sizes dp
  rw [dispTree]
  by_cases h2 : (dp &&& 0x30) >>> 4 = 2
  · have h3 : ¬ (dp &&& 0x30) >>> 4 = 3 := by rw [h2]; decide
    simp only [if_pos (hword.mpr h2), if_neg (mt hlong.mp h3), if_pos h2, Tree.exec_bind, Tree.exec_query,
      Tree.exec_pure, bind_assoc, pure_bind]
    rfl
  · by_cases h3 : (dp &&& 0x30) >>> 4 = 3
    · simp only [if_neg (mt hword.mp h2), if_pos (hlong.mpr h3), if_neg h2, if_pos h3, oneLong, Tree.exec_bind,
        Tree.exec_query, Tree.exec_pure, bind_assoc, pure_bind]
      rfl
    · have hzero : base + (0 : Long) = base := BitVec.add_zero base
      simp only [if_neg (mt hword.mp h2), if_neg (mt hlong.mp h3), if_neg h2, if_neg h3, Tree.exec_pure, pure_bind, hzero]

theorem outer_exec (f : Fetch (Cpu μ)) (s : Word) (k : Long → FaultM (Cpu μ) Long) :
    (do
      let outer ← if s = 2 then do
          let v ← f.nextIword
          pure ((v.setWidth 16).signExtend 32)
        else pure (0 : Long)
      let outer ← if s = 3 then f.nextIlong else pure outer
      k outer) = (dispTree oneLong s).exec f.step >>= fun x => k x.1 := by
  rw [dispTree]
  by_cases h2 : s = 2
  · have h3 : ¬ s = 3 := by rw [h2]; decide
    simp only [if_pos h2, if_neg h3, Tree.exec_bind, Tree.exec_query, Tree.exec_pure, bind_assoc, pure_bind]
    rfl
  · by_cases h3 : s = 3
    · simp only [if_neg h2, if_pos h3, oneLong, Tree.exec_bind, Tree.exec_query, Tree.exec_pure, bind_assoc, pure_bind]
      rfl
    · simp only [if_neg h2, if_neg h3, Tree.exec_pure, pure_bind]

theorem extEa_exec (f : Fetch (Cpu μ)) (r : Regs) (dp : Word) (base : Long) :
    extEa f r dp base = (extTree oneLong (reg16 r) dp base).exec f.step >>= fun x => pure x.1 := by
  simp only [extEa, extTree]
  generalize (if dp &&& 0x800 = 0 then _ else _ : Long) <<< ((dp >>> 9) &&& 3) = regd
  by_cases hfull : dp &&& 0x100 ≠ 0
  · rw [if_pos hfull, if_pos hfull]
    simp only [fullTree]
    generalize (if dp &&& 0x80 ≠ 0 then (0 : Long) else base) = b
    generalize (if dp &&& 0x40 ≠ 0 then (0 : Long) else regd) = x
    refine (base_exec f dp b _).trans ?_
    rw [Tree.exec_bind, bind_assoc]
    congr 1
    funext y
    obtain ⟨disp, n⟩ := y
    refine (outer_exec f (dp &&& 3) _).trans ?_
    rw [Tree.exec_bind, bind_assoc]
    congr 1
    funext y
    obtain ⟨outer, k⟩ := y
    have hzero : ∀ y : Long, y + 0 = y := BitVec.add_zero
    by_cases hpost : dp &&& 4 = 0 <;> by_cases hread : dp &&& 3 = 0
    · simp only [if_pos hpost, if_neg (not_not.mpr hpost), if_neg (not_not.mpr hread), hzero, pure_bind, Tree.exec_bind,
        Tree.exec_pure]
    · simp only [if_pos hpost, if_neg (not_not.mpr hpost), if_pos hread, hzero, pure_bind, bind_assoc, Tree.exec_bind,
        Tree.exec_query, Tree.exec_pure]
      rfl
    · simp only [if_neg hpost, if_pos hpost, if_neg (not_not.mpr hread), hzero, pure_bind, Tree.exec_bind, Tree.exec_pure]
    · simp only [if_neg hpost, if_pos hpost, if_pos hread, hzero, pure_bind, bind_assoc, Tree.exec_bind, Tree.exec_query,
        Tree.exec_pure]
      rfl
  · rw [if_neg hfull, if_neg hfull, Tree.exec_pure, pure_bind]

/-- Each plain decoder finds the address, takes the words it stands in, and reads at most once. -/
theorem dispEa020_settles (hf : Delivers f regs mem stream World E) (hc : World [] c) (base : Long) :
    Settles (dispEa020 f base) c
      (fun v c' => v = (ea regs mem stream base).addr ∧ ∃ done, World done c' ∧
        words done = (ea regs mem stream base).words ∧ readsOf done = (ea regs mem stream base).reads) E := by
  have hgives : Gives mem stream (eaTree oneLong regs base) [] _ _ _ := eaTree_gives oneLong_fetches base
  obtain ⟨done', hrun, hwords, hreads⟩ := hgives
  refine Settles.bind (hf.step .iword [] c hc) fun v c₁ h₁ => ?_
  obtain ⟨rfl, hw₁⟩ := h₁
  rw [settles_reads_bind, extEa_exec, show reg16 c₁.regs = regs from funext (hf.regs _ _ hw₁)]
  refine Settles.bind (Tree.settles (fun i done c => hf.step i done c) _ hw₁) fun x c₂ h₂ => ?_
  obtain ⟨rfl, hw₂⟩ := h₂
  have hext : (extTree oneLong regs (((answer mem stream .iword []).1).setWidth 16) base).run (answer mem stream) [.iword] =
      (_, done') := hrun
  change World ((extTree _ _ _ _).run (answer mem stream) [.iword]).2 c₂ at hw₂
  change ((extTree _ _ _ _).run (answer mem stream) [.iword]).1.1 = _ ∧ _
  rw [hext] at hw₂ ⊢
  exact ⟨rfl, done', hw₂, by rw [hwords]; exact Nat.zero_add _, by rw [hreads]; rfl⟩

end Plain

end UaeCpu.Restart.Ea
