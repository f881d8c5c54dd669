import FexEmu.Data.OrderedMap
import FexEmu.Data.Widths
/-!
# The VMA tracker

The mappings of the guest by base address, linked through the entries for each resource. A pointer to an entry is the key of
its node in `VMAs`, a pointer to a resource its `MRID`.
-/
namespace FexEmu.LinuxSyscalls

/-! ## The state -/

/-- `MRID`: which storage is mapped. -/
structure MRID where
  dev : Nat
  id : Nat
deriving DecidableEq, Repr

/-- `SpecialDev::Anon` and `SpecialDev::SHM`. -/
def anonDev : Nat := 0x100000000

def shmDev : Nat := 0x200000000

/-- `MappedResource`: the head of the list of its entries. -/
structure MappedResource where
  firstVMA : Option Nat
  length : Nat
deriving DecidableEq, Repr

/-- `VMAProt`. -/
structure VMAProt where
  readable : Bool
  writable : Bool
  executable : Bool
deriving DecidableEq, Repr

/-- `VMAFlags`. -/
structure VMAFlags where
  shared : Bool
deriving DecidableEq, Repr

/-- `VMAEntry`, where a neighbour in the resource's list is its base. -/
structure VMAEntry where
  resource : Option MRID
  resourcePrevVMA : Option Nat
  resourceNextVMA : Option Nat
  base : Nat
  offset : Nat
  length : Nat
  flags : VMAFlags
  prot : VMAProt
deriving DecidableEq, Repr

instance : Inhabited VMAEntry := ⟨⟨none, none, none, 0, 0, 0, ⟨false⟩, ⟨false, false, false⟩⟩⟩

/-- `VMATracking`. -/
structure VMATracking where
  vmas : OrderedMap Nat VMAEntry
  mappedResources : MRID → Option MappedResource

namespace VMATracking

def empty : VMATracking := ⟨OrderedMap.empty, fun _ => none⟩

def vma (t : VMATracking) (k : Nat) : VMAEntry := (t.vmas.find? k).getD default

def firstVMA (t : VMATracking) (r : MRID) : Option Nat := (t.mappedResources r).bind MappedResource.firstVMA

def setFirst (t : VMATracking) (r : MRID) (k : Option Nat) : VMATracking :=
  { t with mappedResources :=
      Function.update t.mappedResources r ((t.mappedResources r).map (fun m => { m with firstVMA := k })) }

def setPrev (t : VMATracking) (k : Nat) (p : Option Nat) : VMATracking :=
  { t with vmas := t.vmas.modify k (fun e => { e with resourcePrevVMA := p }) }

def setNext (t : VMATracking) (k : Nat) (n : Option Nat) : VMATracking :=
  { t with vmas := t.vmas.modify k (fun e => { e with resourceNextVMA := n }) }

def setLength (t : VMATracking) (k length : Nat) : VMATracking :=
  { t with vmas := t.vmas.modify k (fun e => { e with length := length }) }

def setProt (t : VMATracking) (k : Nat) (prot : VMAProt) : VMATracking :=
  { t with vmas := t.vmas.modify k (fun e => { e with prot := prot }) }

def emplaceVMA (t : VMATracking) (k : Nat) (e : VMAEntry) : VMATracking := { t with vmas := t.vmas.emplace k e }

def eraseVMA (t : VMATracking) (k : Nat) : VMATracking := { t with vmas := t.vmas.erase k }

def eraseResource (t : VMATracking) (r : MRID) : VMATracking :=
  { t with mappedResources := Function.update t.mappedResources r none }

/-- `MappedResources.emplace`: a resource that is there stays. -/
def emplaceResource (t : VMATracking) (r : MRID) (m : MappedResource) : VMATracking :=
  { t with mappedResources := Function.update t.mappedResources r (some ((t.mappedResources r).getD m)) }

/-! ## List operations -/

def linkNext (t : VMATracking) (p n : Option Nat) : VMATracking :=
  match p with
  | some p => t.setNext p n
  | none => t

def linkPrev (t : VMATracking) (n p : Option Nat) : VMATracking :=
  match n with
  | some n => t.setPrev n p
  | none => t

/-- `ListRemove` of an entry of the resource `r`; true if its list is empty then. -/
def listRemove (t : VMATracking) (k : Nat) (r : MRID) : VMATracking × Bool :=
  let vma := t.vma k
  let t := t.linkNext vma.resourcePrevVMA vma.resourceNextVMA
  let t := t.linkPrev vma.resourceNextVMA vma.resourcePrevVMA
  let t := if t.firstVMA r = some k then t.setFirst r vma.resourceNextVMA else t
  (t, (t.firstVMA r).isNone)

def listReplace (t : VMATracking) (k : Nat) (r : MRID) (new : Nat) : VMATracking :=
  let t := if (t.vma k).resourcePrevVMA = none then t.setFirst r (some new)
    else t.linkNext (t.vma k).resourcePrevVMA (some new)
  t.linkPrev (t.vma k).resourceNextVMA (some new)

def listInsertAfter (t : VMATracking) (k new : Nat) : VMATracking :=
  let t := t.linkPrev (t.vma k).resourceNextVMA (some new)
  t.setNext k (some new)

def listPrepend (t : VMATracking) (r : MRID) (new : Nat) : VMATracking :=
  let t := t.linkPrev (t.firstVMA r) (some new)
  t.setFirst r (some new)

def lookupVMAUnsafe (t : VMATracking) (guestAddr : Nat) : Option (Nat × VMAEntry) :=
  match t.vmas.upTo guestAddr with
  | some (k, e) => if k ≤ guestAddr ∧ guestAddr < add64 k e.length then some (k, e) else none
  | none => none

/-! ## Clearing -/

/-- Part (3): the whole mapping goes, and its resource with the last mapping of it. -/
def removeMapping (preserved : Option MRID) (t : VMATracking) (k : Nat) (cur : VMAEntry) : VMATracking :=
  let t : VMATracking :=
    match cur.resource with
    | some r =>
      let removed := t.listRemove k r
      if removed.2 ∧ some r ≠ preserved then removed.1.eraseResource r else removed.1
    | none => t
  t.eraseVMA k

def trailingPart (top : Nat) (cur : VMAEntry) (prev : Option Nat) : VMAEntry :=
  let mapTop := add64 cur.base cur.length
  let offsetDiff := sub64 cur.offset cur.base
  { cur with
    resourcePrevVMA := prev
    base := top
    offset := add64 offsetDiff top
    length := sub64 mapTop top }

/-- What `ClearUnsafe` does to a mapping that ends behind the start of the range. -/
def clearMapping (base top : Nat) (preserved : Option MRID) (t : VMATracking) (k : Nat) (cur : VMAEntry) : VMATracking :=
  let mapTop := add64 cur.base cur.length
  match decide (cur.base < base), decide (top < mapTop) with
  | true, false => t.setLength k (sub64 base cur.base)
  | true, true =>
    let t := t.setLength k (sub64 base cur.base)
    let t := t.emplaceVMA top (trailingPart top cur (some k))
    if cur.resource.isSome then t.listInsertAfter k top else t
  | false, false => removeMapping preserved t k cur
  | false, true =>
    let t := t.emplaceVMA top (trailingPart top cur cur.resourcePrevVMA)
    let t : VMATracking :=
      match cur.resource with
      | some r => t.listReplace k r top
      | none => t
    t.eraseVMA k

def clearLoop (base top : Nat) (preserved : Option MRID) : Nat → Nat → VMATracking → VMATracking
  | 0, _, t => t
  | fuel + 1, c, t =>
    match t.vmas.below c with
    | none => t
    | some (k, cur) =>
      if add64 cur.base cur.length ≤ base then t
      else clearLoop base top preserved fuel k (clearMapping base top preserved t k cur)

def clearUnsafe (t : VMATracking) (base length : Nat) (preserved : Option MRID) : VMATracking :=
  let top := add64 base length
  clearLoop base top preserved top top t

def setUnsafe (t : VMATracking) (resource : Option MRID) (base offset length : Nat) (flags : VMAFlags) (prot : VMAProt) :
    VMATracking :=
  let t := t.clearUnsafe base length resource
  let t := t.emplaceVMA base ⟨resource, none, resource.bind t.firstVMA, base, offset, length, flags, prot⟩
  match resource with
  | some r => t.listPrepend r base
  | none => t

/-! ## Changing protections -/

/-- The split of the first part: what is in the range starts a mapping of its own. -/
def splitFirst (base top : Nat) (prot : VMAProt) (t : VMATracking) (k : Nat) (cur : VMAEntry) : VMATracking :=
  let offsetDiff := sub64 cur.offset cur.base
  let t := t.setLength k (sub64 base cur.base)
  let t := t.emplaceVMA base
    ⟨cur.resource, some k, cur.resourceNextVMA, base, add64 offsetDiff base, sub64 top base, cur.flags, prot⟩
  if cur.resource.isSome then t.listInsertAfter k base else t

/-- The split of the trailing part, off the mapping `c`: it keeps the old protection. -/
def splitTrailing (top : Nat) (t : VMATracking) (c : Nat) (cur : VMAEntry) : VMATracking :=
  let mapTop := add64 cur.base cur.length
  let offsetDiff := sub64 cur.offset cur.base
  let t := t.setLength c (sub64 top (t.vma c).base)
  let new : VMAEntry := ⟨(t.vma c).resource, some c, (t.vma c).resourceNextVMA, top, add64 offsetDiff top,
    sub64 mapTop top, cur.flags, cur.prot⟩
  let t' := t.emplaceVMA top new
  if (t.vma c).resource.isSome then t'.listInsertAfter c top else t'

/-- What `ChangeUnsafe` does to a mapping of another protection. -/
def changeMapping (base top : Nat) (prot : VMAProt) (t : VMATracking) (k : Nat) (cur : VMAEntry) : VMATracking :=
  let mapTop := add64 cur.base cur.length
  let split := decide (cur.base < base)
  let t := if split then splitFirst base top prot t k cur else t.setProt k prot
  if top < mapTop then splitTrailing top t (if split then base else k) cur else t

/-- The loop of `ChangeUnsafe`, back from the bound `c`. -/
def changeLoop (base top : Nat) (prot : VMAProt) : Nat → Nat → VMATracking → VMATracking
  | 0, _, t => t
  | fuel + 1, c, t =>
    match t.vmas.below c with
    | none => t
    | some (k, cur) =>
      if add64 cur.base cur.length ≤ base then t
      else if cur.prot = prot then changeLoop base top prot fuel k t
      else changeLoop base top prot fuel k (changeMapping base top prot t k cur)

def changeUnsafe (t : VMATracking) (base length : Nat) (prot : VMAProt) : VMATracking :=
  let top := add64 base length
  changeLoop base top prot top top t

/-! ## Detaching shared memory -/

def isShm (r : Option MRID) : Bool := r.any (fun r => r.dev == shmDev)

/-- The loop of `ClearShmUnsafe`, at the entry `k`: every turn passes one entry. -/
def clearShmLoop (base shmLength : Nat) (r : MRID) : Nat → Nat → VMATracking → VMATracking
  | 0, _, t => t
  | fuel + 1, k, t =>
    let t := if (t.vma k).resource = some r then removeMapping none t k (t.vma k) else t
    match t.vmas.above k with
    | some (next, e) =>
      if sub64 (add64 e.base e.length) base ≤ shmLength then clearShmLoop base shmLength r fuel next t else t
    | none => t

/-- `ClearShmUnsafe`, with the size of the segment, or 0. -/
def clearShmUnsafe (t : VMATracking) (base : Nat) : VMATracking × Nat :=
  match (t.vmas.entries.filter (fun e => base ≤ e.1)).find? (fun e =>
      sub64 e.2.base base = e.2.offset && isShm e.2.resource) with
  | some (k, e) =>
    match e.resource with
    | some r =>
      let shmLength := ((t.mappedResources r).map MappedResource.length).getD 0
      (clearShmLoop base shmLength r t.vmas.entries.length k t, shmLength)
    | none => (t, 0)
  | none => (t, 0)

end VMATracking

end FexEmu.LinuxSyscalls
