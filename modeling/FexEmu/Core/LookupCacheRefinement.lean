import FexEmu.Core.LookupCache
/-!
# The lookup cache refines a map

`L3` is the map. The levels over it agree with it in the slots that were filled for the block they name. The other slots are left
over: empty ones, the ones of erased blocks, and those that a retry filled under a page index. All that are not in use name
address 0.
-/
namespace FexEmu.LookupCache

open Function (update_apply update_of_ne update_self update)

/-- What can be done to one cache. -/
inductive Op where
  | addBlockMapping (address hostCode : UInt64)
  | erase (address : UInt64)
  | findBlock (address : UInt64)
  | dispatch (rip : UInt64)
  | clearL2Cache
  | clearCache
deriving DecidableEq, Repr

variable (c : Config)

def step (s : State) : Op → State
  | .addBlockMapping a h => addBlockMapping s a h
  | .erase a => erase c s a
  | .findBlock a => (findBlock c s a).2
  | .dispatch rip => (dispatchLookup c s rip).2
  | .clearL2Cache => clearL2Cache s
  | .clearCache => clearCache s

def run (ops : List Op) : State := ops.foldl (step c) .init

/-- Guest address to host code, 0 for none. -/
abbrev HostMap := UInt64 → UInt64

def specStep (m : HostMap) : Op → HostMap
  | .addBlockMapping a h => update m a h
  | .erase a => update m a 0
  | .clearCache => fun _ => 0
  | _ => m

def spec (ops : List Op) : HostMap := ops.foldl specStep (fun _ => 0)

/-- What the callers promise: a block is added once, with real host code. -/
def Admissible (ops : List Op) : Prop :=
  ∀ pre a h, pre ++ [.addBlockMapping a h] <+: ops → spec pre a = 0 ∧ h ≠ 0

/-! ## Left over slots -/

/-- The slot of `L2` for an address. -/
def slot (s : State) (a : UInt64) : Nat := slotAt (s.pagePointer (pageIndex c a)) (maskedOffset c a)

/-- The first level has the address. -/
def InL1 (s : State) (a : UInt64) : Prop := (s.l1 (l1Index a)).guestCode = a

/-- The second level has the address. -/
def InL2 (s : State) (a : UInt64) : Prop :=
  s.pagePointer (pageIndex c a) ≠ 0 ∧ (s.memory (slot c s a)).guestCode = a

instance (s : State) (a : UInt64) : Decidable (InL1 s a) := inferInstanceAs (Decidable (_ = _))
instance (s : State) (a : UInt64) : Decidable (InL2 c s a) := inferInstanceAs (Decidable (_ ∧ _))

/-- The slots that no block was filled in, or not under its own address, or one that is erased. -/
structure Leftovers where
  l1 : UInt64 → Bool
  memory : Nat → Bool

namespace Leftovers

def all : Leftovers := ⟨fun _ => true, fun _ => true⟩

/-- Behind a lookup that only `L3` answers. What is behind the next page is empty, and a retry has nothing but the page index
of the address in its slots. -/
def cached (t : Leftovers) (s : State) (a : UInt64) : Leftovers :=
  if RunsOut c s a then ⟨update (update t.l1 (l1Index a) false) (l1Index (pageIndex c a)) true, fun _ => true⟩
  else if s.pagePointer (pageIndex c a) = 0 then
    ⟨update t.l1 (l1Index a) false,
      update (fun x => decide (c.pageMemory + s.allocateOffset ≤ x) || t.memory x)
        (slotAt (c.pageMemory + s.allocateOffset) (maskedOffset c a)) false⟩
  else ⟨update t.l1 (l1Index a) false, update t.memory (slot c s a) false⟩

/-- A slot of `L1` that is filled from `L2` is what that slot is. -/
def copied (t : Leftovers) (s : State) (a : UInt64) : Leftovers :=
  ⟨update t.l1 (l1Index a) (t.memory (slot c s a)), t.memory⟩

def step (t : Leftovers) (s : State) : Op → Leftovers
  | .addBlockMapping a _ => ⟨update t.l1 (l1Index a) false, t.memory⟩
  | .erase a => ⟨if InL1 s a then update t.l1 (l1Index a) true else t.l1, update t.memory (slot c s a) true⟩
  | .findBlock a =>
    if InL1 s a then t
    else if InL2 c s a then t.copied c s a
    else if s.blockList a = none then t
    else t.cached c s a
  | .dispatch rip =>
    if InL1 s rip then t
    else match (dispatchLookup c s rip).1 with
      | .branch _ => t.copied c s rip
      | _ => t
  | .clearL2Cache => ⟨t.l1, fun _ => true⟩
  | .clearCache => all

end Leftovers

def mapped (s : State) (a : UInt64) : UInt64 := (s.blockList a).getD 0

theorem offset_lt (x : UInt64) : (x &&& 0x0FFF).toNat < 4096 := by
  have h : (x &&& 0x0FFF).toNat ≤ (0x0FFF : UInt64).toNat := by
    exact Nat.and_le_right
  have : (0x0FFF : UInt64).toNat = 4095 := rfl
  omega

/-- The `L2` pages lie in the allocated part of the backing area, apart from one another, the rest reads zero, and a slot with
host code is the slot of the address that it names. -/
structure Backed (s : State) : Prop where
  inside : ∀ p, s.pagePointer p ≠ 0 →
    c.pageMemory ≤ s.pagePointer p ∧ s.pagePointer p + sizePerPage ≤ c.pageMemory + s.allocateOffset
  apart : ∀ p q, s.pagePointer p ≠ 0 → s.pagePointer q ≠ 0 → p ≠ q →
    s.pagePointer p + sizePerPage ≤ s.pagePointer q ∨ s.pagePointer q + sizePerPage ≤ s.pagePointer p
  fresh : ∀ x, c.pageMemory + s.allocateOffset ≤ x → s.memory x = .zero
  placed : ∀ p o, s.pagePointer p ≠ 0 → o.toNat < 4096 → (s.memory (slotAt (s.pagePointer p) o)).hostCode ≠ 0 →
    p = pageIndex c (s.memory (slotAt (s.pagePointer p) o)).guestCode ∧
      o = maskedOffset c (s.memory (slotAt (s.pagePointer p) o)).guestCode

variable {s : State} {t : Leftovers} {a b k m : UInt64}

/-- The new page of a lookup, with its block. -/
def newPage (s : State) (b k : UInt64) : State :=
  { s with
    pagePointer := update s.pagePointer (pageIndex c b) (c.pageMemory + s.allocateOffset)
    allocateOffset := s.allocateOffset + sizePerPage
    memory := update s.memory (slotAt (c.pageMemory + s.allocateOffset) (maskedOffset c b)) ⟨k, b⟩ }

def store (s : State) (b k : UInt64) : State := { s with memory := update s.memory (slot c s b) ⟨k, b⟩ }

theorem cacheFullMap_newPage (hp : s.pagePointer (pageIndex c b) = 0) (ho : ¬RunsOut c s b) :
    cacheFullMap c s b k = some (newPage c s b k) := by
  have hc := c.pageMemory_pos
  have hfits : ¬codeSize ≤ s.allocateOffset + sizePerPage := fun h => ho ⟨hp, h⟩
  have hpage : allocateBackingForPage c s = (c.pageMemory + s.allocateOffset, s.allocateOffset + sizePerPage) := by
    unfold allocateBackingForPage
    rw [if_neg hfits]
  unfold cacheFullMap
  rw [hpage]
  dsimp only
  rw [if_pos hp, if_neg (by omega)]
  rfl

theorem cacheFullMap_store (hp : s.pagePointer (pageIndex c b) ≠ 0) :
    cacheFullMap c s b k = some (store c s b k) := by
  unfold cacheFullMap
  rw [if_neg hp]
  rfl

theorem cacheFullMap_none (h : RunsOut c s b) : cacheFullMap c s b k = none := by
  have hpage : allocateBackingForPage c s = (0, s.allocateOffset) := by
    unfold allocateBackingForPage
    rw [if_pos h.2]
  unfold cacheFullMap
  rw [hpage]
  dsimp only
  rw [if_pos h.1, if_pos rfl]

theorem not_runsOut_clearL2Cache (s : State) (b : UInt64) : ¬ RunsOut c (clearL2Cache s) b := by
  rintro ⟨-, h⟩
  simp [clearL2Cache, codeSize, sizePerPage, entrySize] at h

/-- The slots of `L1` that a lookup fills, its own and the one of a retry. -/
def retried (s : State) (b k : UInt64) : State :=
  setL1 (clearL2Cache (setL1 s (l1Index b) ⟨k, b⟩)) (l1Index (pageIndex c b)) ⟨k, pageIndex c b⟩

theorem cacheBlockMapping_eq : cacheBlockMapping c 2 s b k =
    if RunsOut c s b then newPage c (retried c s b k) (pageIndex c b) k
    else if s.pagePointer (pageIndex c b) = 0 then newPage c (setL1 s (l1Index b) ⟨k, b⟩) b k
    else store c (setL1 s (l1Index b) ⟨k, b⟩) b k := by
  rw [cacheBlockMapping]
  split_ifs with hout hp
  · have hagain : ¬RunsOut c (retried c s b k) (pageIndex c b) :=
      not_runsOut_clearL2Cache c (setL1 s (l1Index b) ⟨k, b⟩) (pageIndex c b)
    rw [cacheFullMap_none c (s := setL1 s (l1Index b) ⟨k, b⟩) hout]
    dsimp only
    rw [cacheBlockMapping, show setL1 (clearL2Cache (setL1 s (l1Index b) ⟨k, b⟩)) (l1Index (pageIndex c b)) ⟨k, pageIndex c b⟩
      = retried c s b k from rfl, cacheFullMap_newPage c rfl hagain]
  · rw [cacheFullMap_newPage c (s := setL1 s (l1Index b) ⟨k, b⟩) hp hout]
  · rw [cacheFullMap_store c (s := setL1 s (l1Index b) ⟨k, b⟩) hp]

/-- `L3` holds `m` for `a`, and so do the slots of `a` that name it and are not left over. -/
structure Coherent (a m : UInt64) (s : State) (t : Leftovers) : Prop where
  block : s.blockList a = if m = 0 then none else some m
  l1 : InL1 s a → t.l1 (l1Index a) = false → (s.l1 (l1Index a)).hostCode = m ∧ m ≠ 0
  l2 : InL2 c s a → t.memory (slot c s a) = false → (s.memory (slot c s a)).hostCode = m ∧ m ≠ 0

/-- The invariant of a run, for one address. -/
structure Inv (a m : UInt64) (s : State) (t : Leftovers) : Prop where
  backed : Backed c s
  coherent : Coherent c a m s t

theorem findBlock_eq (s : State) (b : UInt64) : findBlock c s b =
    if InL1 s b then ((s.l1 (l1Index b)).hostCode, s)
    else if InL2 c s b then
      ((s.memory (slot c s b)).hostCode, setL1 s (l1Index b) ⟨(s.memory (slot c s b)).hostCode, b⟩)
    else match s.blockList b with
      | some k => (k, cacheBlockMapping c 2 s b k)
      | none => (0, s) := by
  have hslot : slot c s b = slotAt (s.pagePointer (pageIndex c b)) (b &&& 0x0FFF) := by rw [slot, maskedOffset_eq]
  simp only [findBlock, ← hslot]
  rfl

theorem run_snoc (ops : List Op) (op : Op) : run c (ops ++ [op]) = step c (run c ops) op := by
  simp [run]

/-- A lookup that runs out of backing answers the page index of its address from then on with the code of the address. -/
theorem retry_misnames (hl : ¬InL1 s b) (hb : s.blockList b = some k) (ho : RunsOut c s b) :
    (findBlock c (findBlock c s b).2 (pageIndex c b)).1 = k := by
  have hempty : ¬InL2 c s b := fun h => h.1 ho.1
  have hretried : (findBlock c s b).2 = newPage c (retried c s b k) (pageIndex c b) k := by
    rw [findBlock_eq, if_neg hl, if_neg hempty, hb]
    exact (cacheBlockMapping_eq c).trans (if_pos ho)
  have hl1 : (newPage c (retried c s b k) (pageIndex c b) k).l1 (l1Index (pageIndex c b)) = ⟨k, pageIndex c b⟩ :=
    update_self _ _ _
  rw [hretried, findBlock_eq, if_pos (by rw [InL1, hl1]), hl1]

end FexEmu.LookupCache
