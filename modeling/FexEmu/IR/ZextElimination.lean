import FexEmu.Interpreter.ALUOpsProofs
/-!
# Zero extension elimination

The pass takes the source of an extract or a `VMov` in its place, where it looks as if nothing were cut off.
-/
namespace FexEmu.ZextElimination

open Interpreter

/-! ## Nodes -/

/-- The loads that zero what they do not load. -/
inductive LoadOp
  | LoadMem
  | LoadMemTSO
  | LoadContext
deriving DecidableEq, Repr

/-- A node with the nodes its value comes from. `other` is any op. -/
inductive Source
  | other (size : Nat)
  | load (op : LoadOp) (size : Nat)
  | bfe (destSize width lsb : Nat) (src : Source)
  | vmov (size : Nat) (src : Source)
deriving DecidableEq, Repr

/-- `IROp->Size`. The emitter takes the size of the source for an extract to no size. -/
def Source.size : Source → Nat
  | other size => size
  | load _ size => size
  | bfe destSize _ _ src => if destSize ≠ 0 then destSize else src.size
  | vmov size _ => size

def loadedBytes : LoadOp → Nat → Nat
  | .LoadContext, size => if size = 1 ∨ size = 2 ∨ size = 4 ∨ size = 8 ∨ size = 16 then size else 0
  | _, size => size

def lowBytes (bytes : Nat) (slot : BitVec 128) : BitVec 128 := (slot.setWidth (8 * bytes)).setWidth 128

/-- The slot of a node, by the bytes at the address of the load or the slot of the other op that its chain begins with. -/
def Source.value (contents : BitVec 128) : Source → BitVec 128
  | other _ => contents
  | load op size => lowBytes (loadedBytes op size) contents
  | bfe _ width lsb src => (opBfe width lsb ((src.value contents).setWidth 64)).setWidth 128
  | vmov size src => lowBytes size (src.value contents)

def isBfeAlreadyDone (src : Source) (Width : Nat) : Bool :=
  match src with
  | .bfe _ width _ _ => Width ≥ width
  | _ => false

def isLoad : Source → Bool
  | .load _ _ => true
  | _ => false

/-- What `ZextAndMaskingElimination` uses in the place of the node. -/
def zextElimination : Source → Option Source
  | .bfe _ width lsb src =>
    if isBfeAlreadyDone src width then some src
    else if lsb = 0 then
      if width ≥ src.size * 8 ∧ isLoad src then some src else none
    else none
  | .vmov size src => if size ≥ src.size ∧ isLoad src then some src else none
  | _ => none

/-! ## Significant bits -/

def Source.significant : Source → Nat
  | other _ => 128
  | load op size => min (8 * loadedBytes op size) 128
  | bfe _ width lsb src => min (maskWidth width) (min src.significant 64 - lsb % 64)
  | vmov size src => min (8 * size) src.significant

def Source.offset : Source → Nat
  | other _ => 0
  | load _ _ => 0
  | bfe _ _ lsb src => src.offset + lsb % 64
  | vmov _ src => src.offset

theorem getLsbD_lowBytes (bytes : Nat) (slot : BitVec 128) (i : Nat) :
    (lowBytes bytes slot).getLsbD i = (decide (i < 8 * bytes) && slot.getLsbD i) := by
  simp only [lowBytes, BitVec.getLsbD_setWidth]
  by_cases h : i < 128
  · simp [h]
  · simp [h, BitVec.getLsbD_of_ge slot i (by omega)]

namespace Source

theorem getLsbD_value (contents : BitVec 128) (n : Source) (i : Nat) :
    (n.value contents).getLsbD i = (decide (i < n.significant) && contents.getLsbD (n.offset + i)) := by
  induction n generalizing i with
  | other size =>
    simp only [value, significant, offset, Nat.zero_add]
    by_cases h : i < 128
    · simp [h]
    · simp [h, BitVec.getLsbD_of_ge contents i (by omega)]
  | load op size =>
    simp only [value, significant, offset, Nat.zero_add, getLsbD_lowBytes]
    by_cases h : i < 128
    · simp [h]
    · simp [h, BitVec.getLsbD_of_ge contents i (by omega)]
  | bfe destSize width lsb src ih =>
    simp only [value, significant, offset, BitVec.getLsbD_setWidth, getLsbD_opBfe, ih, Nat.add_assoc]
    by_cases h : i < 64
    · grind
    · have mask := maskWidth_le width
      grind
  | vmov size src ih =>
    simp only [value, significant, offset, getLsbD_lowBytes, ih]
    grind

theorem offset_add_significant {n : Source} (pos : 0 < n.significant) : n.offset + n.significant ≤ 128 := by
  induction n with
  | other size => exact le_rfl
  | load op size =>
    simp only [offset, significant]
    omega
  | bfe destSize width lsb src ih =>
    simp only [offset, significant] at pos ⊢
    omega
  | vmov size src ih =>
    simp only [offset, significant] at pos ⊢
    omega

end Source

/-! ## What it shall preserve -/

/-- The node has the value of its replacement, of 64 bits for an extract and of all of the slot for a `VMov`. -/
def SameValue (node new : Source) : Prop :=
  match node with
  | .vmov _ _ => ∀ contents, node.value contents = new.value contents
  | _ => ∀ contents, (node.value contents).setWidth 64 = (new.value contents).setWidth 64

/-- The source of an extract has no bits, or those from 0 on that the extract takes. -/
def ExtractExact : Source → Prop
  | .bfe _ width lsb src => src.significant = 0 ∨ lsb % 64 = 0 ∧ min src.significant 64 ≤ maskWidth width
  | _ => True

theorem sameValue_bfe_iff (destSize width lsb : Nat) (src : Source) :
    SameValue (.bfe destSize width lsb src) src ↔ ExtractExact (.bfe destSize width lsb src) := by
  simp only [SameValue, ExtractExact, BitVec.eq_of_getLsbD_eq_iff, BitVec.getLsbD_setWidth, Source.getLsbD_value,
    Source.significant, Source.offset, Nat.add_assoc]
  constructor
  · intro same
    by_contra h
    obtain ⟨pos, cut⟩ := not_or.mp h
    have bound := Source.offset_add_significant (Nat.pos_of_ne_zero pos)
    -- A single bit of the contents tells the two apart: the lowest, or the first above the mask.
    by_cases low : lsb % 64 = 0
    · have := same (BitVec.twoPow 128 (src.offset + maskWidth width)) (maskWidth width) (by omega)
      simp [BitVec.getLsbD_twoPow] at this
      omega
    · have := same (BitVec.twoPow 128 src.offset) 0 (by omega)
      simp only [BitVec.getLsbD_twoPow, Nat.add_zero, Nat.pos_of_ne_zero pos, show src.offset < 128 by omega] at this
      simp at this
      exact low this.2
  · intro h contents i hi
    rcases h with none | ⟨low, all⟩
    · simp [none]
    · simp only [low, Nat.sub_zero, Nat.zero_add]
      grind

theorem sameValue_vmov {size : Nat} {src : Source} (h : src.significant ≤ 8 * size) : SameValue (.vmov size src) src := by
  intro contents
  apply BitVec.eq_of_getLsbD_eq
  intro i hi
  simp [Source.getLsbD_value, Source.significant, Source.offset, Nat.min_eq_right h]

theorem loadedBytes_le (op : LoadOp) (size : Nat) : loadedBytes op size ≤ size := by
  cases op <;> simp only [loadedBytes] <;> (try split) <;> omega

theorem significant_of_isLoad {src : Source} (h : isLoad src = true) : src.significant ≤ 8 * src.size := by
  cases src with
  | load op size =>
    have := loadedBytes_le op size
    simp only [Source.significant, Source.size]
    omega
  | _ => cases h

/-- The source stands for the extract in all values if and only if the extract cuts nothing. -/
theorem zextElimination_same_iff {node new : Source} (h : zextElimination node = some new) :
    SameValue node new ↔ ExtractExact node := by
  cases node with
  | other size => cases h
  | load op size => cases h
  | bfe destSize width lsb src =>
    have : new = src := by
      simp only [zextElimination] at h
      grind
    subst this
    exact sameValue_bfe_iff destSize width lsb new
  | vmov size src =>
    simp only [zextElimination] at h
    split at h
    · rename_i hs
      cases h
      have := significant_of_isLoad hs.2
      exact ⟨fun _ => trivial, fun _ => sameValue_vmov (by omega)⟩
    · cases h

theorem zextElimination_same_low : SameValue (.bfe 8 32 0 (.bfe 8 16 4 (.other 8))) (.bfe 8 16 4 (.other 8)) :=
  (zextElimination_same_iff (by decide)).mpr (.inr (by decide))

theorem zextElimination_loses_shift : ¬ ∀ node new, zextElimination node = some new → SameValue node new := by
  intro same
  have h := same (.bfe 8 8 4 (.bfe 8 8 0 (.other 8))) (.bfe 8 8 0 (.other 8)) (by decide) 1
  revert h
  decide

end FexEmu.ZextElimination
