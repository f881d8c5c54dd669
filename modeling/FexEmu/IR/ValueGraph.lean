import FexEmu.Interpreter.ALUOpsProofs
/-!
# Nodes of general registers

A node is what the interpreter computes for it. A valuation gives each node its slot of 64 bits.
-/
namespace FexEmu.ValueGraph

open Interpreter

abbrev NodeID := Nat

/-! ## Ops -/

/-- The binary ops that the interpreter computes. -/
inductive BinaryOp
  | Add
  | Sub
  | Mul
  | Or
  | And
  | Xor
  | Lshl
  | Lshr
  | Div
  | UDiv
  | Rem
  | URem
deriving DecidableEq, Repr

def BinaryOp.run : BinaryOp → OpSize → BitVec 64 → BitVec 64 → Option (BitVec 64)
  | Add => opAdd
  | Sub => opSub
  | Mul => opMul
  | Or => opOr
  | And => opAnd
  | Xor => opXor
  | Lshl => opLshl
  | Lshr => opLshr
  | Div => opDiv
  | UDiv => opUDiv
  | Rem => opRem
  | URem => opURem

/-- The divisions of a dividend in two registers. -/
inductive LongOp
  | LDiv
  | LUDiv
  | LRem
  | LURem
deriving DecidableEq, Repr

def LongOp.run : LongOp → OpSize → (lower upper divisor : BitVec 64) → Option (BitVec 64)
  | LDiv => opLDiv
  | LUDiv => opLUDiv
  | LRem => opLRem
  | LURem => opLURem

/-- `other` stands for any op whose result is not that of its arguments alone. -/
inductive Op
  | constant (value : BitVec 64)
  | binary (op : BinaryOp) (src1 src2 : NodeID)
  | long (op : LongOp) (lower upper divisor : NodeID)
  | bfe (width lsb : Nat) (src : NodeID)
  | sbfe (width lsb : Nat) (src : NodeID)
  | select (cond : CondClass) (compareSize : Nat) (cmp1 cmp2 trueVal falseVal : NodeID)
  | other (args : List NodeID)
deriving DecidableEq, Repr

namespace Op

def args : Op → List NodeID
  | constant _ => []
  | binary _ a b => [a, b]
  | long _ l u d => [l, u, d]
  | bfe _ _ s => [s]
  | sbfe _ _ s => [s]
  | select _ _ a b t f => [a, b, t, f]
  | other as => as

def mapArgs (f : NodeID → NodeID) : Op → Op
  | constant c => constant c
  | binary o a b => binary o (f a) (f b)
  | long o l u d => long o (f l) (f u) (f d)
  | bfe w l s => bfe w l (f s)
  | sbfe w l s => sbfe w l (f s)
  | select c k a b t e => select c k (f a) (f b) (f t) (f e)
  | other as => other (as.map f)

end Op

/-- `IROp_Header`: an op with its size. -/
structure Header where
  op : Op
  size : OpSize
deriving DecidableEq, Repr

abbrev Graph := NodeID → Header

abbrev Valuation := NodeID → BitVec 64

/-! ## Values -/

/-- What the interpreter computes. It is `none` for an op that is not one of its arguments alone, and for one that traps. -/
def Header.value (vals : Valuation) (header : Header) : Option (BitVec 64) :=
  match header.op with
  | .constant c => some c
  | .binary op a b => op.run header.size (vals a) (vals b)
  | .long op l u d => op.run header.size (vals l) (vals u) (vals d)
  | .bfe width lsb s => some (opBfe width lsb (vals s))
  | .sbfe width lsb s => some (opSbfe width lsb (vals s))
  | .select cond k a b t f => some (opSelect header.size k cond (vals a) (vals b) (vals t) (vals f))
  | .other _ => none

/-- The node has the value that its op computes. -/
def Computed (g : Graph) (vals : Valuation) (n : NodeID) : Prop := ∀ v, (g n).value vals = some v → vals n = v

/-- The value has no more bits than the node. -/
def Fits (g : Graph) (vals : Valuation) (n : NodeID) : Prop := (vals n).toNat < 2 ^ (g n).size.bits

instance (g : Graph) (vals : Valuation) (n : NodeID) : Decidable (Fits g vals n) := inferInstanceAs (Decidable (_ < _))

/-- No node is its own argument, and a signed extract has 8 bytes. -/
structure Graph.WellFormed (g : Graph) : Prop where
  irreflexive : ∀ n, n ∉ (g n).op.args
  sbfe_size : ∀ n width lsb src, (g n).op = .sbfe width lsb src → (g n).size = .i64Bit

def Graph.valueConstant (g : Graph) (n : NodeID) : Option (BitVec 64) :=
  match (g n).op with
  | .constant c => some c
  | _ => none

def Header.mapArgs (f : NodeID → NodeID) (header : Header) : Header := { header with op := header.op.mapArgs f }

theorem Header.value_mapArgs (f : NodeID → NodeID) (vals : Valuation) (header : Header) :
    (header.mapArgs f).value vals = header.value (vals ∘ f) := by
  obtain ⟨op, size⟩ := header
  cases op <;> rfl

theorem Op.args_mapArgs (f : NodeID → NodeID) (op : Op) : (op.mapArgs f).args = op.args.map f := by
  cases op <;> rfl

theorem Header.value_congr {vals vals' : Valuation} {header : Header} (h : ∀ a ∈ header.op.args, vals a = vals' a) :
    header.value vals = header.value vals' := by
  obtain ⟨op, size⟩ := header
  cases op <;> simp_all [value, Op.args]

theorem Graph.valueConstant_eq_some {g : Graph} {n : NodeID} {c : BitVec 64} :
    g.valueConstant n = some c ↔ (g n).op = .constant c := by
  simp only [valueConstant]
  split <;> simp_all

/-! ## Sizes -/

/-- `std::max` of two sizes. -/
def maxSize (a b : OpSize) : OpSize := if a.bits ≤ b.bits then b else a

theorem bits_le_max_left (a b : OpSize) : a.bits ≤ (maxSize a b).bits := by
  simp only [maxSize]
  split
  · assumption
  · exact le_rfl

theorem bits_le_max_right (a b : OpSize) : b.bits ≤ (maxSize a b).bits := by
  simp only [maxSize]
  split
  · exact le_rfl
  · omega

theorem bits_le_64 (a : OpSize) : a.bits ≤ 64 := by
  cases a <;> simp [OpSize.bits]

theorem maxSize_eq_64 {a b : OpSize} (h : a = .i64Bit ∨ b = .i64Bit) : maxSize a b = .i64Bit := by
  rcases h with rfl | rfl
  · cases b <;> rfl
  · cases a <;> rfl

theorem zext_of_fits {size : OpSize} {v : BitVec 64} (h : v.toNat < 2 ^ size.bits) : zext size v = v := by
  apply BitVec.eq_of_toNat_eq
  have h64 : v.toNat < 2 ^ 64 := v.isLt
  simp only [zext, BitVec.toNat_setWidth, Nat.mod_eq_of_lt h, Nat.mod_eq_of_lt h64]

end FexEmu.ValueGraph
