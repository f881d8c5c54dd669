import FexEmu.IR.ValueGraph
/-!
# Constant propagation

`ConstProp::ConstantPropagation` for general registers. The shifts of the pass take the low six bits of a count.
-/
namespace FexEmu.ValueGraph

open Interpreter

def getMask (size : OpSize) : BitVec 64 := ~~~0#64 >>> (64 - size.bits)

def hostShl (a b : BitVec 64) : BitVec 64 := a <<< (b.toNat % 64)

def hostShr (a b : BitVec 64) : BitVec 64 := a >>> (b.toNat % 64)

def popcount (c : BitVec 64) : Nat := c.cpop.toNat

def countrZero (c : BitVec 64) : BitVec 64 := c.ctz

/-! ## Folding -/

/-- What the pass puts in place of an op. -/
inductive Fold
  | constant (value : BitVec 64)
  | node (n : NodeID)
  | lshl (src : NodeID) (amount : BitVec 64)
deriving DecidableEq, Repr

/-- A `Select` between the constants one and zero. -/
def isBoolSelect (g : Graph) (n : NodeID) : Bool :=
  match (g n).op with
  | .select _ _ _ _ t f => g.valueConstant t = some 1 ∧ g.valueConstant f = some 0
  | _ => false

def constants (g : Graph) (a b : NodeID) : Option (BitVec 64 × BitVec 64) :=
  match g.valueConstant a, g.valueConstant b with
  | some c1, some c2 => some (c1, c2)
  | _, _ => none

/-- `Constant2` after the test for two constants: the second argument is looked at if the first is a constant. -/
def secondConstant (g : Graph) (a b : NodeID) : BitVec 64 :=
  if (g.valueConstant a).isSome then (g.valueConstant b).getD 0 else 0

def foldAnd (g : Graph) (size : OpSize) (a b : NodeID) : Option Fold :=
  match constants g a b with
  | some (c1, c2) => some (.constant (c1 &&& c2 &&& getMask size))
  | none =>
    if secondConstant g a b = 1 then
      if isBoolSelect g a then some (.node a) else none
    else if a = b then some (.node a)
    else none

def foldOr (g : Graph) (a b : NodeID) : Option Fold :=
  match constants g a b with
  | some (c1, c2) => some (.constant (c1 ||| c2))
  | none => if a = b then some (.node a) else none

def foldXor (g : Graph) (a b : NodeID) : Option Fold :=
  match constants g a b with
  | some (c1, c2) => some (.constant (c1 ^^^ c2))
  | none => if a = b then some (.constant 0) else none

def foldShift (shift : BitVec 64 → BitVec 64 → BitVec 64) (g : Graph) (size : OpSize) (a b : NodeID) : Option Fold :=
  match constants g a b with
  | some (c1, c2) => some (.constant (shift c1 c2 &&& getMask size))
  | none => if g.valueConstant b = some 0 then some (.node a) else none

def foldMul (g : Graph) (size : OpSize) (a b : NodeID) : Option Fold :=
  match constants g a b with
  | some (c1, c2) => some (.constant (c1 * c2 &&& getMask size))
  | none =>
    match g.valueConstant b with
    | some c2 =>
      if popcount c2 = 1 then
        if size = .i32Bit ∨ size = .i64Bit then some (.lshl a (countrZero c2)) else none
      else none
    | none => none

def foldBinary (g : Graph) (size : OpSize) (op : BinaryOp) (a b : NodeID) : Option Fold :=
  match op with
  | .Add => (constants g a b).map fun (c1, c2) => .constant (c1 + c2 &&& getMask size)
  | .Sub => (constants g a b).map fun (c1, c2) => .constant (c1 - c2 &&& getMask size)
  | .And => foldAnd g size a b
  | .Or => foldOr g a b
  | .Xor => foldXor g a b
  | .Lshl => foldShift hostShl g size a b
  | .Lshr => foldShift hostShr g size a b
  | .Mul => foldMul g size a b
  | _ => none

def foldBfe (g : Graph) (size : OpSize) (width lsb : Nat) (src : NodeID) : Option Fold :=
  match g.valueConstant src with
  | some c => some (.constant ((c &&& (sourceMask width <<< (lsb % 64))) >>> (lsb % 64)))
  | none =>
    if size = (g src).size ∧ width = size.bits ∧ lsb = 0 then none
    else if width = 1 ∧ lsb = 0 then
      if isBoolSelect g src then some (.node src) else none
    else none

def constantPropagation (g : Graph) (codeNode : NodeID) : Option Fold :=
  match (g codeNode).op with
  | .binary op a b => foldBinary g (g codeNode).size op a b
  | .bfe width lsb src => foldBfe g (g codeNode).size width lsb src
  | _ => none

/-! ## What it shall preserve -/

/-- What the interpreter computes for the replacement of a node of the size. -/
def Fold.value (size : OpSize) (vals : Valuation) : Fold → Option (BitVec 64)
  | constant c => some c
  | node n => some (vals n)
  | lshl src amount => opLshl size (vals src) amount

/-- A valuation that the graph around a node can have. -/
structure Admits (g : Graph) (codeNode : NodeID) (vals : Valuation) : Prop where
  constants : ∀ n c, g.valueConstant n = some c → vals n = c
  source : ∀ width lsb src, (g codeNode).op = .bfe width lsb src → Computed g vals src

/-- Both have a value, and the same one in the bits of the size. -/
def SameLow (size : OpSize) (old new : Option (BitVec 64)) : Prop :=
  ∃ v w, old = some v ∧ new = some w ∧ w.setWidth size.bits = v.setWidth size.bits

/-- The replacement has the low bits of the node, whatever the other nodes hold. -/
def Agrees (g : Graph) (codeNode : NodeID) (new : Fold) : Prop :=
  ∀ vals, Admits g codeNode vals → SameLow (g codeNode).size ((g codeNode).value vals) (new.value (g codeNode).size vals)

/-- The constant has no ones in the low bits that 32 more places of a left shift drop. -/
def ShlExact (c1 c2 : BitVec 64) : Prop :=
  32 ≤ c2.toNat % 64 → ∀ i < 64 - c2.toNat % 64, c1.getLsbD i = false

/-- The bits that a right shift takes from the upper half are those it would take from the lower half. -/
def ShrExact (c1 c2 : BitVec 64) : Prop :=
  if c2.toNat % 64 < 32 then ∀ i < c2.toNat % 64, c1.getLsbD (32 + i) = false
  else ∀ i < 64 - c2.toNat % 64, c1.getLsbD (c2.toNat % 64 + i) = c1.getLsbD (c2.toNat % 64 - 32 + i)

/-- The constants for which a node of 4 bytes is folded to what it computes. -/
def FoldExact (g : Graph) (codeNode : NodeID) : Prop :=
  match (g codeNode).op with
  | .binary .Lshl a b => ∀ c1 c2, (g codeNode).size = .i32Bit → constants g a b = some (c1, c2) → ShlExact c1 c2
  | .binary .Lshr a b => ∀ c1 c2, (g codeNode).size = .i32Bit → constants g a b = some (c1, c2) → ShrExact c1 c2
  | .binary .Mul a b =>
    ∀ c2, (g codeNode).size = .i32Bit → constants g a b = none → g.valueConstant b = some c2 → c2.toNat < 2 ^ 32
  | _ => True

end FexEmu.ValueGraph
