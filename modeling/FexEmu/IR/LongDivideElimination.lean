import FexEmu.IR.ValueGraph
/-!
# Long divide elimination

The pass turns a division of two registers, whose upper one is a sign or zero, into one of the greater of the sizes of its
two arguments.
-/
namespace FexEmu.ValueGraph

open Interpreter

/-! ## The pass -/

def LongOp.isSigned : LongOp → Bool
  | .LDiv => true
  | .LRem => true
  | .LUDiv => false
  | .LURem => false

def isZeroOp (g : Graph) (arg : NodeID) : Bool :=
  match (g arg).op with
  | .binary .Xor a b => a = b
  | _ =>
    match g.valueConstant arg with
    | some value => value = 0
    | none => false

def isSextOp (g : Graph) (lower upper : NodeID) : Bool :=
  match (g upper).op with
  | .sbfe width lsb src => if width = 1 ∧ lsb = 63 then src = lower else false
  | _ => false

def LongOp.short : LongOp → BinaryOp
  | .LDiv => .Div
  | .LRem => .Rem
  | .LUDiv => .UDiv
  | .LURem => .URem

/-- `_Div`, `_Rem`, `_UDiv` or `_URem` of the nodes. -/
def shortDivide (g : Graph) (op : LongOp) (lower divisor : NodeID) : Header :=
  ⟨.binary op.short lower divisor, maxSize (g lower).size (g divisor).size⟩

def replacement (g : Graph) (codeNode : NodeID) : Option Header :=
  if (g codeNode).size = .i64Bit then
    match (g codeNode).op with
    | .long op lower upper divisor =>
      if op.isSigned then
        if isSextOp g lower upper then some (shortDivide g op lower divisor) else none
      else
        if isZeroOp g upper then some (shortDivide g op lower divisor) else none
    | _ => none
  else none

/-- The nodes in the order of the list, with the name of the next new one. -/
structure Listing where
  graph : Graph
  code : List NodeID
  next : NodeID

/-- A new node behind the one at hand and `ReplaceAllUsesWith`, which removes that one. -/
def Listing.replace (l : Listing) (codeNode : NodeID) (new : Header) : Listing where
  graph n := if n = l.next then new else (l.graph n).mapArgs (fun a => if a = codeNode then l.next else a)
  code := l.code.map (fun n => if n = codeNode then l.next else n)
  next := l.next + 1

def Listing.step (l : Listing) (codeNode : NodeID) : Listing :=
  match replacement l.graph codeNode with
  | some new => l.replace codeNode new
  | none => l

/-- `LongDivideEliminationPass::Run`. The iterator also comes to the new nodes, which are no long divisions. -/
def Listing.run (l : Listing) : Listing := l.code.foldl Listing.step l

/-- The quotient fits in 64 bits. -/
def Representable (op : LongOp) (lower upper divisor : BitVec 64) : Prop :=
  if op.isSigned then
    -2 ^ 63 ≤ (longSource 64 lower upper).toInt.tdiv divisor.toInt ∧
      (longSource 64 lower upper).toInt.tdiv divisor.toInt < 2 ^ 63
  else (longSource 64 lower upper).toNat / divisor.toNat < 2 ^ 64

/-- The operands of a long division. -/
structure Operands (g : Graph) (vals : Valuation) (op : LongOp) (lower upper divisor : NodeID) : Prop where
  computed : Computed g vals upper
  lower_fits : Fits g vals lower
  upper_fits : Fits g vals upper
  divisor_fits : Fits g vals divisor
  divisor_ne : vals divisor ≠ 0
  representable : Representable op (vals lower) (vals upper) (vals divisor)

/-- The new node has the value of the long division, whatever the operands hold. -/
def Preserves (g : Graph) (codeNode : NodeID) (new : Header) : Prop :=
  ∀ op lower upper divisor, (g codeNode).op = .long op lower upper divisor → ∀ vals, Operands g vals op lower upper divisor →
    ∃ v, (g codeNode).value vals = some v ∧ new.value vals = some v

end FexEmu.ValueGraph
