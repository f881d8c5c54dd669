import Mathlib.Logic.Relation
import Mathlib.Tactic
/-!
# Value dominance validation

Blocks are intervals of node ids, and the blocks that lead to a block a set that is ordered by the nodes' places in memory.
-/
namespace FexEmu.ValueDominance

/-- The ops that end a block, and all others. -/
inductive Op
  | condJump (trueBlock falseBlock : Nat)
  | jump (targetBlock : Nat)
  | other
deriving DecidableEq, Repr

def Op.targets : Op → List Nat
  | condJump t f => [t, f]
  | jump t => [t]
  | other => []

/-- An op with its arguments. -/
structure Node where
  id : Nat
  op : Op
  args : List Nat
deriving DecidableEq, Repr

/-- A `CodeBlock`. -/
structure Block where
  id : Nat
  begin : Nat
  last : Nat
  code : List Node
deriving DecidableEq, Repr

/-- The IR that the pass validates. -/
structure IR where
  header : Nat
  blocks : List Block
deriving DecidableEq, Repr

/-- `GetOp<IROp_CodeBlock>`. -/
def IR.block (ir : IR) (id : Nat) : Option Block := ir.blocks.find? fun b => b.id == id

/-- The first loop over the code: `OffsetToBlockMap`, of which the second loop reads the predecessors. -/
def addPredecessor (block : Nat) (preds : Nat → List Nat) (target : Nat) : Nat → List Nat :=
  Function.update preds target (preds target ++ [block])

def offsetToBlockMap (ir : IR) : Nat → List Nat :=
  ir.blocks.foldl (fun preds b =>
    b.code.foldl (fun preds node => node.op.targets.foldl (addPredecessor b.id) preds) preds) fun _ => []

/-- The `insert` of a set, and whether anything was inserted so far. -/
def insertPredecessor (s : List Nat × Bool) (pred : Nat) : List Nat × Bool :=
  if pred ∈ s.1 then s else (s.1.orderedInsert (· ≤ ·) pred, true)

/-- `todo` are the elements of the set from `NodeIt` on; after an insertion, it is the whole set again. -/
def gather (preds : Nat → List Nat) : Nat → List Nat → List Nat → Option (List Nat)
  | 0, _, _ => none
  | _ + 1, set, [] => some set
  | fuel + 1, set, node :: todo =>
    let (set, inserted) := (preds node).foldl insertPredecessor (set, false)
    gather preds fuel set (if inserted then set else todo)

def gatherFuel (ir : IR) : Nat := (ir.blocks.length + 1) * (ir.blocks.length + 1)

def Block.holds (b : Block) (arg : Nat) : Bool := b.begin ≤ arg && arg < b.last

def foundPredDefine (ir : IR) (predecessors : List Nat) (arg : Nat) : Bool :=
  predecessors.any fun pred => (ir.block pred).any (·.holds arg)

def checkArg (ir : IR) (b : Block) (codeID arg : Nat) : Option Bool :=
  if arg = 0 then some false
  else if arg = ir.header then some false
  else if b.holds arg then some (codeID < arg)
  else if arg < b.begin then
    (gather (offsetToBlockMap ir) (gatherFuel ir) [b.id] [b.id]).map fun predecessors => !foundPredDefine ir predecessors arg
  else some (b.last < arg)

/-- `HadError` behind the arguments of a node, the nodes of a block, and the blocks. -/
def checkNode (ir : IR) (b : Block) (hadError : Bool) (node : Node) : Option Bool :=
  node.args.foldlM (fun hadError arg => (checkArg ir b node.id arg).map (hadError || ·)) hadError

def checkBlock (ir : IR) (hadError : Bool) (b : Block) : Option Bool := b.code.foldlM (checkNode ir b) hadError

/-- `HadError` in the end of `Run`. -/
def run (ir : IR) : Option Bool := ir.blocks.foldlM (checkBlock ir) false

end FexEmu.ValueDominance
