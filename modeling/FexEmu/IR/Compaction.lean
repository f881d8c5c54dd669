import FexEmu.Data.Chain
/-!
# Compaction

`IRCompaction::Run` creates the nodes anew in the order of the list. References are mapped by a table that nothing clears.
-/
namespace FexEmu.Compaction

open Chain
open Function (update)

abbrev NodeID := Nat

/-! ## The IR -/

/-- The ops whose arguments the pass rewrites by kind; other stands for the rest. -/
inductive Op (κ : Type)
  | irHeader (blocks : NodeID) (blockCount : Nat)
  | codeBlock (begin last : NodeID)
  | beginBlock (blockHeader : NodeID)
  | endBlock (blockHeader : NodeID)
  | other (data : κ) (args : List NodeID)
deriving DecidableEq, Repr

namespace Op

variable {κ : Type}

def args : Op κ → List NodeID
  | irHeader b _ => [b]
  | codeBlock b l => [b, l]
  | beginBlock h => [h]
  | endBlock h => [h]
  | other _ as => as

def mapArgs (f : NodeID → NodeID) : Op κ → Op κ
  | irHeader b c => irHeader (f b) c
  | codeBlock b l => codeBlock (f b) (f l)
  | beginBlock h => beginBlock (f h)
  | endBlock h => endBlock (f h)
  | other d as => other d (as.map f)

def isEndBlock : Op κ → Bool
  | endBlock _ => true
  | _ => false

end Op

/-- `OrderedNode`. Node 0 is the invalid one, and 0 as a successor is the end of a list. -/
structure OrderedNode (κ : Type) where
  op : Op κ
  next : NodeID
  numUses : Nat
deriving DecidableEq, Repr

/-- `IRListView`: nodes by their place in the list's memory, and `GetSSACount`. -/
structure IR (κ : Type) where
  nodes : NodeID → OrderedNode κ
  ssaCount : Nat

namespace IR

variable {κ : Type}

def next (ir : IR κ) (n : NodeID) : NodeID := (ir.nodes n).next

def headerNode : NodeID := 1

/-- `GetHeader`: its first block and `BlockCount`. -/
def header (ir : IR κ) : NodeID × Nat :=
  match (ir.nodes headerNode).op with
  | .irHeader blocks blockCount => (blocks, blockCount)
  | _ => (0, 0)

/-- `GetBlocks`. -/
def blocks (ir : IR κ) : List NodeID := walk ir.next ir.ssaCount ir.header.1

/-- `GetCode`. -/
def code (ir : IR κ) (block : NodeID) : List NodeID :=
  match (ir.nodes block).op with
  | .codeBlock begin _ => walk ir.next ir.ssaCount begin
  | _ => []

end IR

/-! ## The builder -/

/-- The local builder, with its write cursor. -/
structure Builder (κ : Type) where
  ir : IR κ
  cursor : Option NodeID

namespace Builder

variable {κ : Type}

/-- `ResetWorkingList`: the invalid node takes the first place. What is behind is left in the memory. -/
def resetWorkingList (b : Builder κ) : Builder κ := ⟨⟨b.ir.nodes, 1⟩, none⟩

/-- `CreateNode`, with `append` to the cursor. -/
def createNode (b : Builder κ) (op : Op κ) (numUses : Nat) : Builder κ :=
  let n := b.ir.ssaCount
  match b.cursor with
  | none => ⟨⟨update b.ir.nodes n ⟨op, 0, numUses⟩, n + 1⟩, some n⟩
  | some c =>
    ⟨⟨update (update b.ir.nodes n ⟨op, b.ir.next c, numUses⟩) c { b.ir.nodes c with next := n }, n + 1⟩, some n⟩

def setOp (b : Builder κ) (n : NodeID) (op : Op κ) : Builder κ :=
  { b with ir := { b.ir with nodes := update b.ir.nodes n { b.ir.nodes n with op := op } } }

def addUse (b : Builder κ) (n : NodeID) : Builder κ :=
  { b with
    ir := { b.ir with nodes := update b.ir.nodes n { b.ir.nodes n with numUses := (b.ir.nodes n).numUses + 1 } } }

end Builder

/-! ## The pass -/

/-- The pass's variables. -/
structure State (κ : Type) where
  builder : Builder κ
  remap : NodeID → NodeID
  firstNode : NodeID
  lastNode : NodeID

namespace State

variable {κ : Type}

/-- `_IRHeader`, whose first block is set later. -/
def createHeader (ir : IR κ) (builder : Builder κ) (stale : NodeID → NodeID) : State κ where
  builder := builder.resetWorkingList.createNode (.irHeader 0 ir.header.2) 0
  remap := update (update stale 0 0) IR.headerNode builder.resetWorkingList.ir.ssaCount
  firstNode := 0
  lastNode := 0

/-- `_CodeBlock` with the new header as a dummy for both arguments, and the entry of `GeneratedCodeBlocks`. -/
def createBlock (header : NodeID) (acc : State κ × List (NodeID × NodeID)) (block : NodeID) : State κ × List (NodeID × NodeID) :=
  let st := acc.1
  ({ st with
      builder := ((st.builder.createNode (.codeBlock header header) 0).addUse header).addUse header
      remap := update st.remap block st.builder.ir.ssaCount },
    acc.2 ++ [(block, st.builder.ir.ssaCount)])

/-- A copy of an op. The first node of a block is the one while there is none. -/
def copyOp (ir : IR κ) (st : State κ) (codeNode : NodeID) : State κ where
  builder := st.builder.createNode (ir.nodes codeNode).op (ir.nodes codeNode).numUses
  remap := update st.remap codeNode st.builder.ir.ssaCount
  firstNode := if st.firstNode = 0 then st.builder.ir.ssaCount else st.firstNode
  lastNode := if (ir.nodes codeNode).op.isEndBlock then st.builder.ir.ssaCount else st.lastNode

/-- The code of one of `GeneratedCodeBlocks`. -/
def copyBlock (ir : IR κ) (st : State κ) (block : NodeID × NodeID) : State κ :=
  let st := (ir.code block.1).foldl (copyOp ir) ⟨{ st.builder with cursor := none }, st.remap, 0, 0⟩
  { st with builder := st.builder.setOp block.2 (.codeBlock st.firstNode st.lastNode) }

def fixupOp (remap : NodeID → NodeID) (b : Builder κ) (n : NodeID) : Builder κ :=
  b.setOp n ((b.ir.nodes n).op.mapArgs remap)

def fixupBlock (remap : NodeID → NodeID) (b : Builder κ) (block : NodeID) : Builder κ :=
  (b.ir.code block).foldl (fixupOp remap) b

end State

open State

variable {κ : Type}

def createBlocks (ir : IR κ) (builder : Builder κ) (stale : NodeID → NodeID) : State κ × List (NodeID × NodeID) :=
  let (st, generated) := ir.blocks.foldl (createBlock IR.headerNode) (createHeader ir builder stale, [])
  ({ st with builder := st.builder.setOp IR.headerNode (.irHeader ((generated.map Prod.snd).headD 0) ir.header.2) }, generated)

/-- `IRCompaction::Run`, with the table it leaves. `CopyData` takes the builder's memory as it is. -/
def run (ir : IR κ) (builder : Builder κ) (stale : NodeID → NodeID) : IR κ × (NodeID → NodeID) :=
  let (st, generated) := createBlocks ir builder stale
  let st := generated.foldl (copyBlock ir) st
  let b := (generated.map Prod.snd).foldl (fixupBlock st.remap) st.builder
  (b.ir, st.remap)

end FexEmu.Compaction
