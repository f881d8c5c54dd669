import FexEmu.IR.ValueGraph
import Mathlib.Logic.Relation
/-!
# Code motion around selects

`ConstProp::CodeMotionAroundSelects` takes an op past the Select of two constants that it is applied to. The op stays for its
other uses, with another Select.
-/
namespace FexEmu.SelectMotion

open Interpreter
open Function (update)

abbrev NodeID := Nat

/-! ## The IR -/

/-- `unary` is an op of one argument without side effects. -/
inductive Op (υ κ : Type)
  | constant (value : BitVec 64)
  | select (cond : CondClass) (compareSize : Nat) (cmp1 cmp2 trueVal falseVal : NodeID)
  | unary (op : υ) (arg : NodeID)
  | other (op : κ) (args : List NodeID)
deriving DecidableEq, Repr

namespace Op

variable {υ κ : Type}

def args : Op υ κ → List NodeID
  | constant _ => []
  | select _ _ a b t f => [a, b, t, f]
  | unary _ a => [a]
  | other _ as => as

def mapArgs (g : NodeID → NodeID) : Op υ κ → Op υ κ
  | constant c => constant c
  | select c k a b t f => select c k (g a) (g b) (g t) (g f)
  | unary o a => unary o (g a)
  | other o as => other o (as.map g)

def setArg (arg : Nat) (n : NodeID) : Op υ κ → Op υ κ
  | constant c => constant c
  | select c k a b t f =>
    match arg with
    | 0 => select c k n b t f
    | 1 => select c k a n t f
    | 2 => select c k a b n f
    | 3 => select c k a b t n
    | _ => select c k a b t f
  | unary o a => if arg = 0 then unary o n else unary o a
  | other o as => other o (as.set arg n)

end Op

/-- `IROp_Header`. -/
structure Header (υ κ : Type) where
  op : Op υ κ
  size : OpSize
deriving DecidableEq, Repr

/-- The nodes with the counts of their uses, and the code of each block. The last op of a block is its `EndBlock`. -/
structure IR (υ κ : Type) where
  graph : NodeID → Header υ κ
  numUses : NodeID → Nat
  blocks : List (List NodeID)
  next : NodeID

namespace IR

variable {υ κ : Type}

def code (ir : IR υ κ) : List NodeID := ir.blocks.flatten

def isValueConstant (ir : IR υ κ) (n : NodeID) : Bool :=
  match (ir.graph n).op with
  | .constant _ => true
  | _ => false

/-! ## The pass -/

def invalid : NodeID := 0

def addUse (ir : IR υ κ) (n : NodeID) : IR υ κ := { ir with numUses := update ir.numUses n (ir.numUses n + 1) }

def removeUse (ir : IR υ κ) (n : NodeID) : IR υ κ := { ir with numUses := update ir.numUses n (ir.numUses n - 1) }

def setHeader (ir : IR υ κ) (n : NodeID) (header : Header υ κ) : IR υ κ := { ir with graph := update ir.graph n header }

def replaceNodeArgument (ir : IR υ κ) (node : NodeID) (arg : Nat) (newArg : NodeID) : IR υ κ :=
  let header := ir.graph node
  let oldArg := header.op.args.getD arg invalid
  ((ir.removeUse oldArg).addUse newArg).setHeader node { header with op := header.op.setArg arg newArg }

def usesBy (ir : IR υ κ) (node n : NodeID) : Nat := (ir.graph n).op.args.count node

/-- The arguments of one op in `ReplaceAllUsesWithRange`. -/
def replaceUsesBy (ir : IR υ κ) (node newNode n : NodeID) : IR υ κ where
  graph := update ir.graph n
    { ir.graph n with op := (ir.graph n).op.mapArgs (fun a => if a = node then newNode else a) }
  numUses m :=
    if m = node then ir.numUses m - ir.usesBy node n
    else if m = newNode then ir.numUses m + ir.usesBy node n
    else ir.numUses m
  blocks := ir.blocks
  next := ir.next

def replaceAllUsesWithRange (node newNode : NodeID) : (range : List NodeID) → IR υ κ → IR υ κ
  | [], ir => ir
  | n :: range, ir =>
    let replaced := ir.replaceUsesBy node newNode n
    -- The search stops once all uses are gone.
    if ir.usesBy node n ≠ 0 ∧ replaced.numUses node = 0 then replaced
    else replaceAllUsesWithRange node newNode range replaced

def copyBefore (ir : IR υ κ) (selectOp : NodeID) (header : Header υ κ) : IR υ κ where
  graph := update ir.graph ir.next { header with op := header.op.mapArgs (fun _ => invalid) }
  numUses := update ir.numUses ir.next 0
  blocks := ir.blocks.map (fun code => code.flatMap (fun n => if n = selectOp then [ir.next, n] else [n]))
  next := ir.next + 1

/-- The copy of the op for one of the values that the Select chooses from. -/
def moveBefore (ir : IR υ κ) (unaryOp selectOp value : NodeID) (arg : Nat) : IR υ κ :=
  let copied := ir.copyBefore selectOp (ir.graph unaryOp)
  (copied.replaceNodeArgument ir.next 0 value).replaceNodeArgument selectOp arg ir.next

/-- The ops from this one to the last of its block, which is not one of them. -/
def range (code : List NodeID) (unaryOp : NodeID) : List NodeID := (code.dropWhile (· ≠ unaryOp)).dropLast

def selectOf (ir : IR υ κ) (unaryOp : NodeID) : Option NodeID :=
  match (ir.graph unaryOp).op with
  | .unary _ selectOp =>
    match (ir.graph selectOp).op with
    | .select _ _ _ _ trueVal falseVal =>
      if (ir.graph selectOp).size = (ir.graph unaryOp).size ∧ ir.numUses selectOp = 1 ∧ ir.isValueConstant trueVal ∧
          ir.isValueConstant falseVal then
        some selectOp
      else none
    | _ => none
  | _ => none

def choices (ir : IR υ κ) (selectOp : NodeID) : NodeID × NodeID :=
  match (ir.graph selectOp).op with
  | .select _ _ _ _ trueVal falseVal => (trueVal, falseVal)
  | _ => (invalid, invalid)

def moveAround (ir : IR υ κ) (unaryOp selectOp : NodeID) : IR υ κ :=
  let first := ir.moveBefore unaryOp selectOp (ir.choices selectOp).1 2
  first.moveBefore unaryOp selectOp (first.choices selectOp).2 3

def step (ir : IR υ κ) (block : Nat) (unaryOp : NodeID) : IR υ κ :=
  match ir.selectOf unaryOp with
  | some selectOp =>
    let copied := ir.moveAround unaryOp selectOp
    replaceAllUsesWithRange unaryOp selectOp (range (copied.blocks.getD block []) unaryOp) copied
  | none => ir

def places (ir : IR υ κ) : List (Nat × NodeID) := ir.blocks.zipIdx.flatMap (fun block => block.1.map (block.2, ·))

/-- `CodeMotionAroundSelects`. The iterator also comes to copies, which are applied to constants. -/
def codeMotionAroundSelects (ir : IR υ κ) : IR υ κ := ir.places.foldl (fun ir place => ir.step place.1 place.2) ir

end IR

/-! ## Running the IR -/

/-- What the pass does not look into. The op of one argument may read the state but does not change it. -/
structure Machine (υ κ σ : Type) where
  unary : υ → OpSize → BitVec 64 → σ → BitVec 64
  other : κ → OpSize → List (BitVec 64) → σ → BitVec 64 × σ
  /-- The block that comes next. -/
  successor : σ → Option Nat

/-- An op that ran, with the values it read and the state it ran in. -/
structure Event (σ : Type) where
  node : NodeID
  reads : List (BitVec 64)
  value : BitVec 64
  state : σ

abbrev History (σ : Type) := List (Event σ)

namespace History

variable {σ : Type}

def last (h : History σ) (n : NodeID) : Option (Event σ) := h.find? (fun e => e.node = n)

def before (h : History σ) (n : NodeID) : History σ := (h.dropWhile (fun e => e.node ≠ n)).tail

def valueOf (h : History σ) (n : NodeID) : Option (BitVec 64) := (h.last n).map Event.value

def vals (h : History σ) (n : NodeID) : BitVec 64 := (h.valueOf n).getD 0

end History

/-- A run: what has been seen, the state, and the nodes to come. -/
structure Config (σ : Type) where
  history : History σ
  state : σ
  pending : List NodeID

namespace Machine

variable {υ κ σ : Type} (m : Machine υ κ σ)

def eval (header : Header υ κ) (vals : NodeID → BitVec 64) (state : σ) : BitVec 64 × σ :=
  match header.op with
  | .constant c => (c, state)
  | .select cond k a b t f => (opSelect header.size k cond (vals a) (vals b) (vals t) (vals f), state)
  | .unary op a => (m.unary op header.size (vals a) state, state)
  | .other op as => m.other op header.size (as.map vals) state

def step (ir : IR υ κ) (c : Config σ) : Option (Config σ) :=
  match c.pending with
  | [] =>
    match m.successor c.state with
    | some block => (ir.blocks[block]?).map (fun code => { c with pending := code })
    | none => none
  | n :: pending =>
    let header := ir.graph n
    if header.op.args.all (fun a => (c.history.valueOf a).isSome) then
      let (value, state) := m.eval header c.history.vals c.state
      some ⟨⟨n, header.op.args.map c.history.vals, value, c.state⟩ :: c.history, state, pending⟩
    else none

def start (ir : IR υ κ) (state : σ) : Config σ := ⟨[], state, ir.blocks.getD 0 []⟩

/-- Some steps lead from one configuration to the other. -/
def Reaches (ir : IR υ κ) (c d : Config σ) : Prop := Relation.ReflTransGen (fun c d => m.step ir c = some d) c d

end Machine

/-! ## What it shall preserve -/

namespace IR

variable {υ κ σ : Type}

/-- The pass moves this unary op in front of this select. -/
def Moves (ir : IR υ κ) (unaryOp selectOp : NodeID) : Prop := unaryOp ∈ ir.code ∧ ir.selectOf unaryOp = some selectOp

instance (ir : IR υ κ) (unaryOp selectOp : NodeID) : Decidable (ir.Moves unaryOp selectOp) := inferInstanceAs (Decidable (_ ∧ _))

/-- How many of its reads an op keeps. A Select that an op is moved around gets new values to choose from. -/
def watched (ir : IR υ κ) (n : NodeID) : Nat :=
  if (ir.selectOf n).isSome then 0
  else if ir.code.any (fun u => ir.selectOf u = some n) then 2
  else (ir.graph n).op.args.length

def uses (ir : IR υ κ) (h : History σ) : List (NodeID × List (BitVec 64)) :=
  (h.filter (fun e => e.node < ir.next)).map (fun e => (e.node, e.reads.take (ir.watched e.node)))

/-- Nodes that lie between a select and the op that is moved. -/
def InRange (ir : IR υ κ) (unaryOp n : NodeID) : Prop := ∃ code ∈ ir.blocks, unaryOp ∈ code ∧ n ∈ range code unaryOp

instance (ir : IR υ κ) (unaryOp n : NodeID) : Decidable (ir.InRange unaryOp n) := inferInstanceAs (Decidable (∃ _ ∈ _, _))

/-- A list in which no node comes twice, arguments are nodes, and the uses are counted. -/
structure WellFormed (ir : IR υ κ) : Prop where
  nodup : ir.code.Nodup
  lt_next : ∀ n ∈ ir.code, n < ir.next
  valid : invalid ∉ ir.code
  args : ∀ n ∈ ir.code, ∀ a ∈ (ir.graph n).op.args, a ∈ ir.code
  numUses : ∀ n ∈ ir.code, ir.numUses n = (ir.code.map (ir.usesBy n)).sum

end IR

namespace Machine

variable {υ κ σ : Type} (m : Machine υ κ σ)

/-- Whatever the ops of the IR read in a run, they also read in a run of the other one. -/
def Preserves (ir ir' : IR υ κ) (state : σ) : Prop :=
  ∀ c, m.Reaches ir (start ir state) c →
    ∃ c', m.Reaches ir' (start ir' state) c' ∧ ir.uses c'.history = ir.uses c.history ∧ c'.state = c.state

/-- What the Select gives with the op applied to the values that it chooses from. -/
def moved (ir : IR υ κ) (unaryOp selectOp : NodeID) (e : Event σ) : BitVec 64 :=
  match (ir.graph unaryOp).op, (ir.graph selectOp).op, e.reads with
  | .unary op _, .select cond k _ _ _ _, [a, b, t, f] =>
    let size := (ir.graph unaryOp).size
    opSelect size k cond a b (m.unary op size t e.state) (m.unary op size f e.state)
  | _, _, _ => 0

def again (ir : IR υ κ) (unaryOp : NodeID) (v : BitVec 64) (e : Event σ) : BitVec 64 :=
  match (ir.graph unaryOp).op with
  | .unary op _ => m.unary op (ir.graph unaryOp).size v e.state
  | _ => 0

/-- An op about to run may read the moved op: from the rest of its block it gives what it would have given at the Select,
from elsewhere that also when applied to its own result. -/
def ReadsRight (ir : IR υ κ) (c : Config σ) (n : NodeID) : Prop :=
  ∀ u s, ir.Moves u s → u ∈ (ir.graph n).op.args → ∀ e, c.history.last u = some e →
    if ir.InRange u n then ∀ e', c.history.last s = some e' → m.moved ir u s e' = e.value
    else ∀ e', (c.history.before u).last s = some e' → m.again ir u (m.moved ir u s e') e = e.value

/-- In no run is a node read for which the moved ops give another value. -/
def AllReadRight (ir : IR υ κ) (state : σ) : Prop :=
  ∀ c d n pending, m.Reaches ir (start ir state) c → c.pending = n :: pending → m.step ir c = some d → m.ReadsRight ir c n

end Machine

end FexEmu.SelectMotion
