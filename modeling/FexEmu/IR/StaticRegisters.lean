import FexEmu.IR.Context
/-!
# Static registers

`OptimizeStaticRegisters` places nodes in the host registers that hold the guest's: a value that is about to be stored there
(a pre-write), or the load of one (a read alias).
-/
namespace FexEmu.IR.SRA
open Function (update)

abbrev NodeID := Nat

/-- The classes of registers. -/
inductive RegisterClass
  | gpr
  | fpr
  | gprPair
  | gprFixed
  | fprFixed
deriving DecidableEq, Repr

/-- A vector register counts with its `Q` part, also with AVX: this is what the static registers are spilled with. -/
def RegisterClass.regSize : RegisterClass → Nat
  | gpr | gprFixed => 8
  | fpr | fprFixed | gprPair => 16

/-- A register, by its class. -/
structure PhysicalRegister where
  cls : RegisterClass
  reg : Nat
deriving DecidableEq, Repr

/-! ## The block -/

/-- `value` stands for every op but the accesses to static registers; `dest` is the class of its node, if it has one. -/
inductive Op
  | loadRegister (offset : Nat) (cls staticCls : RegisterClass) (size : Nat)
  | storeRegister (value : NodeID) (offset : Nat) (cls staticCls : RegisterClass) (size : Nat)
  | value (dest : Option RegisterClass) (f : List Value → Value) (args : List NodeID)

/-- A node of the IR. -/
structure Node where
  id : NodeID
  op : Op

def Op.args : Op → List NodeID
  | loadRegister .. => []
  | storeRegister v _ _ _ _ => [v]
  | value _ _ as => as

/-- `GetRegClassFromNode`, of an op with a destination. -/
def Op.dest : Op → Option RegisterClass
  | loadRegister _ cls _ _ => some cls
  | storeRegister .. => none
  | value dest _ _ => dest

variable (avx : Bool)

def getRegAndClassFromOffset (offset : Nat) : Option PhysicalRegister :=
  if gregsOffset ≤ offset ∧ offset < gregsOffset + 16 * 8 then some ⟨.gprFixed, (offset - gregsOffset) / 8⟩
  else if xmmOffset ≤ offset ∧ offset < xmmOffset + 16 * xmmRegSize avx then
    some ⟨.fprFixed, (offset - xmmOffset) / xmmRegSize avx⟩
  else none

/-- `regOffs`: where in its register an access starts. -/
def PhysicalRegister.regOffs (r : PhysicalRegister) (offset : Nat) : Nat := offset % r.cls.regSize

/-! ## What it does -/

/-- The temporaries, the static registers, and the values each op was given, for a `LoadRegister` the value it read. -/
structure State where
  env : NodeID → Value
  regs : PhysicalRegister → Value
  trace : List (NodeID × List Value)

/-- Where the nodes live: in a static register, or in a temporary of their own. -/
abbrev Placement := NodeID → Option PhysicalRegister

def separate : Placement := fun _ => none

def extractBytes (v : Value) (offset size : Nat) : Value := v / 256 ^ offset % 256 ^ size

/-- A register of `width` bytes with `size` bytes of `v` inserted at `offset`. -/
def insertBytes (width : Nat) (old v : Value) (offset size : Nat) : Value :=
  (old % 256 ^ offset + v % 256 ^ size * 256 ^ offset + old / 256 ^ (offset + size) * 256 ^ (offset + size)) % 256 ^ width

variable (place : Placement)

def State.get (s : State) (i : NodeID) : Value :=
  match place i with
  | some r => s.regs r
  | none => s.env i

/-- The node `i` gets its value, where it lives. -/
def State.define (s : State) (i : NodeID) (v : Value) : State :=
  match place i with
  | some r => { s with regs := update s.regs r (v % 256 ^ r.cls.regSize) }
  | none => { s with env := update s.env i v }

def State.log (s : State) (i : NodeID) (vs : List Value) : State := { s with trace := s.trace ++ [(i, vs)] }

def exec (s : State) (n : Node) : State :=
  match n.op with
  | .loadRegister offset _ _ size =>
    match getRegAndClassFromOffset avx offset with
    | some r =>
      let v := extractBytes (s.regs r) (r.regOffs offset) size
      (s.define place n.id v).log n.id [v]
    | none => s
  | .storeRegister value offset _ _ size =>
    match getRegAndClassFromOffset avx offset with
    | some r =>
      let v := s.get place value
      { s with
        regs := update s.regs r (insertBytes r.cls.regSize (s.regs r) v (r.regOffs offset) size)
      }.log n.id [v]
    | none => s
  | .value dest f as =>
    let vs := as.map (s.get place)
    match dest with
    | some c => (s.define place n.id (f vs % 256 ^ c.regSize)).log n.id vs
    | none => s.log n.id vs

def run (s : State) (block : List Node) : State := block.foldl (exec avx place) s

/-- The fields of `LiveRange` that the pass over static registers uses. -/
structure LiveRange where
  prefferedRegister : Option PhysicalRegister
  preWritten : Option NodeID
  written : Bool
  cls : Option RegisterClass
deriving DecidableEq, Repr

/-- An op that stores a whole static register may write it early. -/
def isPreWritable (size : Nat) (staticCls : RegisterClass) : Bool :=
  match staticCls with
  | .gprFixed => decide (size = 8)
  | .fprFixed => decide (size = 16)
  | _ => false

def isAliasable (size : Nat) (staticCls : RegisterClass) (offset : Nat) : Bool :=
  match staticCls with
  | .gprFixed => decide (size = 8) && decide (offset % 8 = 0)
  | .fprFixed => decide (size = 16) && decide (offset % 16 = 0)
  | _ => false

variable (isGlobal : NodeID → Bool)

def markPreWrite (ranges : NodeID → LiveRange) (n : Node) : NodeID → LiveRange :=
  match n.op with
  | .storeRegister value offset _ staticCls size =>
    if isPreWritable size staticCls = true ∧ (ranges value).prefferedRegister = none ∧ isGlobal value = false then
      update ranges value
        { ranges value with
          prefferedRegister := getRegAndClassFromOffset avx offset
          preWritten := some n.id
          cls := some staticCls }
    else ranges
  | _ => ranges

/-! ## Second pass -/

/-- The live ranges and the `StaticMaps`: the last span of each static register. -/
structure Pass where
  range : NodeID → LiveRange
  staticMap : PhysicalRegister → Option NodeID

namespace Pass

def setRange (p : Pass) (i : NodeID) (l : LiveRange) : Pass := { p with range := update p.range i l }

def setMap (p : Pass) (r : PhysicalRegister) (i : NodeID) : Pass :=
  { p with staticMap := update p.staticMap r (some i) }

variable (nodeCls : NodeID → Option RegisterClass)

/-- An argument that is accessed after its register was written is demoted. -/
def demoteWritten (p : Pass) (a : NodeID) : Pass :=
  if (p.range a).written then p.setRange a { p.range a with prefferedRegister := none, cls := nodeCls a } else p

def markWritten (p : Pass) (r : PhysicalRegister) : Pass :=
  match p.staticMap r with
  | some u => p.setRange u { p.range u with written := true }
  | none => p

def trackPreWrite (p : Pass) (i : NodeID) : Pass :=
  match (p.range i).prefferedRegister with
  | some r => (p.markWritten r).setMap r i
  | none => p

def demotePreWrite (p : Pass) (r : PhysicalRegister) (cls : RegisterClass) : Pass :=
  match p.staticMap r with
  | some u =>
    if (p.range u).preWritten ≠ none then
      p.setRange u { p.range u with prefferedRegister := none, preWritten := none, cls := some cls }
    else p
  | none => p

def readAlias (p : Pass) (i : NodeID) (r : PhysicalRegister) (offset size : Nat) (staticCls : RegisterClass) : Pass :=
  if isGlobal i = false ∧ (p.range i).prefferedRegister = none ∧ isAliasable size staticCls offset = true then
    let p := p.markWritten r
    (p.setRange i { p.range i with prefferedRegister := some r, cls := some staticCls }).setMap r i
  else p

/-- The `StoreRegister` `i` of `value`: the span of the register is written, unless it is the
pre-write of this store. -/
def storeRegister (p : Pass) (i value : NodeID) (r : PhysicalRegister) : Pass :=
  let p :=
    match p.staticMap r with
    | some u => if (p.range u).preWritten ≠ some i then p.markWritten r else p
    | none => p
  if (p.range value).preWritten = some i then p.setRange value { p.range value with preWritten := none } else p

def visit (p : Pass) (n : Node) : Pass :=
  let p := n.op.args.foldl (demoteWritten nodeCls) p
  match n.op with
  | .loadRegister offset cls staticCls size =>
    let p := p.trackPreWrite n.id
    match getRegAndClassFromOffset avx offset with
    | some r => (p.demotePreWrite r cls).readAlias isGlobal n.id r offset size staticCls
    | none => p
  | .storeRegister value offset _ _ _ =>
    match getRegAndClassFromOffset avx offset with
    | some r => p.storeRegister n.id value r
    | none => p
  | .value (some _) _ _ => p.trackPreWrite n.id
  | .value none _ _ => p

end Pass

def nodeClass (block : List Node) (i : NodeID) : Option RegisterClass :=
  (block.find? (fun n => n.id = i)).bind (fun n => n.op.dest)

/-- The live ranges as `CalculateLiveRange` leaves them. -/
def freshRange (block : List Node) (i : NodeID) : LiveRange :=
  { prefferedRegister := none, preWritten := none, written := false, cls := nodeClass block i }

def preWrites (block : List Node) : NodeID → LiveRange :=
  block.foldl (markPreWrite avx isGlobal) (freshRange block)

def optimizeStaticRegisters (block : List Node) : NodeID → LiveRange :=
  (block.foldl (Pass.visit avx isGlobal (nodeClass block)) ⟨preWrites avx isGlobal block, fun _ => none⟩).range

def placement (block : List Node) : Placement := fun i => (optimizeStaticRegisters avx isGlobal block i).prefferedRegister

end FexEmu.IR.SRA
