import FexEmu.IR.Context
/-!
# Redundant context loads and stores

The pass remembers the last access to each member of the context: a load that it answers becomes a node, and a store that the
next one overwrites is removed.
-/
namespace FexEmu.IR.RCLSE
open Function (update)

/-- The classes of values that the context holds. -/
inductive RegisterClass
  | gpr
  | fpr
deriving DecidableEq, Repr

abbrev NodeID := Nat

/-- The class of a node's value and `GetOpSize` of the node. -/
structure NodeType where
  cls : RegisterClass
  size : Nat
deriving DecidableEq, Repr

/-! ## The IR -/

/-- `value` stands for every op that only computes. `constant`, `bfe` and `vmov` are the ones the pass inserts. -/
inductive Op
  | storeContext (cls : RegisterClass) (size offset : Nat) (value : NodeID)
  | loadContext (cls : RegisterClass) (size offset : Nat)
  | storeFlag (flag : Nat) (value : NodeID)
  | loadFlag (flag : Nat)
  | invalidateFlags (flags : BitVec 64)
  | syscall (optimizeThrough : Bool) (args : List NodeID)
  | storeContextIndexed (size baseOffset stride : Nat) (index value : NodeID)
  | loadContextIndexed (size baseOffset stride : Nat) (index : NodeID)
  | brk
  | value (f : List Value → Value) (args : List NodeID)
  | constant (v : Value)
  | bfe (width : Nat) (src : NodeID)
  | vmov (size : Nat) (src : NodeID)

/-- A node of the IR. -/
structure Node where
  id : NodeID
  op : Op

namespace Op

def args : Op → List NodeID
  | storeContext _ _ _ v | storeFlag _ v => [v]
  | syscall _ as | value _ as => as
  | storeContextIndexed _ _ _ i v => [i, v]
  | loadContextIndexed _ _ _ i => [i]
  | bfe _ s | vmov _ s => [s]
  | _ => []

def mapArgs (f : NodeID → NodeID) : Op → Op
  | storeContext c z o v => storeContext c z o (f v)
  | storeFlag fl v => storeFlag fl (f v)
  | syscall t as => syscall t (as.map f)
  | storeContextIndexed z b s i v => storeContextIndexed z b s (f i) (f v)
  | loadContextIndexed z b s i => loadContextIndexed z b s (f i)
  | value g as => value g (as.map f)
  | bfe w s => bfe w (f s)
  | vmov z s => vmov z (f s)
  | op => op

end Op

/-! ## What it does -/

/-- `events` are the ops other than context accesses, with their values; `invalid` marks the flags named since their last
store. -/
structure State where
  ssa : NodeID → Value
  ctx : Context
  events : List (NodeID × List Value)
  invalid : Nat → Bool

abbrev SyscallHandler := Context → List Value → Context × Value

/-- What one that is optimised through returns: the context has no part in it. -/
abbrev InlineHandler := List Value → Value

def State.set (s : State) (i : NodeID) (v : Value) : State := { s with ssa := update s.ssa i v }

variable (sys : SyscallHandler) (inline : InlineHandler)

def exec (s : State) (n : Node) : State :=
  match n.op with
  | .storeContext _ size offset v =>
    { s with
      ctx := storeBytes s.ctx offset size (s.ssa v)
      invalid := if isFlagByte offset then update s.invalid (offset - flagsOffset) false else s.invalid }
  | .loadContext _ size offset => s.set n.id (loadBytes s.ctx offset size)
  | .storeFlag flag v =>
    { s with
      ctx := storeBytes s.ctx (flagsOffset + flag) 1 (s.ssa v)
      invalid := update s.invalid flag false }
  | .loadFlag flag => s.set n.id (loadBytes s.ctx (flagsOffset + flag) 1)
  | .invalidateFlags flags => { s with invalid := fun f => s.invalid f || flags.getLsbD f }
  | .syscall true as =>
    { s.set n.id (inline (as.map s.ssa)) with events := s.events ++ [(n.id, as.map s.ssa)] }
  | .syscall false as =>
    { s.set n.id (sys s.ctx (as.map s.ssa)).2 with
      ctx := (sys s.ctx (as.map s.ssa)).1
      events := s.events ++ [(n.id, as.map s.ssa)] }
  | .storeContextIndexed size base stride i v =>
    { s with ctx := storeBytes s.ctx (base + s.ssa i * stride) size (s.ssa v) }
  | .loadContextIndexed size base stride i => s.set n.id (loadBytes s.ctx (base + s.ssa i * stride) size)
  | .brk => { s with events := s.events ++ [(n.id, [])] }
  | .value f as => { s.set n.id (f (as.map s.ssa)) with events := s.events ++ [(n.id, as.map s.ssa)] }
  | .constant v => s.set n.id v
  | .bfe width src => s.set n.id (s.ssa src % 2 ^ width)
  | .vmov size src => s.set n.id (s.ssa src % 256 ^ size)

def run (s : State) (ns : List Node) : State := ns.foldl (exec sys inline) s

/-! ## The members of the context -/

/-- A member of the context. -/
structure Member where
  offset : Nat
  size : Nat
deriving DecidableEq, Repr

variable (avx : Bool)

/-- The member at `a` of an array of members of one size that starts at `base`. -/
def memberIn (base size a : Nat) : Member := ⟨base + (a - base) / size * size, size⟩

/-- The member of `ClassifyContextStruct` that an offset is in. Without AVX the second half of `xmm` is one member of
padding. -/
def findMember (a : Nat) : Member :=
  if a < gregsOffset then memberIn ripOffset 8 a
  else if a < 136 then memberIn gregsOffset 8 a
  else if a < 144 then memberIn 136 2 a
  else if a < xmmOffset then memberIn 144 8 a
  else if a < flagsOffset then
    if avx then memberIn xmmOffset 32 a
    else if a < 416 then memberIn xmmOffset 16 a
    else memberIn 416 256 a
  else if a < mmOffset then memberIn flagsOffset 1 a
  else if a < 848 then memberIn mmOffset 16 a
  else if a < 976 then memberIn 848 4 a
  else memberIn 976 2 a

def isPadding (a : Nat) : Bool := !avx && decide (a = 416)

/-! ## The records -/

/-- `LastAccessType`. -/
inductive LastAccess
  | none
  | invalid
  | write
  | read
deriving DecidableEq, Repr

/-- `ContextMemberInfo`, with the `ACCESS_PARTIAL` bit of `Accessed` apart. -/
structure MemberInfo where
  accessed : LastAccess
  isPartial : Bool
  cls : RegisterClass
  offset : Nat
  size : Nat
  node : NodeID
  storeNode : Option NodeID
deriving DecidableEq, Repr

/-- The record of the member at an offset after `ResetClassificationAccesses`. -/
def resetInfo (a : Nat) : MemberInfo :=
  { accessed := if isPadding avx a then .invalid else .none
    isPartial := false, cls := .gpr, offset := 0, size := 0, node := 0, storeNode := .none }

def recordAccess (m : Member) (r : MemberInfo) (cls : RegisterClass) (offset size : Nat) (access : LastAccess)
    (node : NodeID) (storeNode : Option NodeID) : MemberInfo :=
  { accessed := access
    isPartial := decide (size < m.size)
    cls := cls, offset := offset, size := size, node := node
    storeNode := storeNode <|> r.storeNode }

/-! ## The pass -/

/-- The block so far as rewritten, the records by the offset of their member, what uses were replaced with, and the node
types. -/
structure Pass where
  done : List Node
  info : Nat → MemberInfo
  subst : NodeID → NodeID
  type : NodeID → NodeType
  next : NodeID

namespace Pass

def setInfo (p : Pass) (k : Nat) (r : MemberInfo) : Pass := { p with info := update p.info k r }

def reset (p : Pass) : Pass := { p with info := resetInfo avx }

def push (p : Pass) (n : Node) : Pass := { p with done := p.done ++ [n] }

def remove (p : Pass) (i : NodeID) : Pass := { p with done := p.done.filter (fun n => n.id ≠ i) }

/-- An op inserted after the visited one, whose number is `p.next`. -/
def insert (p : Pass) (t : NodeType) (op : Op) : Pass :=
  { p with done := p.done ++ [⟨p.next, op⟩], type := update p.type p.next t, next := p.next + 1 }

/-- The ops that are still to come get the new argument when they are visited. -/
def replaceUses (p : Pass) (i new : NodeID) : Pass := { p with subst := update p.subst i new }

def storeContext (p : Pass) (i : NodeID) (cls : RegisterClass) (size offset : Nat) (v : NodeID) : Pass :=
  let m := findMember avx offset
  let last := p.info m.offset
  let p' := p.setInfo m.offset (recordAccess m last cls offset size .write v (some i))
  if last.accessed = .write ∧ last.cls = cls ∧ last.offset = offset ∧ last.size ≤ size then
    match last.storeNode with
    | some st => (p'.remove st).push ⟨i, .storeContext cls size offset v⟩
    | none => p'.push ⟨i, .storeContext cls size offset v⟩
  else p'.push ⟨i, .storeContext cls size offset v⟩

/-- Replaces the load `i` of a member by `node` and records the read. -/
def forward (p : Pass) (m : Member) (i : NodeID) (cls : RegisterClass) (size offset : Nat) (node : NodeID) : Pass :=
  (p.setInfo m.offset (recordAccess m (p.info m.offset) cls offset size .read node none)).replaceUses i node

/-- A load that a store of the `GPR` class answers. -/
def forwardGPR (p : Pass) (m : Member) (i : NodeID) (size offset : Nat) (last : MemberInfo) : Pass :=
  let nodeSize := (p.type last.node).size
  let storeSize := (last.storeNode.map (fun st => (p.type st).size)).getD 0
  let truncateSize := min (min nodeSize storeSize) size
  if truncateSize ≠ nodeSize then
    (p.insert ⟨.gpr, size⟩ (.bfe (truncateSize * 8) last.node)).forward m i .gpr size offset p.next
  else p.forward m i .gpr size offset last.node

/-- A load that a store of the `FPR` class answers. -/
def forwardFPR (p : Pass) (m : Member) (i : NodeID) (size offset : Nat) (last : MemberInfo) : Pass :=
  let nodeSize := (p.type last.node).size
  let vmov := (p.insert ⟨.fpr, size⟩ (.vmov size last.node)).forward m i .fpr size offset p.next
  if last.size = size ∧ last.size = nodeSize then
    if (p.info m.offset).isPartial then vmov else p.forward m i .fpr size offset last.node
  else if size ≤ last.size ∧ size = nodeSize then p.forward m i .fpr size offset last.node
  else if size ≤ last.size ∧ size < nodeSize then vmov
  else if size ≤ last.size ∧ nodeSize < size then vmov
  else p

def loadContext (p : Pass) (i : NodeID) (cls : RegisterClass) (size offset : Nat) : Pass :=
  let m := findMember avx offset
  let last := p.info m.offset
  let p := (p.setInfo m.offset (recordAccess m last cls offset size .read i none)).push ⟨i, .loadContext cls size offset⟩
  if last.accessed = .write ∧ last.cls = cls ∧ last.offset = offset ∧ size ≤ last.size then
    match cls with
    | .gpr => p.forwardGPR m i size offset last
    | .fpr => p.forwardFPR m i size offset last
  else if last.accessed = .read ∧ last.cls = cls ∧ last.offset = offset ∧ last.size = size then
    p.forward m i cls size offset last.node
  else p

def storeFlag (p : Pass) (i : NodeID) (flag : Nat) (v : NodeID) : Pass :=
  let m := findMember avx (flagsOffset + flag)
  let last := p.info m.offset
  let p' := p.setInfo m.offset (recordAccess m last .gpr (flagsOffset + flag) 1 .write v (some i))
  match last.storeNode with
  | some st => (p'.remove st).push ⟨i, .storeFlag flag v⟩
  | none => p'.push ⟨i, .storeFlag flag v⟩

def loadFlag (p : Pass) (i : NodeID) (flag : Nat) : Pass :=
  let m := findMember avx (flagsOffset + flag)
  let last := p.info m.offset
  let p := p.push ⟨i, .loadFlag flag⟩
  if last.accessed = .write ∨ last.accessed = .read then p.forward m i .gpr 1 (flagsOffset + flag) last.node else p

/-- `InvalidateFlags` for one of its flags. Each constant goes right behind the op, before those of the flags done first. -/
def invalidateFlag (i : NodeID) (flags : BitVec 64) (p : Pass) (flag : Nat) : Pass :=
  let m := findMember avx (flagsOffset + flag)
  let last := p.info m.offset
  if flags.getLsbD flag then
    match last.storeNode with
    | some st =>
      ((p.setInfo m.offset (recordAccess m last .gpr (flagsOffset + flag) 1 .write p.next (some i))).remove st).insert
        ⟨.gpr, 8⟩ (.constant 0)
    | none => p
  else p

def numEflagBits : Nat := 32

def invalidateFlags (p : Pass) (i : NodeID) (flags : BitVec 64) : Pass :=
  (List.range numEflagBits).foldl (invalidateFlag avx i flags) (p.push ⟨i, .invalidateFlags flags⟩)

def visit (p : Pass) (n : Node) : Pass :=
  match n.op.mapArgs p.subst with
  | .storeContext cls size offset v => p.storeContext avx n.id cls size offset v
  | .loadContext cls size offset => p.loadContext avx n.id cls size offset
  | .storeFlag flag v => p.storeFlag avx n.id flag v
  | .loadFlag flag => p.loadFlag avx n.id flag
  | .invalidateFlags flags => p.invalidateFlags avx n.id flags
  | .syscall true as => p.push ⟨n.id, .syscall true as⟩
  | .syscall false as => (p.reset avx).push ⟨n.id, .syscall false as⟩
  | .storeContextIndexed size base stride i v => (p.reset avx).push ⟨n.id, .storeContextIndexed size base stride i v⟩
  | .loadContextIndexed size base stride i => (p.reset avx).push ⟨n.id, .loadContextIndexed size base stride i⟩
  | .brk => (p.reset avx).push ⟨n.id, .brk⟩
  | op => p.push ⟨n.id, op⟩

/-- The start of a block whose nodes, and those it uses, are numbered below `next`. -/
def start (type : NodeID → NodeType) (next : NodeID) : Pass :=
  { done := [], info := resetInfo avx, subst := id, type := type, next := next }

end Pass

def redundantStoreLoadElimination (type : NodeID → NodeType) (next : NodeID) (block : List Node) : List Node :=
  (block.foldl (Pass.visit avx) (Pass.start avx type next)).done

end FexEmu.IR.RCLSE
