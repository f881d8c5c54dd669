import FexEmu.IR.ValueGraph
/-!
# Address folding

What `ConstProp` does to the operands of `LoadMem` and `StoreMem`: sums become a base with an extended and scaled offset, and
constant addresses share a base.
-/
namespace FexEmu.AddressFolding

open ValueGraph

/-! ## Accesses -/

/-- How a memory op extends its offset. -/
inductive MemOffsetType
  | SXTX
  | UXTW
  | SXTW
deriving DecidableEq, Repr

/-- `IROp_LoadMem` and `IROp_StoreMem`. The offset may be invalid. -/
structure MemOp where
  accessSize : BitVec 8
  addr : NodeID
  offset : Option NodeID
  offsetType : MemOffsetType
  offsetScale : BitVec 8
deriving DecidableEq, Repr

def extend : MemOffsetType → BitVec 64 → BitVec 64
  | .SXTX, offset => offset
  | .UXTW, offset => (offset.setWidth 32).setWidth 64
  | .SXTW, offset => (offset.setWidth 32).signExtend 64

def scaled (offsetType : MemOffsetType) (scale : BitVec 8) (offset : BitVec 64) : BitVec 64 :=
  extend offsetType (offset * scale.setWidth 64)

def MemOp.contribution (vals : Valuation) (op : MemOp) : BitVec 64 :=
  match op.offset with
  | some offset => scaled op.offsetType op.offsetScale (vals offset)
  | none => 0

/-- `MemData` of `Op_LoadMem` and `Op_StoreMem`. -/
def MemOp.address (vals : Valuation) (op : MemOp) : BitVec 64 := vals op.addr + op.contribution vals

/-! ## Sums -/

/-- The hosts that the pass distinguishes. -/
inductive Host
  | x86_64
  | arm64
deriving DecidableEq, Repr

def isMemoryScale : Host → (scale : BitVec 64) → (accessSize : BitVec 8) → Bool
  | .x86_64, scale, _ => scale = 1 ∨ scale = 2 ∨ scale = 4 ∨ scale = 8
  | .arm64, scale, accessSize => scale = accessSize.setWidth 64

/-- `1 << Constant2`, of an `int` that the host shifts by the low five bits of the count. -/
def shiftedScale (count : BitVec 64) : BitVec 64 := (1#32 <<< (count.toNat % 32)).signExtend 64

/-- An extension, a scale, the new address and the new offset. -/
structure Extended where
  offsetType : MemOffsetType
  offsetScale : BitVec 8
  addr : NodeID
  offset : NodeID
deriving DecidableEq, Repr

def foldScale (host : Host) (accessSize : BitVec 8) (scale : BitVec 64) (arg1 src : NodeID) : Option Extended :=
  if isMemoryScale host scale accessSize then some ⟨.SXTX, scale.setWidth 8, arg1, src⟩
  else if scale = 1 then some ⟨.SXTX, 1, arg1, src⟩
  else none

def matchExtended (host : Host) (g : Graph) (accessSize : BitVec 8) (arg0 arg1 : NodeID) : Option Extended :=
  if (g arg0).size = .i64Bit then
    match (g arg0).op with
    | .binary .Mul src amount => (g.valueConstant amount).bind fun scale => foldScale host accessSize scale arg1 src
    | .binary .Lshl src amount =>
      (g.valueConstant amount).bind fun count => foldScale host accessSize (shiftedScale count) arg1 src
    | .bfe width lsb src => if host = .arm64 ∧ lsb = 0 ∧ width = 32 then some ⟨.UXTW, 1, arg1, src⟩ else none
    | .sbfe width lsb src => if host = .arm64 ∧ lsb = 0 ∧ width = 32 then some ⟨.SXTW, 1, arg1, src⟩ else none
    | _ => none
  else none

def memExtendedAddressing (host : Host) (g : Graph) (accessSize : BitVec 8) (arg0 arg1 : NodeID) : Extended :=
  (matchExtended host g accessSize arg0 arg1).getD ⟨.SXTX, 1, arg0, arg1⟩

/-- The cases `OP_LOADMEM` and `OP_STOREMEM` of `ConstantPropagation`. -/
def foldAddress (host : Host) (g : Graph) (op : MemOp) : Option MemOp :=
  match (g op.addr).op with
  | .binary .Add arg0 arg1 =>
    if (g op.addr).size = .i64Bit then
      let new := memExtendedAddressing host g op.accessSize arg0 arg1
      some { op with addr := new.addr, offset := some new.offset, offsetType := new.offsetType, offsetScale := new.offsetScale }
    else none
  | _ => none

/-! ## Pools -/

/-- `AddressgenConsts` in the order of its keys, with the graph and the name of the next new node. -/
structure Pool where
  graph : Graph
  next : NodeID
  consts : List (NodeID × BitVec 64)

def insertConst (n : NodeID) (value : BitVec 64) : List (NodeID × BitVec 64) → List (NodeID × BitVec 64)
  | [] => [(n, value)]
  | (m, c) :: rest =>
    if n < m then (n, value) :: (m, c) :: rest
    else if n = m then (n, value) :: rest
    else (m, c) :: insertConst n value rest

/-- `LoadMemStoreMemImmediatePooling` at one access. -/
def Pool.step (pool : Pool) (op : MemOp) : MemOp × Pool :=
  match pool.graph.valueConstant op.addr, op.offset with
  | some addr, none =>
    match pool.consts.find? (fun const => (addr - const.2).toNat < 65536) with
    | some (node, const) =>
      ({ op with addr := node, offset := some pool.next },
        { pool with
          graph := Function.update pool.graph pool.next ⟨.constant (addr - const), .i64Bit⟩
          next := pool.next + 1 })
    | none => (op, { pool with consts := insertConst op.addr addr pool.consts })
  | _, _ => (op, pool)

def Pool.run (pool : Pool) : List MemOp → Pool
  | [] => pool
  | op :: ops => (pool.step op).2.run ops

/-! ## What it shall preserve -/

/-- A valuation in which constants have their values. -/
def HoldsConstants (g : Graph) (vals : Valuation) : Prop := ∀ n c, g.valueConstant n = some c → vals n = c

/-- A valuation that the graph around a memory op can have. -/
structure Admits (g : Graph) (op : MemOp) (vals : Valuation) : Prop where
  constants : HoldsConstants g vals
  addr : Computed g vals op.addr
  arg0 : ∀ arg0 arg1, (g op.addr).op = .binary .Add arg0 arg1 → Computed g vals arg0

/-- The folded access goes to the same address, whatever the registers hold. -/
def Preserves (host : Host) (g : Graph) (op : MemOp) : Prop :=
  ∀ new, foldAddress host g op = some new → ∀ vals, Admits g op vals → new.address vals = op.address vals

/-- The offset that an op has already adds nothing. -/
def OffsetIdle (g : Graph) (op : MemOp) : Prop :=
  ∀ offset, op.offset = some offset →
    op.offsetScale = 0 ∨ ∃ c, g.valueConstant offset = some c ∧ scaled op.offsetType op.offsetScale c = 0

/-- A shift that is folded as an extended word shifts by less than 32. -/
def CountKept (host : Host) (g : Graph) (op : MemOp) : Prop :=
  ∀ arg0 arg1 src amount count, (g op.addr).op = .binary .Add arg0 arg1 → (g arg0).op = .binary .Lshl src amount →
    g.valueConstant amount = some count → (matchExtended host g op.accessSize arg0 arg1).isSome → count.toNat % 64 < 32

/-- The sum is of other nodes than the access, and neither an offset that is not constant nor a shifted number depends on
them. -/
structure Separate (g : Graph) (op : MemOp) : Prop where
  addr : ∀ arg0 arg1, (g op.addr).op = .binary .Add arg0 arg1 →
    arg0 ≠ op.addr ∧ arg1 ≠ op.addr ∧ op.addr ∉ (g arg0).op.args ∧ arg0 ∉ (g arg0).op.args
  offset : ∀ arg0 arg1 offset, (g op.addr).op = .binary .Add arg0 arg1 → op.offset = some offset →
    g.valueConstant offset = none → offset ≠ op.addr ∧ offset ≠ arg0 ∧ offset ∉ (g arg0).op.args
  shifted : ∀ arg0 arg1 src amount, (g op.addr).op = .binary .Add arg0 arg1 → (g arg0).op = .binary .Lshl src amount →
    g.valueConstant src = none

/-- A step of the pass leaves the op its address. -/
def Pool.Preserves (pool : Pool) (op : MemOp) : Prop :=
  ∀ vals, HoldsConstants (pool.step op).2.graph vals → (pool.step op).1.address vals = op.address vals

/-- An access that is pooled does not scale its offset, or has the address of the pool. -/
def Pool.Kept (pool : Pool) (op : MemOp) : Prop :=
  ∀ addr const, pool.graph.valueConstant op.addr = some addr → op.offset = none →
    pool.consts.find? (fun const => (addr - const.2).toNat < 65536) = some const → op.offsetScale = 1 ∨ addr = const.2

end FexEmu.AddressFolding
