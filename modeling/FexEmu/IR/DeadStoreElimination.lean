import FexEmu.IR.Context
/-!
# Dead store elimination

`DeadStoreElimination::Run` drops stores that every next block overwrites before it reads them. Beside it stands an
interpreter of the multi-block IR.
-/
namespace FexEmu.IR.DeadStoreElimination

/-! ## The IR -/

/-- A `dest` or an argument is an SSA node. `value` stands for every op that only computes, `effect` for every effect outside
the context, and `frameEffect` for one whose handler is given the `CpuStateFrame`, as that of `Syscall` is. -/
inductive Op where
  | storeContext (size offset value : Nat)
  | loadContext (dest size offset : Nat)
  | storeContextIndexed (size baseOffset stride index value : Nat)
  | loadContextIndexed (dest size baseOffset stride index : Nat)
  | storeFlag (flag value : Nat)
  | loadFlag (dest flag : Nat)
  | invalidateFlags (flags : BitVec 64)
  | value (dest : Nat) (f : List Value → Value) (args : List Nat)
  | effect (dest kind : Nat) (args : List Nat)
  | frameEffect (dest kind : Nat) (args : List Nat)
  | brk (reason : Nat)

/-- The last op before `EndBlock`. A block may leave through a `Break`. -/
inductive Terminator where
  | jump (target : Nat)
  | condJump (cond : List Value → Bool) (args : List Nat) (trueBlock falseBlock : Nat)
  | exitFunction (newRIP : Nat)
  | brk (reason : Nat)

/-- A block's ops, and how it ends. -/
structure Block where
  ops : List Op
  terminator : Terminator

abbrev Program := List Block

def Block.successors (b : Block) : List Nat :=
  match b.terminator with
  | .jump t => [t]
  | .condJump _ _ t f => [t, f]
  | _ => []

/-! ## What it does -/

/-- An effect, with what its handler is given. -/
structure Event where
  kind : Nat
  args : List Value
  frame : Option Context

/-- What the outside makes of the effects so far: the result of the last one, and the bytes that its handler writes to the
frame. -/
structure Environment where
  result : List Event → Value
  writes : List Event → Nat → Option UInt8

/-- `invalid` marks the flags an `InvalidateFlags` has named since their last store. -/
structure State where
  ssa : Nat → Value
  ctx : Context
  events : List Event
  invalid : Nat → Bool

def isGPR (offset : Nat) : Bool := decide (8 ≤ offset) && decide (offset < 17 * 8)

def isFPR (avx : Bool) (offset : Nat) : Bool :=
  decide (xmmOffset ≤ offset) && decide (offset < xmmOffset + 16 * xmmRegSize avx)

def registerOf (avx : Bool) (offset : Nat) : Option (Bool × Nat) :=
  if isGPR offset then some (false, (offset - 8) / 8)
  else if isFPR avx offset then some (true, (offset - xmmOffset) / xmmRegSize avx)
  else none

/-- The context, but for invalidated flags. -/
def State.frame (s : State) : Context := fun a => if isFlagByte a && s.invalid (a - flagsOffset) then 0 else s.ctx a

def State.set (s : State) (dest : Nat) (v : Value) : State := { s with ssa := Function.update s.ssa dest v }

def execOp (env : Environment) (s : State) : Op → State
  | .storeContext size offset value => { s with ctx := storeBytes s.ctx offset size (s.ssa value) }
  | .loadContext dest size offset => s.set dest (loadBytes s.ctx offset size)
  | .storeContextIndexed size base stride index value =>
    { s with ctx := storeBytes s.ctx (base + s.ssa index * stride) size (s.ssa value) }
  | .loadContextIndexed dest size base stride index =>
    s.set dest (loadBytes s.ctx (base + s.ssa index * stride) size)
  | .storeFlag flag value =>
    { s with
      ctx := storeBytes s.ctx (flagsOffset + flag) 1 (s.ssa value)
      invalid := Function.update s.invalid flag false }
  | .loadFlag dest flag => s.set dest (loadBytes s.ctx (flagsOffset + flag) 1)
  | .invalidateFlags flags => { s with invalid := fun n => s.invalid n || flags.getLsbD n }
  | .value dest f args => s.set dest (f (args.map s.ssa))
  | .effect dest kind args =>
    let events := s.events ++ [⟨kind, args.map s.ssa, none⟩]
    { s.set dest (env.result events) with events }
  | .frameEffect dest kind args =>
    let events := s.events ++ [⟨kind, args.map s.ssa, some s.frame⟩]
    { s.set dest (env.result events) with events, ctx := fun a => (env.writes events a).getD (s.ctx a) }
  | .brk _ => s

/-- How far a run got: it left, or it is about to enter a block. -/
inductive Place where
  | exited (newRIP : Value)
  | broke (reason : Nat)
  | at (block : Nat)
deriving DecidableEq, Repr

/-- The ops of a block, up to a `Break`. -/
def execOps (env : Environment) : List Op → State → Option Nat × State
  | [], s => (none, s)
  | .brk reason :: _, s => (some reason, s)
  | op :: ops, s => execOps env ops (execOp env s op)

def execTerminator (s : State) : Terminator → Place
  | .jump t => .at t
  | .condJump cond args t f => if cond (args.map s.ssa) then .at t else .at f
  | .exitFunction newRIP => .exited (s.ssa newRIP)
  | .brk reason => .broke reason

/-- Runs up to `fuel` blocks. -/
def run (env : Environment) (p : Program) : Nat → (block : Nat) → State → Place × State
  | 0, i, s => (.at i, s)
  | fuel + 1, i, s =>
    match p[i]? with
    | none => (.at i, s)
    | some b =>
      match execOps env b.ops s with
      | (some reason, s) => (.broke reason, s)
      | (none, s) =>
        match execTerminator s b.terminator with
        | .at t => run env p fuel t s
        | place => (place, s)

/-! ## The pass -/

variable (avx : Bool)

def isTrackedWriteFPR (offset size : Nat) : Bool :=
  if size ≠ 16 ∧ size ≠ 8 ∧ size ≠ 4 then false
  else if offset % 16 ≠ 0 then false
  else isFPR avx offset

def fprBit (offset size : Nat) : BitVec 64 :=
  if isFPR avx offset then
    let bitn := (offset - xmmOffset) / xmmRegSize avx * 3
    if isTrackedWriteFPR avx offset size then
      if size = 16 then 7#64 <<< bitn else if size = 8 then 3#64 <<< bitn else 1#64 <<< bitn
    else 7#64 <<< bitn
  else 0

def isFullGPR (offset size : Nat) : Bool :=
  if size ≠ 8 then false
  else if offset % 8 ≠ 0 then false
  else isGPR offset

def gprBit (offset : Nat) : BitVec 32 := if isGPR offset then 1#32 <<< ((offset - 8) / 8) else 0

/-- `FlagInfo`, `GPRInfo` and `FPRInfo`. -/
structure BitInfo (w : Nat) where
  reads : BitVec w := 0
  writes : BitVec w := 0
  kill : BitVec w := 0
deriving DecidableEq, Repr

/-- What the pass keeps for a block. -/
structure Info where
  flag : BitInfo 64 := {}
  gpr : BitInfo 32 := {}
  fpr : BitInfo 64 := {}
deriving DecidableEq, Repr

def opInfo : Op → Info
  | .storeFlag flag _ => { flag := { writes := 1#64 <<< flag } }
  | .invalidateFlags flags => { flag := { writes := flags } }
  | .loadFlag _ flag => { flag := { reads := 1#64 <<< flag } }
  | .storeContext size offset _ =>
    { gpr := if isFullGPR offset size then { writes := gprBit offset } else { reads := gprBit offset }
      fpr := if isTrackedWriteFPR avx offset size then { writes := fprBit avx offset size }
        else { reads := fprBit avx offset size } }
  | .storeContextIndexed .. => { gpr := { reads := -1 }, fpr := { reads := -1 } }
  | .loadContextIndexed .. => { gpr := { reads := -1 }, fpr := { reads := -1 } }
  | .loadContext _ size offset => { gpr := { reads := gprBit offset }, fpr := { reads := fprBit avx offset size } }
  | _ => {}

def BitInfo.add {w : Nat} (a b : BitInfo w) : BitInfo w :=
  { a with reads := a.reads ||| b.reads, writes := a.writes ||| b.writes }

def Info.add (a b : Info) : Info := ⟨a.flag.add b.flag, a.gpr.add b.gpr, a.fpr.add b.fpr⟩

def blockInfo (ops : List Op) : Info := ops.foldl (fun info op => info.add (opInfo avx op)) {}

/-- What the block `b` may drop because the block `t` writes it. -/
def BitInfo.dropped {w : Nat} (b t : BitInfo w) : BitVec w := t.writes &&& ~~~t.reads &&& ~~~b.reads

def BitInfo.withKill {w : Nat} (b : BitInfo w) (kill : BitVec w) : BitInfo w :=
  { b with kill := kill, writes := b.writes ||| (kill &&& ~~~b.reads) }

def BitInfo.jump {w : Nat} (b t : BitInfo w) : BitInfo w := b.withKill (b.dropped t)

def BitInfo.condJump {w : Nat} (b t f : BitInfo w) : BitInfo w := b.withKill (b.dropped t &&& b.dropped f)

def propagateBlock (p : Program) (info : Nat → Info) (i : Nat) : Nat → Info :=
  match (p[i]?).map Block.terminator with
  | some (.jump t) => Function.update info i
      ⟨(info i).flag.jump (info t).flag, (info i).gpr.jump (info t).gpr, (info i).fpr.jump (info t).fpr⟩
  | some (.condJump _ _ t f) => Function.update info i
      ⟨(info i).flag.condJump (info t).flag (info f).flag, (info i).gpr.condJump (info t).gpr (info f).gpr,
        (info i).fpr.condJump (info t).fpr (info f).fpr⟩
  | _ => info

def propagateRound (p : Program) (info : Nat → Info) : Nat → Info :=
  (List.range p.length).foldl (propagateBlock p) info

def propagationRounds : Nat := 5

def infoMap (p : Program) : Nat → Info :=
  (propagateRound p)^[propagationRounds] (fun i => (p[i]?).elim {} (fun b => blockInfo avx b.ops))

def removes (info : Info) : Op → Bool
  | .storeFlag flag _ => decide (info.flag.kill &&& 1#64 <<< flag ≠ 0)
  | .storeContext size offset _ =>
    decide (info.gpr.kill &&& gprBit offset ≠ 0) ||
      (decide (info.fpr.kill &&& fprBit avx offset size = fprBit avx offset size) &&
        decide (fprBit avx offset size ≠ 0))
  | _ => false

def deadStoreElimination (p : Program) : Program :=
  p.mapIdx (fun i b => { b with ops := b.ops.filter (fun op => !removes avx (infoMap avx p i) op) })

end FexEmu.IR.DeadStoreElimination
