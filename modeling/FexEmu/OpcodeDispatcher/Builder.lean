import Mathlib.Tactic
/-!
# The code blocks the dispatcher builds

The part of `IREmitter` that makes, links and enters code blocks, and the handlers that end a block or open one.
-/
namespace FexEmu.OpcodeDispatcher

abbrev RIP := UInt64

abbrev BlockId := Nat

/-- The ops that end a block, and op for all others. -/
inductive IROp
  | op
  | brk
  | jump (target : BlockId)
  | condJump (trueBlock falseBlock : BlockId)
  | exitFunction
deriving DecidableEq, Repr

namespace IROp

/-- `IsBlockExit`: the ops the validator accepts as the last of a block. -/
def isBlockExit : IROp → Bool
  | op => false
  | _ => true

def isTerminator : IROp → Bool
  | op | brk => false
  | _ => true

def targets : IROp → List BlockId
  | jump t => [t]
  | condJump t f => [t, f]
  | _ => []

end IROp

/-- `JumpTargetInfo`, with the target that the source has as its key. -/
structure JumpTargetInfo where
  rip : RIP
  blockEntry : BlockId
  haveEmitted : Bool
deriving DecidableEq, Repr

/-- `blocks` is the chain of linked code blocks and `code k` what stands in block `k`. The write cursor is in the current
block. `deferredFlags` is how many ops the calculation of the deferred flags takes, `none` where no flags are deferred. -/
structure Builder where
  multiblock : Bool
  count : Nat
  blocks : List BlockId
  code : BlockId → List IROp
  current : BlockId
  cursor : Nat
  jumpTargets : List JumpTargetInfo
  blockSetRIP : Bool
  decodeFailure : Bool
  deferredFlags : Option Nat

/-- What a handler does within a block. Generating flags defers them, in place of those before. -/
inductive Step
  | op
  | brk
  | calculateDeferredFlags
  | generateFlags (n : Nat)
  | invalidateDeferredFlags
deriving DecidableEq, Repr

namespace Builder

/-! ## The emitter -/

/-- `CreateNode`: the op goes after the cursor and becomes the cursor. -/
def emit (b : Builder) (o : IROp) : Builder :=
  { b with
    code := Function.update b.code b.current ((b.code b.current).insertIdx b.cursor o)
    cursor := b.cursor + 1 }

def emitAll (b : Builder) (os : List IROp) : Builder := os.foldl emit b

/-- `n` ops that neither leave a block nor name one. -/
def emitOps (b : Builder) (n : Nat) : Builder := b.emitAll (List.replicate n .op)

def calculateDeferredFlags (b : Builder) : Builder :=
  { b.emitOps (b.deferredFlags.getD 0) with deferredFlags := none }

/-- `SetCurrentCodeBlock`: the cursor goes to the start of the block. -/
def setCurrentCodeBlock (b : Builder) (k : BlockId) : Builder := { b with current := k, cursor := 0 }

def linkAfter (k n : BlockId) : List BlockId → List BlockId
  | [] => []
  | x :: xs => if x = k then x :: n :: xs else x :: linkAfter k n xs

/-- The block is `b.count`; the cursor stays where it was. -/
def createNewCodeBlockAfter (b : Builder) (k : BlockId) : Builder :=
  { b with count := b.count + 1, blocks := linkAfter k b.count b.blocks }

def createNewCodeBlockAtEnd (b : Builder) : Builder :=
  { b with count := b.count + 1, blocks := b.blocks ++ [b.count] }

def findJumpTarget (b : Builder) (rip : RIP) : Option BlockId :=
  (b.jumpTargets.find? (fun t => t.rip = rip)).map JumpTargetInfo.blockEntry

/-! ## Instructions that end a block

The source creates the blocks a jump goes to after the jump and patches it; as
creating a block leaves the cursor alone, the blocks are made first here. -/

def step (b : Builder) : Step → Builder
  | .op => b.emit .op
  | .brk => b.emit .brk
  | .calculateDeferredFlags => b.calculateDeferredFlags
  | .generateFlags n => { b with deferredFlags := some n }
  | .invalidateDeferredFlags => { b with deferredFlags := none }

def steps (b : Builder) (ss : List Step) : Builder := ss.foldl step b

/-- `RETOp`, `IRETOp`, `CALLOp`, `CALLAbsoluteOp`, `JUMPAbsoluteOp` and `ThunkOp`, which calculate or invalidate the deferred
flags, and `SIGRETOp` and `CallbackReturnOp`, which leave them. -/
def exitOp (b : Builder) (ss : List Step) : Builder :=
  { (b.steps ss).emit .exitFunction with blockSetRIP := true }

/-- The block of a target that is no jump target: it leaves for the dispatcher. -/
def exitBlock (b : Builder) (k : BlockId) : Builder :=
  ((b.setCurrentCodeBlock k).emitOps 1).emit .exitFunction

/-- `CondJUMPOp`, `CondJUMPRCXOp` and `LoopOp`, which places the fall-through block after the current block. -/
def condJUMPOp (b : Builder) (n : Nat) (afterTaken : Bool) (target next : RIP) : Builder :=
  let b := { b.calculateDeferredFlags.emitOps n with blockSetRIP := true }
  match b.findJumpTarget target, b.findJumpTarget next with
  | some t, some f => b.emit (.condJump t f)
  | some t, none =>
    let f := b.count
    ((b.createNewCodeBlockAfter b.current).emit (.condJump t f)).exitBlock f
  | none, some f =>
    let t := b.count
    (b.createNewCodeBlockAtEnd.emit (.condJump t f)).exitBlock t
  | none, none =>
    let t := b.count
    let f := b.count + 1
    let b := b.createNewCodeBlockAtEnd.createNewCodeBlockAfter (if afterTaken then t else b.current)
    ((b.emit (.condJump t f)).exitBlock t).exitBlock f

def jumpOp (b : Builder) (n : Nat) (target : RIP) : Builder :=
  let b := { b.calculateDeferredFlags.emitOps n with blockSetRIP := true }
  if b.multiblock then
    match b.findJumpTarget target with
    | some t => b.emit (.jump t)
    | none =>
      let t := b.count
      ((b.createNewCodeBlockAfter b.current).emit (.jump t)).exitBlock t
  else (b.emitOps 3).emit .exitFunction

/-- `INTOp` but for `INTO` and `INT 0x80`. -/
def intOp (b : Builder) (n : Nat) : Builder :=
  { (b.calculateDeferredFlags.emitOps n).emit .brk with blockSetRIP := true }

def invalidOp (b : Builder) (n : Nat) : Builder :=
  { (b.calculateDeferredFlags.emitOps n).emit .brk with blockSetRIP := true }

def unimplementedOp (b : Builder) (n : Nat) : Builder :=
  let b := { (b.calculateDeferredFlags.emitOps n).emit .brk with blockSetRIP := true }
  if b.multiblock then
    let next := b.count
    (b.createNewCodeBlockAfter b.current).setCurrentCodeBlock next
  else b

/-! ## Instructions that go on in a new block -/

/-- `INTO`: a trap on the path that is not taken. -/
def intoOp (b : Builder) (n m : Nat) : Builder :=
  let b := b.calculateDeferredFlags
  let falseBlock := b.count
  let jumpTarget := b.count + 1
  let b := (b.emitOps n).createNewCodeBlockAfter b.current
  let b := (b.createNewCodeBlockAfter falseBlock).emit (.condJump jumpTarget falseBlock)
  let b := ((b.setCurrentCodeBlock falseBlock).emitOps m).emit .brk
  b.setCurrentCodeBlock jumpTarget

def skipOp (b : Builder) (n m : Nat) : Builder :=
  let jumpTarget := b.count
  let nextJumpTarget := b.count + 1
  let b := (b.emitOps n).createNewCodeBlockAfter b.current
  let b := (b.createNewCodeBlockAfter jumpTarget).emit (.condJump nextJumpTarget jumpTarget)
  let b := ((b.setCurrentCodeBlock jumpTarget).emitOps m).emit (.jump nextJumpTarget)
  b.setCurrentCodeBlock nextJumpTarget

/-- `MASKMOVOp`: a skip for each byte. The double shifts and `CMPXCHGPairOp` have one, and calculate the deferred flags
first. -/
def maskmovOp (b : Builder) (bytes : List (Nat × Nat)) : Builder :=
  bytes.foldl (fun b nm => b.skipOp nm.1 nm.2) b

/-- The `REP` loop: a head that tests the counter, a tail that ends in `close` and the code after the loop. -/
def repOp (b : Builder) (n m k : Nat) (close : (head loopEnd : BlockId) → IROp) : Builder :=
  let b := b.calculateDeferredFlags
  let loopHead := b.count
  let loopTail := b.count + 1
  let loopEnd := b.count + 2
  let b := ((b.createNewCodeBlockAfter b.current).createNewCodeBlockAfter loopHead).createNewCodeBlockAfter loopTail
  let b := (b.emitOps n).emit (.jump loopHead)
  let b := ((b.setCurrentCodeBlock loopHead).emitOps m).emit (.condJump loopEnd loopTail)
  let b := ((b.setCurrentCodeBlock loopTail).emitOps k).emit (close loopHead loopEnd)
  b.setCurrentCodeBlock loopEnd

/-- `STOSOp`, `MOVSOp` and `LODSOp` go back whatever they find. -/
def repAlways (b : Builder) (n m k : Nat) : Builder := b.repOp n m k (fun head _ => .jump head)

/-- `CMPSOp` and `SCASOp` go back while `ZF` is as the prefix asks. -/
def repWhile (b : Builder) (n m k : Nat) : Builder := b.repOp n m k (fun head loopEnd => .condJump head loopEnd)

end Builder

/-! ## Handlers -/

/-- An `OpcodeDispatcher`, with the number of ops before each block exit. A straight handler may raise a `Break` and go on; a
failing one sets `DecodeFailure`. -/
inductive Handler
  | straight (steps : List Step)
  | failing (steps : List Step)
  | exit (steps : List Step)
  | condJump (n : Nat) (afterTaken : Bool) (target : RIP)
  | jump (n : Nat) (target : RIP)
  | int (n : Nat)
  | unimplemented (n : Nat)
  | into (n m : Nat)
  | skip (calculates : Bool) (bytes : List (Nat × Nat))
  | repAlways (n m k : Nat)
  | repWhile (n m k : Nat)
deriving DecidableEq, Repr

/-- `std::invoke(Fn, OpDispatcher, DecodedInfo)`, where `next` is the address
after the instruction. -/
def Handler.invoke (next : RIP) (b : Builder) : Handler → Builder
  | straight steps => b.steps steps
  | failing steps => { b.steps steps with decodeFailure := true }
  | exit steps => b.exitOp steps
  | condJump n afterTaken target => b.condJUMPOp n afterTaken target next
  | jump n target => b.jumpOp n target
  | int n => b.intOp n
  | unimplemented n => b.unimplementedOp n
  | into n m => b.intoOp n m
  | skip calculates bytes => (if calculates then b.calculateDeferredFlags else b).maskmovOp bytes
  | repAlways n m k => b.repAlways n m k
  | repWhile n m k => b.repWhile n m k

end FexEmu.OpcodeDispatcher
