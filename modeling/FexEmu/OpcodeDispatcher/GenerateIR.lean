import FexEmu.Frontend.Decoder
import FexEmu.OpcodeDispatcher.Builder
/-!
# Translating the decoded blocks

`Context::GenerateIR` and the members of `OpDispatchBuilder` it drives. What the handler of an instruction does is a
parameter.
-/
namespace FexEmu.OpcodeDispatcher

open Frontend (DecodedInst DecodedBlocks fallthroughRIP)

/-- The configuration `GenerateIR` reads. -/
structure Config where
  multiblock : Bool
  smcChecksFull : Bool
  extendedDebugInfo : Bool
  synchronizeRIPOnAllBlocks : Bool
deriving DecidableEq, Repr

/-- Its `LOCK` prefix, the handler of its table entry, if it has one, and whether the handler reports the lock as handled. -/
structure InstDispatch where
  isLocked : Bool
  opcodeDispatcher : Option Handler
  handledLock : Bool
deriving DecidableEq, Repr

namespace Builder

/-! ## Members of the builder -/

/-- `CreateJumpBlocks`; the blocks come sorted by entry, as the map keeps them. -/
def createJumpBlocks (multiblock : Bool) (entries : List RIP) : Builder where
  multiblock := multiblock
  count := entries.length
  blocks := List.range entries.length
  code := fun _ => []
  current := 0
  cursor := 0
  jumpTargets := entries.zipIdx.map (fun p => ⟨p.1, p.2, false⟩)
  blockSetRIP := false
  decodeFailure := false
  deferredFlags := none

def beginFunction (multiblock : Bool) (rip : RIP) (entries : List RIP) : Builder :=
  let b := createJumpBlocks multiblock entries
  match b.findJumpTarget rip with
  | some k => b.setCurrentCodeBlock k
  | none => b

def markEmitted (rip : RIP) (t : JumpTargetInfo) : JumpTargetInfo :=
  if t.rip = rip then { t with haveEmitted := true } else t

def setNewBlockIfChanged (b : Builder) (rip : RIP) : Builder :=
  match b.findJumpTarget rip with
  | none => b
  | some k =>
    let b := { b with jumpTargets := b.jumpTargets.map (markEmitted rip) }
    if b.current = k then b else b.setCurrentCodeBlock k

/-- `FinishOp`, and whether the rest of the block is left out. -/
def finishOp (b : Builder) (nextRIP : RIP) (lastOp : Bool) : Builder × Bool :=
  if lastOp && !b.blockSetRIP then
    let b := b.calculateDeferredFlags
    match b.findJumpTarget nextRIP with
    | none => ({ (b.emitOps 1).emit .exitFunction with blockSetRIP := false }, false)
    | some k => (b.emit (.jump k), true)
  else ({ b with blockSetRIP := false }, false)

def finalizeTarget (b : Builder) (t : JumpTargetInfo) : Builder :=
  if t.haveEmitted then b else b.exitBlock t.blockEntry

/-- `Finalize` calculates flags that are still deferred where the cursor was left. -/
def finalize (b : Builder) : Builder :=
  let b := b.calculateDeferredFlags
  b.jumpTargets.foldl finalizeTarget b

/-- The code that finds the instruction changed leaves, the rest goes on in a new block. -/
def validateCode (b : Builder) : Builder :=
  let codeWasChangedBlock := b.count
  let nextOpBlock := b.count + 1
  let b := (b.emitOps 1).createNewCodeBlockAtEnd.createNewCodeBlockAfter b.current
  let b := b.emit (.condJump codeWasChangedBlock nextOpBlock)
  let b := ((b.setCurrentCodeBlock codeWasChangedBlock).emitOps 2).emit .exitFunction
  b.setCurrentCodeBlock nextOpBlock

end Builder

/-! ## The loop over the decoded blocks -/

/-- The builder with `HadDispatchError` and `TotalInstructions`. -/
structure GenState where
  builder : Builder
  hadDispatchError : Bool
  totalInstructions : Nat

variable (cfg : Config) (info : DecodedInst → InstDispatch)

/-- The handler of the instruction: there is none without a table entry. -/
def handlerOf (i : DecodedInst) : Option Handler := i.tableInfo.bind (fun _ => (info i).opcodeDispatcher)

def preamble (b : Builder) : Builder :=
  let b := if cfg.extendedDebugInfo then b.emitOps 1 else b
  if cfg.smcChecksFull then b.validateCode else b

def dispatchInst (s : GenState) (i : DecodedInst) : GenState :=
  match handlerOf info i with
  | some h =>
    let b := h.invoke (fallthroughRIP i) { s.builder with decodeFailure := false }
    if b.decodeFailure then { s with builder := b, hadDispatchError := true }
    else
      { s with
        builder := b
        hadDispatchError := s.hadDispatchError || (info i).handledLock != (info i).isLocked
        totalInstructions := s.totalInstructions + 1 }
  | none => { s with builder := ((s.builder.invalidOp 1).emitOps 1).emit .exitFunction }

/-- The loop over the instructions of a block; `none` when no instruction could be
handled. -/
def genInsts : GenState → List DecodedInst → Option GenState
  | s, [] => some s
  | s, i :: is =>
    let s := dispatchInst info { s with builder := preamble cfg s.builder } i
    if s.hadDispatchError then
      if s.totalInstructions = 0 then none
      else some { s with builder := (s.builder.emitOps 1).emit .exitFunction }
    else
      let r := s.builder.finishOp (fallthroughRIP i) is.isEmpty
      if r.2 then some { s with builder := r.1 } else genInsts { s with builder := r.1 } is

def genBlock (s : GenState) (block : DecodedBlocks) : Option GenState :=
  let b := s.builder.setNewBlockIfChanged block.entry
  let b := if cfg.synchronizeRIPOnAllBlocks then b.emitOps 2 else b
  genInsts cfg info { s with builder := b } block.instructions

def genBlocks : GenState → List DecodedBlocks → Option GenState
  | s, [] => some s
  | s, block :: rest => (genBlock cfg info s block).bind (fun s => genBlocks s rest)

/-- `none` is the null IR of a function none of whose instructions could be handled. -/
def generateIR (rip : RIP) (blocks : List DecodedBlocks) : Option Builder :=
  let b := Builder.beginFunction cfg.multiblock rip (blocks.map DecodedBlocks.entry)
  (genBlocks cfg info ⟨b, false, 0⟩ blocks).map (fun s => s.builder.finalize)

end FexEmu.OpcodeDispatcher
