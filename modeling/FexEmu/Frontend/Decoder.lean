import Mathlib.Tactic
import Mathlib.Data.List.Sort
/-!
# Multiblock discovery

`DecodeInstructionsAtEntry` decodes, from a worklist, every block that relative branches reach inside the multiblock range.
What one instruction decodes to is a parameter.
-/
namespace FexEmu.Frontend

/-- The flags of a table entry that decide where a block ends. -/
structure X86InstInfo where
  setsRIP : Bool
  blockEnd : Bool
deriving DecidableEq, Repr

/-- A decoded instruction; `tableInfo` is null for one that did not decode. -/
structure DecodedInst where
  pc : UInt64
  instSize : UInt64
  op : UInt16
  src0 : UInt64
  tableInfo : Option X86InstInfo
deriving DecidableEq, Repr

/-- What `DecodeInstruction` finds at an address: `none` is an error. `InstStream` is set up from the block's entry. -/
abbrev DecodeInstruction := (ripToDecode pc : UInt64) → Option (UInt64 × UInt16 × UInt64 × X86InstInfo)

/-- `DecodedBlocks`. -/
structure DecodedBlocks where
  entry : UInt64
  instructions : List DecodedInst
  hasInvalidInstruction : Bool
deriving DecidableEq, Repr

/-- The configuration the decoder reads, and `SectionMaxAddress`. -/
structure Config where
  multiblock : Bool
  is64BitMode : Bool
  maxInstPerBlock : Nat
  sectionMaxAddress : UInt64
deriving DecidableEq, Repr

def defaultDecodedBufferSize : Nat := 0x10000

def maxInstSize : UInt64 := 15

def pageMask (a : UInt64) : UInt64 := a &&& 0xFFFFFFFFFFFFF000

/-- A `std::set` is its elements in order. `codePages` are the pages reported through `AddContainedCodePage`. -/
structure Decoder where
  entryPoint : UInt64
  blocks : List DecodedBlocks
  blocksToDecode : List UInt64
  hasBlocks : List UInt64
  decodedSize : Nat
  totalInstructions : Nat
  maxCondBranchForward : UInt64
  maxCondBranchBackwards : UInt64
  decodedMinAddress : UInt64
  decodedMaxAddress : UInt64
  externalBranches : Option (List UInt64)
  currentCodePage : UInt64
  codePages : List UInt64

def setEmplace (x : UInt64) (l : List UInt64) : List UInt64 :=
  if x ∈ l then l else l.orderedInsert (· ≤ ·) x

def Decoder.start (externalBranches : Option (List UInt64)) (pc : UInt64) : Decoder where
  entryPoint := pc
  blocks := []
  blocksToDecode := [pc]
  hasBlocks := []
  decodedSize := 0
  totalInstructions := 0
  maxCondBranchForward := 0
  maxCondBranchBackwards := 0xFFFFFFFFFFFFFFFF
  decodedMinAddress := pc
  decodedMaxAddress := pc
  externalBranches := externalBranches
  currentCodePage := pageMask pc
  codePages := [pageMask pc]

variable (cfg : Config) (decode : DecodeInstruction)

/-! ## Branch targets -/

def addTarget (d : Decoder) (rip : UInt64) : Decoder :=
  if rip ∈ d.hasBlocks ∨ rip ∈ d.blocksToDecode then d
  else { d with blocksToDecode := setEmplace rip d.blocksToDecode }

/-- The `switch` over the opcode: `some conditional` for the branches whose
target it computes. -/
def branchKind (op : UInt16) : Option Bool :=
  if 0x70 ≤ op ∧ op ≤ 0x7F then some true
  else if 0x80 ≤ op ∧ op ≤ 0x8F then some true
  else if op = 0xE9 ∨ op = 0xEB then some false
  else none

def externalBranch (d : Decoder) (rip : UInt64) : Decoder :=
  { d with externalBranches := d.externalBranches.map (setEmplace rip) }

/-- `TargetRIP`, wrapped for a 32-bit guest. -/
def targetRIP (i : DecodedInst) : UInt64 :=
  let target := i.pc + i.instSize + i.src0
  if cfg.is64BitMode then target else target &&& 0xFFFFFFFF

def fallthroughRIP (i : DecodedInst) : UInt64 := i.pc + i.instSize

/-- `SymbolMinAddress` is the entry point and `SymbolMaxAddress` the end of the
section, as there are no symbols. -/
def inSymbolRange (d : Decoder) (rip : UInt64) : Prop := d.entryPoint ≤ rip ∧ rip < cfg.sectionMaxAddress

instance (d : Decoder) (rip : UInt64) : Decidable (inSymbolRange cfg d rip) :=
  inferInstanceAs (Decidable (_ ∧ _))

def branchTargetInMultiblockRange (d : Decoder) (i : DecodedInst) : Decoder :=
  if cfg.multiblock then
    match branchKind i.op with
    | none => if i.op = 0xE8 then externalBranch d (fallthroughRIP i) else d
    | some conditional =>
      let target := targetRIP cfg i
      if inSymbolRange cfg d target then
        let d := if conditional then addTarget
            { d with
              maxCondBranchForward := max d.maxCondBranchForward target
              maxCondBranchBackwards := min d.maxCondBranchBackwards target } (fallthroughRIP i)
          else d
        addTarget d target
      else externalBranch d target
  else d

/-! ## One block -/

def enterPage (d : Decoder) (page : UInt64) : Decoder :=
  if page = d.currentCodePage then d
  else { d with
    currentCodePage := page
    codePages := if page ∈ d.codePages then d.codePages else d.codePages ++ [page] }

/-- The instruction at `pc` as the block records it. -/
def instAt (rip pc : UInt64) : DecodedInst :=
  match decode rip pc with
  | some (size, op, src0, info) => ⟨pc, size, op, src0, some info⟩
  | none => ⟨pc, 0, 0, 0, none⟩

def countInst (d : Decoder) (i : DecodedInst) : Decoder :=
  { d with
    decodedMinAddress := min d.decodedMinAddress i.pc
    decodedMaxAddress := max d.decodedMaxAddress (i.pc + i.instSize)
    totalInstructions := d.totalInstructions + 1
    decodedSize := d.decodedSize + 1 }

/-- The conditions under which the block loop stops. -/
def limitReached (d : Decoder) : Prop :=
  cfg.maxInstPerBlock ≤ d.decodedSize ∨ defaultDecodedBufferSize ≤ d.decodedSize ∨
    cfg.maxInstPerBlock ≤ d.totalInstructions

instance (d : Decoder) : Decidable (limitReached cfg d) := inferInstanceAs (Decidable (_ ∨ _ ∨ _))

def decodeNext (d : Decoder) (rip pc : UInt64) : Decoder × DecodedInst × Bool :=
  let d := enterPage (enterPage d (pageMask pc)) (pageMask (pc + maxInstSize))
  let i := instAt decode rip pc
  let d := countInst d i
  match i.tableInfo with
  | none => (d, i, false)
  | some info =>
    let d := if info.setsRIP then branchTargetInMultiblockRange cfg d i else d
    (d, i, !(info.setsRIP || info.blockEnd) && !decide (limitReached cfg d))

/-- The inner loop, from `pc` in the block at `rip`. -/
def decodeBlock : Nat → Decoder → (rip pc : UInt64) → Option (Decoder × List DecodedInst)
  | 0, _, _, _ => none
  | fuel + 1, d, rip, pc =>
    match decodeNext cfg decode d rip pc with
    | (d, i, false) => some (d, [i])
    | (d, i, true) => (decodeBlock fuel d rip (pc + i.instSize)).map (fun r => (r.1, i :: r.2))

def finishBlock (d : Decoder) (rip : UInt64) (insts : List DecodedInst) : Decoder :=
  { d with
    blocksToDecode := d.blocksToDecode.erase rip
    hasBlocks := setEmplace rip d.hasBlocks
    blocks := d.blocks ++ [⟨rip, insts, insts.any (fun i => i.tableInfo.isNone)⟩] }

/-- The outer loop. A block never takes more turns than the buffer has room. -/
def decodeBlocks : Nat → Decoder → Option Decoder
  | 0, _ => none
  | fuel + 1, d =>
    match d.blocksToDecode with
    | [] => some d
    | rip :: _ =>
      (decodeBlock cfg decode (defaultDecodedBufferSize + 1) d rip rip).bind (fun r =>
        decodeBlocks fuel (finishBlock r.1 rip r.2))

def decodeInstructionsAtEntry (fuel : Nat) (externalBranches : Option (List UInt64)) (pc : UInt64) :
    Option Decoder :=
  (decodeBlocks cfg decode fuel (.start externalBranches pc)).map (fun d =>
    { d with blocks := d.blocks.insertionSort (fun a b => a.entry ≤ b.entry) })

end FexEmu.Frontend
