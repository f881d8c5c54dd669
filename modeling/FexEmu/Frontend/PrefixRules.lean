import FexEmu.Frontend.AddressForms
import FexEmu.Frontend.GroupTables
/-!
# Prefix rules

What the architecture makes of the prefixes in front of an opcode.
-/
namespace FexEmu.Frontend.Prefixes

open FlatMemory (Byte)
open ModRM (modField rmField dispSize16 dispSize64)
open Instruction (InstType)

def legacyPrefixes : List Byte := [0x66, 0x67, 0x26, 0x2E, 0x36, 0x3E, 0xF0, 0xF2, 0xF3, 0x64, 0x65]

/-- The byte is a legacy prefix, or REX in 64-bit mode. -/
def IsPrefix (is64BitMode : Bool) (op : Byte) : Prop := op ∈ legacyPrefixes ∨ isREX is64BitMode op = true

instance (is64BitMode : Bool) : DecidablePred (IsPrefix is64BitMode) := fun _ => inferInstanceAs (Decidable (_ ∨ _))

def isREXW (is64BitMode : Bool) (op : Byte) : Bool := isREX is64BitMode op && op.getLsbD 3

/-- Only the byte directly before the opcode can be its REX byte. -/
def rexW (is64BitMode : Bool) (bytes : List Byte) : Bool := bytes.getLast?.any (isREXW is64BitMode)

def repeatPrefix (bytes : List Byte) : Option Byte := (bytes.filter fun op => op == 0xF2 || op == 0xF3).getLast?

/-! ## Entries -/

/-- What the manual's rules select. -/
structure Entry where
  table : OpTable
  index : Nat
  uses66 : Bool
  size : Nat
deriving DecidableEq, Repr

def operandBytes (has16BitAddressing : Bool) (modRM sib : Byte) : Nat :=
  if modField modRM = 3 then 0
  else if has16BitAddressing then dispSize16 (modField modRM) (rmField modRM)
  else (if rmField modRM = 4 then 1 else 0) + dispSize64 (modField modRM) (rmField modRM) (rmField sib)

/-- Of the opcodes behind `0F 38`, `MOVBE` and `CRC32` have operands of 16 bits. -/
def sized38 (op : Byte) : Bool := op == 0xF0 || op == 0xF1

/-- The group of the opcode behind `0F 38`, and whether the operand size prefix is a part of it. -/
def group38 (bytes : List Byte) (op : Byte) : Nat × Bool :=
  if repeatPrefix bytes = some 0xF3 then (4, false)
  else if repeatPrefix bytes = some 0xF2 then (if bytes.contains 0x66 && sized38 op then 3 else 2, false)
  else if bytes.contains 0x66 then (1, !sized38 op)
  else (0, false)

/-- The entry for an opcode and its prefixes. A repeat prefix comes before the operand size prefix, in any order. -/
def assigned (secondBaseOps : Byte → X86InstInfo) (is64BitMode : Bool) (bytes : List Byte) (rest : Nat → Byte) :
    Option Entry :=
  let has66 := bytes.contains 0x66
  let op := rest 1
  if rest 0 ≠ 0x0F then some ⟨.baseOps, (rest 0).toNat, false, 1⟩
  else if op = 0x0F then
    let size := 3 + operandBytes (!is64BitMode && bytes.contains 0x67) (rest 2) (rest 3)
    some ⟨.dddNowOps, (rest size).toNat, false, size + 1⟩
  else if op = 0x38 then
    let (group, uses66) := group38 bytes (rest 2)
    some ⟨.h0F38TableOps, group * 256 + (rest 2).toNat, uses66, 3⟩
  else if op = 0x3A then
    if repeatPrefix bytes = none then
      let group := (if has66 then 1 else 0) + (if rexW is64BitMode bytes then 2 else 0)
      some ⟨.h0F3ATableOps, group * 256 + (rest 2).toNat, has66, 3⟩
    else none
  else if (secondBaseOps op).noOverlay then some ⟨.secondBaseOps, op.toNat, false, 2⟩
  else if repeatPrefix bytes = some 0xF3 then some ⟨.repModOps, op.toNat, false, 2⟩
  else if repeatPrefix bytes = some 0xF2 then some ⟨.repNEModOps, op.toNat, false, 2⟩
  else if has66 ∧ (secondBaseOps op).noOverlay66 = false then some ⟨.opSizeModOps, op.toNat, true, 2⟩
  else some ⟨.secondBaseOps, op.toNat, false, 2⟩

/-! ## Sizes -/

/-- The operand size that the prefixes ask for. -/
inductive OperandSize
  | default | narrow | wide
deriving DecidableEq, Repr

/-- `REX.W` overrides the operand size prefix, which only counts where it is no part of the opcode. -/
def operandSizeOf (is64BitMode : Bool) (bytes : List Byte) (uses66 : Bool) : OperandSize :=
  if rexW is64BitMode bytes then .wide
  else if bytes.contains 0x66 && !uses66 then .narrow
  else .default

/-- `ext` holds of the registers that have 64 bits. -/
def SizeFlag.bytes (ext : Bool) (size : OperandSize) : SizeFlag → Nat
  | size8Bit => 1
  | size16Bit => 2
  | size128Bit => 16
  | sizeDef => match size with
    | .default => 4
    | .narrow => 2
    | .wide => 8
  | size32Bit => if size = .wide then 8 else 4
  | size64Bit => if ext then 8 else 4
  | size64BitDef => if size = .narrow then 2 else if ext then 8 else 4

def immediateBytes (has67 : Bool) (size : OperandSize) (info : X86InstInfo) : Nat :=
  let bytes :=
    if size = .wide ∧ info.displaceSizeMul2 then info.moreBytes * 2
    else if size = .narrow ∧ info.displaceSizeDiv2 then info.moreBytes / 2
    else info.moreBytes
  if info.memOffset && has67 then bytes / 2 else bytes

def assignedSizes (is64BitMode has67 : Bool) (size : OperandSize) (info : X86InstInfo) : Sizes where
  dst := info.dstSize.bytes (hasXMMDst info || hasMMDst info || is64BitMode) size
  src := info.srcSize.bytes (hasXMMSrc info || hasMMSrc info || is64BitMode) size
  immediate := immediateBytes has67 size info

/-- The bytes of an instruction: the prefixes, and what is behind them. -/
def instruction (bytes : List Byte) (rest : Nat → Byte) (i : Nat) : Byte := bytes[i]?.getD (rest (i - bytes.length))

/-- The row of a second group: a repeat prefix comes before the operand size prefix, as for the opcode. -/
def assignedRow (bytes : List Byte) : Nat :=
  if repeatPrefix bytes = some 0xF3 then pfF3
  else if repeatPrefix bytes = some 0xF2 then pfF2
  else if bytes.contains 0x66 then pf66
  else pfNone

/-- In groups 12 to 15 the operand size prefix is a part of the opcode. -/
def groupUses66 (type : InstType) (row : Nat) : Bool :=
  match type with
  | .group6ToP group => decide (5 ≤ group.val ∧ group.val ≤ 8 ∧ row = pf66)
  | _ => false

/-- The decoder finds the entries that the rules give for the prefixes, and the sizes. -/
def Resolves (entries : Entries) (is64BitMode : Bool) (bytes : List Byte) (rest : Nat → Byte) : Prop :=
  let secondBaseOps op := (entries .secondBaseOps op.toNat).toX86InstInfo
  ∃ selected entry,
    decodeInstruction secondBaseOps is64BitMode (instruction bytes rest) (maxInstSize + 1) 0 .init = some selected ∧
    assigned secondBaseOps is64BitMode bytes rest = some entry ∧
    selected.table = entry.table ∧ selected.index = entry.index ∧
    selected.instructionSize = bytes.length + entry.size ∧
    let call := normalOpHeader entries selected.table selected.index (prefixType selected.state.lastEscapePrefix)
      (instruction bytes rest selected.instructionSize)
    let assignedCall := normalOpHeader entries entry.table entry.index (assignedRow bytes) (rest entry.size)
    let uses66 := entry.uses66 || groupUses66 (entries entry.table entry.index).type (assignedRow bytes)
    call.bytes = assignedCall.bytes ∧ call.entry entries = assignedCall.entry entries ∧
    normalOpSizes is64BitMode selected.state.flags false (call.entry entries).toX86InstInfo =
      assignedSizes is64BitMode (bytes.contains 0x67) (operandSizeOf is64BitMode bytes uses66)
        (assignedCall.entry entries).toX86InstInfo

end FexEmu.Frontend.Prefixes
