import FexEmu.Frontend.ModRM
/-!
# Prefixes

The parts of `DecodeInstruction` and `NormalOp` that read the prefixes, select a table and decide on the sizes. The operand
size is a stack of two markers in the flags.
-/
namespace FexEmu.Frontend.Prefixes

open FlatMemory (Byte)

/-! ## The flags of an instruction -/

/-- The bits of `DecodeFlags`. -/
def operandSizeBit : Nat := 0
def addressSizeBit : Nat := 1
def lockBit : Nat := 2
def rexPrefixBit : Nat := 4
def rexWideningBit : Nat := 7
def rexXGPRBBit : Nat := 8
def rexXGPRXBit : Nat := 9
def rexXGPRRBit : Nat := 10
def esPrefixBit : Nat := 11
def csPrefixBit : Nat := 12
def ssPrefixBit : Nat := 13
def dsPrefixBit : Nat := 14
def fsPrefixBit : Nat := 15
def gsPrefixBit : Nat := 16
def repPrefixBit : Nat := 17
def repnePrefixBit : Nat := 18
def opAddrOff : Nat := 25

def flag (bit : Nat) : BitVec 32 := 1#32 <<< bit

def opAddrMask : BitVec 32 := 0xF#32 <<< opAddrOff

def operandSizeLast : BitVec 32 := 0b01
def wideningSizeLast : BitVec 32 := 0b10

/-- `GetOpAddr`: a marker of the stack. -/
def getOpAddr (flags : BitVec 32) (index : Nat) : BitVec 32 :=
  (((flags &&& opAddrMask) >>> opAddrOff) >>> (index * 2)) &&& 3#32

def pushOpAddr (flags marker : BitVec 32) : BitVec 32 :=
  let bottomOfStack := ((flags &&& opAddrMask) >>> opAddrOff) &&& 3#32
  (flags &&& ~~~opAddrMask) ||| ((bottomOfStack <<< (opAddrOff + 2)) ||| (marker <<< opAddrOff))

def popOpAddrIf (flags marker : BitVec 32) : BitVec 32 :=
  let bottomOfStack := ((flags &&& opAddrMask) >>> opAddrOff) &&& 3#32
  if bottomOfStack ≠ marker then flags
  else
    let topOfStack := ((flags &&& opAddrMask) >>> (opAddrOff + 2)) &&& 3#32
    (flags &&& ~~~opAddrMask) ||| (topOfStack <<< opAddrOff)

/-! ## Table entries -/

/-- The size flags of an entry. Only the entries for VEX prefixes have `SIZE_256BIT`. -/
inductive SizeFlag
  | sizeDef | size8Bit | size16Bit | size32Bit | size64Bit | size128Bit | size64BitDef
deriving DecidableEq, Repr

/-- The flags of an entry that decide on sizes, or on the table that an opcode is looked up in. -/
structure X86InstInfo where
  dstSize : SizeFlag
  srcSize : SizeFlag
  xmmFlags : Bool
  sfDstGPR : Bool
  sfSrcGPR : Bool
  sfMMXDst : Bool
  sfMMXSrc : Bool
  displaceSizeMul2 : Bool
  displaceSizeDiv2 : Bool
  memOffset : Bool
  noOverlay : Bool
  noOverlay66 : Bool
  moreBytes : Nat
  /-- Of all entries. -/
  moreBytes_le : moreBytes ≤ 8
deriving DecidableEq

/-- The tables that an instruction can be found in. -/
inductive OpTable
  | baseOps | secondBaseOps | repModOps | repNEModOps | opSizeModOps | h0F38TableOps | h0F3ATableOps | dddNowOps
  | primaryInstGroupOps | secondInstGroupOps | secondModRMTableOps | x87Ops
deriving DecidableEq, Repr

/-! ## The prefixes -/

/-- What the prefix loop keeps. -/
structure PrefixState where
  flags : BitVec 32
  lastEscapePrefix : Byte

def PrefixState.init : PrefixState := ⟨0, 0⟩

def PrefixState.set (s : PrefixState) (bit : Nat) : PrefixState := { s with flags := s.flags ||| flag bit }

def PrefixState.clear (s : PrefixState) (bit : Nat) : PrefixState := { s with flags := s.flags &&& ~~~flag bit }

def PrefixState.has (s : PrefixState) (bit : Nat) : Bool := s.flags &&& flag bit != 0

/-- The entries of `BaseOps` of type `TYPE_REX_PREFIX`: in 64-bit mode those from 0x40 to 0x4F. -/
def isREX (is64BitMode : Bool) (op : Byte) : Bool := is64BitMode && op.toNat / 16 == 4

def rexByte (s : PrefixState) (op : Byte) : PrefixState :=
  let s := s.set rexPrefixBit
  let s :=
    if op.getLsbD 3 then
      let s := s.set rexWideningBit
      { s with flags := pushOpAddr s.flags wideningSizeLast }
    else s
  let s := if op.getLsbD 0 then s.set rexXGPRBBit else s
  let s := if op.getLsbD 1 then s.set rexXGPRXBit else s
  if op.getLsbD 2 then s.set rexXGPRRBit else s

/-- The cases of the `switch` that go on to the next byte. -/
def prefixByte (is64BitMode : Bool) (s : PrefixState) (op : Byte) : Option PrefixState :=
  if op = 0x66 then
    let s := s.set operandSizeBit
    some { flags := pushOpAddr s.flags operandSizeLast, lastEscapePrefix := op }
  else if op = 0x67 then some (s.set addressSizeBit)
  else if op = 0x26 then some (if is64BitMode then s else s.set esPrefixBit)
  else if op = 0x2E then some (if is64BitMode then s else s.set csPrefixBit)
  else if op = 0x36 then some (if is64BitMode then s else s.set ssPrefixBit)
  else if op = 0x3E then some (if is64BitMode then s else s.set dsPrefixBit)
  else if op = 0xF0 then some (s.set lockBit)
  else if op = 0xF2 then some { s.set repnePrefixBit with lastEscapePrefix := op }
  else if op = 0xF3 then some { s.set repPrefixBit with lastEscapePrefix := op }
  else if op = 0x64 then some (s.set fsPrefixBit)
  else if op = 0x65 then some (s.set gsPrefixBit)
  else if isREX is64BitMode op then some (rexByte s op)
  else none

/-! ## The table -/

/-- The call of `NormalOpHeader`: the entry, and the instruction so far. -/
structure Selected where
  table : OpTable
  index : Nat
  state : PrefixState
  instructionSize : Nat

/-- The bits of an index of `H0F38TableOps`. -/
def prefix38 (s : PrefixState) : Nat :=
  (if s.has operandSizeBit then 1 else 0) + (if s.has repnePrefixBit then 2 else 0) + (if s.has repPrefixBit then 4 else 0)

/-- The bits of an index of `H0F3ATableOps`: a REX prefix adds to the operand size prefix. -/
def prefix3A (s : PrefixState) : Nat :=
  (if s.lastEscapePrefix = 0x66 then 1 else 0) + (if s.has rexWideningBit then 2 else 0)

/-- The operand of a 3DNow! instruction is in front of its opcode. -/
def dddNowOperand (is64BitMode : Bool) (s : PrefixState) (stream : Nat → Byte) (size : Nat) : Nat :=
  let modRM := stream size
  let d : ModRM.InstDecoder := ⟨stream, size + 1, s.has rexXGPRBBit, s.has rexXGPRXBit, 0, false⟩
  if ModRM.modField modRM ≠ 3 then
    let decoded := if !is64BitMode && s.has addressSizeBit then ModRM.decodeModRM16 d modRM else ModRM.decodeModRM64 d modRM
    decoded.2.instructionSize
  else d.instructionSize

/-- Behind an escape byte, whose opcode byte is at `size`. -/
def escapeOp (secondBaseOps : Byte → X86InstInfo) (is64BitMode : Bool) (s : PrefixState) (stream : Nat → Byte)
    (size : Nat) : Selected :=
  let op := stream size
  let size := size + 1
  if op = 0x0F then
    let size := dddNowOperand is64BitMode s stream size
    ⟨.dddNowOps, (stream size).toNat, s, size + 1⟩
  else if op = 0x38 then ⟨.h0F38TableOps, prefix38 s * 256 + (stream size).toNat, s, size + 1⟩
  else if op = 0x3A then ⟨.h0F3ATableOps, prefix3A s * 256 + (stream size).toNat, s, size + 1⟩
  else if (secondBaseOps op).noOverlay then ⟨.secondBaseOps, op.toNat, s, size⟩
  else if s.lastEscapePrefix = 0xF3 then ⟨.repModOps, op.toNat, s.clear repPrefixBit, size⟩
  else if s.lastEscapePrefix = 0xF2 then ⟨.repNEModOps, op.toNat, s.clear repnePrefixBit, size⟩
  else if s.lastEscapePrefix = 0x66 ∧ (secondBaseOps op).noOverlay66 = false then
    -- the marker of the last prefix goes with it, those of earlier ones stay
    let s := s.clear operandSizeBit
    ⟨.opSizeModOps, op.toNat, { s with flags := popOpAddrIf s.flags operandSizeLast }, size⟩
  else ⟨.secondBaseOps, op.toNat, s, size⟩

def maxInstSize : Nat := 15

/-- The loop of `DecodeInstruction`, a turn for each byte. -/
def decodeInstruction (secondBaseOps : Byte → X86InstInfo) (is64BitMode : Bool) (stream : Nat → Byte) :
    Nat → Nat → PrefixState → Option Selected
  | 0, _, _ => none
  | fuel + 1, size, s =>
    if maxInstSize ≤ size then none
    else
      let op := stream size
      let size := size + 1
      if op = 0x0F then some (escapeOp secondBaseOps is64BitMode s stream size)
      else
        match prefixByte is64BitMode s op with
        | some s => decodeInstruction secondBaseOps is64BitMode stream fuel size s
        | none => some ⟨.baseOps, op.toNat, s, size⟩

/-! ## The sizes -/

/-- The sizes of the operands and of the immediate, in bytes. -/
structure Sizes where
  dst : Nat
  src : Nat
  immediate : Nat
deriving DecidableEq, Repr

def operandSize (is64BitMode hasXMMOrMM hasWidening hasNarrowing : Bool) (size : SizeFlag) : Nat :=
  if size = .size8Bit then 1
  else if size = .size16Bit then 2
  else if size = .size128Bit then 16
  else if hasNarrowing ∧ (size = .sizeDef ∨ size = .size64BitDef) then 2
  else if (hasXMMOrMM || is64BitMode) ∧ (hasWidening ∨ size = .size64Bit ∨ size = .size64BitDef) then 8
  else 4

def hasXMMDst (info : X86InstInfo) : Bool :=
  info.xmmFlags && !(info.xmmFlags && info.sfDstGPR) && !(info.xmmFlags && info.sfMMXDst)

def hasXMMSrc (info : X86InstInfo) : Bool :=
  info.xmmFlags && !(info.xmmFlags && info.sfSrcGPR) && !(info.xmmFlags && info.sfMMXSrc)

def hasMMDst (info : X86InstInfo) : Bool :=
  info.xmmFlags && !(info.xmmFlags && info.sfDstGPR) && (info.xmmFlags && info.sfMMXDst)

def hasMMSrc (info : X86InstInfo) : Bool :=
  info.xmmFlags && !(info.xmmFlags && info.sfSrcGPR) && (info.xmmFlags && info.sfMMXSrc)

/-- What `NormalOp` makes of the flags for an entry. `optionsW` is the one of a VEX prefix. -/
def normalOpSizes (is64BitMode : Bool) (flags : BitVec 32) (optionsW : Bool) (info : X86InstInfo) : Sizes :=
  let hasWidening := getOpAddr flags 0 &&& wideningSizeLast != 0 || (optionsW && is64BitMode)
  let hasNarrowing := getOpAddr flags 0 &&& operandSizeLast != 0
  let bytes := info.moreBytes
  let bytes := if info.displaceSizeMul2 && hasWidening then bytes * 2 else bytes
  let bytes := if info.displaceSizeDiv2 && hasNarrowing then bytes / 2 else bytes
  let bytes := if info.memOffset && flags &&& flag addressSizeBit != 0 then bytes / 2 else bytes
  { dst := operandSize is64BitMode (hasXMMDst info || hasMMDst info) hasWidening hasNarrowing info.dstSize
    src := operandSize is64BitMode (hasXMMSrc info || hasMMSrc info) hasWidening hasNarrowing info.srcSize
    immediate := bytes }

end FexEmu.Frontend.Prefixes
