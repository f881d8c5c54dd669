import FexEmu.Frontend.Prefixes
/-!
# Addresses of memory operands

The addresses that `LoadSource_WithOpSize` and `StoreResult_WithOpSize` emit. A node of four bytes is zero extended.
-/
namespace FexEmu.OpcodeDispatcher.Address

open Frontend.ModRM (X86Reg DecodedOperand)
open Frontend.Prefixes (flag addressSizeBit esPrefixBit csPrefixBit ssPrefixBit dsPrefixBit fsPrefixBit gsPrefixBit)

/-! ## Nodes -/

/-- An IR value with the size of the op that made it. -/
structure Node where
  size : Nat
  value : BitVec 64
deriving DecidableEq, Repr

/-- `_Constant` with a width. -/
def constant (width : Nat) (c : BitVec 64) : Node := ⟨width / 8, c &&& (BitVec.allOnes 64 >>> (64 - width))⟩

/-- `_LoadContext` of the low bytes of a member. -/
def loadContext (size : Nat) (member : BitVec 64) : Node := ⟨size, (member.setWidth (8 * size)).setWidth 64⟩

def arithmetic (f : BitVec 64 → BitVec 64 → BitVec 64) (src1 src2 : Node) : Node :=
  let size := max 4 (max src1.size src2.size)
  let result := f src1.value src2.value
  ⟨size, if size = 4 then (result.setWidth 32).setWidth 64 else result⟩

def add : Node → Node → Node := arithmetic (· + ·)

def mul : Node → Node → Node := arithmetic (· * ·)

def lshr (src : Node) (amount : Nat) : Node := ⟨max 4 src.size, src.value >>> amount⟩

/-- `_Bfe` from bit zero on. -/
def bfe (size width : Nat) (src : Node) : Node := ⟨size, src.value &&& (BitVec.allOnes 64 >>> (64 - width))⟩

def entrypointOffset (entry offset : BitVec 64) (size : Nat) : Node :=
  ⟨size, if size = 4 then (entry + offset) &&& 0xFFFFFFFF else entry + offset⟩

/-! ## Segments -/

/-- The segment registers that a prefix can name. -/
inductive Segment
  | es | cs | ss | ds | fs | gs
deriving DecidableEq, Repr

def Segment.bit : Segment → Nat
  | es => esPrefixBit
  | cs => csPrefixBit
  | ss => ssPrefixBit
  | ds => dsPrefixBit
  | fs => fsPrefixBit
  | gs => gsPrefixBit

def flagSegments : BitVec 32 := 0b111111#32 <<< 11

/-- In 64-bit mode, `fs` and `gs` are bases, else the segment registers are selectors in their low two bytes. -/
structure CPUState where
  gregs : X86Reg → BitVec 64
  segments : Segment → BitVec 64
  gdt : Nat → BitVec 32

/-- `GetGPRSize`. -/
def gprSize (is64BitMode : Bool) : Nat := if is64BitMode then 8 else 4

/-- The `switch` of `AppendSegmentOffset`. -/
def segmentOfFlag (flags : BitVec 32) : Option Segment :=
  if flags = flag esPrefixBit then some .es
  else if flags = flag csPrefixBit then some .cs
  else if flags = flag ssPrefixBit then some .ss
  else if flags = flag dsPrefixBit then some .ds
  else if flags = flag fsPrefixBit then some .fs
  else if flags = flag gsPrefixBit then some .gs
  else none

def appendSegmentOffset (is64BitMode : Bool) (state : CPUState) (value : Node) (flags defaultPrefix : BitVec 32)
    (override : Bool) : Node :=
  if is64BitMode then
    if flags &&& flag fsPrefixBit ≠ 0 then add value (loadContext 8 (state.segments .fs))
    else if flags &&& flag gsPrefixBit ≠ 0 then add value (loadContext 8 (state.segments .gs))
    else value
  else
    let given := flags &&& flagSegments
    let given := if given = 0 ∨ override then defaultPrefix else given
    match segmentOfFlag given with
    | some segment =>
      let index := lshr (loadContext 2 (state.segments segment)) 3
      add value (loadContext 4 ((state.gdt index.value.toNat).setWidth 64))
    | none => value

/-! ## The two functions -/

/-- What address generation reads of `DecodedInst` and of its block. -/
structure DecodedOp where
  flags : BitVec 32
  pc : BitVec 64
  instSize : Nat
  entry : BitVec 64

def getRelocatedPC (is64BitMode : Bool) (op : DecodedOp) (offset : BitVec 64) : Node :=
  entrypointOffset op.entry (op.pc + BitVec.ofNat 64 op.instSize + offset - op.entry) (gprSize is64BitMode)

def addrSize (is64BitMode : Bool) (op : DecodedOp) : Nat :=
  if op.flags &&& flag addressSizeBit ≠ 0 then gprSize is64BitMode / 2 else gprSize is64BitMode

/-- `Src` of `LoadSource_WithOpSize` for an operand in memory, before the segment. -/
def loadSourceAddress (is64BitMode : Bool) (state : CPUState) (op : DecodedOp) : DecodedOperand → Option Node
  | .literal size value => some (constant (size * 8) value)
  | .gprDirect gpr => some (loadContext (addrSize is64BitMode op) (state.gregs gpr))
  | .gprIndirect gpr displacement =>
    let gpr := loadContext (addrSize is64BitMode op) (state.gregs gpr)
    some (add gpr (constant (gprSize is64BitMode * 8) (displacement.signExtend 64)))
  | .ripRelative value =>
    if is64BitMode then some (getRelocatedPC is64BitMode op (value.signExtend 64))
    else some (constant (gprSize is64BitMode * 8) (value.setWidth 64))
  | .sib index base scale offset =>
    let tmp :=
      if index ≠ .invalid then
        let tmp := loadContext (addrSize is64BitMode op) (state.gregs index)
        some (if scale ≠ 1 then mul tmp (constant (gprSize is64BitMode * 8) (BitVec.ofNat 64 scale)) else tmp)
      else none
    let tmp :=
      if base ≠ .invalid then
        let gpr := loadContext (addrSize is64BitMode op) (state.gregs base)
        match tmp with
        | some tmp => some (add tmp gpr)
        | none => some gpr
      else tmp
    let src :=
      if offset ≠ 0 then
        match tmp with
        | some tmp => add tmp (constant (gprSize is64BitMode * 8) (offset.signExtend 64))
        | none => constant (gprSize is64BitMode * 8) (offset.signExtend 64)
      else
        match tmp with
        | some tmp => tmp
        | none => constant (gprSize is64BitMode * 8) 0
    some (if addrSize is64BitMode op < gprSize is64BitMode then
      bfe (addrSize is64BitMode op) (addrSize is64BitMode op * 8) src else src)
  | _ => none

/-- The address that `LoadSource_WithOpSize` loads from. -/
def loadSource (is64BitMode : Bool) (state : CPUState) (op : DecodedOp) (operand : DecodedOperand) (flags : BitVec 32) :
    Option Node :=
  (loadSourceAddress is64BitMode state op operand).map fun src => appendSegmentOffset is64BitMode state src flags 0 false

/-- `MemStoreDst` of `StoreResult_WithOpSize`, before the segment. -/
def storeResultAddress (is64BitMode : Bool) (state : CPUState) (op : DecodedOp) : DecodedOperand → Option Node
  | .literal size value => some (constant (size * 8) value)
  | .gprDirect gpr => some (loadContext (addrSize is64BitMode op) (state.gregs gpr))
  | .gprIndirect gpr displacement =>
    let gpr := loadContext (addrSize is64BitMode op) (state.gregs gpr)
    some (add gpr (constant (gprSize is64BitMode * 8) (displacement.signExtend 64)))
  | .ripRelative value =>
    if is64BitMode then some (getRelocatedPC is64BitMode op (value.signExtend 64))
    else some (constant (gprSize is64BitMode * 8) (value.setWidth 64))
  | .sib index base scale offset =>
    let tmp :=
      if index ≠ .invalid then
        let tmp := loadContext (addrSize is64BitMode op) (state.gregs index)
        some (if scale ≠ 1 then mul tmp (constant (gprSize is64BitMode * 8) (BitVec.ofNat 64 scale)) else tmp)
      else none
    let tmp :=
      if base ≠ .invalid then
        let gpr := loadContext (addrSize is64BitMode op) (state.gregs base)
        match tmp with
        | some tmp => some (add tmp gpr)
        | none => some gpr
      else tmp
    let memStoreDst :=
      if offset ≠ 0 then
        match tmp with
        | some tmp => add tmp (constant (gprSize is64BitMode * 8) (offset.signExtend 64))
        | none => constant (gprSize is64BitMode * 8) (offset.signExtend 64)
      else
        match tmp with
        | some tmp => tmp
        | none => constant (gprSize is64BitMode * 8) 0
    some (if addrSize is64BitMode op < gprSize is64BitMode then
      bfe (addrSize is64BitMode op) (addrSize is64BitMode op * 8) memStoreDst else memStoreDst)
  | _ => none

/-- The address that `StoreResult_WithOpSize` stores to. -/
def storeResult (is64BitMode : Bool) (state : CPUState) (op : DecodedOp) (operand : DecodedOperand) : Option Node :=
  (storeResultAddress is64BitMode state op operand).map fun memStoreDst =>
    appendSegmentOffset is64BitMode state memStoreDst op.flags 0 false

end FexEmu.OpcodeDispatcher.Address
