import FexEmu.Frontend.Instruction
/-!
# The length of an instruction

An encoding is prefixes, an opcode and what its entry asks for. The decoder accepts one with fewer than fifteen prefixes at
whatever length it has.
-/
namespace FexEmu.Frontend.Instruction

open FlatMemory (Byte)
open ModRM (rmField regField modField)
open Prefixes

/-! ## The parts of an encoding -/

/-- The sizes of the parts, in bytes. A byte of a VEX or EVEX prefix counts for the opcode. -/
structure Encoding where
  prefixes : Nat
  opcode : Nat
  modRM : Nat
  sib : Nat
  displacement : Nat
  immediate : Nat
deriving DecidableEq, Repr

def Encoding.length (e : Encoding) : Nat := e.prefixes + e.opcode + e.modRM + e.sib + e.displacement + e.immediate

def sibBytes (is16Bit : Bool) (modRM : Byte) : Nat := if !is16Bit && rmField modRM = 4 then 1 else 0

def displacementBytes (is16Bit : Bool) (modRM sib : Byte) : Nat :=
  if modField modRM = 1 then 1
  else if modField modRM = 2 then (if is16Bit then 2 else 4)
  else if is16Bit then (if rmField modRM = 6 then 2 else 0)
  else if rmField modRM = 5 ∨ rmField modRM = 4 ∧ rmField sib = 5 then 4
  else 0

/-- The register forms that the decoder does not refuse. -/
def registersValid (s : PrefixState) (info : InstInfo) (sizes : Sizes) (modRM : Byte) : Prop :=
  let reg := if info.sfModDst then srcClass info sizes else destClass info sizes
  let rm := if info.sfModDst then destClass info sizes else srcClass info sizes
  fieldReg s reg rexXGPRRBit (regField modRM) ≠ .invalid ∧
    (modField modRM = 3 → fieldReg s rm rexXGPRBBit (rmField modRM) ≠ .invalid)

/-- The entry, the prefixes that are left for it, how many bytes it has, and where the ModRM byte is if there is one. -/
structure Opcode where
  info : InstInfo
  prefixes : PrefixState
  options : DecodedHeader
  bytes : Nat
  modRMAt : Nat
  /-- The ModRM byte is there whatever the entry says. -/
  modRMFirst : Bool
  /-- The operand is in front of the last byte of the opcode. -/
  operandFirst : Bool

def Opcode.sizes (is64BitMode : Bool) (o : Opcode) : Sizes :=
  normalOpSizes is64BitMode o.prefixes.flags o.options.w o.info.toX86InstInfo

/-- The entry stands for an instruction, which has the registers of the ModRM byte. -/
def Opcode.Valid (is64BitMode : Bool) (stream : Nat → Byte) (o : Opcode) : Prop :=
  o.info.isRefused = false ∧
    (o.info.modRM = true → registersValid o.prefixes o.info (o.sizes is64BitMode) (stream o.modRMAt))

def Opcode.encoding (is64BitMode : Bool) (stream : Nat → Byte) (o : Opcode) (prefixes : Nat) : Encoding :=
  let modRM := stream o.modRMAt
  let is16Bit := has16BitAddressing is64BitMode o.prefixes
  let hasMemory := (o.info.modRM || o.operandFirst) && modField modRM ≠ 3
  { prefixes
    opcode := o.bytes
    modRM := if o.info.modRM || o.modRMFirst then 1 else 0
    sib := if hasMemory then sibBytes is16Bit modRM else 0
    displacement := if hasMemory then displacementBytes is16Bit modRM (stream (o.modRMAt + 1)) else 0
    immediate := (o.sizes is64BitMode).immediate }

/-! ## The opcode -/

def groupOpcode (info : InstInfo) (s : PrefixState) (options : DecodedHeader) (start bytes : Nat) : Opcode :=
  ⟨info, s, options, bytes, start + bytes, true, false⟩

/-- The decoder in front of a byte, when only prefixes and opcode bytes are read. -/
def cursor (stream : Nat → Byte) (s : PrefixState) (instructionSize : Nat) : Decoder :=
  { Decoder.init stream with instructionSize, prefixes := s }

/-- The opcode of a VEX prefix. Three maps of opcodes are understood. -/
def vexOpcode (tables : Tables) (vex : VEXPrefix) (start : Nat) : Option Opcode :=
  let d := vex.decoder
  let op := (vex.mapSelect - 1) <<< 10 ||| vex.pp <<< 8 ||| d.peek.toNat
  let bytes := d.instructionSize + 1 - start
  if vex.mapSelect < 1 ∨ 3 < vex.mapSelect then none
  else
    match (tables.vexTableOps op).type with
    | .vexGroup12To17 group =>
      let op := group.val <<< 4 ||| vex.pp <<< 3 ||| regField (d.instStream (d.instructionSize + 1))
      some (groupOpcode (tables.vexTableGroupOps op) d.prefixes vex.options start bytes)
    | _ => some ⟨tables.vexTableOps op, d.prefixes, vex.options, bytes, start + bytes, false, false⟩

def entryOpcode (tables : Tables) (is64BitMode : Bool) (stream : Nat → Byte) (s : PrefixState) (info : InstInfo)
    (op start bytes : Nat) : Option Opcode :=
  let modRM := stream (start + bytes)
  if info.isRefused then none
  else match info.type with
  | .group1To11 group =>
    let op := group.val <<< 6 ||| info.moreBytes <<< 3 ||| regField modRM
    some (groupOpcode (tables.primaryInstGroupOps op) s noHeader start bytes)
  | .group6ToP group =>
    let op := group.val <<< 5 ||| prefixType s <<< 3 ||| regField modRM
    if (tables.secondInstGroupOps op).type = .secondGroupModRM then
      let op := regToField.getD (regField modRM) 255 <<< 3 ||| rmField modRM
      some (groupOpcode (tables.secondModRMTableOps op) s noHeader start bytes)
    else some (groupOpcode (tables.secondInstGroupOps op) s noHeader start bytes)
  | .x87TablePrefix =>
    some (groupOpcode (tables.x87Ops ((op - 0xD8) <<< 8 ||| modRM.toNat)) s noHeader start bytes)
  | .vexTablePrefix => vexOpcode tables (vexPrefix is64BitMode { cursor stream s (start + bytes) with op } op) start
  | .groupEVEX =>
    some ⟨tables.evexTableOps (stream (start + bytes + 3)), s, noHeader, bytes + 4, start + bytes + 4, false, false⟩
  | _ => some ⟨info, s, noHeader, bytes, start + bytes, false, false⟩

def dddNowOpcode (tables : Tables) (is64BitMode : Bool) (stream : Nat → Byte) (s : PrefixState) (start : Nat) :
    Option Opcode :=
  let modRM := stream (start + 2)
  let is16Bit := has16BitAddressing is64BitMode s
  let operandBytes :=
    if modField modRM = 3 then 0 else sibBytes is16Bit modRM + displacementBytes is16Bit modRM (stream (start + 3))
  let info := tables.dddNowOps (stream (start + 3 + operandBytes))
  if info.isRefused then none else some ⟨info, s, noHeader, 3, start + 2, true, true⟩

/-- Behind an escape byte at `start`. A prefix that picks the table is no prefix of the instruction any more. -/
def escapeOpcode (tables : Tables) (is64BitMode : Bool) (stream : Nat → Byte) (s : PrefixState) (start : Nat) :
    Option Opcode :=
  let op := stream (start + 1)
  let entry := fun s (info : InstInfo) => entryOpcode tables is64BitMode stream s info op.toNat start 2
  if op = 0x0F then dddNowOpcode tables is64BitMode stream s start
  else if op = 0x38 then
    let op := prefix38 s * 256 + (stream (start + 2)).toNat
    entryOpcode tables is64BitMode stream s (tables.h0F38TableOps op) op start 3
  else if op = 0x3A then
    let op := prefix3A s * 256 + (stream (start + 2)).toNat
    entryOpcode tables is64BitMode stream s (tables.h0F3ATableOps op) op start 3
  else if (tables.secondBaseOps op).noOverlay then entry s (tables.secondBaseOps op)
  else if s.lastEscapePrefix = 0xF3 then entry (s.clear repPrefixBit) (tables.repModOps op)
  else if s.lastEscapePrefix = 0xF2 then entry (s.clear repnePrefixBit) (tables.repNEModOps op)
  else if s.lastEscapePrefix = 0x66 ∧ (tables.secondBaseOps op).noOverlay66 = false then
    let s := s.clear operandSizeBit
    entry { s with flags := popOpAddrIf s.flags operandSizeLast } (tables.opSizeModOps op)
  else entry s (tables.secondBaseOps op)

def opcode (tables : Tables) (is64BitMode : Bool) (stream : Nat → Byte) (s : PrefixState) (start : Nat) :
    Option Opcode :=
  let op := stream start
  if op = 0x0F then escapeOpcode tables is64BitMode stream s start
  else entryOpcode tables is64BitMode stream s (tables.baseOps op) op.toNat start 1

/-- The state that the first n bytes leave, if they are prefixes. -/
def prefixesOf (is64BitMode : Bool) (stream : Nat → Byte) : Nat → Option PrefixState
  | 0 => some .init
  | n + 1 => (prefixesOf is64BitMode stream n).bind fun s => prefixByte is64BitMode s (stream n)

/-- An encoding: its prefixes, then an opcode of the tables, then what the opcode asks for. -/
def Encodes (tables : Tables) (is64BitMode : Bool) (stream : Nat → Byte) (e : Encoding) : Prop :=
  ∃ s o, prefixesOf is64BitMode stream e.prefixes = some s ∧ prefixByte is64BitMode s (stream e.prefixes) = none ∧
    opcode tables is64BitMode stream s e.prefixes = some o ∧ o.Valid is64BitMode stream ∧
    e = o.encoding is64BitMode stream e.prefixes

end FexEmu.Frontend.Instruction
