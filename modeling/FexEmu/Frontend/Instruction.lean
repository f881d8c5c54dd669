import FexEmu.Frontend.Prefixes
/-!
# One instruction

`DecodeInstruction`, `NormalOpHeader` and `NormalOp`, built without assertions. The entries of the tables are data.
-/
namespace FexEmu.Frontend.Instruction

open FlatMemory (Byte)
open ModRM (X86Reg DecodedOperand mapModRMToReg rmField regField modField)
open Prefixes

/-! ## The tables -/

/-- `InstType`. The members of a range of groups are numbered from its first one. -/
inductive InstType
  | unknown | legacyPrefix | plainPrefix | rexPrefix | secondaryTablePrefix | x87TablePrefix | vexTablePrefix
  | xopTablePrefix | inst | invalid | copyOther
  | group1To11 (group : Fin 7)
  | group6ToP (group : Fin 12)
  | secondGroupModRM
  | vexGroup12To17 (group : Fin 5)
  | groupEVEX
deriving DecidableEq, Repr

/-- An entry, with all of its flags that decoding reads. Without `xmmFlags` the bits of four of them mean something
else. -/
structure InstInfo extends Prefixes.X86InstInfo where
  type : InstType
  modRM : Bool
  sfModDst : Bool
  sfHighXMMReg : Bool
  srcSext : Bool
  srcSext64Bit : Bool
  vex1stSrc : Bool
  vex2ndSrc : Bool
  vexDst : Bool
  /-- Of all entries: with a ModRM byte there is no other place for a destination. -/
  oneDest : modRM = true → xmmFlags = true ∨ (sfHighXMMReg = false ∧ sfDstGPR = false ∧ sfMMXSrc = false)

def InstInfo.sfDstRAX (info : InstInfo) : Bool := !info.xmmFlags && info.sfHighXMMReg
def InstInfo.sfDstRDX (info : InstInfo) : Bool := !info.xmmFlags && info.sfDstGPR
def InstInfo.sfSrcRAX (info : InstInfo) : Bool := !info.xmmFlags && info.sfSrcGPR
def InstInfo.sfSrcRCX (info : InstInfo) : Bool := !info.xmmFlags && info.sfMMXDst
def InstInfo.sfREXInByte (info : InstInfo) : Bool := !info.xmmFlags && info.sfMMXSrc
def InstInfo.hasHighXMM (info : InstInfo) : Bool := info.xmmFlags && info.sfHighXMMReg

/-- The rows that can stand for 3DNow!, whose opcode comes last. -/
def InstInfo.IsDDDNow (info : InstInfo) : Prop :=
  info.type = .unknown ∨
    (info.type = .inst ∧ info.modRM = true ∧ info.sfModDst = false ∧ info.vex1stSrc = false ∧ info.moreBytes = 0)

/-- The tables of instructions that the build generates. -/
structure Tables where
  baseOps : Byte → InstInfo
  secondBaseOps : Byte → InstInfo
  repModOps : Byte → InstInfo
  repNEModOps : Byte → InstInfo
  opSizeModOps : Byte → InstInfo
  dddNowOps : Byte → InstInfo
  evexTableOps : Byte → InstInfo
  h0F38TableOps : Nat → InstInfo
  h0F3ATableOps : Nat → InstInfo
  primaryInstGroupOps : Nat → InstInfo
  secondInstGroupOps : Nat → InstInfo
  secondModRMTableOps : Nat → InstInfo
  x87Ops : Nat → InstInfo
  vexTableOps : Nat → InstInfo
  vexTableGroupOps : Nat → InstInfo
  isDDDNow : ∀ op, (dddNowOps op).IsDDDNow

/-! ## The decoder -/

/-- The stream, and the instruction as far as it is decoded. -/
structure Decoder where
  instStream : Nat → Byte
  instructionSize : Nat
  prefixes : PrefixState
  op : Nat
  modRM : Byte
  decodedModRM : Bool
  sib : Byte
  decodedSIB : Bool
  dest : DecodedOperand
  src : Nat → DecodedOperand

def Decoder.init (instStream : Nat → Byte) : Decoder :=
  ⟨instStream, 0, .init, 0, 0, false, 0, false, .nothing, fun _ => .nothing⟩

def Decoder.peek (d : Decoder) : Byte := d.instStream d.instructionSize

def Decoder.skipBytes (d : Decoder) (size : Nat) : Decoder := { d with instructionSize := d.instructionSize + size }

def Decoder.readModRM (d : Decoder) : Decoder :=
  { d with modRM := d.peek, decodedModRM := true, instructionSize := d.instructionSize + 1 }

def Decoder.setSrc (d : Decoder) (i : Nat) (operand : DecodedOperand) : Decoder :=
  { d with src := Function.update d.src i operand }

def has16BitAddressing (is64BitMode : Bool) (s : PrefixState) : Bool := !is64BitMode && s.has addressSizeBit

def decodeModRMDisp (is64BitMode : Bool) (d : Decoder) : DecodedOperand × Decoder :=
  let i : ModRM.InstDecoder := ⟨d.instStream, d.instructionSize, d.prefixes.has rexXGPRBBit, d.prefixes.has rexXGPRXBit,
    d.sib, d.decodedSIB⟩
  let (operand, i) :=
    if has16BitAddressing is64BitMode d.prefixes then ModRM.decodeModRM16 i d.modRM else ModRM.decodeModRM64 i d.modRM
  (operand, { d with instructionSize := i.instructionSize, sib := i.sib, decodedSIB := i.decodedSIB })

/-! ## The operands -/

/-- The registers that an operand is one of. -/
structure RegClass where
  xmm : Bool
  mm : Bool
  is8Bit : Bool

/-- The register of a field, with the highest bit from the REX bit `bit`. -/
def fieldReg (s : PrefixState) (c : RegClass) (bit field : Nat) : X86Reg :=
  mapModRMToReg (if s.has bit then 1 else 0) field c.is8Bit (s.has rexPrefixBit) c.xmm c.mm 16

def fieldOperand (s : PrefixState) (info : InstInfo) (c : RegClass) (bit field : Nat) : DecodedOperand :=
  .gpr ((c.is8Bit && decide (4 ≤ field) && !s.has rexPrefixBit) || info.hasHighXMM) (fieldReg s c bit field)

/-- `ModRMOperand`: the two operands, the second of which may be decoded already. -/
def modRMOperand (is64BitMode : Bool) (d : Decoder) (info : InstInfo) (gpr nonGPR : RegClass)
    (decoded : DecodedOperand) : Except Nat (DecodedOperand × DecodedOperand × Decoder) :=
  let s := d.prefixes
  let gprOperand := fieldOperand s info gpr rexXGPRRBit (regField d.modRM)
  if fieldReg s gpr rexXGPRRBit (regField d.modRM) = .invalid then .error d.instructionSize
  else if modField d.modRM = 3 then
    if fieldReg s nonGPR rexXGPRBBit (rmField d.modRM) = .invalid then .error d.instructionSize
    else .ok (gprOperand, fieldOperand s info nonGPR rexXGPRBBit (rmField d.modRM), d)
  else if decoded = .nothing then
    let (operand, d) := decodeModRMDisp is64BitMode d
    .ok (gprOperand, operand, d)
  else .ok (gprOperand, decoded, d)

/-- What a VEX prefix says. -/
structure DecodedHeader where
  vvvv : Nat
  w : Bool

def mapVEXToReg (vvvv : Nat) (hasXMM : Bool) : X86Reg :=
  (if hasXMM then ModRM.xmmIndexes else ModRM.gprIndexes).getD vvvv .invalid

/-- The hardcoded destination, and that of an opcode byte which holds a register. Its high bits are those of `Dest`,
whichever operand it is. -/
def opcodeOperands (d : Decoder) (info : InstInfo) (sizes : Sizes) (op : Nat) : Decoder :=
  let hardcoded := info.sfDstRAX || info.sfDstRDX
  let d := if hardcoded then { d with dest := .gpr false (if info.sfDstRAX then .rax else .rdx) } else d
  if info.sfREXInByte then
    let is8BitDest := decide (sizes.dst = 1)
    let highBits := (is8BitDest && !d.prefixes.has rexPrefixBit && decide (4 ≤ op % 8)) || info.hasHighXMM
    -- no register of an opcode byte is invalid
    let reg := fieldReg d.prefixes ⟨false, false, is8BitDest⟩ rexXGPRBBit (op % 8)
    if hardcoded then { d with dest := .gpr highBits (if info.sfDstRAX then .rax else .rdx) }.setSrc 0 (.gpr false reg)
    else { d with dest := .gpr highBits reg }
  else d

def srcClass (info : InstInfo) (sizes : Sizes) : RegClass :=
  ⟨hasXMMSrc info.toX86InstInfo, hasMMSrc info.toX86InstInfo, decide (sizes.src = 1)⟩

def destClass (info : InstInfo) (sizes : Sizes) : RegClass :=
  ⟨hasXMMDst info.toX86InstInfo, hasMMDst info.toX86InstInfo, decide (sizes.dst = 1)⟩

def modRMOperands (is64BitMode : Bool) (d : Decoder) (info : InstInfo) (sizes : Sizes) (currentSrc : Nat) :
    Except Nat (Nat × Decoder) :=
  if !info.modRM then .ok (currentSrc, d)
  else if info.sfModDst then
    (modRMOperand is64BitMode d info (srcClass info sizes) (destClass info sizes) d.dest).map fun (src, dest, d) =>
      (currentSrc + 1, { d.setSrc currentSrc src with dest })
  else
    (modRMOperand is64BitMode d info (destClass info sizes) (srcClass info sizes) (d.src currentSrc)).map
      fun (dest, src, d) => (currentSrc + 1, { d.setSrc currentSrc src with dest })

def vexSource (d : Decoder) (info : InstInfo) (options : DecodedHeader) : Nat × Decoder :=
  if info.vex1stSrc then (1, d.setSrc 0 (.gpr false (mapVEXToReg options.vvvv (hasXMMSrc info.toX86InstInfo))))
  else (0, d)

def lateOperands (d : Decoder) (info : InstInfo) (options : DecodedHeader) (currentSrc : Nat) : Nat × Decoder :=
  let x := info.toX86InstInfo
  let (currentSrc, d) :=
    if info.vex2ndSrc then (currentSrc + 1, d.setSrc currentSrc (.gpr false (mapVEXToReg options.vvvv (hasXMMSrc x))))
    else (currentSrc, d)
  let (currentSrc, d) :=
    if info.sfSrcRAX then (currentSrc + 1, d.setSrc currentSrc (.gpr false .rax))
    else if info.sfSrcRCX then (currentSrc + 1, d.setSrc currentSrc (.gpr false .rcx))
    else (currentSrc, d)
  let vexDest := DecodedOperand.gpr false (mapVEXToReg options.vvvv (hasXMMDst x))
  (currentSrc,
    if info.vexDst then (if info.sfDstRAX || info.sfDstRDX then d.setSrc 0 vexDest else { d with dest := vexDest }) else d)

def literalOperand (d : Decoder) (info : InstInfo) (sizes : Sizes) (currentSrc : Nat) : Decoder :=
  let bytes := sizes.immediate
  if bytes = 0 then d
  else
    let literal := BitVec.ofNat 64 (FlatMemory.load d.instStream d.instructionSize bytes)
    let d := d.skipBytes bytes
    if info.srcSext || (decide (sizes.dst = 8) && info.srcSext64Bit) then
      let literal :=
        if bytes = 1 then (literal.setWidth 8).signExtend 64
        else if bytes = 2 then (literal.setWidth 16).signExtend 64
        else (literal.setWidth 32).signExtend 64
      d.setSrc currentSrc (.literal sizes.dst literal)
    else d.setSrc currentSrc (.literal bytes literal)

/-! ## The entry -/

def InstInfo.isRefused (info : InstInfo) : Bool :=
  info.type = .legacyPrefix || info.type = .unknown || info.type = .invalid

/-- The operands of an entry, in the order of `NormalOp`. -/
def decodeOperands (is64BitMode : Bool) (d : Decoder) (info : InstInfo) (op : Nat) (options : DecodedHeader) :
    Except Nat Decoder :=
  let d := if info.modRM && !d.decodedModRM then d.readModRM else d
  let sizes := normalOpSizes is64BitMode d.prefixes.flags options.w info.toX86InstInfo
  let d := opcodeOperands d info sizes op
  let (currentSrc, d) := vexSource d info options
  (modRMOperands is64BitMode d info sizes currentSrc).map fun (currentSrc, d) =>
    let (currentSrc, d) := lateOperands d info options currentSrc
    literalOperand d info sizes currentSrc

def normalOp (is64BitMode : Bool) (d : Decoder) (info : InstInfo) (op : Nat) (options : DecodedHeader) :
    Except Nat Decoder :=
  if info.isRefused then .error d.instructionSize
  else decodeOperands is64BitMode { d with op } info op options

def noHeader : DecodedHeader := ⟨0, false⟩

def prefixType (s : PrefixState) : Nat :=
  if s.lastEscapePrefix = 0xF3 then 1
  else if s.lastEscapePrefix = 0xF2 then 3
  else if s.lastEscapePrefix = 0x66 then 2
  else 0

def regToField : List Nat := [255, 0, 1, 2, 255, 255, 255, 3]

/-- A VEX prefix behind its first byte. -/
structure VEXPrefix where
  pp : Nat
  mapSelect : Nat
  options : DecodedHeader
  decoder : Decoder

def vexPrefix (is64BitMode : Bool) (d : Decoder) (op : Nat) : VEXPrefix :=
  let byte1 := d.peek
  let d := d.skipBytes 1
  let d := if byte1.getLsbD 7 then d else { d with prefixes := d.prefixes.set rexXGPRRBit }
  if op = 0xC5 then ⟨byte1.toNat % 4, 1, ⟨15 - byte1.toNat / 8 % 16, false⟩, d⟩
  else
    let byte2 := d.peek
    let d := d.skipBytes 1
    let d := if byte1.getLsbD 6 then d else { d with prefixes := d.prefixes.set rexXGPRXBit }
    let d := if is64BitMode && !byte1.getLsbD 5 then { d with prefixes := d.prefixes.set rexXGPRBBit } else d
    ⟨byte2.toNat % 4, byte1.toNat % 32, ⟨15 - byte2.toNat / 8 % 16, byte2.getLsbD 7⟩, d⟩

def normalOpHeader (tables : Tables) (is64BitMode : Bool) (d : Decoder) (info : InstInfo) (op : Nat) :
    Except Nat Decoder :=
  let d := { d with op }
  if info.isRefused then .error d.instructionSize
  else
    match info.type with
    | .group1To11 group =>
      let d := d.readModRM
      let op := group.val <<< 6 ||| info.moreBytes <<< 3 ||| regField d.modRM
      normalOp is64BitMode d (tables.primaryInstGroupOps op) op noHeader
    | .group6ToP group =>
      let d := d.readModRM
      let localOp := group.val <<< 5 ||| prefixType d.prefixes <<< 3 ||| regField d.modRM
      if (tables.secondInstGroupOps localOp).type = .secondGroupModRM then
        let localOp := regToField.getD (regField d.modRM) 255 <<< 3 ||| rmField d.modRM
        normalOp is64BitMode d (tables.secondModRMTableOps localOp) localOp noHeader
      else normalOp is64BitMode d (tables.secondInstGroupOps localOp) localOp noHeader
    | .x87TablePrefix =>
      let d := d.readModRM
      let x87Op := (op - 0xD8) <<< 8 ||| d.modRM.toNat
      normalOp is64BitMode d (tables.x87Ops x87Op) x87Op noHeader
    | .vexTablePrefix =>
      let vex := vexPrefix is64BitMode d op
      let d := vex.decoder
      if vex.mapSelect < 1 ∨ 3 < vex.mapSelect then .error d.instructionSize
      else
        let op := (vex.mapSelect - 1) <<< 10 ||| vex.pp <<< 8 ||| d.peek.toNat
        let d := d.skipBytes 1
        match (tables.vexTableOps op).type with
        | .vexGroup12To17 group =>
          let d := d.readModRM
          let op := group.val <<< 4 ||| vex.pp <<< 3 ||| regField d.modRM
          normalOp is64BitMode d (tables.vexTableGroupOps op) op vex.options
        | _ => normalOp is64BitMode d (tables.vexTableOps op) op vex.options
    | .groupEVEX =>
      let evexOp := (d.skipBytes 3).peek
      normalOp is64BitMode (d.skipBytes 4) (tables.evexTableOps evexOp) evexOp.toNat noHeader
    | _ => normalOp is64BitMode d info op noHeader

/-! ## The instruction -/

/-- The operand of a 3DNow! instruction, which is in front of the opcode. -/
def decodeDDDNowOperand (is64BitMode : Bool) (d : Decoder) : Decoder :=
  if modField d.modRM ≠ 3 then
    let (operand, d) := decodeModRMDisp is64BitMode d
    d.setSrc 0 operand
  else d

def escapeOp (tables : Tables) (is64BitMode : Bool) (d : Decoder) : Except Nat Decoder :=
  let op := d.peek
  let d := d.skipBytes 1
  if op = 0x0F then
    let d := decodeDDDNowOperand is64BitMode d.readModRM
    let localOp := d.peek
    normalOpHeader tables is64BitMode (d.skipBytes 1) (tables.dddNowOps localOp) localOp.toNat
  else if op = 0x38 then
    let localOp := prefix38 d.prefixes * 256 + d.peek.toNat
    normalOpHeader tables is64BitMode (d.skipBytes 1) (tables.h0F38TableOps localOp) localOp
  else if op = 0x3A then
    let localOp := prefix3A d.prefixes * 256 + d.peek.toNat
    normalOpHeader tables is64BitMode (d.skipBytes 1) (tables.h0F3ATableOps localOp) localOp
  else if (tables.secondBaseOps op).noOverlay then
    normalOpHeader tables is64BitMode d (tables.secondBaseOps op) op.toNat
  else if d.prefixes.lastEscapePrefix = 0xF3 then
    let d := { d with prefixes := d.prefixes.clear repPrefixBit }
    normalOpHeader tables is64BitMode d (tables.repModOps op) op.toNat
  else if d.prefixes.lastEscapePrefix = 0xF2 then
    let d := { d with prefixes := d.prefixes.clear repnePrefixBit }
    normalOpHeader tables is64BitMode d (tables.repNEModOps op) op.toNat
  else if d.prefixes.lastEscapePrefix = 0x66 ∧ (tables.secondBaseOps op).noOverlay66 = false then
    let s := d.prefixes.clear operandSizeBit
    let d := { d with prefixes := { s with flags := popOpAddrIf s.flags operandSizeLast } }
    normalOpHeader tables is64BitMode d (tables.opSizeModOps op) op.toNat
  else normalOpHeader tables is64BitMode d (tables.secondBaseOps op) op.toNat

def decodeLoop (tables : Tables) (is64BitMode : Bool) : Nat → Decoder → Except Nat Decoder
  | 0, d => .error d.instructionSize
  | fuel + 1, d =>
    if Prefixes.maxInstSize ≤ d.instructionSize then .error d.instructionSize
    else
      let op := d.peek
      let d := d.skipBytes 1
      if op = 0x0F then escapeOp tables is64BitMode d
      else
        match prefixByte is64BitMode d.prefixes op with
        | some s => decodeLoop tables is64BitMode fuel { d with prefixes := s }
        | none => normalOpHeader tables is64BitMode d (tables.baseOps op) op.toNat

/-- `DecodeInstruction`. The loop ends by itself before it has made its turns. -/
def decodeInstruction (tables : Tables) (is64BitMode : Bool) (instStream : Nat → Byte) : Except Nat Decoder :=
  decodeLoop tables is64BitMode (Prefixes.maxInstSize + 1) (.init instStream)

end FexEmu.Frontend.Instruction
