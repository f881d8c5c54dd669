import FexEmu.OpcodeDispatcher.IntegerShifts
/-!
# Bit manipulation

The handlers of BMI1, BMI2 and the counts of bits with their opcodes. The parity flag is not left out.
-/
namespace FexEmu.OpcodeDispatcher.Integer

open Interpreter
open Address (Node constant)
open StringOps (ALUFlags rflag)

def findTrailingZeros (a : Node) : Node := emit a.size fun size => some (opFindTrailingZeros size a.value)
def countLeadingZeroes (a : Node) : Node := emit a.size fun size => some (opCountLeadingZeroes size a.value)
def umul (a b : Node) : Node := emit (atLeast4 a b) fun size => opUMul size a.value b.value
def umulh (a b : Node) : Node := emit (max a.size b.size) fun size => opUMulH size a.value b.value

/-! ## Flags -/

section
variable (srcSize : Nat) (res src : Node) (old : ALUFlags)

def calculcateFlags_BEXTR : ALUFlags where
  cf := rflag (const 0)
  pf := rflag (const 0)
  af := rflag (const 0)
  zf := rflag (select .EQ src (const 0) (const 1) (const 0))
  sf := rflag (const 0)
  of := rflag (const 0)

def calculcateFlags_BLSI : ALUFlags where
  cf := rflag (select .EQ src (const 0) (const 0) (const 1))
  pf := rflag (const 0)
  af := rflag (const 0)
  zf := rflag (select .EQ src (const 0) (const 1) (const 0))
  sf := rflag (lshr src (const (BitVec.ofNat 64 (srcSize * 8 - 1))))
  of := rflag (const 0)

/-- `CalculcateFlags_BLSMSK`, which does not set the sign. -/
def calculcateFlags_BLSMSK : ALUFlags where
  cf := rflag (select .EQ src (const 0) (const 0) (const 1))
  pf := rflag (const 0)
  af := rflag (const 0)
  zf := rflag (const 0)
  sf := old.sf
  of := rflag (const 0)

def calculcateFlags_BLSR : ALUFlags where
  cf := rflag (select .EQ src (const 0) (const 0) (const 1))
  pf := rflag (const 0)
  af := rflag (const 0)
  zf := rflag (select .EQ res (const 0) (const 1) (const 0))
  sf := rflag (lshr res (const (BitVec.ofNat 64 (srcSize * 8 - 1))))
  of := rflag (const 0)

def calculcateFlags_POPCOUNT : ALUFlags where
  cf := rflag (const 0)
  pf := rflag (const 0)
  af := rflag (const 0)
  zf := rflag (select .EQ src (const 0) (const 1) (const 0))
  sf := rflag (const 0)
  of := rflag (const 0)

def calculcateFlags_BZHI : ALUFlags where
  cf := rflag (select .UGT src (const (BitVec.ofNat 64 (srcSize * 8 - 1))) (const 1) (const 0))
  pf := rflag (const 0)
  af := rflag (const 0)
  zf := rflag (select .EQ res (const 0) (const 1) (const 0))
  sf := rflag (lshr res (const (BitVec.ofNat 64 (srcSize * 8 - 1))))
  of := rflag (const 0)

def calculcateFlags_TZCNT : ALUFlags :=
  { old with
    cf := rflag (select .EQ src (const 0) (const 1) (const 0))
    zf := rflag (bfe 1 0 src) }

def calculcateFlags_LZCNT : ALUFlags :=
  { old with
    cf := rflag (select .EQ src (const 0) (const 1) (const 0))
    zf := rflag (bfe 1 (srcSize * 8 - 1) src) }

end

/-! ## Handlers -/

def andnBMIOp : Handler := fun is64BitMode op s => do
  let src1 ← loadSource is64BitMode op s (op.src 0)
  let src2 ← loadSource is64BitMode op s (op.src 1)
  let dest := andn src2 src1
  let s ← storeResult is64BitMode op s dest
  some (generateFlags_Logical op s dest)

def bextrBMIOp : Handler := fun is64BitMode op s => do
  let src1 ← loadSource is64BitMode op s (op.src 0)
  let src2 ← loadSource is64BitMode op s (op.src 1)
  let srcSize := getSrcBitSize op
  let maxSrcBit := srcSize - 1
  let maxSrcBitOp := constant srcSize (BitVec.ofNat 64 maxSrcBit)
  let start := bfe 8 0 src2
  let shifted := lshr src1 start
  let sanitizedShifted := select .ULE start maxSrcBitOp shifted (constant srcSize 0)
  let length := bfe 8 8 src2
  let sanitizedLength := select .ULE length maxSrcBitOp length maxSrcBitOp
  let one := constant srcSize 1
  let mask := sub (lshl one sanitizedLength) one
  let dest := and sanitizedShifted mask
  let s ← storeResult is64BitMode op s dest
  some (deferFlags s fun _ => calculcateFlags_BEXTR dest)

def blsiBMIOp : Handler := fun is64BitMode op s => do
  let src ← loadSource is64BitMode op s (op.src 0)
  let negatedSrc := neg src
  let result := and src negatedSrc
  let s ← storeResult is64BitMode op s result
  some (deferFlags s fun _ => calculcateFlags_BLSI (getSrcSize op) result)

def blsmskBMIOp : Handler := fun is64BitMode op s => do
  let one := const 1
  let src ← loadSource is64BitMode op s (op.src 0)
  let result := xor (sub src one) src
  let s ← storeResult is64BitMode op s result
  some (deferFlags s (calculcateFlags_BLSMSK src))

def blsrBMIOp : Handler := fun is64BitMode op s => do
  let one := const 1
  let src ← loadSource is64BitMode op s (op.src 0)
  let result := and (sub src one) src
  let s ← storeResult is64BitMode op s result
  some (deferFlags s fun _ => calculcateFlags_BLSR (getSrcSize op) result src)

def bmi2Shift : Handler := fun is64BitMode op s => do
  let src ← loadSource is64BitMode op s (op.src 0)
  let shift ← loadSource is64BitMode op s (op.src 1)
  let operandSize := getSrcBitSize op
  let sanitizedShift := if operandSize = 64 then and shift (const 0x3F) else and shift (const 0x1F)
  let result :=
    if op.op = 0x6F7 then ashr src sanitizedShift
    else if op.op = 0x5F7 then lshl src sanitizedShift
    else lshr src sanitizedShift
  storeResult is64BitMode op s result

def bzhi : Handler := fun is64BitMode op s => do
  let operandSize := getSrcBitSize op
  let src ← loadSource is64BitMode op s (op.src 0)
  let index ← loadSource is64BitMode op s (op.src 1)
  let maskedIndex := and index (const 0xFF)
  let negOne := constant operandSize (-1)
  let mask := lshl negOne maskedIndex
  let maskResult := andn src mask
  let bounds := const (BitVec.ofNat 64 (operandSize - 1))
  let result := select .UGT maskedIndex bounds src maskResult
  let s ← storeResult is64BitMode op s result
  some (deferFlags s fun _ => calculcateFlags_BZHI (getSrcSize op) result maskedIndex)

def rorx : Handler := fun is64BitMode op s => do
  let src ← loadSource is64BitMode op s (op.src 0)
  let amount ← match op.src 1 with
    | .literal _ value => some value
    | _ => none
  let result := ror src (const amount)
  storeResult is64BitMode op s result

def mulx : Handler := fun is64BitMode op s => do
  let operandSize := getSrcSize op
  let src1 ← loadSource is64BitMode op s (op.src 1)
  let src2 := Address.loadContext operandSize (s.cpu.gregs .rdx)
  let resultLo := umul src1 src2
  let resultHi := umulh src1 src2
  let s ← storeResultTo is64BitMode op s (op.src 0) resultLo
  storeResultTo is64BitMode op s op.dest resultHi

def popcountOp : Handler := fun is64BitMode op s => do
  let src ← loadSource is64BitMode op s (op.src 0)
  let src := popcount src
  let s ← storeResult is64BitMode op s src
  some (deferFlags s fun _ => calculcateFlags_POPCOUNT src)

def tzcnt : Handler := fun is64BitMode op s => do
  let src ← loadSource is64BitMode op s (op.src 0)
  let src := findTrailingZeros src
  let s ← storeResult is64BitMode op s src
  some (deferFlags s (calculcateFlags_TZCNT src))

def lzcnt : Handler := fun is64BitMode op s => do
  let src ← loadSource is64BitMode op s (op.src 0)
  let res := countLeadingZeroes src
  let s ← storeResult is64BitMode op s res
  some (deferFlags s (calculcateFlags_LZCNT (getSrcSize op) src))

/-! ## Tables -/

/-- The tables with handlers of BMI. -/
inductive BMITable
  | vex
  | vexGroup
  | repMod
deriving DecidableEq, Repr

/-- The handlers, under the source's names. -/
inductive BMIHandler
  | ANDNBMIOp
  | BEXTRBMIOp
  | BLSIBMIOp
  | BLSMSKBMIOp
  | BLSRBMIOp
  | BMI2Shift
  | BZHI
  | RORX
  | MULX
  | PopcountOp
  | TZCNT
  | LZCNT
deriving DecidableEq, Repr

def BMIHandler.handler : BMIHandler → Handler
  | ANDNBMIOp => andnBMIOp
  | BEXTRBMIOp => bextrBMIOp
  | BLSIBMIOp => blsiBMIOp
  | BLSMSKBMIOp => blsmskBMIOp
  | BLSRBMIOp => blsrBMIOp
  | BMI2Shift => bmi2Shift
  | BZHI => bzhi
  | RORX => rorx
  | MULX => mulx
  | PopcountOp => popcountOp
  | TZCNT => tzcnt
  | LZCNT => lzcnt

/-- `OPD` of an opcode behind a VEX prefix. -/
def vexOpd (mapSelect pp opcode : Nat) : Nat := (mapSelect - 1) <<< 10 ||| pp <<< 8 ||| opcode

/-- `OPD` of a group behind a VEX prefix, numbered from the group 12 on. -/
def vexGroupOpd (group pp opcode : Nat) : Nat := group <<< 4 ||| pp <<< 3 ||| opcode

/-- The entries of `VEXTable`, `VEXGroupTable` and `RepModOpTable` for these handlers. -/
def BMIHandler.ofOp : BMITable → Nat → Option BMIHandler
  | .vex, op =>
    if op = vexOpd 2 0b00 0xF2 then some .ANDNBMIOp
    else if op = vexOpd 2 0b00 0xF5 then some .BZHI
    else if op = vexOpd 2 0b11 0xF6 then some .MULX
    else if op = vexOpd 2 0b00 0xF7 then some .BEXTRBMIOp
    else if op = vexOpd 2 0b01 0xF7 then some .BMI2Shift
    else if op = vexOpd 2 0b10 0xF7 then some .BMI2Shift
    else if op = vexOpd 2 0b11 0xF7 then some .BMI2Shift
    else if op = vexOpd 3 0b11 0xF0 then some .RORX
    else none
  | .vexGroup, op =>
    if op = vexGroupOpd 4 0 0b001 then some .BLSRBMIOp
    else if op = vexGroupOpd 4 0 0b010 then some .BLSMSKBMIOp
    else if op = vexGroupOpd 4 0 0b011 then some .BLSIBMIOp
    else none
  | .repMod, op =>
    if op = 0xB8 then some .PopcountOp
    else if op = 0xBC then some .TZCNT
    else if op = 0xBD then some .LZCNT
    else none

end FexEmu.OpcodeDispatcher.Integer
