import FexEmu.OpcodeDispatcher.IntegerALU
/-!
# Shifts and rotates

The handlers of the second group and of the double shifts, and the functions that calculate their flags.
-/
namespace FexEmu.OpcodeDispatcher.Integer

open Address (Node constant)
open StringOps (State ALUFlags rflag loadFlag)

def getSrcBitSize (op : DecodedInst) : Nat := getSrcSize op * 8

def getDstBitSize (op : DecodedInst) : Nat := getDstSize op * 8

/-! ## Flags -/

section
variable (srcSize : Nat) (res src1 src2 : Node) (shift : Nat) (old : ALUFlags)

def condFlagSet (cond : Node) (old : Bool) (newflag : Node) : Bool :=
  rflag (select .EQ cond (const 0) (loadFlag old) newflag)

def parityNode : Node := xor (popcount (and res (const 0xFF))) (const 1)

def zeroNode : Node := select .EQ res (const 0) (const 1) (const 0)

/-- A difference as the `lsb` of `_Bfe`, which is a byte. -/
def lsbByte (a b : Nat) : Nat := (256 + a - b) % 256

def calculcateFlags_ShiftLeft : ALUFlags :=
  let shiftAmt := sub (const (BitVec.ofNat 64 (srcSize * 8))) src2
  { cf := condFlagSet src2 old.cf (and (lshr src1 shiftAmt) (const 1))
    pf := condFlagSet src2 old.pf (parityNode res)
    af := condFlagSet src2 old.af (const 0)
    zf := condFlagSet src2 old.zf (zeroNode res)
    sf := condFlagSet src2 old.sf (bfe 1 (srcSize * 8 - 1) res)
    of := condFlagSet src2 old.of (bfe 1 (srcSize * 8 - 1) (xor src1 res)) }

def calculcateFlags_ShiftRight : ALUFlags :=
  let shiftAmt := sub src2 (const 1)
  { cf := condFlagSet src2 old.cf (and (lshr src1 shiftAmt) (const 1))
    pf := condFlagSet src2 old.pf (parityNode res)
    af := condFlagSet src2 old.af (const 0)
    zf := condFlagSet src2 old.zf (zeroNode res)
    sf := condFlagSet src2 old.sf (bfe 1 (srcSize * 8 - 1) res)
    of := condFlagSet src2 old.of (bfe 1 (srcSize * 8 - 1) (xor src1 res)) }

def calculcateFlags_SignShiftRight : ALUFlags :=
  let shiftAmt := sub src2 (const 1)
  { cf := condFlagSet src2 old.cf (and (lshr src1 shiftAmt) (const 1))
    pf := condFlagSet src2 old.pf (parityNode res)
    af := condFlagSet src2 old.af (const 0)
    zf := condFlagSet src2 old.zf (zeroNode res)
    sf := condFlagSet src2 old.sf (lshr res (const (BitVec.ofNat 64 (srcSize * 8 - 1))))
    of := condFlagSet src2 old.of (const 0) }

def calculcateFlags_ShiftLeftImmediate : ALUFlags :=
  if shift = 0 then old
  else
    let sourceBit := bfe 1 (srcSize * 8 - 1) src1
    let signBit := bfe 1 (srcSize * 8 - 1) res
    { cf := rflag (bfe 1 (lsbByte (srcSize * 8) shift) src1)
      pf := rflag (parityNode res)
      af := rflag (const 0)
      zf := rflag (zeroNode res)
      sf := rflag signBit
      of := if shift = 1 then rflag (xor sourceBit signBit) else old.of }

def calculcateFlags_SignShiftRightImmediate : ALUFlags :=
  if shift = 0 then old
  else
    { cf := rflag (bfe 1 (shift - 1) src1)
      pf := rflag (parityNode res)
      af := rflag (const 0)
      zf := rflag (zeroNode res)
      sf := rflag (lshr res (const (BitVec.ofNat 64 (srcSize * 8 - 1))))
      of := if shift = 1 then rflag (const 0) else old.of }

def calculcateFlags_ShiftRightImmediate : ALUFlags :=
  if shift = 0 then old
  else
    { cf := rflag (bfe 1 (shift - 1) src1)
      pf := rflag (parityNode res)
      af := rflag (const 0)
      zf := rflag (zeroNode res)
      sf := rflag (lshr res (const (BitVec.ofNat 64 (srcSize * 8 - 1))))
      of := if shift = 1 then rflag (bfe 1 (srcSize * 8 - 1) src1) else old.of }

def calculcateFlags_RotateRight : ALUFlags :=
  let newCF := bfe 1 (srcSize * 8 - 1) res
  { old with
    cf := condFlagSet src2 old.cf newCF
    of := condFlagSet src2 old.of (xor (bfe 1 (srcSize * 8 - 2) res) newCF) }

def calculcateFlags_RotateLeft : ALUFlags :=
  let newCF := bfe 1 0 res
  { old with
    cf := condFlagSet src2 old.cf newCF
    of := condFlagSet src2 old.of (xor (bfe 1 (srcSize * 8 - 1) res) newCF) }

def calculcateFlags_RotateRightImmediate : ALUFlags :=
  if shift = 0 then old
  else
    let newCF := bfe 1 (lsbByte (srcSize * 8) shift) src1
    { old with
      cf := rflag newCF
      of := if shift = 1 then rflag (xor (bfe 1 (srcSize * 8 - 1) res) newCF) else old.of }

def calculcateFlags_RotateLeftImmediate : ALUFlags :=
  if shift = 0 then old
  else
    { old with
      cf := rflag (bfe 1 shift src1)
      of := if shift = 1 then rflag (xor (bfe 1 (srcSize * 8 - 1) src1) (bfe 1 (srcSize * 8 - 2) src1)) else old.of }

end

section
variable (op : DecodedInst) (s : State)

/-- The flags of a count that is not known are deferred behind the flags that may stay. -/
def generateFlags_variable (calculate : Nat → ALUFlags → ALUFlags) : State :=
  deferFlags s.calculateDeferredFlags (calculate (getSrcSize op))

/-- `GenerateFlags_ShiftLeftImmediate`, `GenerateFlags_ShiftRightImmediate` and `GenerateFlags_SignShiftRightImmediate`. -/
def generateFlags_shiftImmediate (shift : Nat) (calculate : Nat → ALUFlags → ALUFlags) : State :=
  if shift = 0 then s else deferFlags s (calculate (getSrcSize op))

/-- `GenerateFlags_RotateRightImmediate` and `GenerateFlags_RotateLeftImmediate`, which do not set all the flags. -/
def generateFlags_rotateImmediate (shift : Nat) (calculate : Nat → ALUFlags → ALUFlags) : State :=
  if shift = 0 then s else deferFlags s.calculateDeferredFlags (calculate (getSrcSize op))

end

/-- The mask for the size of the operation, in a constant of either width. -/
def maskCount (constant : BitVec 64 → Node) (size : Nat) (src : Node) : Node :=
  if size = 64 then and src (constant 0x3F) else and src (constant 0x1F)

/-- `Shift` of the handlers that need a literal. -/
def literalShift (op : DecodedInst) : Option Nat :=
  match op.src 1 with
  | .literal _ value => some (value &&& if getSrcBitSize op = 64 then 0x3F else 0x1F).toNat
  | _ => none

/-! ## Shifts -/

section
variable (is1Bit : Bool)

def shlOp : Handler := fun is64BitMode op s => do
  let dest ← loadSource is64BitMode op s op.dest
  let src ← if is1Bit then some (const 1) else loadSource is64BitMode op s (op.src 1)
  let size := getSrcBitSize op
  let src := maskCount const size src
  let result := lshl dest src
  let s ← storeResult is64BitMode op s result
  let result := if size < 32 then bfe size 0 result else result
  some (if is1Bit then generateFlags_shiftImmediate op s 1 (calculcateFlags_ShiftLeftImmediate · result dest 1)
    else generateFlags_variable op s (calculcateFlags_ShiftLeft · result dest src))

def shlImmediateOp : Handler := fun is64BitMode op s => do
  let dest ← loadSource is64BitMode op s op.dest
  let shift ← literalShift op
  let size := getSrcBitSize op
  let src := constant size (BitVec.ofNat 64 shift)
  let result := lshl dest src
  let s ← storeResult is64BitMode op s result
  let result := if size < 32 then bfe size 0 result else result
  some (generateFlags_shiftImmediate op s shift (calculcateFlags_ShiftLeftImmediate · result dest shift))

def shrOp : Handler := fun is64BitMode op s => do
  let dest ← loadSource is64BitMode op s op.dest
  let src ← if is1Bit then some (const 1) else loadSource is64BitMode op s (op.src 1)
  let size := getSrcBitSize op
  let src := maskCount const size src
  let aluOp := lshr dest src
  let s ← storeResult is64BitMode op s aluOp
  some (if is1Bit then generateFlags_shiftImmediate op s 1 (calculcateFlags_ShiftRightImmediate · aluOp dest 1)
    else generateFlags_variable op s (calculcateFlags_ShiftRight · aluOp dest src))

def shrImmediateOp : Handler := fun is64BitMode op s => do
  let dest ← loadSource is64BitMode op s op.dest
  let shift ← literalShift op
  let size := getSrcBitSize op
  let src := constant size (BitVec.ofNat 64 shift)
  let aluOp := lshr dest src
  let s ← storeResult is64BitMode op s aluOp
  some (generateFlags_shiftImmediate op s shift (calculcateFlags_ShiftRightImmediate · aluOp dest shift))

def ashrOp : Handler := fun is64BitMode op s => do
  let dest ← loadSource is64BitMode op s op.dest
  let size := getSrcBitSize op
  let src ← if is1Bit then some (constant size 1) else loadSource is64BitMode op s (op.src 1)
  let src := maskCount (constant size) size src
  let dest := if size < 32 then sbfe size 0 dest else dest
  let result := ashr dest src
  let s ← storeResult is64BitMode op s result
  some (if is1Bit then generateFlags_shiftImmediate op s 1 (calculcateFlags_SignShiftRightImmediate · result dest 1)
    else generateFlags_variable op s (calculcateFlags_SignShiftRight · result dest src))

def ashrImmediateOp : Handler := fun is64BitMode op s => do
  let dest ← loadSource is64BitMode op s op.dest
  let shift ← literalShift op
  let size := getSrcBitSize op
  let dest := if size < 32 then sbfe size 0 dest else dest
  let src := constant size (BitVec.ofNat 64 shift)
  let result := ashr dest src
  let s ← storeResult is64BitMode op s result
  some (generateFlags_shiftImmediate op s shift (calculcateFlags_SignShiftRightImmediate · result dest shift))

end

/-! ## Double shifts -/

/-- `_CondJump` to the block behind, if the count is zero. -/
def jumpsIfZero (shift : Node) : Bool :=
  if shift.size = 4 then Interpreter.isConditionTrue (shift.value.setWidth 32) 0 .EQ
  else Interpreter.isConditionTrue shift.value 0 .EQ

def shldOp : Handler := fun is64BitMode op s => do
  let s := s.calculateDeferredFlags
  let src ← loadSource is64BitMode op s (op.src 0)
  let dest ← loadSource is64BitMode op s op.dest
  let shift ← loadSourceWithOpSize is64BitMode op s (op.src 1) 1
  let size := getSrcBitSize op
  let shift := maskCount const size shift
  let shiftRight := sub (const (BitVec.ofNat 64 size)) shift
  let res := or (lshlSized 8 dest shift) (lshr src shiftRight)
  let res := select .EQ shift (const 0) dest res
  let s ← storeResult is64BitMode op s res
  if jumpsIfZero shift then some s
  else
    let res := if size ≠ 64 then bfe size 0 res else res
    some (generateFlags_variable op s (calculcateFlags_ShiftLeft · res dest shift)).calculateDeferredFlags

/-- Half a register is zero extended also if nothing is shifted. -/
def shldImmediateOp : Handler := fun is64BitMode op s => do
  let src ← loadSource is64BitMode op s (op.src 0)
  let dest ← loadSource is64BitMode op s op.dest
  let shift ← literalShift op
  let size := getSrcBitSize op
  if shift ≠ 0 then
    let shiftLeft := const (BitVec.ofNat 64 shift)
    let shiftRight := const (BitVec.ofNat 64 size - BitVec.ofNat 64 shift)
    let res := or (lshlSized 8 dest shiftLeft) (lshr src shiftRight)
    let s ← storeResult is64BitMode op s res
    let res := if size ≠ 64 then bfe size 0 res else res
    some (generateFlags_shiftImmediate op s shift (calculcateFlags_ShiftLeftImmediate · res dest shift))
  else if size = 32 then storeResult is64BitMode op s dest
  else some s

def shrdOp : Handler := fun is64BitMode op s => do
  let s := s.calculateDeferredFlags
  let src ← loadSource is64BitMode op s (op.src 0)
  let dest ← loadSource is64BitMode op s op.dest
  let shift := loadGPR 1 false (s.cpu.gregs .rcx)
  let size := getDstBitSize op
  let shift := maskCount const size shift
  let shiftLeft := sub (const (BitVec.ofNat 64 size)) shift
  let res := or (lshr dest shift) (lshlSized 8 src shiftLeft)
  let res := select .EQ shift (const 0) dest res
  let s ← storeResult is64BitMode op s res
  if jumpsIfZero shift then some s
  else
    let res := if size ≠ 64 then bfe size 0 res else res
    some (generateFlags_variable op s (calculcateFlags_ShiftRight · res dest shift)).calculateDeferredFlags

def shrdImmediateOp : Handler := fun is64BitMode op s => do
  let src ← loadSource is64BitMode op s (op.src 0)
  let dest ← loadSource is64BitMode op s op.dest
  let shift ← literalShift op
  let size := getSrcBitSize op
  if shift ≠ 0 then
    let shiftRight := const (BitVec.ofNat 64 shift)
    let shiftLeft := const (BitVec.ofNat 64 size - BitVec.ofNat 64 shift)
    let res := or (lshr dest shiftRight) (lshlSized 8 src shiftLeft)
    let s ← storeResult is64BitMode op s res
    let res := if size ≠ 64 then bfe size 0 res else res
    some (generateFlags_shiftImmediate op s shift (calculcateFlags_ShiftRightImmediate · res dest shift))
  else if size = 32 then storeResult is64BitMode op s dest
  else some s

/-! ## Rotates -/

/-- Narrow operands are inserted again in the node, and bytes once more if the count may go beyond two copies. -/
def insertCopies (size : Nat) (again : Bool) (dest : Node) : Node :=
  if size < 32 then
    let dest := bfi 4 size size dest dest
    if size = 8 ∧ again = true then bfi 4 16 16 dest dest else dest
  else dest

section
variable (is1Bit : Bool)

def rorOp : Handler := fun is64BitMode op s => do
  let dest ← loadSource is64BitMode op s op.dest
  let size := getSrcBitSize op
  let src ← if is1Bit then some (constant (max 32 size) 1) else loadSource is64BitMode op s (op.src 1)
  let src := maskCount (constant size) size src
  let dest := insertCopies size (!is1Bit) dest
  let aluOp := ror dest src
  let s ← storeResult is64BitMode op s aluOp
  some (if is1Bit then generateFlags_rotateImmediate op s 1 (calculcateFlags_RotateRightImmediate · aluOp dest 1)
    else generateFlags_variable op s (calculcateFlags_RotateRight · aluOp src))

def rorImmediateOp : Handler := fun is64BitMode op s => do
  let dest ← loadSource is64BitMode op s op.dest
  let shift ← literalShift op
  let size := getSrcBitSize op
  let src := constant (max 32 size) (BitVec.ofNat 64 shift)
  let dest := insertCopies size (8 < shift) dest
  let aluOp := ror dest src
  let s ← storeResult is64BitMode op s aluOp
  some (generateFlags_rotateImmediate op s shift (calculcateFlags_RotateRightImmediate · aluOp dest shift))

/-- `ROLOp`, with the count negated. -/
def rolOp : Handler := fun is64BitMode op s => do
  let dest ← loadSource is64BitMode op s op.dest
  let size := getSrcBitSize op
  let src ← if is1Bit then some (constant size 1) else loadSource is64BitMode op s (op.src 1)
  let src := maskCount (constant size) size src
  let dest := insertCopies size true dest
  let aluOp := ror dest (sub (constant size (BitVec.ofNat 64 (max 32 size))) src)
  let s ← storeResult is64BitMode op s aluOp
  some (if is1Bit then generateFlags_rotateImmediate op s 1 (calculcateFlags_RotateLeftImmediate · dest 1)
    else generateFlags_variable op s (calculcateFlags_RotateLeft · aluOp src))

def rolImmediateOp : Handler := fun is64BitMode op s => do
  let dest ← loadSource is64BitMode op s op.dest
  let shift ← literalShift op
  let size := getSrcBitSize op
  let negatedShift := max 32 size - shift
  let src := constant size (BitVec.ofNat 64 negatedShift)
  let dest := insertCopies size true dest
  let aluOp := ror dest src
  let s ← storeResult is64BitMode op s aluOp
  some (generateFlags_rotateImmediate op s shift (calculcateFlags_RotateLeftImmediate · dest shift))

end

/-! ## Rotates through the carry -/

def setCFOF (s : State) (cf of : Node) : State := { s with flags := { s.flags with cf := rflag cf, of := rflag of } }

def topBits (size : Nat) (res : Node) : Node := xor (bfe 1 (size - 1) res) (bfe 1 (size - 2) res)

def rcrOp1Bit : Handler := fun is64BitMode op s => do
  let s := s.calculateDeferredFlags
  let dest ← loadSource is64BitMode op s op.dest
  let size := getSrcBitSize op
  let cf := loadFlag s.flags.cf
  let newCF := bfe 1 0 dest
  if size = 32 ∨ size = 64 then
    let res := extr cf dest 1
    let s ← storeResult is64BitMode op s res
    some (setCFOF s newCF (topBits size res))
  else
    let res := bfe (size - 1) 1 dest
    let res := or res (lshl cf (constant size (BitVec.ofNat 64 (size - 1))))
    let s ← storeResult is64BitMode op s res
    some (setCFOF s newCF (topBits size res))

def rcrOp8x1Bit : Handler := fun is64BitMode op s => do
  let s := s.calculateDeferredFlags
  let dest ← loadSource is64BitMode op s op.dest
  let size := getSrcBitSize op
  let cf := loadFlag s.flags.cf
  let res := bfe 7 1 dest
  let res := bfi (size / 8) 1 7 res cf
  let newCF := bfe 1 0 dest
  let s ← storeResult is64BitMode op s res
  some (setCFOF s newCF (topBits size res))

/-- The offsets of the loops that insert copies of an operand and the carry. -/
def copyOffsets (size : Nat) : List Nat := List.range' 0 ((32 + size) / (size + 1) + 1) (size + 1)

def rcrCopies (size : Nat) (dest cf : Node) : Node :=
  let insert tmp i := bfi 8 1 (i + size) (bfi 8 size i tmp dest) cf
  (copyOffsets size).foldl insert (constant 64 0)

def rcrSmallerOp : Handler := fun is64BitMode op s => do
  let s := s.calculateDeferredFlags
  let src ← loadSource is64BitMode op s (op.src 1)
  let dest ← loadSource is64BitMode op s op.dest
  let cf := loadFlag s.flags.cf
  let size := getSrcBitSize op
  let src := and src (constant size 0x1F)
  let tmp := rcrCopies size dest cf
  let res := lshr tmp src
  let s ← storeResult is64BitMode op s res
  let one := constant size 1
  let newCF := lshr tmp (sub src one)
  some (setCFOF s (select .UGE src one newCF cf) (topBits size res))

/-- The four pieces of the result. The size of the carry's node is set to eight. -/
def rcrResult (size : Nat) (src dest cf : Node) : Node :=
  let srcShl := sub (constant size (BitVec.ofNat 64 (size + 1))) src
  let tmpHigher := lshl dest srcShl
  let one := constant size 1
  let zero := constant size 0
  let res := or (lshr dest src) (select .UGT src one tmpHigher zero)
  let cfShl := sub (constant size (BitVec.ofNat 64 size)) src
  let tmpCF := lshlSized 8 cf cfShl
  or res (select .UGE src one tmpCF zero)

def rcrOp : Handler := fun is64BitMode op s => do
  let size := getSrcBitSize op
  if size = 8 ∨ size = 16 then rcrSmallerOp is64BitMode op s
  else
    let s := s.calculateDeferredFlags
    let src ← loadSource is64BitMode op s (op.src 1)
    let dest ← loadSource is64BitMode op s op.dest
    let cf := loadFlag s.flags.cf
    let src := maskCount (constant size) size src
    let res := rcrResult size src dest cf
    let of := loadFlag s.flags.of
    let s ← storeResult is64BitMode op s res
    let one := constant size 1
    let newCF := lshr dest (sub src one)
    some (setCFOF s (select .UGE src one newCF cf) (select .EQ src (const 0) of (topBits size res)))

def rclOp1Bit : Handler := fun is64BitMode op s => do
  let s := s.calculateDeferredFlags
  let dest ← loadSource is64BitMode op s op.dest
  let size := getSrcBitSize op
  let cf := loadFlag s.flags.cf
  let res := lshl dest (constant size 1)
  let res := or res cf
  let newCF := bfe 1 (size - 1) dest
  let s ← storeResult is64BitMode op s res
  some (setCFOF s newCF (xor (bfe 1 (size - 1) res) newCF))

/-- Copies of the operand and the carry from the highest bit down, and another one of the operand at the bottom. -/
def rclCopies (size : Nat) (dest cf : Node) : Node :=
  let insert tmp i := bfi 8 1 (63 - i) (bfi 8 size (63 - i - size) tmp dest) cf
  bfi 8 size 0 ((copyOffsets size).foldl insert (constant 64 0)) dest

def rclSmallerOp : Handler := fun is64BitMode op s => do
  let s := s.calculateDeferredFlags
  let src ← loadSource is64BitMode op s (op.src 1)
  let dest ← loadSource is64BitMode op s op.dest
  let cf := loadFlag s.flags.cf
  let size := getSrcBitSize op
  let src := and src (constant size 0x1F)
  let tmp := rclCopies size dest cf
  let res := ror tmp (sub (constant size 64) src)
  let of := loadFlag s.flags.of
  let s ← storeResult is64BitMode op s res
  let newCF := ror tmp (sub (const 63) src)
  some (setCFOF s (select .UGE src (const 1) newCF cf)
    (select .EQ src (const 0) of (xor (bfe 1 (size - 1) res) newCF)))

def rclResult (size : Nat) (src dest cf : Node) : Node :=
  let srcShl := sub (constant size (BitVec.ofNat 64 (size + 1))) src
  let tmpHigher := lshr dest srcShl
  let one := constant size 1
  let zero := constant size 0
  let res := or (lshl dest src) (select .UGT src one tmpHigher zero)
  let cfShl := sub src (constant size 1)
  let tmpCF := lshlSized 8 cf cfShl
  or res (select .UGE src one tmpCF zero)

def rclOp : Handler := fun is64BitMode op s => do
  let size := getSrcBitSize op
  if size = 8 ∨ size = 16 then rclSmallerOp is64BitMode op s
  else
    let s := s.calculateDeferredFlags
    let src ← loadSource is64BitMode op s (op.src 1)
    let dest ← loadSource is64BitMode op s op.dest
    let cf := loadFlag s.flags.cf
    let src := maskCount (constant size) size src
    let res := rclResult size src dest cf
    let of := loadFlag s.flags.of
    let s ← storeResult is64BitMode op s res
    let newCF := lshr dest (sub (constant size (BitVec.ofNat 64 size)) src)
    some (setCFOF s (select .UGE src (constant size 1) newCF cf)
      (select .EQ src (const 0) of (xor (bfe 1 (size - 1) res) newCF)))

/-! ## Tables -/

/-- The handlers, some of which are templates. -/
inductive ShiftHandler
  | ROLOp (is1Bit : Bool)
  | ROLImmediateOp
  | ROROp (is1Bit : Bool)
  | RORImmediateOp
  | RCLOp
  | RCLOp1Bit
  | RCLSmallerOp
  | RCROp
  | RCROp1Bit
  | RCROp8x1Bit
  | RCRSmallerOp
  | SHLOp (is1Bit : Bool)
  | SHLImmediateOp
  | SHROp (is1Bit : Bool)
  | SHRImmediateOp
  | ASHROp (is1Bit : Bool)
  | ASHRImmediateOp
  | SHLDOp
  | SHLDImmediateOp
  | SHRDOp
  | SHRDImmediateOp
deriving DecidableEq, Repr

namespace ShiftHandler

def handler : ShiftHandler → Handler
  | ROLOp is1Bit => rolOp is1Bit
  | ROLImmediateOp => rolImmediateOp
  | ROROp is1Bit => rorOp is1Bit
  | RORImmediateOp => rorImmediateOp
  | RCLOp => rclOp
  | RCLOp1Bit => rclOp1Bit
  | RCLSmallerOp => rclSmallerOp
  | RCROp => rcrOp
  | RCROp1Bit => rcrOp1Bit
  | RCROp8x1Bit => rcrOp8x1Bit
  | RCRSmallerOp => rcrSmallerOp
  | SHLOp is1Bit => shlOp is1Bit
  | SHLImmediateOp => shlImmediateOp
  | SHROp is1Bit => shrOp is1Bit
  | SHRImmediateOp => shrImmediateOp
  | ASHROp is1Bit => ashrOp is1Bit
  | ASHRImmediateOp => ashrImmediateOp
  | SHLDOp => shldOp
  | SHLDImmediateOp => shldImmediateOp
  | SHRDOp => shrdOp
  | SHRDImmediateOp => shrdImmediateOp

/-- A row of the second group, by the field of the ModRM byte. -/
def ofRow (rol ror rcl rcr shl shr sar : ShiftHandler) : Nat → Option ShiftHandler
  | 0 => some rol
  | 1 => some ror
  | 2 => some rcl
  | 3 => some rcr
  | 4 | 6 => some shl
  | 5 => some shr
  | 7 => some sar
  | _ => none

def immediateRow : Nat → Option ShiftHandler :=
  ofRow ROLImmediateOp RORImmediateOp RCLOp RCROp SHLImmediateOp SHRImmediateOp ASHRImmediateOp

/-- The opcodes of the rows of `PrimaryGroupOpTable` are C0, C1, D0, D1, D2 and D3. -/
def ofOp : OpcodeTable → Nat → Option ShiftHandler
  | .base, _ => none
  | .secondBase, op =>
    if op = 0xA4 then some SHLDImmediateOp
    else if op = 0xA5 then some SHLDOp
    else if op = 0xAC then some SHRDImmediateOp
    else if op = 0xAD then some SHRDOp
    else none
  | .primaryGroup, op =>
    let reg := op % 8
    if op / 8 = 16 ∨ op / 8 = 17 then immediateRow reg
    else if op / 8 = 18 then
      ofRow (ROLOp true) (ROROp true) RCLOp1Bit RCROp8x1Bit (SHLOp true) (SHROp true) (ASHROp true) reg
    else if op / 8 = 19 then
      ofRow (ROLOp true) (ROROp true) RCLOp1Bit RCROp1Bit (SHLOp true) (SHROp true) (ASHROp true) reg
    else if op / 8 = 20 then
      ofRow (ROLOp false) (ROROp false) RCLSmallerOp RCRSmallerOp (SHLOp false) (SHROp false) (ASHROp false) reg
    else if op / 8 = 21 then
      ofRow (ROLOp false) (ROROp false) RCLOp RCROp (SHLOp false) (SHROp false) (ASHROp false) reg
    else none

end ShiftHandler

end FexEmu.OpcodeDispatcher.Integer
