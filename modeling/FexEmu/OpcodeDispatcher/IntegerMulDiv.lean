import FexEmu.OpcodeDispatcher.IntegerALUSpec
import FexEmu.OpcodeDispatcher.IntegerBMI
/-!
# Multiplication and division

The handlers with their opcodes. A division by zero fails, and the parity flag is not left out.
-/
namespace FexEmu.OpcodeDispatcher.Integer

open Interpreter
open Address (Node gprSize)
open StringOps (State ALUFlags rflag)
open Frontend.ModRM (DecodedOperand)

def mul (a b : Node) : Node := emit (atLeast4 a b) fun size => opMul size a.value b.value
def mulh (a b : Node) : Node := emit (max a.size b.size) fun size => opMulH size a.value b.value

def sextNode (width : Nat) (a : Node) : Node := sbfe width 0 a

/-- A division at the size of the greater source. -/
def divide (op : OpSize → BitVec 64 → BitVec 64 → Option (BitVec 64)) (a b : Node) : Option Node :=
  let size := max a.size b.size
  ((opSize size).bind fun opSize => op opSize a.value b.value).map (⟨size, ·⟩)

def divideLong (op : OpSize → BitVec 64 → BitVec 64 → BitVec 64 → Option (BitVec 64)) (lower upper divisor : Node) :
    Option Node :=
  let size := max lower.size (max upper.size divisor.size)
  ((opSize size).bind fun opSize => op opSize lower.value upper.value divisor.value).map (⟨size, ·⟩)

def calculcateFlags_MUL (srcSize : Nat) (res high : Node) : ALUFlags :=
  let signBit := sbfe 1 (srcSize * 8 - 1) res
  let selectOp := select .EQ high signBit (const 0) (const 1)
  { cf := rflag selectOp
    pf := rflag (const 0)
    af := rflag (const 0)
    zf := rflag (const 0)
    sf := rflag (const 0)
    of := rflag selectOp }

def calculcateFlags_UMUL (high : Node) : ALUFlags :=
  let selectOp := select .EQ high (const 0) (const 0) (const 1)
  { cf := rflag selectOp
    pf := rflag (const 0)
    af := rflag (const 0)
    zf := rflag (const 0)
    sf := rflag (const 0)
    of := rflag selectOp }

def generateFlags_MUL (op : DecodedInst) (s : State) (res high : Node) : State :=
  deferFlags s fun _ => calculcateFlags_MUL (getSrcSize op) res high

def generateFlags_UMUL (s : State) (high : Node) : State := deferFlags s fun _ => calculcateFlags_UMUL high

/-! ## Handlers -/

/-- The product of two operands goes to the destination. -/
def imulTo (first second : DecodedInst → DecodedOperand) : Handler := fun is64BitMode op s => do
  let src1 ← loadSource is64BitMode op s (first op)
  let src2 ← loadSource is64BitMode op s (second op)
  let size := getSrcSize op
  let src1 := if size ≠ 8 then sextNode (size * 8) src1 else src1
  let src2 := if size ≠ 8 then sextNode (size * 8) src2 else src2
  let dest := mul src1 src2
  let resultHigh := if size < 8 then sbfe (size * 8) (size * 8) dest else mulh src1 src2
  let s ← storeResult is64BitMode op s dest
  some (generateFlags_MUL op s dest resultHigh)

def imul1SrcOp : Handler := imulTo (·.dest) (·.src 0)

def imul2SrcOp : Handler := imulTo (·.src 0) (·.src 1)

def imulOp : Handler := fun is64BitMode op s => do
  let size := getSrcSize op
  let src1 ← loadSource is64BitMode op s op.dest
  let src2 := s.loadGreg size .rax
  let src1 := if size ≠ 8 then sextNode (size * 8) src1 else src1
  let src2 := if size ≠ 8 then sextNode (size * 8) src2 else src2
  let result := mul src1 src2
  match size with
  | 1 =>
    let s := s.storeGreg 2 result .rax
    some (generateFlags_MUL op s result (sbfe 8 8 result))
  | 2 =>
    let s := s.storeGreg size result .rax
    let resultHigh := sbfe 16 16 result
    let s := s.storeGreg size resultHigh .rdx
    some (generateFlags_MUL op s result resultHigh)
  | 4 =>
    let localResult := bfe 32 0 result
    let localResultHigh := bfe 32 32 result
    let resultHigh := sbfe 32 32 result
    let result := sbfe 32 0 result
    let s := s.storeGreg 8 localResult .rax
    let s := s.storeGreg 8 localResultHigh .rdx
    some (generateFlags_MUL op s result resultHigh)
  | 8 =>
    if !is64BitMode then none
    else
      let resultHigh := mulh src1 src2
      let s := s.storeGreg 8 result .rax
      let s := s.storeGreg 8 resultHigh .rdx
      some (generateFlags_MUL op s result resultHigh)
  | _ => none

def mulOp : Handler := fun is64BitMode op s => do
  let size := getSrcSize op
  let src1 ← loadSource is64BitMode op s op.dest
  let src2 := s.loadGreg size .rax
  let src1 := if size ≠ 8 then bfeSized 8 (size * 8) 0 src1 else src1
  let src2 := if size ≠ 8 then bfeSized 8 (size * 8) 0 src2 else src2
  let result := umul src1 src2
  match size with
  | 1 =>
    let s := s.storeGreg 2 result .rax
    some (generateFlags_UMUL s (bfe 8 8 result))
  | 2 =>
    let s := s.storeGreg size result .rax
    let resultHigh := bfe 16 16 result
    let s := s.storeGreg size resultHigh .rdx
    some (generateFlags_UMUL s resultHigh)
  | 4 =>
    let resultLow := bfeSized (gprSize is64BitMode) 32 0 result
    let resultHigh := bfeSized (gprSize is64BitMode) 32 32 result
    let s := s.storeGreg (gprSize is64BitMode) resultLow .rax
    let s := s.storeGreg (gprSize is64BitMode) resultHigh .rdx
    some (generateFlags_UMUL s resultHigh)
  | 8 =>
    if !is64BitMode then none
    else
      let resultHigh := umulh src1 src2
      let s := s.storeGreg 8 result .rax
      let s := s.storeGreg 8 resultHigh .rdx
      some (generateFlags_UMUL s resultHigh)
  | _ => none

/-- `_StoreContext` of the second byte of RAX. -/
def storeAH (s : State) (value : Node) : State := setGPR s .rax (storeGPR 1 true value (s.cpu.gregs .rax))

/-- The sizes from two bytes on of both divisions. -/
def divideWide (div rem : OpSize → BitVec 64 → BitVec 64 → BitVec 64 → Option (BitVec 64)) (is64BitMode : Bool) (s : State)
    (size : Nat) (divisor : Node) : Option State := do
  let src1 := s.loadGreg size .rax
  let src2 := s.loadGreg size .rdx
  let divOp ← divideLong div src1 src2 divisor
  let remOp ← divideLong rem src1 src2 divisor
  match size with
  | 2 =>
    let s := s.storeGreg size divOp .rax
    some (s.storeGreg size remOp .rdx)
  | 4 =>
    let s := s.storeGreg (gprSize is64BitMode) (bfe (size * 8) 0 divOp) .rax
    some (s.storeGreg (gprSize is64BitMode) (bfe (size * 8) 0 remOp) .rdx)
  | 8 =>
    if !is64BitMode then none
    else
      let s := s.storeGreg 8 divOp .rax
      some (s.storeGreg 8 remOp .rdx)
  | _ => none

def divOp : Handler := fun is64BitMode op s => do
  let divisor ← loadSource is64BitMode op s op.dest
  let size := getSrcSize op
  if size = 1 then do
    let src1 := s.loadGreg 2 .rax
    let uDivOp ← divide opUDiv src1 divisor
    let uRemOp ← divide opURem src1 divisor
    some (storeAH (s.storeGreg size uDivOp .rax) uRemOp)
  else divideWide opLUDiv opLURem is64BitMode s size divisor

def idivOp : Handler := fun is64BitMode op s => do
  let divisor ← loadSource is64BitMode op s op.dest
  let size := getSrcSize op
  if size = 1 then do
    let src1 := s.loadGreg 2 .rax
    let src1 := sbfe 16 0 src1
    let divisor := sbfe 8 0 divisor
    let uDivOp ← divide opDiv src1 divisor
    let uRemOp ← divide opRem src1 divisor
    some (storeAH (s.storeGreg size uDivOp .rax) uRemOp)
  else divideWide opLDiv opLRem is64BitMode s size divisor

/-! ## Tables -/

/-- The handlers, under the source's names. -/
inductive MulDivHandler
  | IMUL1SrcOp
  | IMUL2SrcOp
  | IMULOp
  | MULOp
  | DIVOp
  | IDIVOp
deriving DecidableEq, Repr

def MulDivHandler.handler : MulDivHandler → Handler
  | IMUL1SrcOp => imul1SrcOp
  | IMUL2SrcOp => imul2SrcOp
  | IMULOp => imulOp
  | MULOp => mulOp
  | DIVOp => divOp
  | IDIVOp => idivOp

/-- The entries of `BaseOpTable`, `TwoByteOpTable` and `PrimaryGroupOpTable` for these handlers. -/
def MulDivHandler.ofOp : OpcodeTable → Nat → Option MulDivHandler
  | .base, op => if op = 0x69 ∨ op = 0x6B then some .IMUL2SrcOp else none
  | .secondBase, op => if op = 0xAF then some .IMUL1SrcOp else none
  | .primaryGroup, op =>
    if op = ALU.opd 3 0 4 ∨ op = ALU.opd 3 1 4 then some .MULOp
    else if op = ALU.opd 3 0 5 ∨ op = ALU.opd 3 1 5 then some .IMULOp
    else if op = ALU.opd 3 0 6 ∨ op = ALU.opd 3 1 6 then some .DIVOp
    else if op = ALU.opd 3 0 7 ∨ op = ALU.opd 3 1 7 then some .IDIVOp
    else none

end FexEmu.OpcodeDispatcher.Integer
