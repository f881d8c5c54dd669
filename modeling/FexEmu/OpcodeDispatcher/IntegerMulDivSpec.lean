import FexEmu.OpcodeDispatcher.IntegerMulDiv
/-!
# Multiplication and division of the architecture

The instructions with their products, quotients and remainders as integers.
-/
namespace FexEmu.OpcodeDispatcher.Integer

open StringOps (State)
open Frontend.ModRM (DecodedOperand)

/-- With one operand, multiplication has a product of twice the size. -/
inductive MulDiv
  | mul | imul | imul2 | imul3 | div | idiv
deriving DecidableEq, Repr

namespace MulDiv

def isSigned (i : MulDiv) : Bool := i ≠ mul && i ≠ div

def isDivision (i : MulDiv) : Bool := i = div || i = idiv

/-- The opcode map. In the group, the instruction is the field of the ModRM byte. -/
def ofOpcode : OpcodeTable → Nat → Option MulDiv
  | .base, 0x69 => some imul3
  | .base, 0x6B => some imul3
  | .base, _ => none
  | .secondBase, 0xAF => some imul2
  | .secondBase, _ => none
  | .primaryGroup, op =>
    if op / 64 = 3 ∧ op / 8 % 8 < 2 then
      match op % 8 with
      | 4 => some mul
      | 5 => some imul
      | 6 => some div
      | 7 => some idiv
      | _ => none
    else none

def number (i : MulDiv) {w : Nat} (x : BitVec w) : Int := if i.isSigned then x.toInt else x.toNat

def fits (i : MulDiv) (w : Nat) (z : Int) : Bool :=
  if i.isSigned then -2 ^ (w - 1) ≤ z ∧ z < 2 ^ (w - 1) else 0 ≤ z ∧ z < 2 ^ w

end MulDiv

/-- A decoded instruction: the flags tell its size, and its operands have this size. -/
structure DecodedMulDiv (is64BitMode : Bool) extends DecodedInst where
  table : OpcodeTable
  instruction : MulDiv
  size : Nat
  ofOpcode_eq : MulDiv.ofOpcode table op = some instruction
  getSrcSize_eq : getSrcSize toDecodedInst = size
  getDstSize_eq : getDstSize toDecodedInst = size
  isSize : IsSize size
  size_mode : size = 8 → is64BitMode = true
  /-- Only the instructions with one operand have operands of a byte. -/
  size_byte : size = 1 → instruction ≠ .imul2 ∧ instruction ≠ .imul3
  dest_rm : IsRM size dest
  dest_isGPR : instruction = .imul2 ∨ instruction = .imul3 → isGPR dest = true
  first_rm : instruction = .imul2 ∨ instruction = .imul3 → IsRM size (src 0)
  second_literal : instruction = .imul3 → IsSource size (src 1) ∧ isGPR (src 1) = false

def writePair (is64BitMode : Bool) (s : State) {size : Nat} (lower upper : BitVec (8 * size)) : State :=
  let s := setGPR s .rax (writeReg is64BitMode false lower (s.cpu.gregs .rax))
  setGPR s .rdx (writeReg is64BitMode false upper (s.cpu.gregs .rdx))

def visible (is64BitMode : Bool) (s : State) : State :=
  if is64BitMode then s
  else { s with cpu := { s.cpu with gregs := fun gpr => ((s.cpu.gregs gpr).setWidth 32).setWidth 64 } }

namespace DecodedMulDiv

variable {is64BitMode : Bool} (op : DecodedMulDiv is64BitMode) (s : State)

def value (operand : DecodedOperand) : BitVec (8 * op.size) := operandValue is64BitMode op.toDecodedInst s op.size operand

def x : BitVec (8 * op.size) :=
  match op.instruction with
  | .imul2 => op.value s op.dest
  | .imul3 => op.value s (op.src 0)
  | _ => readReg op.size false (s.cpu.gregs .rax)

def y : BitVec (8 * op.size) :=
  match op.instruction with
  | .imul2 => op.value s (op.src 0)
  | .imul3 => op.value s (op.src 1)
  | _ => op.value s op.dest

def product : Int := op.instruction.number (op.x s) * op.instruction.number (op.y s)

def dividend : Int :=
  if op.size = 1 then op.instruction.number (readReg 2 false (s.cpu.gregs .rax))
  else op.instruction.number (readReg op.size false (s.cpu.gregs .rdx)) * 2 ^ (8 * op.size) +
    (readReg op.size false (s.cpu.gregs .rax)).toNat

def divisor : Int := op.instruction.number (op.y s)

def quotient : Int := (op.dividend s).tdiv (op.divisor s)

def remainder : Int := (op.dividend s).tmod (op.divisor s)

/-- A division has a divisor, and its quotient fits. -/
def Divides : Prop :=
  op.instruction.isDivision = true → op.divisor s ≠ 0 ∧ op.instruction.fits (8 * op.size) (op.quotient s) = true

def executed : State :=
  match op.instruction with
  | .mul | .imul =>
    if op.size = 1 then
      setGPR s .rax (@writeReg is64BitMode 2 false (BitVec.ofInt _ (op.product s)) (s.cpu.gregs .rax))
    else
      @writePair is64BitMode s op.size (BitVec.ofInt _ (op.product s))
        (BitVec.ofInt _ (op.product s / 2 ^ (8 * op.size)))
  | .imul2 | .imul3 =>
    @writeOperand is64BitMode op.toDecodedInst op.dest s s op.size (BitVec.ofInt _ (op.product s))
  | .div | .idiv =>
    if op.size = 1 then
      setGPR s .rax (@writeReg is64BitMode 1 true (BitVec.ofInt _ (op.remainder s))
        (@writeReg is64BitMode 1 false (BitVec.ofInt _ (op.quotient s)) (s.cpu.gregs .rax)))
    else @writePair is64BitMode s op.size (BitVec.ofInt _ (op.quotient s)) (BitVec.ofInt _ (op.remainder s))

/-- The state of the architecture with deferred flags. Carry and overflow of a product tell whether it does not fit, other
flags may be anything. -/
def FollowsX86 : Prop :=
  ∃ name s', MulDivHandler.ofOp op.table op.op = some name ∧ name.handler is64BitMode op.toDecodedInst s = some s' ∧
    visible is64BitMode s'.calculateDeferredFlags =
      visible is64BitMode { op.executed s.calculateDeferredFlags with flags := s'.calculateDeferredFlags.flags } ∧
    (op.instruction.isDivision = false →
      s'.calculateDeferredFlags.flags.cf = !op.instruction.fits (8 * op.size) (op.product s) ∧
        s'.calculateDeferredFlags.flags.of = !op.instruction.fits (8 * op.size) (op.product s))

end DecodedMulDiv

end FexEmu.OpcodeDispatcher.Integer
