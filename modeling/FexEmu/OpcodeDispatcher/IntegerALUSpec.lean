import FexEmu.OpcodeDispatcher.IntegerALU
/-!
# Arithmetic and logic of the architecture

The instructions with their results and flags, and what it takes for the emitted code to follow them.
-/
namespace FexEmu.OpcodeDispatcher.Integer

open StringOps (State ALUFlags)
open Frontend.ModRM (DecodedOperand)

/-- The instructions, as the manual names them. -/
inductive Instruction
  | add | or | adc | sbb | and | sub | xor | cmp | test | inc | dec | neg | xadd
deriving DecidableEq, Repr

namespace Instruction

def result {w : Nat} (instruction : Instruction) (x y : BitVec w) (old : ALUFlags) : BitVec w × ALUFlags :=
  match instruction with
  | add | xadd => (x + y, addFlags x y false)
  | adc => (x + y + carry w old.cf, addFlags x y old.cf)
  | sub | cmp => (x - y, subFlags x y false)
  | sbb => (x - y - carry w old.cf, subFlags x y old.cf)
  | inc => (x + 1, { addFlags x 1 false with cf := old.cf })
  | dec => (x - 1, { subFlags x 1 false with cf := old.cf })
  | neg => (-x, subFlags 0 x false)
  | or => (x ||| y, logicFlags (x ||| y))
  | and | test => (x &&& y, logicFlags (x &&& y))
  | xor => (x ^^^ y, logicFlags (x ^^^ y))

def isLogic (instruction : Instruction) : Bool :=
  instruction = or || instruction = and || instruction = xor || instruction = test

def writesDest (instruction : Instruction) : Bool := instruction ≠ cmp && instruction ≠ test

/-- The eight instructions of the rows of the opcode map and of the first group. -/
def ofField : Nat → Option Instruction
  | 0 => some add
  | 1 => some or
  | 2 => some adc
  | 3 => some sbb
  | 4 => some and
  | 5 => some sub
  | 6 => some xor
  | 7 => some cmp
  | _ => none

/-- The opcode map. An opcode of a group is numbered by the group, the opcode byte in it and the field of the ModRM byte. -/
def ofOpcode (is64BitMode : Bool) : OpcodeTable → Nat → Option Instruction
  | .base, op =>
    if op < 0x40 ∧ op % 8 < 6 then ofField (op / 8)
    else if op = 0x84 ∨ op = 0x85 ∨ op = 0xA8 ∨ op = 0xA9 then some test
    else if is64BitMode then none
    else if op / 8 = 0x40 / 8 then some inc
    else if op / 8 = 0x48 / 8 then some dec
    else none
  | .secondBase, op => if op = 0xC0 ∨ op = 0xC1 then some xadd else none
  | .primaryGroup, op =>
    match op / 64, op / 8 % 8, op % 8 with
    | 0, 0, reg | 0, 1, reg | 0, 3, reg => ofField reg
    | 3, 0, 0 | 3, 0, 1 | 3, 1, 0 | 3, 1, 1 => some test
    | 3, 0, 3 | 3, 1, 3 => some neg
    | 4, 0, 0 | 5, 0, 0 => some inc
    | 4, 0, 1 | 5, 0, 1 => some dec
    | _, _, _ => none

end Instruction

/-- The first source of a group is the field that tells the instruction. -/
def OpcodeTable.srcIndex : OpcodeTable → Nat
  | .primaryGroup => 1
  | _ => 0

/-- A decoded instruction: the flags tell its size, and its operands have this size. -/
structure DecodedALU (is64BitMode : Bool) extends DecodedInst where
  table : OpcodeTable
  instruction : Instruction
  size : Nat
  ofOpcode_eq : Instruction.ofOpcode is64BitMode table op = some instruction
  getSrcSize_eq : getSrcSize toDecodedInst = size
  getDstSize_eq : getDstSize toDecodedInst = size
  isSize : IsSize size
  size_mode : size = 8 → is64BitMode = true
  dest_rm : IsRM size dest
  src_isSource : instruction ≠ .inc → instruction ≠ .dec → instruction ≠ .neg → IsSource size (src table.srcIndex)
  /-- XADD exchanges with a register. -/
  src_isGPR : instruction = .xadd → isGPR (src table.srcIndex) = true
  /-- Nothing is emitted for INC or DEC with a repeat prefix. -/
  noRep : instruction = .inc ∨ instruction = .dec → hasRep toDecodedInst = false

/-- Write an operand where it is in the state `before`. -/
def writeOperand (is64BitMode : Bool) (op : DecodedInst) (operand : DecodedOperand) (before s : State) {size : Nat}
    (value : BitVec (8 * size)) : State :=
  (location is64BitMode op before operand).elim s (Location.write is64BitMode s value)

section
variable {is64BitMode : Bool} (op : DecodedALU is64BitMode) (s : State)

def DecodedALU.x : BitVec (8 * op.size) := operandValue is64BitMode op.toDecodedInst s op.size op.dest

def DecodedALU.y : BitVec (8 * op.size) := operandValue is64BitMode op.toDecodedInst s op.size (op.src op.table.srcIndex)

def DecodedALU.execute : State :=
  let (result, flags) := op.instruction.result (op.x s) (op.y s) s.flags
  let exchanged :=
    if op.instruction = .xadd then writeOperand is64BitMode op.toDecodedInst (op.src op.table.srcIndex) s s (op.x s) else s
  let written :=
    if op.instruction.writesDest then writeOperand is64BitMode op.toDecodedInst op.dest s exchanged result else exchanged
  { written with flags }

/-- The same state, but for AF where it is undefined. -/
def DecodedALU.SameState (expected s : State) : Prop :=
  s = { expected with
    flags := { expected.flags with af := if op.instruction.isLogic then s.flags.af else expected.flags.af } }

/-- The emitted code leaves the state of the architecture, with the flags that are deferred. -/
def DecodedALU.FollowsX86 : Prop :=
  ∃ name s', handlerOf is64BitMode op.table op.op = some name ∧ name.handler is64BitMode op.toDecodedInst s = some s' ∧
    op.SameState (op.execute s.calculateDeferredFlags) s'.calculateDeferredFlags

/-- Half a register is negated to a negative number in 64-bit mode. -/
def DecodedALU.NegatesHalf : Prop :=
  op.instruction = .neg ∧ is64BitMode = true ∧ op.size = 4 ∧ isGPR op.dest = true ∧
    0 < (op.x s).toNat ∧ (op.x s).toNat ≤ 2 ^ 31

end

end FexEmu.OpcodeDispatcher.Integer
