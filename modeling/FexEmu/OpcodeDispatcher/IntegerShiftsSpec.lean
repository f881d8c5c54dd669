import FexEmu.OpcodeDispatcher.IntegerALUSpec
import FexEmu.OpcodeDispatcher.IntegerShifts
/-!
# Shifts and rotates of the architecture

The instructions with their results and flags and what of these is defined.
-/
namespace FexEmu.OpcodeDispatcher.Integer

open StringOps (State ALUFlags)
open Frontend.ModRM (DecodedOperand)

/-- The shifts and rotates, as the manual names them. -/
inductive Shift
  | rol | ror | rcl | rcr | shl | shr | sar | shld | shrd
deriving DecidableEq, Repr

/-- Where the count is. -/
inductive CountForm
  | one
  | immediate
  | cl
deriving DecidableEq, Repr

namespace Shift

def result {w : Nat} (shift : Shift) (x y : BitVec w) (cf : Bool) (count : Nat) : BitVec w × Bool × Bool :=
  match shift with
  | rol =>
    let res := x.rotateLeft count
    (res, res.getLsbD 0, res.msb ^^ res.getLsbD 0)
  | ror =>
    let res := x.rotateRight count
    (res, res.msb, res.msb ^^ res.getLsbD (w - 2))
  | rcl =>
    let res := (BitVec.cons cf x).rotateLeft count
    (res.setWidth w, res.msb, (res.setWidth w).msb ^^ res.msb)
  | rcr =>
    let res := (BitVec.cons cf x).rotateRight count
    (res.setWidth w, res.msb, x.msb ^^ cf)
  | shl =>
    let res := x <<< count
    (res, x.getLsbD (w - count), res.msb ^^ x.getLsbD (w - count))
  | shr => (x >>> count, x.getLsbD (count - 1), x.msb)
  | sar => (x.sshiftRight count, (x.sshiftRight (count - 1)).getLsbD 0, false)
  | shld =>
    let res := ((x ++ y) <<< count).extractLsb' w w
    (res, x.getLsbD (w - count), res.msb ^^ x.msb)
  | shrd =>
    let res := ((y ++ x) >>> count).setWidth w
    (res, x.getLsbD (count - 1), res.msb ^^ x.msb)

def isRotate (shift : Shift) : Bool := shift = rol || shift = ror || shift = rcl || shift = rcr

def isDouble (shift : Shift) : Bool := shift = shld || shift = shrd

/-- A count of zero leaves the flags, and a rotate leaves all but two. -/
def flags {w : Nat} (shift : Shift) (x y : BitVec w) (count : Nat) (old : ALUFlags) : ALUFlags :=
  let (res, cf, of) := shift.result x y old.cf count
  if count = 0 then old
  else if shift.isRotate then { old with cf, of }
  else resultFlags res cf false of

/-- The result of a double shift is defined for counts up to the size. -/
def definesResult (shift : Shift) (w count : Nat) : Bool := !shift.isDouble || count ≤ w

/-- The last bit that is shifted out. Beyond the size it is defined for a sign and for rotates. -/
def definesCF (shift : Shift) (w count : Nat) : Bool := shift.isRotate || shift = sar || count ≤ w

def definesAF (shift : Shift) (count : Nat) : Bool := shift.isRotate || count = 0

/-- The flags that the shift defines for its count are the expected ones. -/
structure FlagsMatch (shift : Shift) (w count : Nat) (expected flags : ALUFlags) : Prop where
  cf : shift.definesCF w count = true → flags.cf = expected.cf
  of : count ≤ 1 → flags.of = expected.of
  af : shift.definesAF count = true → flags.af = expected.af
  result : shift.definesResult w count = true →
    flags.pf = expected.pf ∧ flags.zf = expected.zf ∧ flags.sf = expected.sf

def ofField : Nat → Option Shift
  | 0 => some rol
  | 1 => some ror
  | 2 => some rcl
  | 3 => some rcr
  | 4 | 6 => some shl
  | 5 => some shr
  | 7 => some sar
  | _ => none

/-- An opcode of the second group is numbered by the group, the opcode byte in it and the field of the ModRM byte. -/
def ofOpcode : OpcodeTable → Nat → Option (Shift × CountForm)
  | .base, _ => none
  | .secondBase, 0xA4 => some (shld, .immediate)
  | .secondBase, 0xA5 => some (shld, .cl)
  | .secondBase, 0xAC => some (shrd, .immediate)
  | .secondBase, 0xAD => some (shrd, .cl)
  | .secondBase, _ => none
  | .primaryGroup, op =>
    if op / 16 = 8 then (ofField (op % 8)).map (·, .immediate)
    else if op / 16 = 9 then (ofField (op % 8)).map (·, .one)
    else if op / 16 = 10 then (ofField (op % 8)).map (·, .cl)
    else none

end Shift

def CountForm.IsIn : CountForm → DecodedOperand → Prop
  | one, _ => True
  | immediate, operand => ∃ size value, IsSize size ∧ operand = .literal size value
  | cl, operand => operand = .gpr false .rcx

/-- A decoded instruction: the flags tell its size, and its operands have this size. -/
structure DecodedShift (is64BitMode : Bool) extends DecodedInst where
  table : OpcodeTable
  shift : Shift
  countForm : CountForm
  size : Nat
  ofOpcode_eq : Shift.ofOpcode table op = some (shift, countForm)
  /-- The even opcodes of the group are those of bytes, and bytes have no double shifts. -/
  byte_iff : size = 1 ↔ table = .primaryGroup ∧ op / 8 % 2 = 0
  getSrcSize_eq : getSrcSize toDecodedInst = size
  getDstSize_eq : getDstSize toDecodedInst = size
  isSize : IsSize size
  size_mode : size = 8 → is64BitMode = true
  dest_rm : IsRM size dest
  src_isGPR : shift.isDouble = true → isGPR (src 0) = true ∧ IsRM size (src 0)
  count_isIn : countForm.IsIn (src 1)

section
variable {is64BitMode : Bool} (op : DecodedShift is64BitMode) (s : State)

def DecodedShift.x : BitVec (8 * op.size) := operandValue is64BitMode op.toDecodedInst s op.size op.dest

def DecodedShift.y : BitVec (8 * op.size) := operandValue is64BitMode op.toDecodedInst s op.size (op.src 0)

def DecodedShift.count : Nat :=
  (match op.countForm with
  | .one => 1
  | .immediate | .cl => (operandValue is64BitMode op.toDecodedInst s 1 (op.src 1)).toNat) % if op.size = 8 then 64 else 32

/-- The state that the architecture leaves, with the result and the flags. -/
def DecodedShift.executed (res : BitVec (8 * op.size)) (flags : ALUFlags) : State :=
  { writeOperand is64BitMode op.toDecodedInst op.dest s s res with flags }

/-- The emitted code leaves the state of the architecture with the flags that are deferred, as far as this is defined. -/
def DecodedShift.FollowsX86 : Prop :=
  ∃ name s', ShiftHandler.ofOp op.table op.op = some name ∧ name.handler is64BitMode op.toDecodedInst s = some s' ∧
    ∃ res, s'.calculateDeferredFlags = op.executed s.calculateDeferredFlags res s'.calculateDeferredFlags.flags ∧
      (op.shift.definesResult (8 * op.size) (op.count s) = true →
        res = (op.shift.result (op.x s) (op.y s) s.calculateDeferredFlags.flags.cf (op.count s)).1) ∧
      op.shift.FlagsMatch (8 * op.size) (op.count s)
        (op.shift.flags (op.x s) (op.y s) (op.count s) s.calculateDeferredFlags.flags) s'.calculateDeferredFlags.flags

end

end FexEmu.OpcodeDispatcher.Integer
