import FexEmu.OpcodeDispatcher.IntegerALUSpec
import FexEmu.OpcodeDispatcher.IntegerBMI
/-!
# Bit manipulation of the architecture

The instructions with their results, flags and opcodes, and which flags are defined.
-/
namespace FexEmu.OpcodeDispatcher.Integer

open StringOps (State ALUFlags)

/-- The instructions of BMI1, BMI2 and the bit counts. -/
inductive BMI
  | andn | bextr | blsi | blsmsk | blsr | sarx | shlx | shrx | bzhi | rorx | mulx | tzcnt | lzcnt | popcnt
deriving DecidableEq, Repr

namespace BMI
variable {w : Nat} (x y : BitVec w)

def field (start length : Nat) : BitVec w := (x >>> start) &&& BitVec.ofNat w (2 ^ length - 1)

def product : BitVec (2 * w) := x.setWidth (2 * w) * y.setWidth (2 * w)

/-- The second source of `mulx` is RDX, and the destination gets the high half. -/
def result : BMI → BitVec w
  | andn => ~~~x &&& y
  | bextr => field x (y.toNat % 256) (y.toNat / 256 % 256)
  | blsi => x &&& -x
  | blsmsk => (x - 1#w) ^^^ x
  | blsr => (x - 1#w) &&& x
  | sarx => x.sshiftRight (y.toNat % w)
  | shlx => x <<< (y.toNat % w)
  | shrx => x >>> (y.toNat % w)
  | bzhi => if y.toNat % 256 < w then field x 0 (y.toNat % 256) else x
  | rorx => x.rotateRight (y.toNat % w)
  | mulx => (product x y >>> w).setWidth w
  | tzcnt => x.ctz
  | lzcnt => x.clz
  | popcnt => x.cpop

def flags (i : BMI) (old : ALUFlags) : ALUFlags :=
  let res := i.result x y
  match i with
  | andn => resultFlags res false false false
  | bextr => resultFlags res false false false
  | blsi => resultFlags res (x ≠ 0) false false
  | blsmsk => { resultFlags res (x = 0) false false with zf := false }
  | blsr => resultFlags res (x = 0) false false
  | bzhi => resultFlags res (w ≤ y.toNat % 256) false false
  | tzcnt | lzcnt => resultFlags res (x = 0) false false
  | popcnt => ⟨false, false, false, x = 0, false, false⟩
  | sarx | shlx | shrx | rorx | mulx => old

def defined : BMI → ALUFlags
  | andn | blsi | blsmsk | blsr | bzhi => ⟨true, false, false, true, true, true⟩
  | bextr => ⟨true, false, false, true, false, true⟩
  | tzcnt | lzcnt => ⟨true, false, false, true, false, false⟩
  | popcnt | sarx | shlx | shrx | rorx | mulx => ⟨true, true, true, true, true, true⟩

/-- The opcode map: behind a VEX prefix it is numbered by the map, the prefix and the opcode byte. -/
def ofOpcode : BMITable → Nat → Option BMI
  | .vex, 0x4F2 => some andn
  | .vex, 0x4F5 => some bzhi
  | .vex, 0x7F6 => some mulx
  | .vex, 0x4F7 => some bextr
  | .vex, 0x5F7 => some shlx
  | .vex, 0x6F7 => some sarx
  | .vex, 0x7F7 => some shrx
  | .vex, 0xBF0 => some rorx
  | .vex, _ => none
  | .vexGroup, 0x41 => some blsr
  | .vexGroup, 0x42 => some blsmsk
  | .vexGroup, 0x43 => some blsi
  | .vexGroup, _ => none
  | .repMod, 0xB8 => some popcnt
  | .repMod, 0xBC => some tzcnt
  | .repMod, 0xBD => some lzcnt
  | .repMod, _ => none

def isCount (i : BMI) : Bool := i = tzcnt || i = lzcnt || i = popcnt

def hasSecond (i : BMI) : Bool :=
  i = andn || i = bextr || i = sarx || i = shlx || i = shrx || i = bzhi || i = mulx

end BMI

/-- The flags that are defined are as expected. -/
structure FlagsAgree (defined expected flags : ALUFlags) : Prop where
  cf : defined.cf = true → flags.cf = expected.cf
  pf : defined.pf = true → flags.pf = expected.pf
  af : defined.af = true → flags.af = expected.af
  zf : defined.zf = true → flags.zf = expected.zf
  sf : defined.sf = true → flags.sf = expected.sf
  of : defined.of = true → flags.of = expected.of

/-- The flags tell the size of the operands. The destination is a register, and of `mulx` the first operand too. -/
structure DecodedBMI (is64BitMode : Bool) extends DecodedInst where
  table : BMITable
  instruction : BMI
  size : Nat
  ofOpcode_eq : BMI.ofOpcode table op = some instruction
  getSrcSize_eq : getSrcSize toDecodedInst = size
  getDstSize_eq : getDstSize toDecodedInst = size
  isSize : size = 4 ∨ size = 8 ∨ size = 2 ∧ instruction.isCount = true
  size_mode : size = 8 → is64BitMode = true
  dest_isGPR : isGPR dest = true ∧ IsRM size dest
  first_rm : IsRM size (src 0)
  first_isGPR : instruction = .mulx → isGPR (src 0) = true
  second_rm : instruction.hasSecond = true → IsRM size (src 1)
  /-- The immediate byte. -/
  amount_literal : instruction = .rorx → ∃ literalSize value, src 1 = .literal literalSize value

section
variable {is64BitMode : Bool} (op : DecodedBMI is64BitMode) (s : State)

def DecodedBMI.x : BitVec (8 * op.size) :=
  operandValue is64BitMode op.toDecodedInst s op.size (op.src (if op.instruction = .mulx then 1 else 0))

def DecodedBMI.y : BitVec (8 * op.size) :=
  if op.instruction = .mulx then readReg op.size false (s.cpu.gregs .rdx)
  else operandValue is64BitMode op.toDecodedInst s op.size (op.src 1)

def DecodedBMI.executed (flags : ALUFlags) : State :=
  let lower :=
    if op.instruction = .mulx then
      writeOperand is64BitMode op.toDecodedInst (op.src 0) s s ((BMI.product (op.x s) (op.y s)).setWidth (8 * op.size))
    else s
  { writeOperand is64BitMode op.toDecodedInst op.dest s lower (op.instruction.result (op.x s) (op.y s)) with flags }

/-- The emitted code leaves the state of the architecture with the flags that are deferred, as far as they are defined. -/
def DecodedBMI.FollowsX86 : Prop :=
  ∃ name s', BMIHandler.ofOp op.table op.op = some name ∧ name.handler is64BitMode op.toDecodedInst s = some s' ∧
    s'.calculateDeferredFlags = op.executed s.calculateDeferredFlags s'.calculateDeferredFlags.flags ∧
      FlagsAgree op.instruction.defined
        (op.instruction.flags (op.x s) (op.y s) s.calculateDeferredFlags.flags) s'.calculateDeferredFlags.flags

end

end FexEmu.OpcodeDispatcher.Integer
