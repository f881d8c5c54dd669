import FexEmu.OpcodeDispatcher.IntegerALUSpec
import FexEmu.OpcodeDispatcher.IntegerShifts
/-!
# Bit strings

A bit of a register is named by its number, and a bit of memory by a signed distance from the operand.
-/
namespace FexEmu.OpcodeDispatcher.Integer

open Address (Node constant)
open StringOps (State rflag)

/-! ## Handlers -/

def setCF (s : State) (value : Node) : State := { s with flags := { s.flags with cf := rflag value } }

/-- How BTR, BTS and BTC change the bit, with and without a lock. -/
structure BitChange where
  plain : Node → Node → Node
  lockedMask : Node → Node
  fetch : {n : Nat} → BitVec n → BitVec n → BitVec n

def bitSource (is64BitMode : Bool) (op : DecodedInst) (s : State) (srcIndex : Nat) : Option (Node × Bool) :=
  match op.src srcIndex with
  | .literal _ value =>
    some (constant (getDstBitSize op) (value &&& BitVec.ofNat 64 (getDstBitSize op - 1)), true)
  | operand => if isGPR operand then (loadSource is64BitMode op s operand).map (·, false) else none

def bitOp (change : Option BitChange) (srcIndex : Nat) : Handler := fun is64BitMode op s => do
  let size := getDstBitSize op
  let s := s.calculateDeferredFlags
  let (src, alreadyMasked) ← bitSource is64BitMode op s srcIndex
  if isGPR op.dest then do
    let dest ← loadSource is64BitMode op s op.dest
    let bitSelect := if alreadyMasked then src else and src (const (BitVec.ofNat 64 (size - 1)))
    let result := lshr dest bitSelect
    match change with
    | none => some (setCF s result)
    | some change => do
      let bitMask := lshl (const 1) bitSelect
      let s ← storeResult is64BitMode op s (change.plain dest bitMask)
      some (setCF s result)
  else do
    let dest ← loadAddress is64BitMode op s op.dest
    let bitSelect := bfe 3 0 src
    let src := sbfe (size - 3) 3 src
    let memoryLocation := add dest src
    match change with
    | none => some (setCF s (lshr (s.loadMem 1 memoryLocation) bitSelect))
    | some change =>
      let bitMask := lshl (const 1) bitSelect
      if destIsLockedMem op then
        let (before, s) := atomicFetch change.fetch s 1 (change.lockedMask bitMask) memoryLocation
        some (setCF s (lshr before bitSelect))
      else
        let value := s.loadMem 1 memoryLocation
        some (setCF (s.storeMem 1 memoryLocation (change.plain value bitMask)) (lshr value bitSelect))

def btOp : Nat → Handler := bitOp none

def btrOp : Nat → Handler := bitOp (some ⟨andn, not, fun x y => x &&& y⟩)

def btsOp : Nat → Handler := bitOp (some ⟨or, id, fun x y => x ||| y⟩)

def btcOp : Nat → Handler := bitOp (some ⟨xor, id, fun x y => x ^^^ y⟩)

/-! ## Tables -/

inductive BitTable
  | secondBase
  | secondaryExtension
deriving DecidableEq, Repr

/-- The handlers, under the source's names. -/
inductive BitHandler
  | BTOp
  | BTROp
  | BTSOp
  | BTCOp
deriving DecidableEq, Repr

def BitHandler.handler : BitHandler → Nat → Handler
  | BTOp => btOp
  | BTROp => btrOp
  | BTSOp => btsOp
  | BTCOp => btcOp

/-- `OPD` of a group behind the first opcode byte, numbered from the group 6 on. -/
def secondaryOpd (group pf reg : Nat) : Nat := group <<< 5 ||| pf <<< 3 ||| reg

/-- The entries of `TwoByteOpTable` and `SecondaryExtensionOpTable`, with `SrcIndex`. The prefixes are `PF_NONE`, `PF_F3`,
`PF_66` and `PF_F2`. -/
def BitHandler.ofOp : BitTable → Nat → Option (BitHandler × Nat)
  | .secondBase, op =>
    if op = 0xA3 then some (.BTOp, 0)
    else if op = 0xAB then some (.BTSOp, 0)
    else if op = 0xB3 then some (.BTROp, 0)
    else if op = 0xBB then some (.BTCOp, 0)
    else none
  | .secondaryExtension, op =>
    if op ∈ (List.range 4).map (secondaryOpd 2 · 4) then some (.BTOp, 1)
    else if op ∈ (List.range 4).map (secondaryOpd 2 · 5) then some (.BTSOp, 1)
    else if op ∈ (List.range 4).map (secondaryOpd 2 · 6) then some (.BTROp, 1)
    else if op ∈ (List.range 4).map (secondaryOpd 2 · 7) then some (.BTCOp, 1)
    else none

/-! ## The architecture -/

/-- The bit tests, as the manual names them. -/
inductive BitTest
  | bt | bts | btr | btc
deriving DecidableEq, Repr

namespace BitTest

def change {w : Nat} (x : BitVec w) (k : Nat) : BitTest → BitVec w
  | bt => x
  | bts => x ||| BitVec.twoPow w k
  | btr => x &&& ~~~BitVec.twoPow w k
  | btc => x ^^^ BitVec.twoPow w k

/-- The opcode map. In the group, the instruction is the field of the ModRM byte. -/
def ofOpcode : BitTable → Nat → Option BitTest
  | .secondBase, 0xA3 => some bt
  | .secondBase, 0xAB => some bts
  | .secondBase, 0xB3 => some btr
  | .secondBase, 0xBB => some btc
  | .secondBase, _ => none
  | .secondaryExtension, op =>
    if op / 32 = 2 then
      match op % 8 with
      | 4 => some bt
      | 5 => some bts
      | 6 => some btr
      | 7 => some btc
      | _ => none
    else none

/-- The carry gets a bit of the location, which is changed. `BT` does not write. -/
def execute (i : BitTest) (is64BitMode : Bool) (s : State) (size : Nat) (l : Location) (k : Nat) : State :=
  let x := l.read s size
  { (if i = bt then s else l.write is64BitMode s (i.change x k)) with flags := { s.flags with cf := x.getLsbD k } }

end BitTest

/-- The first source of the group is the field that tells the instruction. -/
def BitTable.srcIndex : BitTable → Nat
  | .secondBase => 0
  | .secondaryExtension => 1

/-- The flags tell the size of the operands. Only an instruction that changes memory may have a lock. -/
structure DecodedBitTest (is64BitMode : Bool) extends DecodedInst, Address.Decoded is64BitMode where
  table : BitTable
  instruction : BitTest
  size : Nat
  ofOpcode_eq : BitTest.ofOpcode table op = some instruction
  getSrcSize_eq : getSrcSize toDecodedInst = size
  getDstSize_eq : getDstSize toDecodedInst = size
  isSize : size = 2 ∨ size = 4 ∨ size = 8
  size_mode : size = 8 → is64BitMode = true
  dest_valid : isGPR dest = true ∧ IsRM size dest ∨ Address.IsMemory dest
  src_valid : isGPR (src table.srcIndex) = true ∧ IsRM size (src table.srcIndex) ∨
    ∃ literalSize value, src table.srcIndex = .literal literalSize value
  lock_memory : hasLock toDecodedInst = true → instruction ≠ .bt ∧ isGPR dest = false

namespace DecodedBitTest

variable {is64BitMode : Bool} (op : DecodedBitTest is64BitMode) (s : State)

/-- The distance of the bit. An immediate is taken modulo the size. -/
def offset : BitVec (8 * op.size) :=
  let y := operandValue is64BitMode op.toDecodedInst s op.size (op.src op.table.srcIndex)
  if isGPR (op.src op.table.srcIndex) then y else BitVec.ofNat (8 * op.size) (y.toNat % (8 * op.size))

def byteOffset : Int := (op.offset s).toInt / 8

def base : Nat :=
  (Address.loadSourceAddress is64BitMode s.cpu op.toDecodedOp op.dest).elim 0 fun address => address.value.toNat

def segmentBase : Nat := Address.appendedBase is64BitMode s.cpu op.overrides

/-- The byte lies at an address in the segment, cut to the address size. -/
def bitAddress : Nat :=
  (((op.base s + op.byteOffset s) % 2 ^ Address.addressBits is64BitMode op.has67).toNat + op.segmentBase s) %
    2 ^ Address.linearBits is64BitMode

def executed : State :=
  let k := (op.offset s).toNat
  if isGPR op.dest then
    (location is64BitMode op.toDecodedInst s op.dest).elim s fun l =>
      op.instruction.execute is64BitMode s op.size l (k % (8 * op.size))
  else op.instruction.execute is64BitMode s 1 (.mem (op.bitAddress s)) (k % 8)

/-- The emitted code leaves the state of the architecture, with the flags that are deferred. -/
def FollowsX86 : Prop :=
  ∃ name srcIndex s', BitHandler.ofOp op.table op.op = some (name, srcIndex) ∧
    name.handler srcIndex is64BitMode op.toDecodedInst s = some s' ∧
      s'.calculateDeferredFlags = op.executed s.calculateDeferredFlags

/-- The distance leads out of the addresses that the segment or the mode has. -/
def Wraps : Prop :=
  isGPR op.dest = false ∧
    ¬ ((op.base s + op.byteOffset s) % 2 ^ Address.linearBits is64BitMode < 2 ^ Address.addressBits is64BitMode op.has67 ∧
      (((op.base s + op.segmentBase s) % 2 ^ Address.linearBits is64BitMode : Nat) + op.byteOffset s) % 2 ^ 64 <
        2 ^ Address.linearBits is64BitMode)

/-- Where the emitted code looks for the byte: nothing is cut behind the segment. -/
def uncutAddress : Nat :=
  ((((op.base s + op.segmentBase s) % 2 ^ Address.linearBits is64BitMode : Nat) + op.byteOffset s) % 2 ^ 64).toNat

/-- The bytes at both addresses have the same bit, and the change leaves both as they are. -/
def Alike : Prop :=
  let x := Location.read s 1 (.mem (op.uncutAddress s))
  let y := Location.read s 1 (.mem (op.bitAddress s))
  let k := (op.offset s).toNat % 8
  x.getLsbD k = y.getLsbD k ∧ op.instruction.change x k = x ∧ op.instruction.change y k = y

end DecodedBitTest

end FexEmu.OpcodeDispatcher.Integer
