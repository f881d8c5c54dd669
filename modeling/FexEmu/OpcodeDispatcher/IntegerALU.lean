import FexEmu.OpcodeDispatcher.IntegerFlags
/-!
# Arithmetic and logic

The handlers with their opcodes. A handler gives what the code that it emits does to the state, or nothing if it fails. The
parity flag is not left out.
-/
namespace FexEmu.OpcodeDispatcher.Integer

open Address (Node constant)
open StringOps (State ALUFlags loadFlag)
open Frontend.Prefixes (flag repPrefixBit)

abbrev Handler := (is64BitMode : Bool) → DecodedInst → State → Option State

section
variable (op : DecodedInst) (s : State) (res src1 src2 : Node)

def deferFlags (calculate : ALUFlags → ALUFlags) : State := { s with deferred := some calculate }

def generateFlags_ADC (cf : Node) : State :=
  deferFlags s fun _ => calculcateFlags_ADC (getSrcSize op) res src1 src2 cf

def generateFlags_SBB (cf : Node) : State :=
  deferFlags s fun _ => calculcateFlags_SBB (getSrcSize op) res src1 src2 cf

/-- `GenerateFlags_SUB`. The flags that it leaves have to be there first. -/
def generateFlags_SUB (updateCF : Bool) : State :=
  deferFlags (if updateCF then s else s.calculateDeferredFlags) (calculcateFlags_SUB (getSrcSize op) res src1 src2 updateCF)

def generateFlags_ADD (updateCF : Bool) : State :=
  deferFlags (if updateCF then s else s.calculateDeferredFlags) (calculcateFlags_ADD (getSrcSize op) res src1 src2 updateCF)

def generateFlags_Logical : State := deferFlags s fun _ => calculcateFlags_Logical (getSrcSize op) res

end

/-! ## Ops -/

/-- The `IROp`s of the two handlers that choose one. -/
inductive ALU
  | ADD
  | OR
  | AND
  | SUB
  | XOR
deriving DecidableEq, Repr

namespace ALU

/-- `IROp` of `ALUOp`. -/
def ofOp (op : Nat) : Option ALU :=
  if op ≤ 0x5 then some ADD
  else if 0x8 ≤ op ∧ op ≤ 0xD then some OR
  else if 0x20 ≤ op ∧ op ≤ 0x25 then some AND
  else if 0x28 ≤ op ∧ op ≤ 0x2D then some SUB
  else if 0x30 ≤ op ∧ op ≤ 0x35 then some XOR
  else none

/-- `OPD` of a group, numbered from the first one, with the index of the opcode and the field of the ModRM byte. -/
def opd (group opIndex reg : Nat) : Nat := group <<< 6 ||| opIndex <<< 3 ||| reg

def ofSecondaryOp (op : Nat) : Option ALU :=
  if op = opd 0 0 0 ∨ op = opd 0 1 0 ∨ op = opd 0 3 0 then some ADD
  else if op = opd 0 0 1 ∨ op = opd 0 1 1 ∨ op = opd 0 3 1 then some OR
  else if op = opd 0 0 4 ∨ op = opd 0 1 4 ∨ op = opd 0 3 4 then some AND
  else if op = opd 0 0 5 ∨ op = opd 0 1 5 ∨ op = opd 0 3 5 then some SUB
  else if op = opd 0 0 6 ∨ op = opd 0 1 6 ∨ op = opd 0 3 6 then some XOR
  else none

def requiresMask (alu : ALU) : Bool := alu = ADD || alu = SUB

def func (alu : ALU) {n : Nat} (x y : BitVec n) : BitVec n :=
  match alu with
  | ADD => x + y
  | OR => x ||| y
  | AND => x &&& y
  | SUB => x - y
  | XOR => x ^^^ y

def node (alu : ALU) (a b : Node) : Node :=
  match alu with
  | ADD => add a b
  | OR => or a b
  | AND => and a b
  | SUB => sub a b
  | XOR => xor a b

/-- The node of an `_Add` whose op is overwritten, but not its size. -/
def overwritten (alu : ALU) (a b : Node) : Node :=
  emit (atLeast4 a b) fun size =>
    match alu with
    | ADD => Interpreter.opAdd size a.value b.value
    | OR => Interpreter.opOr size a.value b.value
    | AND => Interpreter.opAnd size a.value b.value
    | SUB => Interpreter.opSub size a.value b.value
    | XOR => Interpreter.opXor size a.value b.value

def generateFlags (alu : ALU) (op : DecodedInst) (s : State) (res dest src : Node) : State :=
  match alu with
  | ADD => generateFlags_ADD op s res dest src true
  | SUB => generateFlags_SUB op s res dest src true
  | AND | XOR | OR => generateFlags_Logical op s res

end ALU

/-! ## Handlers -/

def masked (size : Nat) (result : Node) : Node := if size < 4 then bfeSized size (size * 8) 0 result else result

section
variable (is64BitMode : Bool) (op : DecodedInst) (s : State)

/-- An atomic op if the destination is locked memory, else a load, the op and a store, with the result and what was there
before. -/
def updateDest (size : Nat) (value : Node) (func : {n : Nat} → BitVec n → BitVec n → BitVec n) (locked plain : Node → Node) :
    Option (Node × Node × State) :=
  if destIsLockedMem op then do
    let destMem ← loadAddress is64BitMode op s op.dest
    let (before, s) := atomicFetch func s size value destMem
    some (locked before, before, s)
  else do
    let before ← loadSource is64BitMode op s op.dest
    let result := plain before
    let s ← storeResult is64BitMode op s result
    some (result, before, s)

/-- `ALUOp` and `SecondaryALUOp` behind the choice of the op. -/
def aluBody (alu : ALU) (srcIndex : Nat) : Option State := do
  let src ← loadSource is64BitMode op s (op.src srcIndex)
  let size := getDstSize op
  let (result, dest, s) ← updateDest is64BitMode op s size src alu.func (alu.node · src) (alu.overwritten · src)
  some (alu.generateFlags op s (if alu.requiresMask then masked size result else result) dest src)

end

def aluOp : Handler := fun is64BitMode op s => do
  let alu ← ALU.ofOp op.op
  aluBody is64BitMode op s alu 0

def secondaryALUOp : Handler := fun is64BitMode op s => do
  let alu ← ALU.ofSecondaryOp op.op
  aluBody is64BitMode op s alu 1

def adcOp (srcIndex : Nat) : Handler := fun is64BitMode op s => do
  let s := s.calculateDeferredFlags
  let src ← loadSource is64BitMode op s (op.src srcIndex)
  let size := getDstSize op
  let cf := loadFlag s.flags.cf
  let aluOp := add src cf
  let (result, before, s) ← updateDest is64BitMode op s size aluOp (· + ·) (add · aluOp) (add · aluOp)
  some (generateFlags_ADC op s (masked size result) before src cf)

def sbbOp (srcIndex : Nat) : Handler := fun is64BitMode op s => do
  let s := s.calculateDeferredFlags
  let src ← loadSource is64BitMode op s (op.src srcIndex)
  let size := getDstSize op
  let cf := loadFlag s.flags.cf
  let aluOp := add src cf
  let (result, before, s) ← updateDest is64BitMode op s size aluOp (· - ·) (sub · aluOp) (sub · aluOp)
  some (generateFlags_SBB op s (masked size result) before src cf)

def cmpOp (srcIndex : Nat) : Handler := fun is64BitMode op s => do
  let src ← loadSource is64BitMode op s (op.src srcIndex)
  let dest ← loadSource is64BitMode op s op.dest
  let size := getDstSize op
  let aluOp := sub dest src
  some (generateFlags_SUB op s (masked size aluOp) dest src true)

def testOp (srcIndex : Nat) : Handler := fun is64BitMode op s => do
  let src ← loadSource is64BitMode op s (op.src srcIndex)
  let dest ← loadSource is64BitMode op s op.dest
  some (generateFlags_Logical op s (and dest src))

/-- Two constants of different sizes are subtracted for the flags. -/
def negOp : Handler := fun is64BitMode op s => do
  let size := getSrcSize op
  let zeroConst := const 0
  let (result, dest, s) ← updateDest is64BitMode op s size zeroConst (fun x _ => -x) neg neg
  some (generateFlags_SUB op s (if size < 4 then bfe (size * 8) 0 result else result) zeroConst dest true)

def hasRep (op : DecodedInst) : Bool := op.flags &&& flag repPrefixBit ≠ 0

def cut (size : Nat) (result : Node) : Node := if size * 8 < 32 then bfe (size * 8) 0 result else result

def incOp : Handler := fun is64BitMode op s => do
  if hasRep op then none
  else
    let size := getSrcSize op
    let oneConst := constant (size * 8) 1
    let (result, dest, s) ← updateDest is64BitMode op s size oneConst (· + ·) (add · oneConst) (add · oneConst)
    some (generateFlags_ADD op s (cut size result) dest oneConst false)

def decOp : Handler := fun is64BitMode op s => do
  if hasRep op then none
  else
    let size := getSrcSize op
    let oneConst := constant (size * 8) 1
    let (result, dest, s) ← updateDest is64BitMode op s size oneConst (· - ·) (sub · oneConst) (sub · oneConst)
    some (generateFlags_SUB op s (cut size result) dest oneConst false)

def xaddOp : Handler := fun is64BitMode op s => do
  let src ← loadSource is64BitMode op s (op.src 0)
  let size := getSrcSize op
  if isGPR op.dest then
    let dest ← loadSource is64BitMode op s op.dest
    let result := add dest src
    let s ← storeResultTo is64BitMode op s (op.src 0) dest
    let s ← storeResult is64BitMode op s result
    some (generateFlags_ADD op s (cut size result) dest src true)
  else
    let dest ← loadAddress is64BitMode op s op.dest
    let (before, s) := atomicFetch (· + ·) s size src dest
    let s ← storeResultTo is64BitMode op s (op.src 0) before
    let result := add before src
    some (generateFlags_ADD op s (cut size result) before src true)

/-! ## Tables -/

/-- The tables with handlers of the ALU. -/
inductive OpcodeTable
  | base
  | secondBase
  | primaryGroup
deriving DecidableEq, Repr

/-- The handlers, some of which are templates. -/
inductive HandlerName
  | ALUOp
  | SecondaryALUOp
  | ADCOp (srcIndex : Nat)
  | SBBOp (srcIndex : Nat)
  | CMPOp (srcIndex : Nat)
  | TESTOp (srcIndex : Nat)
  | NEGOp
  | INCOp
  | DECOp
  | XADDOp
deriving DecidableEq, Repr

def HandlerName.handler : HandlerName → Handler
  | ALUOp => aluOp
  | SecondaryALUOp => secondaryALUOp
  | ADCOp srcIndex => adcOp srcIndex
  | SBBOp srcIndex => sbbOp srcIndex
  | CMPOp srcIndex => cmpOp srcIndex
  | TESTOp srcIndex => testOp srcIndex
  | NEGOp => negOp
  | INCOp => incOp
  | DECOp => decOp
  | XADDOp => xaddOp

/-- The entries of `BaseOpTable`, `BaseOpTable_32`, `TwoByteOpTable` and `PrimaryGroupOpTable` for these handlers. -/
def handlerOf (is64BitMode : Bool) : OpcodeTable → Nat → Option HandlerName
  | .base, op =>
    if op < 0x06 then some .ALUOp
    else if 0x08 ≤ op ∧ op < 0x0E then some .ALUOp
    else if 0x10 ≤ op ∧ op < 0x16 then some (.ADCOp 0)
    else if 0x18 ≤ op ∧ op < 0x1E then some (.SBBOp 0)
    else if 0x20 ≤ op ∧ op < 0x26 then some .ALUOp
    else if 0x28 ≤ op ∧ op < 0x2E then some .ALUOp
    else if 0x30 ≤ op ∧ op < 0x36 then some .ALUOp
    else if 0x38 ≤ op ∧ op < 0x3E then some (.CMPOp 0)
    else if 0x84 ≤ op ∧ op < 0x86 then some (.TESTOp 0)
    else if 0xA8 ≤ op ∧ op < 0xAA then some (.TESTOp 0)
    else if is64BitMode then none
    else if 0x40 ≤ op ∧ op < 0x48 then some .INCOp
    else if 0x48 ≤ op ∧ op < 0x50 then some .DECOp
    else none
  | .secondBase, op => if op = 0xC0 ∨ op = 0xC1 then some .XADDOp else none
  | .primaryGroup, op =>
    let index := op / 8
    let reg := op % 8
    if index = 0 ∨ index = 1 ∨ index = 3 then
      some (if reg = 2 then .ADCOp 1 else if reg = 3 then .SBBOp 1 else if reg = 7 then .CMPOp 1 else .SecondaryALUOp)
    else if index = 24 ∨ index = 25 then
      if reg = 0 ∨ reg = 1 then some (.TESTOp 1) else if reg = 3 then some .NEGOp else none
    else if index = 32 ∨ index = 40 then
      if reg = 0 then some .INCOp else if reg = 1 then some .DECOp else none
    else none

end FexEmu.OpcodeDispatcher.Integer
