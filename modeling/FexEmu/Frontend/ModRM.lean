import FexEmu.Data.FlatMemory
/-!
# ModRM and SIB bytes

`DecodeModRM_16` and `DecodeModRM_64` of `Frontend.cpp`: the memory operand of an instruction from its ModRM byte and
the bytes behind it.
-/
namespace FexEmu.Frontend.ModRM

open FlatMemory (Byte)

/-! ## Registers and operands -/

/-- The registers that an operand can name. -/
inductive X86Reg
  | rax | rbx | rcx | rdx | rsi | rdi | rbp | rsp
  | r8 | r9 | r10 | r11 | r12 | r13 | r14 | r15
  | xmm (i : Fin 16)
  | mm (i : Fin 8)
  | invalid
deriving DecidableEq, Repr

open X86Reg

/-- The members of the union of `DecodedOperand` by its type. -/
inductive DecodedOperand
  | nothing
  | gpr (highBits : Bool) (gpr : X86Reg)
  | gprDirect (gpr : X86Reg)
  | gprIndirect (gpr : X86Reg) (displacement : BitVec 32)
  | ripRelative (value : BitVec 32)
  | literal (size : Nat) (value : BitVec 64)
  | sib (index base : X86Reg) (scale : Nat) (offset : BitVec 32)
deriving DecidableEq, Repr

def gprIndexes : List X86Reg := [rax, rcx, rdx, rbx, rsp, rbp, rsi, rdi, r8, r9, r10, r11, r12, r13, r14, r15]

def gpr8BitHighIndexes : List X86Reg := [rax, rcx, rdx, rbx, rax, rcx, rdx, rbx, r8, r9, r10, r11, r12, r13, r14, r15]

def xmmIndexes : List X86Reg := (List.finRange 16).map xmm

def mmIndexes : List X86Reg := (List.finRange 8).map mm ++ List.replicate 8 invalid

def mapModRMToReg (rex bits : Nat) (highBits hasREX hasXMM hasMM : Bool) (invalidOffset : Nat) : X86Reg :=
  let gprs :=
    if hasXMM then xmmIndexes
    else if hasMM then mmIndexes
    else if highBits && !hasREX then gpr8BitHighIndexes
    else gprIndexes
  let offset := rex * 8 + bits
  if offset = invalidOffset then invalid else gprs.getD offset invalid

/-! ## The decoder -/

/-- The decoder's state while it decodes an operand. -/
structure InstDecoder where
  instStream : Nat → Byte
  instructionSize : Nat
  rexB : Bool
  rexX : Bool
  sib : Byte
  decodedSIB : Bool

def readByte (d : InstDecoder) : Byte × InstDecoder :=
  (d.instStream d.instructionSize, { d with instructionSize := d.instructionSize + 1 })

/-- `ReadData`: the number of the next bytes. -/
def readData (d : InstDecoder) (size : Nat) : BitVec 64 × InstDecoder :=
  (BitVec.ofNat 64 (FlatMemory.load d.instStream d.instructionSize size),
    { d with instructionSize := d.instructionSize + size })

/-- `static_cast<int8_t>`. -/
def fromInt8 (literal : BitVec 64) : BitVec 32 := (literal.setWidth 8).signExtend 32

def rmField (hex : Byte) : Nat := hex.toNat % 8
def regField (hex : Byte) : Nat := hex.toNat / 8 % 8
def modField (hex : Byte) : Nat := hex.toNat / 64

def lookup16 : List (X86Reg × X86Reg) :=
  [(rbx, rsi), (rbx, rdi), (rbp, rsi), (rbp, rdi), (rsi, invalid), (rdi, invalid), (invalid, invalid), (rbx, invalid),
   (rbx, rsi), (rbx, rdi), (rbp, rsi), (rbp, rdi), (rsi, invalid), (rdi, invalid), (rbp, invalid), (rbx, invalid),
   (rbx, rsi), (rbx, rdi), (rbp, rsi), (rbp, rdi), (rsi, invalid), (rdi, invalid), (rbp, invalid), (rbx, invalid)]

def decodeModRM16 (d : InstDecoder) (modRM : Byte) : DecodedOperand × InstDecoder :=
  let mod := modField modRM
  let rm := rmField modRM
  let displacementSize := if (mod = 0 ∧ rm = 6) ∨ mod = 2 then 2 else if mod = 1 then 1 else 0
  let (literal, d) :=
    if displacementSize = 0 then (0, d)
    else
      let (literal, d) := readData d displacementSize
      (if displacementSize = 1 then fromInt8 literal else literal.setWidth 32, d)
  let (base, index) := lookup16.getD (mod * 8 + rm) (invalid, invalid)
  (.sib index base 1 literal, d)

def grabSIB (d : InstDecoder) : Byte × InstDecoder :=
  if d.decodedSIB then (d.sib, d)
  else
    let (sib, d) := readByte d
    (sib, { d with sib, decodedSIB := true })

/-- `DecodeModRM_64`. The offset of a SIB operand without a displacement is what the cleared operand has. -/
def decodeModRM64 (d : InstDecoder) (modRM : Byte) : DecodedOperand × InstDecoder :=
  let mod := modField modRM
  let rm := rmField modRM
  let rexB := if d.rexB then 1 else 0
  let displacement := if mod = 1 then 1 else if mod = 2 then 4 else if mod = 0 ∧ rm = 5 then 4 else 0
  if mod ≠ 3 ∧ rm = 4 then
    let (sib, d) := grabSIB d
    let displacement := if mod = 0 ∧ rm = 4 ∧ rmField sib = 5 then 4 else displacement
    let index := mapModRMToReg (if d.rexX then 1 else 0) (regField sib) false false false false 4
    let base := mapModRMToReg rexB (rmField sib) false false false false (if mod = 0 then 5 else 16)
    let (offset, d) :=
      if displacement = 0 then (0, d)
      else
        let (literal, d) := readData d displacement
        (if displacement = 1 then fromInt8 literal else literal.setWidth 32, d)
    (.sib index base (2 ^ modField sib) offset, d)
  else if mod = 0 then
    if rm = 5 then
      let (literal, d) := readData d 4
      (.ripRelative (literal.setWidth 32), d)
    else (.gprDirect (mapModRMToReg rexB rm false false false false 16), d)
  else
    let displacementSize := if mod = 1 then 1 else 4
    let (literal, d) := readData d displacementSize
    (.gprIndirect (mapModRMToReg rexB rm false false false false 16)
      (if displacementSize = 1 then fromInt8 literal else literal.setWidth 32), d)

end FexEmu.Frontend.ModRM
