import Mathlib.Tactic
/-!
# Integer ops of the interpreter

A source is the 64 bits of its slot. A size that the interpreter only logs is `none`, and so is a division by zero.
-/
namespace FexEmu.Interpreter

/-- `IROp->Size`. -/
inductive OpSize
  | i8Bit
  | i16Bit
  | i32Bit
  | i64Bit
deriving DecidableEq, Repr

abbrev OpSize.bits : OpSize → Nat
  | i8Bit => 8
  | i16Bit => 16
  | i32Bit => 32
  | i64Bit => 64

def zext (size : OpSize) (src : BitVec 64) : BitVec 64 := (src.setWidth size.bits).setWidth 64

def sext (size : OpSize) (src : BitVec 64) : BitVec 64 := (src.setWidth size.bits).signExtend 64

/-! ## Arithmetic -/

/-- `DO_OP` for 4 and 8 bytes. -/
def doOp48 (func : {n : Nat} → BitVec n → BitVec n → BitVec n) (size : OpSize) (src1 src2 : BitVec 64) :
    Option (BitVec 64) :=
  match size with
  | .i32Bit => some ((func (src1.setWidth 32) (src2.setWidth 32)).setWidth 64)
  | .i64Bit => some (func src1 src2)
  | _ => none

/-- `DO_OP` for all sizes. -/
def doOp (func : {n : Nat} → BitVec n → BitVec n → BitVec n) (size : OpSize) (src1 src2 : BitVec 64) :
    Option (BitVec 64) :=
  some ((func (src1.setWidth size.bits) (src2.setWidth size.bits)).setWidth 64)

def opAdd := doOp48 (· + ·)
def opSub := doOp48 (· - ·)

def opNeg (size : OpSize) (src : BitVec 64) : Option (BitVec 64) :=
  match size with
  | .i32Bit => some ((-(src.setWidth 32)).signExtend 64)
  | .i64Bit => some (-src)
  | _ => none

def opMul (size : OpSize) (src1 src2 : BitVec 64) : Option (BitVec 64) :=
  match size with
  | .i32Bit => some (sext .i32Bit src1 * sext .i32Bit src2)
  | .i64Bit => some (src1 * src2)
  | _ => none

def opUMul (size : OpSize) (src1 src2 : BitVec 64) : Option (BitVec 64) :=
  match size with
  | .i32Bit => some ((src1.setWidth 32 * src2.setWidth 32).setWidth 64)
  | .i64Bit => some (src1 * src2)
  | _ => none

def divided (op : BitVec 64 → BitVec 64 → BitVec 64) (src1 src2 : BitVec 64) : Option (BitVec 64) :=
  if src2 = 0 then none else some (op src1 src2)

def opDiv (size : OpSize) (src1 src2 : BitVec 64) : Option (BitVec 64) := divided BitVec.sdiv (sext size src1) (sext size src2)
def opUDiv (size : OpSize) (src1 src2 : BitVec 64) : Option (BitVec 64) := divided BitVec.udiv (zext size src1) (zext size src2)
def opRem (size : OpSize) (src1 src2 : BitVec 64) : Option (BitVec 64) := divided BitVec.srem (sext size src1) (sext size src2)
def opURem (size : OpSize) (src1 src2 : BitVec 64) : Option (BitVec 64) := divided BitVec.umod (zext size src1) (zext size src2)

def opMulH (size : OpSize) (src1 src2 : BitVec 64) : Option (BitVec 64) :=
  match size with
  | .i32Bit => some ((sext .i32Bit src1 * sext .i32Bit src2).sshiftRight 32)
  | .i64Bit => some (((src1.signExtend 128 * src2.signExtend 128).sshiftRight 64).setWidth 64)
  | _ => none

def opUMulH (size : OpSize) (src1 src2 : BitVec 64) : Option (BitVec 64) :=
  match size with
  | .i32Bit => some ((src1 * src2) >>> 32)
  | .i64Bit => some (((src1.setWidth 128 * src2.setWidth 128) >>> 64).setWidth 64)
  | _ => none

/-! ## Logic and shifts -/

def opOr := doOp (· ||| ·)
def opAnd := doOp (· &&& ·)
def opAndn := doOp (fun a b => a &&& ~~~b)
def opXor := doOp (· ^^^ ·)

def opLshl (size : OpSize) (src1 src2 : BitVec 64) : Option (BitVec 64) :=
  match size with
  | .i32Bit => some ((src1.setWidth 32 <<< (src2 &&& 31#64).toNat).setWidth 64)
  | .i64Bit => some (src1 <<< (src2 &&& 63#64).toNat)
  | _ => none

def opLshr (size : OpSize) (src1 src2 : BitVec 64) : Option (BitVec 64) :=
  match size with
  | .i32Bit => some ((src1.setWidth 32 >>> (src2 &&& 31#64).toNat).setWidth 64)
  | .i64Bit => some (src1 >>> (src2 &&& 63#64).toNat)
  | _ => none

def opAshr (size : OpSize) (src1 src2 : BitVec 64) : Option (BitVec 64) :=
  match size with
  | .i32Bit => some (((src1.setWidth 32).sshiftRight (src2 &&& 31#64).toNat).setWidth 64)
  | .i64Bit => some (src1.sshiftRight (src2 &&& 63#64).toNat)
  | _ => none

/-- The lambda `Ror`. -/
def rotated {n : Nat} (In R : BitVec n) : BitVec n :=
  let R := R &&& BitVec.ofNat n (n - 1)
  (In >>> R.toNat) ||| (In <<< (n - R.toNat))

def opRor (size : OpSize) (src1 src2 : BitVec 64) : Option (BitVec 64) :=
  match size with
  | .i32Bit => some ((rotated (src1.setWidth 32) (src2.setWidth 32)).setWidth 64)
  | .i64Bit => some (rotated src1 src2)
  | _ => none

def extracted {n : Nat} (Src1 Src2 : BitVec n) (lsb : Nat) : BitVec n :=
  (((Src1.setWidth 128 <<< n) ||| Src2.setWidth 128) >>> lsb).setWidth n

def opExtr (size : OpSize) (upper lower : BitVec 64) (lsb : Nat) : Option (BitVec 64) :=
  match size with
  | .i32Bit => some ((extracted (upper.setWidth 32) (lower.setWidth 32) lsb).setWidth 64)
  | .i64Bit => some (extracted upper lower lsb)
  | _ => none

/-- The loop of `PDep`. A round clears a bit of the mask, so that there are at most 64. -/
def pdepLoop (Input : BitVec 64) : Nat → (Mask : BitVec 64) → (Index : Nat) → (Result : BitVec 64) → BitVec 64
  | 0, _, _, Result => Result
  | rounds + 1, Mask, Index, Result =>
    if Mask = 0 then Result
    else pdepLoop Input rounds (Mask &&& (Mask - 1)) (Index + 1) (Result ||| (((Input >>> Index) &&& 1#64) <<< Mask.ctz.toNat))

def opPDep (size : OpSize) (Input Mask : BitVec 64) : Option (BitVec 64) :=
  match size with
  | .i32Bit | .i64Bit => some (pdepLoop (zext size Input) 64 (zext size Mask) 0 0)
  | _ => none

def pextLoop (Input : BitVec 64) : Nat → (Mask : BitVec 64) → (Offset : Nat) → (Result : BitVec 64) → BitVec 64
  | 0, _, _, Result => Result
  | rounds + 1, Mask, Offset, Result =>
    if Mask = 0 then Result
    else pextLoop Input rounds (Mask &&& (Mask - 1)) (Offset + 1) (Result ||| (((Input >>> Mask.ctz.toNat) &&& 1#64) <<< Offset))

def opPExt (size : OpSize) (Input Mask : BitVec 64) : Option (BitVec 64) :=
  match size with
  | .i32Bit | .i64Bit => some (pextLoop (zext size Input) 64 (zext size Mask) 0 0)
  | _ => none

def longSource (n : Nat) (lower upper : BitVec 64) : BitVec (2 * n) :=
  ((upper.setWidth n).setWidth (2 * n) <<< n) ||| (lower.setWidth n).setWidth (2 * n)

/-- A division at twice the size. Only the low bits of the result are stored. -/
def longDivided (n : Nat) (op : {m : Nat} → BitVec m → BitVec m → BitVec m) (store : BitVec n → BitVec 64)
    (lower upper : BitVec 64) (divisor : BitVec (2 * n)) : Option (BitVec 64) :=
  if divisor = 0 then none else some (store ((op (longSource n lower upper) divisor).setWidth n))

def signedLongOp (op : {m : Nat} → BitVec m → BitVec m → BitVec m) (size : OpSize) (lower upper divisor : BitVec 64) :
    Option (BitVec 64) :=
  match size with
  | .i8Bit => none
  | _ => longDivided size.bits op (·.signExtend 64) lower upper ((divisor.setWidth size.bits).signExtend (2 * size.bits))

def unsignedLongOp (op : {m : Nat} → BitVec m → BitVec m → BitVec m) (size : OpSize) (lower upper divisor : BitVec 64) :
    Option (BitVec 64) :=
  match size with
  | .i8Bit => none
  | _ => longDivided size.bits op (·.setWidth 64) lower upper ((divisor.setWidth size.bits).setWidth (2 * size.bits))

def opLDiv := signedLongOp BitVec.sdiv
def opLUDiv := unsignedLongOp BitVec.udiv
def opLRem := signedLongOp BitVec.srem
def opLURem := unsignedLongOp BitVec.umod

/-! ## Counting -/

def opNot (size : OpSize) (src : BitVec 64) : Option (BitVec 64) := some (zext size (~~~src))

def opPopcount (src : BitVec 64) : BitVec 64 := src.cpop

def opFindMSB (size : OpSize) (src : BitVec 64) : BitVec 64 :=
  BitVec.ofInt 64 ((size.bits : Int) - (src.setWidth size.bits).clz.toNat - 1)

def opFindTrailingZeros (size : OpSize) (src : BitVec 64) : BitVec 64 := (src.setWidth size.bits).ctz.setWidth 64

def opCountLeadingZeroes (size : OpSize) (src : BitVec 64) : BitVec 64 := (src.setWidth size.bits).clz.setWidth 64

def sourceMask (width : Nat) : BitVec 64 := if width = 64 then ~~~0#64 else (1#64 <<< (width % 64)) - 1

def opBfi (width lsb : Nat) (dest src : BitVec 64) : BitVec 64 :=
  (dest &&& ~~~(sourceMask width <<< (lsb % 64))) ||| ((src &&& sourceMask width) <<< (lsb % 64))

def opBfe (width lsb : Nat) (src : BitVec 64) : BitVec 64 := (src &&& (sourceMask width <<< (lsb % 64))) >>> (lsb % 64)

def opSbfe (width lsb : Nat) (src : BitVec 64) : BitVec 64 :=
  let shiftLeftAmount := 64 - (width + lsb)
  (src <<< shiftLeftAmount).sshiftRight (shiftLeftAmount + lsb)

/-! ## Select -/

/-- The conditions of a comparison of general registers. -/
inductive CondClass
  | EQ
  | NEQ
  | SGE
  | SLT
  | SGT
  | SLE
  | UGE
  | ULT
  | UGT
  | ULE
deriving DecidableEq, Repr

def isConditionTrue {n : Nat} (src1 src2 : BitVec n) : CondClass → Bool
  | .EQ => src1 = src2
  | .NEQ => src1 ≠ src2
  | .SGE => src1.toInt ≥ src2.toInt
  | .SLT => src1.toInt < src2.toInt
  | .SGT => src1.toInt > src2.toInt
  | .SLE => src1.toInt ≤ src2.toInt
  | .UGE => src1.toNat ≥ src2.toNat
  | .ULT => src1.toNat < src2.toNat
  | .UGT => src1.toNat > src2.toNat
  | .ULE => src1.toNat ≤ src2.toNat

def opSelect (size : OpSize) (compareSize : Nat) (cond : CondClass) (src1 src2 trueVal falseVal : BitVec 64) : BitVec 64 :=
  let argTrue := if size = .i32Bit then zext .i32Bit trueVal else trueVal
  let argFalse := if size = .i32Bit then zext .i32Bit falseVal else falseVal
  let compResult :=
    if compareSize = 4 then isConditionTrue (src1.setWidth 32) (src2.setWidth 32) cond else isConditionTrue src1 src2 cond
  if compResult then argTrue else argFalse

end FexEmu.Interpreter
