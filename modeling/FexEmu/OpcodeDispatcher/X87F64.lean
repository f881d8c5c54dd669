import FexEmu.OpcodeDispatcher.X87
/-!
# The handlers of reduced precision

The registers hold doubles and the host does the arithmetic, so a handler that loads a control
word also sets the host's rounding mode.
-/
namespace FexEmu.OpcodeDispatcher.X87

open X87State

variable {V : Type} (A : Arith V)

def X87State.setRoundingMode (s : X87State V) (mode : BitVec 2) : X87State V := { s with hostRounding := mode }

def fninitF64 (s : X87State V) : X87State V :=
  let s := s.loadFCW 0x037F
  let s := s.setRoundingMode 0
  { s.setX87Top 0 with c0 := false, c1 := false, c2 := false, c3 := false, ftw := 0xFFFF }

def x87LDENVF64 (s : X87State V) (env : Env) : X87State V :=
  let s := s.setRoundingMode (rc env.fcw)
  let s := s.loadFCW env.fcw
  { s.loadFSW env.fsw with ftw := env.ftw }

def x87FLDCWF64 (s : X87State V) (fcw : BitVec 16) : X87State V :=
  let s := s.loadFCW fcw
  s.setRoundingMode (rc fcw)

/-! ## Loads and stores -/

def fldF64 (s : X87State V) (data : FloatData) : X87State V :=
  let top := pushIndex s.top
  (s.pushTop top).storeST top (A.ofFloat data)

def fldRegF64 (s : X87State V) (i : Fin 8) : X87State V :=
  let data := s.mm (stIndex s.top i)
  let top := pushIndex s.top
  (s.pushTop top).storeST top data

def fbldF64 (s : X87State V) (data : BitVec 80) : X87State V :=
  let top := pushIndex s.top
  (s.pushTop top).storeST top (A.ofBCD data)

def fbstpF64 (s : X87State V) : X87State V × Output V := (s.popTop s.top, .stored .bcd (s.mm s.top))

def fldF64Const (s : X87State V) (c : Constant) : X87State V :=
  let top := pushIndex s.top
  (s.pushTop top).storeST top (A.const c)

/-- `_Float_FromGPR_S` sign extends 16 bits; 32 bits are a source of four bytes. -/
def fildF64Int : IntData → Int
  | .i16 bits => (bits.signExtend 64).toInt
  | .i32 bits => bits.toInt
  | .i64 bits => bits.toInt

def fildF64 (s : X87State V) (data : IntData) : X87State V :=
  let top := pushIndex s.top
  (s.pushTop top).storeST top (A.ofInt (fildF64Int data))

def fstF64 (s : X87State V) (width : Nat) (pop : Bool) : X87State V × Output V :=
  (popIf pop s s.top, .stored (.float width) (s.mm s.top))

def fistF64 (s : X87State V) (bytes : Nat) (truncate pop : Bool) : X87State V × Output V :=
  (popIf pop s s.top, .stored (.int bytes truncate) (s.mm s.top))

/-! ## Arithmetic -/

/-- The integer that `_Float_FromGPR_S(8, 8, arg)` takes in the arithmetic, `LoadSource` extends the operand with
zeros. -/
def f64Int : MemOperand → Option Int
  | .i16 bits => some (bits.zeroExtend 64).toInt
  | .i32 bits => some (bits.zeroExtend 64).toInt
  | _ => none

/-- `FADDF64`, `FMULF64`, `FDIVF64` and `FSUBF64` with a memory operand. -/
def arithMemF64 (f : V → V → V) (src : MemOperand) (s : X87State V) : X87State V :=
  let b := loadOperand A f64Int src
  let a := s.mm s.top
  s.storeST s.top (f a b)

def arithRegF64 (f : V → V → V) (resSTi pop : Bool) (s : X87State V) (i : Fin 8) : X87State V :=
  let top := s.top
  let arg := stIndex top i
  let stackLocation := if resSTi then arg else top
  let b := s.mm arg
  let a := s.mm top
  let result := f a b
  let s := popIf pop s top
  s.storeST stackLocation result

def fchsF64 (s : X87State V) : X87State V := s.storeST s.top (A.unary .chs (s.mm s.top))

def fabsF64 (s : X87State V) : X87State V := s.storeST s.top (A.unary .abs (s.mm s.top))

def frndintF64 (s : X87State V) : X87State V := s.storeST s.top (A.unary .round (s.mm s.top))

/-- `FSQRTF64` and `X87UnaryOpF64`. -/
def x87UnaryOpF64 (op : UnaryOp) (s : X87State V) : X87State V := s.storeST s.top (A.unary op (s.mm s.top))

def x87BinaryOpF64 (op : BinaryOp) (s : X87State V) : X87State V :=
  let top := s.top
  let a := s.mm top
  let st1 := s.mm (stIndex top 1)
  let result := A.binary op a st1
  let s := if op = .prem then { s with c2 := false } else s
  s.storeST top result

def fxtractF64 (s : X87State V) : X87State V :=
  let origTop := s.top
  let top := pushIndex origTop
  let s := s.pushTop top
  let a := s.mm origTop
  let exp := A.xtractExp a
  let sig := A.xtractSig a
  (s.storeST origTop exp).storeST top sig

def x87SinCosF64 (s : X87State V) : X87State V :=
  let origTop := s.top
  let top := pushIndex origTop
  let s := s.pushTop top
  let a := s.mm origTop
  let sin := A.unary .sin a
  let cos := A.unary .cos a
  (s.storeST origTop sin).storeST top cos

def x87TANF64 (s : X87State V) : X87State V :=
  let origTop := s.top
  let top := pushIndex origTop
  let s := s.pushTop top
  let a := s.mm origTop
  let result := A.unary .tan a
  (s.storeST origTop result).storeST top (A.const .one)

def x87FYL2XF64 (plus1 : Bool) (s : X87State V) : X87State V :=
  let origTop := s.top
  let s := s.popTop origTop
  let top := stIndex origTop 1
  let st0 := s.mm origTop
  let st1 := s.mm top
  let st0 := if plus1 then A.add st0 (A.const .one) else st0
  s.storeST top (A.yl2x st0 st1)

def x87ATANF64 (s : X87State V) : X87State V :=
  let origTop := s.top
  let s := s.popTop origTop
  let top := stIndex origTop 1
  let a := s.mm origTop
  let st1 := s.mm top
  s.storeST top (A.atan st1 a)

/-! ## Comparisons -/

/-- `FCOMIF64` with the operand `b`. -/
def fcomiF64 (flags : FCOMIFlags) (popTwice pop : Bool) (b : V) (s : X87State V) : X87State V × Output V :=
  let top := s.top
  let a := s.mm top
  let res := A.cmp a b
  let s := match flags with
    | .flagsX87 => s.setX87Flags res
    | .flagsRFLAGS => s.setRFlags res
  let s :=
    if popTwice then
      let s := s.setX87TopTag top .empty
      let top := stIndex top 1
      let s := s.setX87TopTag top .empty
      s.setX87Top (stIndex top 1)
    else popIf pop s top
  (s, .compared a b)

def ftstF64 (s : X87State V) : X87State V × Output V :=
  let a := s.mm s.top
  let data := A.const .zero
  (s.setX87Flags (A.cmp a data), .compared a data)

def x87FXAMF64 (s : X87State V) : X87State V × Output V :=
  let top := s.top
  let a := s.mm top
  let s' := { s with c1 := A.sign a }
  let c3 := decide (s.getX87FTW top = 0b11#2)
  let c2 := !decide (s.getX87FTW top = 0b11#2)
  ({ s' with c0 := c3, c2 := c2, c3 := c3 }, .examined a)

/-- Resets with `FNINIT`, the rounding mode of the host stays. -/
def x87FNSAVEF64 (s : X87State V) : X87State V × Output V :=
  (fninit s, .saved s.env (saveRegisters s 8 s.top))

def x87FRSTORF64 (s : X87State V) (env : Env) (regs : Fin 8 → BitVec 80) : X87State V :=
  let s := x87LDENVF64 s env
  restoreRegisters ((List.ofFn regs).map (fun bits => A.ofFloat (.f80 bits))) (env.fsw.extractLsb' 11 3).toNat s

/-! ## Instructions -/

/-- The instruction with the handlers that `X87F64.cpp` puts in place of the others. -/
def execF64 (s : X87State V) : Inst → X87State V × Output V
  | .fld data => (fldF64 A s data, .none)
  | .fldReg i => (fldRegF64 s i, .none)
  | .fldConst c => (fldF64Const A s c, .none)
  | .fild data => (fildF64 A s data, .none)
  | .fbld data => (fbldF64 A s data, .none)
  | .fst width pop => fstF64 s width pop
  | .fist bytes truncate pop => fistF64 s bytes truncate pop
  | .fbstp => fbstpF64 s
  | .fstReg i pop => (fstReg s i pop, .none)
  | .arithMem op src => (arithMemF64 A (op.eval A) src s, .none)
  | .arithST0 op i => (arithRegF64 (op.eval A) false false s i, .none)
  | .arithSTi op i pop => (arithRegF64 (op.eval A) true pop s i, .none)
  | .fchs => (fchsF64 A s, .none)
  | .fabs => (fabsF64 A s, .none)
  | .frndint => (frndintF64 A s, .none)
  | .unary op => (x87UnaryOpF64 A op s, .none)
  | .binary op => (x87BinaryOpF64 A op s, .none)
  | .fxtract => (fxtractF64 A s, .none)
  | .fsincos => (x87SinCosF64 A s, .none)
  | .fptan => (x87TANF64 A s, .none)
  | .fyl2x plus1 => (x87FYL2XF64 A plus1 s, .none)
  | .fpatan => (x87ATANF64 A s, .none)
  | .fcomMem src pop => fcomiF64 A .flagsX87 false pop (loadOperand A f64Int src) s
  | .fcomReg flags i pop => fcomiF64 A flags false pop (s.mm (stIndex s.top i)) s
  | .fcompp => fcomiF64 A .flagsX87 true true (s.mm (stIndex s.top 1)) s
  | .ftst => ftstF64 A s
  | .fxam => x87FXAMF64 A s
  | .fcmov c i => (x87FCMOV c s i, .none)
  | .fxch i => (fxch s i, .none)
  | .fincstp => (x87ModifySTP true s, .none)
  | .fdecstp => (x87ModifySTP false s, .none)
  | .ffree i => (x87FFREE s i, .none)
  | .ffreep _ => (x87ModifySTP true s, .none)
  | .emms => (x87EMMS s, .none)
  | .fninit => (fninitF64 s, .none)
  | .fldenv env => (x87LDENVF64 s env, .none)
  | .fnstenv => x87FNSTENV s
  | .fldcw fcw => (x87FLDCWF64 s fcw, .none)
  | .fnstcw => x87FSTCW s
  | .fnstsw => x87FNSTSW s
  | .fnsave => x87FNSAVEF64 s
  | .frstor env regs => (x87FRSTORF64 A s env regs, .none)

end FexEmu.OpcodeDispatcher.X87
