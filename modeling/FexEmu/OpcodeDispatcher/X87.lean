import Mathlib.Tactic
/-!
# The x87 handlers

What the IR of the handlers of `X87.cpp` does to the `CPUState`. The floating-point operations are a parameter, and a memory
operand is its data.
-/
namespace FexEmu.OpcodeDispatcher.X87

scoped instance ne_zero_8 : NeZero 8 := ⟨by decide⟩

/-! ## Data -/

/-- The tags of the full tag word. -/
inductive X87Tag
  | valid
  | zero
  | special
  | empty
deriving DecidableEq, Repr

def X87Tag.bits : X87Tag → BitVec 16
  | valid => 0b00
  | zero => 0b01
  | special => 0b10
  | empty => 0b11

/-- A memory operand that is a float. -/
inductive FloatData
  | f32 (bits : BitVec 32)
  | f64 (bits : BitVec 64)
  | f80 (bits : BitVec 80)
deriving DecidableEq, Repr

/-- A memory operand that is an integer. -/
inductive IntData
  | i16 (bits : BitVec 16)
  | i32 (bits : BitVec 32)
  | i64 (bits : BitVec 64)
deriving DecidableEq, Repr

/-- The memory operands of the arithmetic. -/
inductive MemOperand
  | f32 (bits : BitVec 32)
  | f64 (bits : BitVec 64)
  | i16 (bits : BitVec 16)
  | i32 (bits : BitVec 32)
deriving DecidableEq, Repr

/-- The constants of the FLD family. -/
inductive Constant
  | one
  | log2ten
  | log2e
  | pi
  | log10two
  | ln2
  | zero
deriving DecidableEq, Repr

/-- The operations on the top of the stack. -/
inductive UnaryOp
  | chs
  | abs
  | round
  | f2xm1
  | sqrt
  | sin
  | cos
  | tan
deriving DecidableEq, Repr

/-- The operations on the top and the value below it that pop nothing. -/
inductive BinaryOp
  | prem1
  | prem
  | scale
deriving DecidableEq, Repr

/-- `FCMP_FLAG_LT`, `FCMP_FLAG_EQ` and `FCMP_FLAG_UNORDERED`. -/
structure Compare where
  lt : Bool
  eq : Bool
  unordered : Bool
deriving DecidableEq, Repr

/-- The floating-point operations on the values of the stack. -/
structure Arith (V : Type) where
  add : V → V → V
  mul : V → V → V
  sub : V → V → V
  div : V → V → V
  unary : UnaryOp → V → V
  binary : BinaryOp → V → V → V
  yl2x : V → V → V
  atan : V → V → V
  xtractExp : V → V
  xtractSig : V → V
  const : Constant → V
  ofFloat : FloatData → V
  ofInt : Int → V
  ofBCD : BitVec 80 → V
  cmp : V → V → Compare
  sign : V → Bool

/-- `softRounding` is the rounding mode that `F80LoadFCW` sets, `hostRounding` the one of `SetRoundingMode`. -/
structure X87State (V : Type) where
  top : Nat
  mm : Nat → V
  ftw : BitVec 16
  fcw : BitVec 16
  c0 : Bool
  c1 : Bool
  c2 : Bool
  c3 : Bool
  cf : Bool
  zf : Bool
  pf : Bool
  softRounding : BitVec 2
  hostRounding : BitVec 2

/-- What is converted on its way to memory. -/
inductive StoreKind
  | float (bits : Nat)
  | int (bytes : Nat) (truncate : Bool)
  | bcd
deriving DecidableEq, Repr

/-- The words that `FNSTENV` writes and `FLDENV` reads. -/
structure Env where
  fcw : BitVec 16
  fsw : BitVec 16
  ftw : BitVec 16
deriving DecidableEq, Repr

/-- What a handler reads the stack for, apart from its results in the state. -/
inductive Output (V : Type)
  | none
  | compared (a b : V)
  | examined (a : V)
  | stored (kind : StoreKind) (value : V)
  | saved (env : Env) (registers : List V)
  | word (value : BitVec 16)

/-! ## Parts of the handlers -/

variable {V : Type} (A : Arith V)

/-- The `RC` field of a control word. -/
def rc (fcw : BitVec 16) : BitVec 2 := fcw.extractLsb' 10 2

/-- `_And(_Add(top, offset), 7)`. -/
@[irreducible]
def stIndex (top offset : Nat) : Nat := (top + offset) % 2 ^ 64 &&& 7

/-- `_And(_Sub(top, 1), 7)`. -/
@[irreducible]
def pushIndex (top : Nat) : Nat := (top + 2 ^ 64 - 1) % 2 ^ 64 &&& 7

namespace X87State

def setX87Top (s : X87State V) (value : Nat) : X87State V := { s with top := value % 256 }

def setX87TopTag (s : X87State V) (value : Nat) (tag : X87Tag) : X87State V :=
  { s with ftw := (s.ftw &&& ~~~(0b11#16 <<< (2 * value))) ||| (tag.bits <<< (2 * value)) }

def getX87FTW (s : X87State V) (value : Nat) : BitVec 2 := s.ftw.extractLsb' (2 * value) 2

/-- `_StoreContextIndexed` of a stack register. -/
def storeST (s : X87State V) (index : Nat) (value : V) : X87State V := { s with mm := Function.update s.mm index value }

/-- The end of the handlers of instructions with `FLAGS_POP`. -/
def popTop (s : X87State V) (top : Nat) : X87State V :=
  (s.setX87TopTag top .empty).setX87Top (stIndex top 1)

def pushTop (s : X87State V) (top : Nat) : X87State V := (s.setX87TopTag top .valid).setX87Top top

def loadFCW (s : X87State V) (fcw : BitVec 16) : X87State V := { s with fcw := fcw, softRounding := rc fcw }

def loadFSW (s : X87State V) (fsw : BitVec 16) : X87State V :=
  { s.setX87Top (fsw.extractLsb' 11 3).toNat with
    c0 := fsw.getLsbD 8, c1 := fsw.getLsbD 9, c2 := fsw.getLsbD 10, c3 := fsw.getLsbD 14 }

def setX87Flags (s : X87State V) (r : Compare) : X87State V :=
  { s with c0 := r.lt || r.unordered, c1 := false, c2 := r.unordered, c3 := r.eq || r.unordered }

def setRFlags (s : X87State V) (r : Compare) : X87State V :=
  { s with cf := r.lt || r.unordered, zf := r.eq || r.unordered, pf := r.unordered }

def bit (b : Bool) (i : Nat) : BitVec 16 := (BitVec.ofBool b).zeroExtend 16 <<< i

def fsw (s : X87State V) : BitVec 16 :=
  (BitVec.ofNat 16 s.top <<< 11) ||| bit s.c0 8 ||| bit s.c1 9 ||| bit s.c2 10 ||| bit s.c3 14

def env (s : X87State V) : Env := ⟨s.fcw, s.fsw, s.ftw⟩

end X87State

open X87State

/-- Where a comparison leaves its result. -/
inductive FCOMIFlags
  | flagsX87
  | flagsRFLAGS
deriving DecidableEq, Repr

/-- The integer that `_F80CVTToInt` takes: 16 and 32 bits are signed. -/
def f80Int : MemOperand → Option Int
  | .i16 bits => some bits.toInt
  | .i32 bits => some bits.toInt
  | _ => none

/-- A memory operand of the arithmetic; `int` is the integer that the conversion takes. -/
def loadOperand (int : MemOperand → Option Int) (src : MemOperand) : V :=
  match src with
  | .f32 bits => A.ofFloat (.f32 bits)
  | .f64 bits => A.ofFloat (.f64 bits)
  | .i16 _ => A.ofInt ((int src).getD 0)
  | .i32 _ => A.ofInt ((int src).getD 0)

/-! ## Loads and stores -/

def fld (s : X87State V) (data : FloatData) : X87State V :=
  let origTop := s.top
  let converted := A.ofFloat data
  let top := pushIndex origTop
  (s.pushTop top).storeST top converted

def fldReg (s : X87State V) (i : Fin 8) : X87State V :=
  let origTop := s.top
  let data := s.mm (stIndex origTop i)
  let top := pushIndex origTop
  (s.pushTop top).storeST top data

def fbld (s : X87State V) (data : BitVec 80) : X87State V :=
  let top := pushIndex s.top
  (s.pushTop top).storeST top (A.ofBCD data)

def fbstp (s : X87State V) : X87State V × Output V :=
  let origTop := s.top
  (s.popTop origTop, .stored .bcd (s.mm origTop))

def fldConst (s : X87State V) (c : Constant) : X87State V :=
  let top := pushIndex s.top
  (s.pushTop top).storeST top (A.const c)

def fild (s : X87State V) (data : IntData) : X87State V :=
  let top := pushIndex s.top
  let value := match data with
    | .i16 bits => (bits.signExtend 64).toInt
    | .i32 bits => (bits.signExtend 64).toInt
    | .i64 bits => bits.toInt
  (s.pushTop top).storeST top (A.ofInt value)

/-- The pop of an instruction with `FLAGS_POP`. -/
def popIf (pop : Bool) (s : X87State V) (top : Nat) : X87State V := if pop then s.popTop top else s

def fst (s : X87State V) (width : Nat) (pop : Bool) : X87State V × Output V :=
  let origTop := s.top
  (popIf pop s origTop, .stored (.float width) (s.mm origTop))

def fist (s : X87State V) (bytes : Nat) (truncate pop : Bool) : X87State V × Output V :=
  let origTop := s.top
  (popIf pop s origTop, .stored (.int bytes truncate) (s.mm origTop))

/-- `FST` to a stack register. -/
def fstReg (s : X87State V) (i : Fin 8) (pop : Bool) : X87State V :=
  let top := s.top
  let arg := stIndex top i
  popIf pop (s.storeST arg (s.mm top)) top

/-! ## Arithmetic -/

/-- `FADD`, `FMUL`, `FDIV` and `FSUB` with a memory operand; `f` has the operation and the order of its operands. -/
def arithMem (f : V → V → V) (b : V) (s : X87State V) : X87State V :=
  let top := s.top
  s.storeST top (f (s.mm top) b)

/-- The same with a stack register, the result goes to it for `RES_STI`. -/
def arithReg (f : V → V → V) (resSTi pop : Bool) (s : X87State V) (i : Fin 8) : X87State V :=
  let top := s.top
  let arg := stIndex top i
  let stackLocation := if resSTi then arg else top
  let result := f (s.mm top) (s.mm arg)
  (popIf pop s top).storeST stackLocation result

/-- The operation of `FDIV` and `FSUB`. -/
def reversed (reverse : Bool) (f : V → V → V) (a b : V) : V := if reverse then f b a else f a b

/-- The four handlers. -/
inductive ArithOp
  | fadd
  | fmul
  | fdiv (reverse : Bool)
  | fsub (reverse : Bool)
deriving DecidableEq, Repr

def ArithOp.eval : ArithOp → V → V → V
  | fadd => A.add
  | fmul => A.mul
  | fdiv reverse => reversed reverse A.div
  | fsub reverse => reversed reverse A.sub

def fchs (s : X87State V) : X87State V := s.storeST s.top (A.unary .chs (s.mm s.top))

def fabs (s : X87State V) : X87State V := s.storeST s.top (A.unary .abs (s.mm s.top))

def frndint (s : X87State V) : X87State V := s.storeST s.top (A.unary .round (s.mm s.top))

def x87UnaryOp (op : UnaryOp) (s : X87State V) : X87State V := s.storeST s.top (A.unary op (s.mm s.top))

def x87BinaryOp (op : BinaryOp) (s : X87State V) : X87State V :=
  let top := s.top
  let a := s.mm top
  let st1 := s.mm (stIndex top 1)
  let s := if op = .prem then { s with c2 := false } else s
  s.storeST top (A.binary op a st1)

def fxtract (s : X87State V) : X87State V :=
  let origTop := s.top
  let top := pushIndex origTop
  let s := s.pushTop top
  let a := s.mm origTop
  (s.storeST origTop (A.xtractExp a)).storeST top (A.xtractSig a)

def x87SinCos (s : X87State V) : X87State V :=
  let origTop := s.top
  let top := pushIndex origTop
  let s := s.pushTop top
  let a := s.mm origTop
  (s.storeST origTop (A.unary .sin a)).storeST top (A.unary .cos a)

def x87TAN (s : X87State V) : X87State V :=
  let origTop := s.top
  let top := pushIndex origTop
  let s := s.pushTop top
  let a := s.mm origTop
  (s.storeST origTop (A.unary .tan a)).storeST top (A.const .one)

def x87FYL2X (plus1 : Bool) (s : X87State V) : X87State V :=
  let origTop := s.top
  let s := s.popTop origTop
  let top := stIndex origTop 1
  let st0 := s.mm origTop
  let st1 := s.mm top
  let st0 := if plus1 then A.add st0 (A.const .one) else st0
  s.storeST top (A.yl2x st0 st1)

def x87ATAN (s : X87State V) : X87State V :=
  let origTop := s.top
  let s := s.popTop origTop
  let top := stIndex origTop 1
  let a := s.mm origTop
  let st1 := s.mm top
  s.storeST top (A.atan st1 a)

/-! ## Comparisons -/

/-- `FCOMI` with the operand `b`. -/
def fcomi (flags : FCOMIFlags) (popTwice pop : Bool) (b : V) (s : X87State V) : X87State V × Output V :=
  let top := s.top
  let a := s.mm top
  let res := A.cmp a b
  let s := match flags with
    | .flagsX87 => s.setX87Flags res
    | .flagsRFLAGS => s.setRFlags res
  let s :=
    if popTwice then
      let s := s.setX87TopTag top .empty
      let top := stIndex top 1
      let s := s.setX87TopTag top .empty
      s.setX87Top (stIndex top 1)
    else popIf pop s top
  (s, .compared a b)

def ftst (s : X87State V) : X87State V × Output V :=
  let a := s.mm s.top
  let data := A.const .zero
  (s.setX87Flags (A.cmp a data), .compared a data)

def x87FXAM (s : X87State V) : X87State V × Output V :=
  let top := s.top
  let a := s.mm top
  let isZero := decide (s.getX87FTW top = 0b11#2)
  ({ s with c0 := isZero, c1 := A.sign a, c2 := !isZero, c3 := isZero }, .examined a)

/-- The condition of `FCMOVcc` by the bits of its opcode: the flags of `FLAGMask`, and whether they have to be off. -/
structure FCMOVCond where
  cf : Bool
  zf : Bool
  pf : Bool
  compareZero : Bool
deriving DecidableEq, Repr

def FCMOVCond.eval (c : FCMOVCond) (s : X87State V) : Bool :=
  (c.cf && s.cf || c.zf && s.zf || c.pf && s.pf) != c.compareZero

def x87FCMOV (c : FCMOVCond) (s : X87State V) (i : Fin 8) : X87State V :=
  let top := s.top
  let a := s.mm top
  let b := s.mm (stIndex top i)
  s.storeST top (if c.eval s then b else a)

/-! ## The stack and the control words -/

def fxch (s : X87State V) (i : Fin 8) : X87State V :=
  let top := s.top
  let arg := stIndex top i
  let a := s.mm top
  let b := s.mm arg
  (s.storeST top b).storeST arg a

def x87ModifySTP (inc : Bool) (s : X87State V) : X87State V :=
  s.setX87Top (if inc then stIndex s.top 1 else pushIndex s.top)

def x87EMMS (s : X87State V) : X87State V := { s with ftw := 0xFFFF }

def x87FFREE (s : X87State V) (i : Fin 8) : X87State V := s.setX87TopTag (stIndex s.top i) .empty

def fninit (s : X87State V) : X87State V :=
  { (s.loadFCW 0x037F).setX87Top 0 with c0 := false, c1 := false, c2 := false, c3 := false, ftw := 0xFFFF }

def x87LDENV (s : X87State V) (env : Env) : X87State V :=
  { (s.loadFCW env.fcw).loadFSW env.fsw with ftw := env.ftw }

def x87FNSTENV (s : X87State V) : X87State V × Output V := (s, .saved s.env [])

def x87FLDCW (s : X87State V) (fcw : BitVec 16) : X87State V := s.loadFCW fcw

def x87FSTCW (s : X87State V) : X87State V × Output V := (s, .word s.fcw)

def x87FNSTSW (s : X87State V) : X87State V × Output V := (s, .word s.fsw)

/-- The registers from the top on, each in the next one of `n` turns. -/
def saveRegisters (s : X87State V) : Nat → Nat → List V
  | 0, _ => []
  | n + 1, top => s.mm top :: saveRegisters s n (stIndex top 1)

def x87FNSAVE (s : X87State V) : X87State V × Output V :=
  (fninit s, .saved s.env (saveRegisters s 8 s.top))

def restoreRegisters : List V → Nat → X87State V → X87State V
  | [], _, s => s
  | reg :: regs, top, s => restoreRegisters regs (stIndex top 1) (s.storeST top reg)

def x87FRSTOR (s : X87State V) (env : Env) (regs : Fin 8 → BitVec 80) : X87State V :=
  let s := x87LDENV s env
  restoreRegisters ((List.ofFn regs).map (fun bits => A.ofFloat (.f80 bits))) (env.fsw.extractLsb' 11 3).toNat s

/-! ## Instructions -/

/-- The instructions by the handlers and flags that the tables give them. -/
inductive Inst
  | fld (data : FloatData)
  | fldReg (i : Fin 8)
  | fldConst (c : Constant)
  | fild (data : IntData)
  | fbld (data : BitVec 80)
  | fst (width : Nat) (pop : Bool)
  | fist (bytes : Nat) (truncate pop : Bool)
  | fbstp
  | fstReg (i : Fin 8) (pop : Bool)
  | arithMem (op : ArithOp) (src : MemOperand)
  | arithST0 (op : ArithOp) (i : Fin 8)
  | arithSTi (op : ArithOp) (i : Fin 8) (pop : Bool)
  | fchs
  | fabs
  | frndint
  | unary (op : UnaryOp)
  | binary (op : BinaryOp)
  | fxtract
  | fsincos
  | fptan
  | fyl2x (plus1 : Bool)
  | fpatan
  | fcomMem (src : MemOperand) (pop : Bool)
  | fcomReg (flags : FCOMIFlags) (i : Fin 8) (pop : Bool)
  | fcompp
  | ftst
  | fxam
  | fcmov (c : FCMOVCond) (i : Fin 8)
  | fxch (i : Fin 8)
  | fincstp
  | fdecstp
  | ffree (i : Fin 8)
  | ffreep (i : Fin 8)
  | emms
  | fninit
  | fldenv (env : Env)
  | fnstenv
  | fldcw (fcw : BitVec 16)
  | fnstcw
  | fnstsw
  | fnsave
  | frstor (env : Env) (regs : Fin 8 → BitVec 80)

/-- The instruction with the handlers of `X87.cpp`. `FFREEP` only moves the top. -/
def exec (s : X87State V) : Inst → X87State V × Output V
  | .fld data => (fld A s data, .none)
  | .fldReg i => (fldReg s i, .none)
  | .fldConst c => (fldConst A s c, .none)
  | .fild data => (fild A s data, .none)
  | .fbld data => (fbld A s data, .none)
  | .fst width pop => fst s width pop
  | .fist bytes truncate pop => fist s bytes truncate pop
  | .fbstp => fbstp s
  | .fstReg i pop => (fstReg s i pop, .none)
  | .arithMem op src => (arithMem (op.eval A) (loadOperand A f80Int src) s, .none)
  | .arithST0 op i => (arithReg (op.eval A) false false s i, .none)
  | .arithSTi op i pop => (arithReg (op.eval A) true pop s i, .none)
  | .fchs => (fchs A s, .none)
  | .fabs => (fabs A s, .none)
  | .frndint => (frndint A s, .none)
  | .unary op => (x87UnaryOp A op s, .none)
  | .binary op => (x87BinaryOp A op s, .none)
  | .fxtract => (fxtract A s, .none)
  | .fsincos => (x87SinCos A s, .none)
  | .fptan => (x87TAN A s, .none)
  | .fyl2x plus1 => (x87FYL2X A plus1 s, .none)
  | .fpatan => (x87ATAN A s, .none)
  | .fcomMem src pop => fcomi A .flagsX87 false pop (loadOperand A f80Int src) s
  | .fcomReg flags i pop => fcomi A flags false pop (s.mm (stIndex s.top i)) s
  | .fcompp => fcomi A .flagsX87 true true (s.mm (stIndex s.top 1)) s
  | .ftst => ftst A s
  | .fxam => x87FXAM A s
  | .fcmov c i => (x87FCMOV c s i, .none)
  | .fxch i => (fxch s i, .none)
  | .fincstp => (x87ModifySTP true s, .none)
  | .fdecstp => (x87ModifySTP false s, .none)
  | .ffree i => (x87FFREE s i, .none)
  | .ffreep _ => (x87ModifySTP true s, .none)
  | .emms => (x87EMMS s, .none)
  | .fninit => (fninit s, .none)
  | .fldenv env => (x87LDENV s env, .none)
  | .fnstenv => x87FNSTENV s
  | .fldcw fcw => (x87FLDCW s fcw, .none)
  | .fnstcw => x87FSTCW s
  | .fnstsw => x87FNSTSW s
  | .fnsave => x87FNSAVE s
  | .frstor env regs => (x87FRSTOR A s env regs, .none)

end FexEmu.OpcodeDispatcher.X87
