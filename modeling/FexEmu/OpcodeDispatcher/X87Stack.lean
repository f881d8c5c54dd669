import FexEmu.OpcodeDispatcher.X87
/-!
# The x87 stack

Eight slots, of which `ST(i)` is the one `i` after the top. A slot is full from a write on until it is popped or freed.
-/
namespace FexEmu.OpcodeDispatcher.X87

/-- The stack as the manual has it: eight slots, a top, and which slots are full. -/
structure Stack (V : Type) where
  top : Fin 8
  slot : Fin 8 → V
  full : Fin 8 → Bool

namespace Stack

variable {V : Type} (t : Stack V)

@[ext]
theorem ext' {t t' : Stack V} (h1 : t.top = t'.top) (h2 : t.slot = t'.slot) (h3 : t.full = t'.full) : t = t' := by
  cases t
  cases t'
  simp_all

def st (i : Fin 8) : V := t.slot (t.top + i)

/-- A result to `ST(i)`. -/
def write (i : Fin 8) (v : V) : Stack V :=
  { t with slot := Function.update t.slot (t.top + i) v, full := Function.update t.full (t.top + i) true }

def free (i : Fin 8) : Stack V := { t with full := Function.update t.full (t.top + i) false }

def incTop : Stack V := { t with top := t.top + 1 }

def decTop : Stack V := { t with top := t.top - 1 }

def push (v : V) : Stack V := t.decTop.write 0 v

def pop : Stack V := (t.free 0).incTop

def popIf (b : Bool) : Stack V := if b then t.pop else t

def fullOf (ftw : BitVec 16) (j : Fin 8) : Bool := decide (ftw.extractLsb' (2 * j.val) 2 ≠ 0b11#2)

end Stack

open Stack

variable {V : Type} (A : Arith V)

def MemOperand.value : MemOperand → V
  | .f32 bits => A.ofFloat (.f32 bits)
  | .f64 bits => A.ofFloat (.f64 bits)
  | .i16 bits => A.ofInt bits.toInt
  | .i32 bits => A.ofInt bits.toInt

def IntData.value : IntData → Int
  | .i16 bits => bits.toInt
  | .i32 bits => bits.toInt
  | .i64 bits => bits.toInt

/-- The environment gives whether a conditional move is taken, and the words that are stored. -/
def specStep (taken : Bool) (env : Env) (t : Stack V) : Inst → Stack V × Output V
  | .fld data => (t.push (A.ofFloat data), .none)
  | .fldReg i => (t.push (t.st i), .none)
  | .fldConst c => (t.push (A.const c), .none)
  | .fild data => (t.push (A.ofInt data.value), .none)
  | .fbld data => (t.push (A.ofBCD data), .none)
  | .fst width pop => (t.popIf pop, .stored (.float width) (t.st 0))
  | .fist bytes truncate pop => (t.popIf pop, .stored (.int bytes truncate) (t.st 0))
  | .fbstp => (t.pop, .stored .bcd (t.st 0))
  | .fstReg i pop => ((t.write i (t.st 0)).popIf pop, .none)
  | .arithMem op src => (t.write 0 (op.eval A (t.st 0) (src.value A)), .none)
  | .arithST0 op i => (t.write 0 (op.eval A (t.st 0) (t.st i)), .none)
  | .arithSTi op i pop => ((t.write i (op.eval A (t.st 0) (t.st i))).popIf pop, .none)
  | .fchs => (t.write 0 (A.unary .chs (t.st 0)), .none)
  | .fabs => (t.write 0 (A.unary .abs (t.st 0)), .none)
  | .frndint => (t.write 0 (A.unary .round (t.st 0)), .none)
  | .unary op => (t.write 0 (A.unary op (t.st 0)), .none)
  | .binary op => (t.write 0 (A.binary op (t.st 0) (t.st 1)), .none)
  | .fxtract => ((t.write 0 (A.xtractExp (t.st 0))).push (A.xtractSig (t.st 0)), .none)
  | .fsincos => ((t.write 0 (A.unary .sin (t.st 0))).push (A.unary .cos (t.st 0)), .none)
  | .fptan => ((t.write 0 (A.unary .tan (t.st 0))).push (A.const .one), .none)
  | .fyl2x plus1 =>
    ((t.write 1 (A.yl2x (if plus1 then A.add (t.st 0) (A.const .one) else t.st 0) (t.st 1))).pop, .none)
  | .fpatan => ((t.write 1 (A.atan (t.st 1) (t.st 0))).pop, .none)
  | .fcomMem src pop => (t.popIf pop, .compared (t.st 0) (src.value A))
  | .fcomReg _ i pop => (t.popIf pop, .compared (t.st 0) (t.st i))
  | .fcompp => (t.pop.pop, .compared (t.st 0) (t.st 1))
  | .ftst => (t, .compared (t.st 0) (A.const .zero))
  | .fxam => (t, .examined (t.st 0))
  | .fcmov _ i => (if taken then t.write 0 (t.st i) else t, .none)
  | .fxch i => ((t.write 0 (t.st i)).write i (t.st 0), .none)
  | .fincstp => (t.incTop, .none)
  | .fdecstp => (t.decTop, .none)
  | .ffree i => (t.free i, .none)
  | .ffreep i => ((t.free i).incTop, .none)
  | .emms => ({ t with full := fun _ => false }, .none)
  | .fninit => ({ t with top := 0, full := fun _ => false }, .none)
  | .fldenv env => ({ t with top := (env.fsw.extractLsb' 11 3).toFin, full := fullOf env.ftw }, .none)
  | .fnstenv => (t, .saved env [])
  | .fldcw _ => (t, .none)
  | .fnstcw => (t, .word env.fcw)
  | .fnstsw => (t, .word env.fsw)
  | .fnsave => ({ t with top := 0, full := fun _ => false }, .saved env (List.ofFn t.st))
  | .frstor env regs =>
    ({ top := (env.fsw.extractLsb' 11 3).toFin,
       slot := fun j => A.ofFloat (.f80 (regs (j - (env.fsw.extractLsb' 11 3).toFin))),
       full := fullOf env.ftw }, .none)

end FexEmu.OpcodeDispatcher.X87
