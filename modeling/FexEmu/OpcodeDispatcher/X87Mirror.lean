import FexEmu.OpcodeDispatcher.X87F64
import FexEmu.OpcodeDispatcher.X87Refinement
/-!
# The handlers of reduced precision mirror the others

The two handlers of an instruction differ in the rounding mode of the host and in integers of memory operands, which
`X87F64.cpp` takes without their sign.
-/
namespace FexEmu.OpcodeDispatcher.X87

open X87State

variable {V : Type} (A : Arith V)

/-! ## Integer operands -/

/-- The integer that the handler of `X87.cpp` passes to a conversion. -/
def intArg : Inst → Option Int
  | .fild data => some data.value
  | .arithMem _ src => f80Int src
  | .fcomMem src _ => f80Int src
  | _ => none

def intArgF64 : Inst → Option Int
  | .fild data => some (fildF64Int data)
  | .arithMem _ src => f64Int src
  | .fcomMem src _ => f64Int src
  | _ => none

def MemOperand.negative : MemOperand → Bool
  | .i16 bits => bits.msb
  | .i32 bits => bits.msb
  | _ => false

def negativeOperand : Inst → Bool
  | .arithMem _ src => src.negative
  | .fcomMem src _ => src.negative
  | _ => false

theorem toInt_zeroExtend_eq_iff {w : Nat} (bits : BitVec w) (h : w < 64) :
    bits.toInt = (bits.zeroExtend 64).toInt ↔ bits.msb = false := by
  have hz : (bits.zeroExtend 64).toInt = bits.toNat := by
    have hlt : bits.toNat < 2 ^ 63 := bits.isLt.trans_le (Nat.pow_le_pow_right (by omega) (by omega))
    rw [BitVec.zeroExtend_eq_setWidth, BitVec.toInt_setWidth]
    exact Int.bmod_eq_of_le (by omega) (by omega)
  rw [hz, BitVec.toInt_eq_msb_cond]
  cases bits.msb
  · simp
  · simp only [if_true, Bool.true_eq_false, iff_false]
    omega

theorem f80Int_eq_f64Int_iff (src : MemOperand) : f80Int src = f64Int src ↔ src.negative = false := by
  cases src with
  | f32 bits => exact iff_of_true rfl rfl
  | f64 bits => exact iff_of_true rfl rfl
  | i16 bits => exact (Option.some_inj).trans (toInt_zeroExtend_eq_iff bits (by omega))
  | i32 bits => exact (Option.some_inj).trans (toInt_zeroExtend_eq_iff bits (by omega))

theorem fildF64Int_eq (data : IntData) : fildF64Int data = data.value := by
  cases data with
  | i16 bits => exact BitVec.toInt_signExtend_of_le (by omega)
  | i32 bits => rfl
  | i64 bits => rfl

theorem intArg_eq_iff (inst : Inst) : intArg inst = intArgF64 inst ↔ negativeOperand inst = false := by
  cases inst with
  | fild data => exact iff_of_true (congrArg some (fildF64Int_eq data).symm) rfl
  | arithMem op src => exact f80Int_eq_f64Int_iff src
  | fcomMem src pop => exact f80Int_eq_f64Int_iff src
  | _ => exact iff_of_true rfl rfl

theorem loadOperand_congr {src : MemOperand} (h : f80Int src = f64Int src) :
    loadOperand A f64Int src = loadOperand A f80Int src := by
  cases src <;> simp only [loadOperand, h]

/-! ## Rounding modes -/

def loadedFCW : Inst → Option (BitVec 16)
  | .fninit => some 0x037F
  | .fldenv env => some env.fcw
  | .fldcw fcw => some fcw
  | .fnsave => some 0x037F
  | .frstor env _ => some env.fcw
  | _ => none

/-- The one that the handler of `X87F64.cpp` also loads into the host. -/
def loadedHost : Inst → Option (BitVec 16)
  | .fnsave => none
  | inst => loadedFCW inst

theorem restoreRegisters_setRoundingMode (mode : BitVec 2) (regs : List V) : ∀ (top : Nat) (s : X87State V),
    restoreRegisters regs top (s.setRoundingMode mode) = (restoreRegisters regs top s).setRoundingMode mode := by
  induction regs with
  | nil => intro top s; rfl
  | cons reg regs ih => intro top s; exact ih _ (s.storeST top reg)

namespace X87State

def control (s : X87State V) : BitVec 16 × BitVec 2 × BitVec 2 := (s.fcw, s.softRounding, s.hostRounding)

section Control
variable (s : X87State V) (k : Nat)

@[simp]
theorem control_storeST (v : V) : (s.storeST k v).control = s.control := by
  simp [control, storeST]

@[simp]
theorem control_setX87Top : (s.setX87Top k).control = s.control := by
  simp [control, setX87Top]

@[simp]
theorem control_setX87TopTag (tag : X87Tag) : (s.setX87TopTag k tag).control = s.control := by
  simp [control, setX87TopTag]

@[simp]
theorem control_pushTop : (s.pushTop k).control = s.control := by
  simp [control, pushTop, setX87Top, setX87TopTag]

@[simp]
theorem control_popTop : (s.popTop k).control = s.control := by
  simp [control, popTop, setX87Top, setX87TopTag]

@[simp]
theorem control_popIf (b : Bool) : (popIf b s k).control = s.control := by
  cases b <;> rfl

@[simp]
theorem control_setX87Flags (r : Compare) : (s.setX87Flags r).control = s.control := by
  simp [control, setX87Flags]

@[simp]
theorem control_setRFlags (r : Compare) : (s.setRFlags r).control = s.control := by
  simp [control, setRFlags]

end Control

end X87State

theorem execF64_eq_exec (s : X87State V) (inst : Inst) (h : negativeOperand inst = false)
    (hl : loadedHost inst = none) : execF64 A s inst = exec A s inst := by
  cases inst with
  | fild data =>
    rw [exec, fild_eq, execF64, fildF64, fildF64Int_eq]
  | arithMem op src =>
    rw [execF64, arithMemF64, loadOperand_congr A ((f80Int_eq_f64Int_iff src).mpr h)]
    rfl
  | fcomMem src pop =>
    rw [execF64, loadOperand_congr A ((f80Int_eq_f64Int_iff src).mpr h)]
    rfl
  | fninit => cases hl
  | fldenv env => cases hl
  | fldcw fcw => cases hl
  | frstor env regs => cases hl
  | _ => rfl

theorem execF64_eq_load (s : X87State V) (inst : Inst) {fcw : BitVec 16} (hl : loadedHost inst = some fcw) :
    execF64 A s inst = ((exec A s inst).1.setRoundingMode (rc fcw), (exec A s inst).2) := by
  cases inst with
  | fninit =>
    obtain rfl : (0x037F : BitVec 16) = fcw := Option.some_inj.mp hl
    rfl
  | fldenv env =>
    obtain rfl : env.fcw = fcw := Option.some_inj.mp hl
    rfl
  | fldcw word =>
    obtain rfl : word = fcw := Option.some_inj.mp hl
    rfl
  | frstor env regs =>
    obtain rfl : env.fcw = fcw := Option.some_inj.mp hl
    refine Prod.ext ?_ rfl
    exact restoreRegisters_setRoundingMode (rc env.fcw) _ _ (x87LDENV s env)
  | _ => cases hl

theorem exec_control (s : X87State V) (inst : Inst) : (exec A s inst).1.control =
    ((loadedFCW inst).getD s.fcw, ((loadedFCW inst).map rc).getD s.softRounding, s.hostRounding) := by
  have hs : s.control = (s.fcw, s.softRounding, s.hostRounding) := rfl
  cases inst with
  | fld data => simp [exec, fld, loadedFCW, hs]
  | fldReg i => simp [exec, fldReg, loadedFCW, hs]
  | fldConst c => simp [exec, fldConst, loadedFCW, hs]
  | fild data => simp [exec, fild, loadedFCW, hs]
  | fbld data => simp [exec, fbld, loadedFCW, hs]
  | fst width pop => simp [exec, fst, loadedFCW, hs]
  | fist bytes truncate pop => simp [exec, fist, loadedFCW, hs]
  | fbstp => simp [exec, fbstp, loadedFCW, hs]
  | fstReg i pop => simp [exec, fstReg, loadedFCW, hs]
  | arithMem op src => simp [exec, arithMem, loadedFCW, hs]
  | arithST0 op i => simp [exec, arithReg, loadedFCW, hs]
  | arithSTi op i pop => simp [exec, arithReg, loadedFCW, hs]
  | fchs => simp [exec, fchs, loadedFCW, hs]
  | fabs => simp [exec, fabs, loadedFCW, hs]
  | frndint => simp [exec, frndint, loadedFCW, hs]
  | unary op => simp [exec, x87UnaryOp, loadedFCW, hs]
  | binary op => cases op <;> rfl
  | fxtract => simp [exec, X87.fxtract, loadedFCW, hs]
  | fsincos => simp [exec, x87SinCos, loadedFCW, hs]
  | fptan => simp [exec, x87TAN, loadedFCW, hs]
  | fyl2x plus1 => simp [exec, x87FYL2X, loadedFCW, hs]
  | fpatan => simp [exec, x87ATAN, loadedFCW, hs]
  | fcomMem src pop => simp [exec, fcomi, loadedFCW, hs]
  | fcomReg flags i pop => cases flags <;> simp [exec, fcomi, loadedFCW, hs]
  | fcompp => simp [exec, fcomi, loadedFCW, hs]
  | ftst => simp [exec, X87.ftst, loadedFCW, hs]
  | fcmov c i => simp [exec, x87FCMOV, loadedFCW, hs]
  | fxch i => simp [exec, fxch, loadedFCW, hs]
  | fincstp => simp [exec, x87ModifySTP, loadedFCW, hs]
  | fdecstp => simp [exec, x87ModifySTP, loadedFCW, hs]
  | ffreep i => simp [exec, x87ModifySTP, loadedFCW, hs]
  | ffree i => simp [exec, x87FFREE, loadedFCW, hs]
  | frstor env regs =>
    rfl
  | fxam | emms | fninit | fldenv | fnstenv | fldcw | fnstcw | fnstsw | fnsave => rfl

/-! ## Both handlers -/

/-- The part of the state that both handlers have to leave the same. -/
structure SameX87 (s s' : X87State V) : Prop where
  top : s.top = s'.top
  mm : s.mm = s'.mm
  ftw : s.ftw = s'.ftw
  fcw : s.fcw = s'.fcw
  status : (s.c0, s.c1, s.c2, s.c3) = (s'.c0, s'.c1, s'.c2, s'.c3)
  rflags : (s.cf, s.zf, s.pf) = (s'.cf, s'.zf, s'.pf)

/-- What the two handlers change and read, the integer that they convert, and the rounding mode of the arithmetic after each.
-/
structure Mirrors (s : X87State V) (inst : Inst) : Prop where
  state : SameX87 (exec A s inst).1 (execF64 A s inst).1
  output : (exec A s inst).2 = (execF64 A s inst).2
  int : intArg inst = intArgF64 inst
  soft : (exec A s inst).1.softRounding = rc (exec A s inst).1.fcw
  host : (execF64 A s inst).1.hostRounding = rc (execF64 A s inst).1.fcw

def RoundingOk (s : X87State V) : Inst → Prop
  | .fninit => True
  | .fldenv _ => True
  | .fldcw _ => True
  | .frstor _ _ => True
  | .fnsave => s.hostRounding = 0
  | _ => s.softRounding = rc s.fcw ∧ s.hostRounding = rc s.fcw

theorem roundingOk_iff (s : X87State V) (inst : Inst) : RoundingOk s inst ↔
    ((loadedFCW inst).map rc).getD s.softRounding = rc ((loadedFCW inst).getD s.fcw) ∧
      ((loadedHost inst).map rc).getD s.hostRounding = rc ((loadedFCW inst).getD s.fcw) := by
  cases inst with
  | fninit => exact iff_of_true trivial ⟨rfl, rfl⟩
  | fldenv env => exact iff_of_true trivial ⟨rfl, rfl⟩
  | fldcw fcw => exact iff_of_true trivial ⟨rfl, rfl⟩
  | frstor env regs => exact iff_of_true trivial ⟨rfl, rfl⟩
  | fnsave =>
    have hrc : rc 0x037F = 0 := by decide
    change s.hostRounding = 0 ↔ rc 0x037F = rc 0x037F ∧ s.hostRounding = rc 0x037F
    exact ⟨fun h => ⟨rfl, h⟩, fun h => h.2⟩
  | _ => exact Iff.rfl

theorem sameX87_setRoundingMode (s : X87State V) (mode : BitVec 2) : SameX87 s (s.setRoundingMode mode) :=
  ⟨rfl, rfl, rfl, rfl, rfl, rfl⟩

/-- With the same integers the handlers do the same, and the one of `X87F64.cpp` sets the rounding mode of the host. -/
theorem execF64_mirrors (s : X87State V) (inst : Inst) (h : negativeOperand inst = false) :
    SameX87 (exec A s inst).1 (execF64 A s inst).1 ∧ (exec A s inst).2 = (execF64 A s inst).2 ∧
      (execF64 A s inst).1.hostRounding = ((loadedHost inst).map rc).getD s.hostRounding := by
  cases hl : loadedHost inst with
  | none =>
    rw [execF64_eq_exec A s inst h hl]
    have hc := congrArg (fun c => c.2.2) (exec_control A s inst)
    exact ⟨⟨rfl, rfl, rfl, rfl, rfl, rfl⟩, rfl, hc⟩
  | some fcw =>
    rw [execF64_eq_load A s inst hl]
    exact ⟨sameX87_setRoundingMode _ _, rfl, rfl⟩

/-- The handlers mirror each other exactly if the integer operand has no sign and the rounding modes fit, for `FNSAVE` if the
host rounds to nearest. -/
theorem mirrors_iff (s : X87State V) (inst : Inst) :
    Mirrors A s inst ↔ negativeOperand inst = false ∧ RoundingOk s inst := by
  rw [roundingOk_iff]
  have hfcw := congrArg Prod.fst (exec_control A s inst)
  have hsoft := congrArg (fun c => c.2.1) (exec_control A s inst)
  simp only [X87State.control] at hfcw hsoft
  constructor
  · intro hm
    have hneg := (intArg_eq_iff inst).mp hm.int
    obtain ⟨hsame, -, hhost⟩ := execF64_mirrors A s inst hneg
    refine ⟨hneg, ?_, ?_⟩
    · rw [← hsoft, ← hfcw]
      exact hm.soft
    · rw [← hhost, ← hfcw, hsame.fcw]
      exact hm.host
  · rintro ⟨hneg, h1, h2⟩
    obtain ⟨hsame, hout, hhost⟩ := execF64_mirrors A s inst hneg
    refine ⟨hsame, hout, (intArg_eq_iff inst).mpr hneg, ?_, ?_⟩
    · rw [hsoft, hfcw]
      exact h1
    · rw [hhost, ← hsame.fcw, hfcw]
      exact h2

/-- `FIADD` of the 16 bits of -1, and `FNSAVE` under rounding to zero. -/
theorem fiadd_and_fnsave_differ :
    ¬Mirrors termArith initialState (.arithMem .fadd (.i16 0xFFFF)) ∧
      ¬Mirrors termArith { initialState with fcw := 0x0F7F, softRounding := 3, hostRounding := 3 } .fnsave := by
  constructor
  · intro hm
    have h : intArg (.arithMem .fadd (.i16 0xFFFF)) = some (-1) := by decide
    have h' : intArgF64 (.arithMem .fadd (.i16 0xFFFF)) = some 65535 := by decide
    have he := hm.int
    revert he
    decide
  · intro hm
    have h := hm.host
    revert h
    decide

end FexEmu.OpcodeDispatcher.X87
