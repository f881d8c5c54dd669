import FexEmu.Data.Widths
import FexEmu.Interpreter.ALUOpsProofs
import FexEmu.OpcodeDispatcher.StringOps
/-!
# Nodes of integer instructions

The builders of the IR ops, with the sizes that `IR.json` gives their nodes and what the interpreter computes for them.
-/
namespace FexEmu.OpcodeDispatcher.Integer

open Interpreter
open Address (Node)
open Option (bind_some getD_some)

/-! ## Builders -/

/-- `IROp->Size`. -/
def opSize : Nat → Option OpSize
  | 1 => some .i8Bit
  | 2 => some .i16Bit
  | 4 => some .i32Bit
  | 8 => some .i64Bit
  | _ => none

/-- A node of an op. The slots are zero before the block, which stays if the op does not know the size. -/
def emit (size : Nat) (op : OpSize → Option (BitVec 64)) : Node := ⟨size, ((opSize size).bind op).getD 0⟩

/-- `_Constant` without a width. -/
def const (c : BitVec 64) : Node := ⟨8, c⟩

/-- The size of most ops on two sources. -/
def atLeast4 (a b : Node) : Nat := max 4 (max a.size b.size)

def add (a b : Node) : Node := emit (atLeast4 a b) fun size => opAdd size a.value b.value
def sub (a b : Node) : Node := emit (atLeast4 a b) fun size => opSub size a.value b.value
def neg (a : Node) : Node := emit (max 4 a.size) fun size => opNeg size a.value
def or (a b : Node) : Node := emit (max a.size b.size) fun size => opOr size a.value b.value
def and (a b : Node) : Node := emit (max a.size b.size) fun size => opAnd size a.value b.value
def xor (a b : Node) : Node := emit (max a.size b.size) fun size => opXor size a.value b.value
def andn (a b : Node) : Node := emit (max 4 a.size) fun size => opAndn size a.value b.value
def not (a : Node) : Node := emit a.size fun size => opNot size a.value
def lshl (a b : Node) : Node := emit (max 4 a.size) fun size => opLshl size a.value b.value
def lshr (a b : Node) : Node := emit (max 4 a.size) fun size => opLshr size a.value b.value
def ashr (a b : Node) : Node := emit (max 4 a.size) fun size => opAshr size a.value b.value
def ror (a b : Node) : Node := emit (max 4 a.size) fun size => opRor size a.value b.value

/-- An `_Lshl` whose size is set. -/
def lshlSized (size : Nat) (a b : Node) : Node := emit size fun size => opLshl size a.value b.value

def extr (upper lower : Node) (lsb : Nat) : Node :=
  emit (max upper.size lower.size) fun size => opExtr size upper.value lower.value lsb

def popcount (a : Node) : Node := ⟨a.size, opPopcount a.value⟩

/-- `_Bfe` with the size of its source. -/
def bfe (width lsb : Nat) (a : Node) : Node := ⟨a.size, opBfe width lsb a.value⟩

/-- `_Bfe` with a size. -/
def bfeSized (size width lsb : Nat) (a : Node) : Node := ⟨size, opBfe width lsb a.value⟩

def bfi (size width lsb : Nat) (dest src : Node) : Node := ⟨size, opBfi width lsb dest.value src.value⟩

def sbfe (width lsb : Nat) (a : Node) : Node := ⟨8, opSbfe width lsb a.value⟩

/-- `_Select`, which compares at the size of the greater source, of four bytes at least. -/
def select (cond : CondClass) (a b trueVal falseVal : Node) : Node :=
  emit (atLeast4 trueVal falseVal) fun size =>
    some (opSelect size (atLeast4 a b) cond a.value b.value trueVal.value falseVal.value)

/-! ## Sizes -/

/-- The sizes of general operands. -/
def IsSize (size : Nat) : Prop := size = 1 ∨ size = 2 ∨ size = 4 ∨ size = 8

instance (size : Nat) : Decidable (IsSize size) := inferInstanceAs (Decidable (_ ∨ _))

variable {a b t f : Node} {size : Nat}

theorem IsSize.le (h : IsSize size) : size ≤ 8 := by
  rcases h with rfl | rfl | rfl | rfl <;> omega

theorem IsSize.pos (h : IsSize size) : 0 < size := by
  rcases h with rfl | rfl | rfl | rfl <;> omega

theorem low_self (h : IsSize size) (x : BitVec (8 * size)) : (x.setWidth 64).setWidth (8 * size) = x :=
  setWidth_setWidth_self x (by have := h.le; omega)

theorem IsSize.max {size' : Nat} (h : IsSize size) (h' : IsSize size') : IsSize (max size size') := by
  rcases Nat.le_total size size' with hle | hle
  · rwa [Nat.max_eq_right hle]
  · rwa [Nat.max_eq_left hle]

theorem isSize_four : IsSize 4 := .inr (.inr (.inl rfl))

theorem isSize_eight : IsSize 8 := .inr (.inr (.inr rfl))

theorem atLeast4_eq (ha : IsSize a.size) (hb : IsSize b.size) : atLeast4 a b = 4 ∨ atLeast4 a b = 8 := by
  unfold atLeast4
  rcases isSize_four.max (ha.max hb) with h | h | h | h <;> omega

theorem max4_eq (ha : IsSize a.size) : max 4 a.size = 4 ∨ max 4 a.size = 8 := by
  rcases isSize_four.max ha with h | h | h | h <;> omega

@[simp] theorem const_size (c : BitVec 64) : (const c).size = 8 := rfl
@[simp] theorem const_value (c : BitVec 64) : (const c).value = c := rfl
@[simp] theorem add_size : (add a b).size = atLeast4 a b := rfl
@[simp] theorem sub_size : (sub a b).size = atLeast4 a b := rfl
@[simp] theorem neg_size : (neg a).size = max 4 a.size := rfl
@[simp] theorem or_size : (or a b).size = max a.size b.size := rfl
@[simp] theorem and_size : (and a b).size = max a.size b.size := rfl
@[simp] theorem xor_size : (xor a b).size = max a.size b.size := rfl
@[simp] theorem lshl_size : (lshl a b).size = max 4 a.size := rfl
@[simp] theorem lshr_size : (lshr a b).size = max 4 a.size := rfl
@[simp] theorem ashr_size : (ashr a b).size = max 4 a.size := rfl
@[simp] theorem ror_size : (ror a b).size = max 4 a.size := rfl
@[simp] theorem lshlSized_size : (lshlSized size a b).size = size := rfl
@[simp] theorem bfe_size (width lsb : Nat) : (bfe width lsb a).size = a.size := rfl
@[simp] theorem bfi_size (width lsb : Nat) : (bfi size width lsb a b).size = size := rfl
@[simp] theorem sbfe_size (width lsb : Nat) : (sbfe width lsb a).size = 8 := rfl
@[simp] theorem select_size (cond : CondClass) : (select cond a b t f).size = atLeast4 t f := rfl

/-! ## Values -/

theorem doOp48_value (op : {n : Nat} → BitVec n → BitVec n → BitVec n) (x y : BitVec 64)
    (hop : op (x.setWidth 32) (y.setWidth 32) = (op x y).setWidth 32) (hsize : size = 4 ∨ size = 8) :
    (emit size fun size => doOp48 op size x y).value = ((op x y).setWidth (8 * size)).setWidth 64 := by
  rcases hsize with rfl | rfl
  · exact congrArg (BitVec.setWidth 64) hop
  · simp [emit, opSize, doOp48]

theorem add_value (ha : IsSize a.size) (hb : IsSize b.size) :
    (add a b).value = ((a.value + b.value).setWidth (8 * atLeast4 a b)).setWidth 64 :=
  doOp48_value (· + ·) _ _ (BitVec.setWidth_add _ _ (by decide)).symm (atLeast4_eq ha hb)

theorem sub_value (ha : IsSize a.size) (hb : IsSize b.size) :
    (sub a b).value = ((a.value - b.value).setWidth (8 * atLeast4 a b)).setWidth 64 :=
  doOp48_value (· - ·) _ _ (setWidth_sub _ _ (by decide)).symm (atLeast4_eq ha hb)

theorem doOp_value (op : {n : Nat} → BitVec n → BitVec n → BitVec n) (x y : BitVec 64)
    (hop : ∀ n ≤ 64, op (x.setWidth n) (y.setWidth n) = (op x y).setWidth n) (hsize : IsSize size) :
    (emit size fun size => doOp op size x y).value = ((op x y).setWidth (8 * size)).setWidth 64 := by
  have hwidth := congrArg (BitVec.setWidth 64) (hop (8 * size) (by have := hsize.le; omega))
  rcases hsize with rfl | rfl | rfl | rfl <;> exact hwidth

theorem or_value (ha : IsSize a.size) (hb : IsSize b.size) :
    (or a b).value = ((a.value ||| b.value).setWidth (8 * max a.size b.size)).setWidth 64 :=
  doOp_value (· ||| ·) _ _ (fun _ _ => BitVec.setWidth_or.symm) (ha.max hb)

theorem and_value (ha : IsSize a.size) (hb : IsSize b.size) :
    (and a b).value = ((a.value &&& b.value).setWidth (8 * max a.size b.size)).setWidth 64 :=
  doOp_value (· &&& ·) _ _ (fun _ _ => BitVec.setWidth_and.symm) (ha.max hb)

theorem xor_value (ha : IsSize a.size) (hb : IsSize b.size) :
    (xor a b).value = ((a.value ^^^ b.value).setWidth (8 * max a.size b.size)).setWidth 64 :=
  doOp_value (· ^^^ ·) _ _ (fun _ _ => BitVec.setWidth_xor.symm) (ha.max hb)

/-! ## Bits -/

theorem getLsbD_truncated (x : BitVec 64) {size i : Nat} (hsize : size ≤ 8) (hi : i < 8 * size) :
    ((x.setWidth (8 * size)).setWidth 64).getLsbD i = x.getLsbD i := by
  rw [BitVec.getLsbD_setWidth, BitVec.getLsbD_setWidth, decide_eq_true hi, decide_eq_true (by omega : i < 64)]
  rfl

theorem or_bit (ha : IsSize a.size) (hb : IsSize b.size) {i : Nat} (hi : i < 8 * max a.size b.size) :
    (or a b).value.getLsbD i = (a.value.getLsbD i || b.value.getLsbD i) := by
  rw [or_value ha hb, getLsbD_truncated _ (ha.max hb).le hi, BitVec.getLsbD_or]

theorem and_bit (ha : IsSize a.size) (hb : IsSize b.size) {i : Nat} (hi : i < 8 * max a.size b.size) :
    (and a b).value.getLsbD i = (a.value.getLsbD i && b.value.getLsbD i) := by
  rw [and_value ha hb, getLsbD_truncated _ (ha.max hb).le hi, BitVec.getLsbD_and]

theorem xor_bit (ha : IsSize a.size) (hb : IsSize b.size) {i : Nat} (hi : i < 8 * max a.size b.size) :
    (xor a b).value.getLsbD i = (a.value.getLsbD i ^^ b.value.getLsbD i) := by
  rw [xor_value ha hb, getLsbD_truncated _ (ha.max hb).le hi, BitVec.getLsbD_xor]

theorem bfe_bit (width lsb i : Nat) :
    (bfe width lsb a).value.getLsbD i = (decide (i < maskWidth width) && a.value.getLsbD (lsb % 64 + i)) :=
  getLsbD_opBfe width lsb a.value i

theorem getLsbD_opBfi {width lsb : Nat} (hwidth : width ≤ 64) (hlsb : lsb < 64) (dest src : BitVec 64) (i : Nat) :
    (opBfi width lsb dest src).getLsbD i =
      if lsb ≤ i ∧ i < lsb + width then decide (i < 64) && src.getLsbD (i - lsb) else dest.getLsbD i := by
  unfold opBfi
  simp only [BitVec.getLsbD_or, BitVec.getLsbD_and, BitVec.getLsbD_not, BitVec.getLsbD_shiftLeft, Nat.mod_eq_of_lt hlsb]
  by_cases hi : i < 64
  · rw [getLsbD_sourceMask width (show i - lsb < 64 by omega), maskWidth_of_le hwidth]
    grind
  · grind

theorem opBfe_zero {width : Nat} (h : width ≤ 64) (x : BitVec 64) : opBfe width 0 x = (x.setWidth width).setWidth 64 := by
  apply BitVec.eq_of_getLsbD_eq
  intro i hi
  rw [getLsbD_opBfe, maskWidth_of_le h]
  simp [hi]

theorem lshr_bit (ha : IsSize a.size) {amount i : Nat} (hi : amount + i < 8 * max 4 a.size) :
    (lshr a (const (BitVec.ofNat 64 amount))).value.getLsbD i = a.value.getLsbD (amount + i) := by
  unfold lshr
  rcases max4_eq ha with h | h <;> rw [h] at hi ⊢
  · have hcount : (BitVec.ofNat 64 amount &&& 31#64).toNat = amount := by
      rw [toNat_and_31, BitVec.toNat_ofNat]
      omega
    simp [emit, opSize, opLshr, hcount, hi, show i < 64 by omega, show amount + i < 64 by omega]
  · have hcount : (BitVec.ofNat 64 amount &&& 63#64).toNat = amount := by
      rw [toNat_and_63, BitVec.toNat_ofNat]
      omega
    simp [emit, opSize, opLshr, hcount]

/-! ## Bits of shifts -/

theorem opLshl_bit (x y : BitVec 64) (hsize : size = 4 ∨ size = 8) (i : Nat) :
    (emit size fun size => opLshl size x y).value.getLsbD i =
      (decide (i < 8 * size) && (decide (y.toNat % (8 * size) ≤ i) && x.getLsbD (i - y.toNat % (8 * size)))) := by
  rcases hsize with rfl | rfl
  · simp only [emit, opSize, opLshl, bind_some, getD_some, BitVec.getLsbD_setWidth, BitVec.getLsbD_shiftLeft,
      toNat_and_31]
    grind
  · simp only [emit, opSize, opLshl, bind_some, getD_some, BitVec.getLsbD_shiftLeft, toNat_and_63]
    grind

theorem opLshr_bit (x y : BitVec 64) (hsize : size = 4 ∨ size = 8) (i : Nat) :
    (emit size fun size => opLshr size x y).value.getLsbD i =
      (decide (y.toNat % (8 * size) + i < 8 * size) && x.getLsbD (y.toNat % (8 * size) + i)) := by
  rcases hsize with rfl | rfl
  · simp only [emit, opSize, opLshr, bind_some, getD_some, BitVec.getLsbD_setWidth, BitVec.getLsbD_ushiftRight,
      toNat_and_31]
    grind
  · simp only [emit, opSize, opLshr, bind_some, getD_some, BitVec.getLsbD_ushiftRight, toNat_and_63]
    grind

theorem opAshr_bit (x y : BitVec 64) (hsize : size = 4 ∨ size = 8) {i : Nat} (hi : i < 8 * size) :
    (emit size fun size => opAshr size x y).value.getLsbD i =
      x.getLsbD (min (y.toNat % (8 * size) + i) (8 * size - 1)) := by
  rcases hsize with rfl | rfl
  · simp only [emit, opSize, opAshr, bind_some, getD_some, BitVec.getLsbD_setWidth, BitVec.getLsbD_sshiftRight,
      toNat_and_31, BitVec.msb_eq_getLsbD_last]
    grind
  · simp only [emit, opSize, opAshr, bind_some, getD_some, BitVec.getLsbD_sshiftRight, toNat_and_63,
      BitVec.msb_eq_getLsbD_last]
    grind

theorem rotated_eq {n : Nat} (x r : BitVec n) (h : (r &&& BitVec.ofNat n (n - 1)).toNat = r.toNat % n) :
    rotated x r = x.rotateRight r.toNat := by
  unfold rotated
  dsimp only
  rw [h]
  rfl

theorem opRor_bit (x y : BitVec 64) (hsize : size = 4 ∨ size = 8) (i : Nat) :
    (emit size fun size => opRor size x y).value.getLsbD i =
      (decide (i < 8 * size) && x.getLsbD ((y.toNat + i) % (8 * size))) := by
  rcases hsize with rfl | rfl
  · have h : (y.setWidth 32 &&& BitVec.ofNat 32 31).toNat = (y.setWidth 32).toNat % 32 := by
      exact Nat.and_two_pow_sub_one_eq_mod _ 5
    simp only [emit, opSize, opRor, bind_some, getD_some, rotated_eq _ _ h, BitVec.getLsbD_setWidth,
      BitVec.getLsbD_rotateRight, BitVec.toNat_setWidth]
    grind
  · simp only [emit, opSize, opRor, bind_some, getD_some, rotated_eq _ _ (toNat_and_63 y),
      BitVec.getLsbD_rotateRight]
    grind

theorem truncated_of {w : Nat} {v : BitVec 64} (h : ∀ i, w ≤ i → v.getLsbD i = false) : v = (v.setWidth w).setWidth 64 := by
  apply BitVec.eq_of_getLsbD_eq
  intro i hi
  by_cases hlt : i < w
  · simp [hlt, hi]
  · simp [hlt, h i (by omega)]

theorem select_bit (cond : CondClass) :
    (select cond a b (const 1) (const 0)).value.getLsbD 0 =
      if atLeast4 a b = 4 then isConditionTrue (a.value.setWidth 32) (b.value.setWidth 32) cond
      else isConditionTrue a.value b.value cond := by
  have hsize : atLeast4 (const 1) (const 0) = 8 := rfl
  simp only [select, emit, hsize, opSize, opSelect, bind_some, getD_some, const_value, reduceCtorEq, if_false]
  split <;> split <;> simp_all

end FexEmu.OpcodeDispatcher.Integer
