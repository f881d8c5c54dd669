import FexEmu.OpcodeDispatcher.IntegerBMISpec
import FexEmu.OpcodeDispatcher.IntegerDoubleShifts
/-!
# Bit manipulation follows the architecture

The operands have four or eight bytes, so that most nodes have the size of the operation and nothing above it.
-/
namespace FexEmu.OpcodeDispatcher.Integer

open Interpreter
open Address (Node constant)
open StringOps (State ALUFlags rflag)
open Frontend.ModRM (DecodedOperand)
open BitVec (eq_of_getLsbD_eq getLsbD getLsbD_and getLsbD_of_ge getLsbD_setWidth setWidth_eq setWidth_setWidth_of_le
  toNat_inj setWidth_and toNat_setWidth getLsbD_ushiftRight getLsbD_zero toNat_ofNat allOnes getLsbD_allOnes ctz clz)
open Option (bind_eq_bind bind_some some_inj)

/-! ## Nodes of the size of the operation -/

section
variable {size c : Nat} (hk : size = 4 ∨ size = 8) {n t f a b : Node} (x y : BitVec (8 * size))
include hk

theorem isSize_of : IsSize size := .inr (.inr hk)

theorem node_eq {v : BitVec 64} (hn : n.size = size) (hv : n.value = (v.setWidth (8 * size)).setWidth 64)
    (hlow : v.setWidth (8 * size) = x) : n = ⟨size, x.setWidth 64⟩ := by
  obtain ⟨nsize, value⟩ := n
  obtain rfl : nsize = size := hn
  rw [← hlow]
  exact congrArg (Node.mk nsize) hv

theorem and_plain : and ⟨size, x.setWidth 64⟩ ⟨size, y.setWidth 64⟩ = ⟨size, (x &&& y).setWidth 64⟩ := by
  refine node_eq hk _ (Nat.max_self size) (v := x.setWidth 64 &&& y.setWidth 64) ?_ ?_
  · rw [and_value (isSize_of hk) (isSize_of hk), Nat.max_self]
  · rw [setWidth_and, low_self (isSize_of hk), low_self (isSize_of hk)]

omit hk in
theorem andn_value (ha : IsSize a.size) :
    (andn a b).value = ((a.value &&& ~~~b.value).setWidth (8 * max 4 a.size)).setWidth 64 := by
  refine doOp_value (fun x y => x &&& ~~~y) _ _ (fun n hn => ?_) (isSize_four.max ha)
  apply eq_of_getLsbD_eq
  intro i hi
  simp [hi, show i < 64 by omega]

theorem andn_plain : andn ⟨size, x.setWidth 64⟩ ⟨size, y.setWidth 64⟩ = ⟨size, (x &&& ~~~y).setWidth 64⟩ := by
  have hmax : max 4 size = size := by omega
  refine node_eq hk _ hmax (v := x.setWidth 64 &&& ~~~y.setWidth 64) ?_ ?_
  · rw [andn_value (isSize_of hk)]
    rw [hmax]
  · apply eq_of_getLsbD_eq
    intro i hi
    simp [hi, show i < 64 by omega]

theorem readReg_writeReg (is64BitMode : Bool) (reg : BitVec 64) :
    readReg size false (writeReg is64BitMode false x reg) = x := by
  unfold readReg writeReg
  rw [if_neg Bool.false_ne_true, if_neg Bool.false_ne_true]
  split_ifs
  · exact low_self (isSize_of hk) x
  · apply eq_of_getLsbD_eq
    intro i hi
    simp [hi, show i < 64 by omega]

theorem sub_plain : sub ⟨size, x.setWidth 64⟩ ⟨size, y.setWidth 64⟩ = ⟨size, (x - y).setWidth 64⟩ := by
  have hmax : atLeast4 ⟨size, x.setWidth 64⟩ ⟨size, y.setWidth 64⟩ = size := by
    unfold atLeast4
    dsimp only
    omega
  refine node_eq hk _ hmax (v := x.setWidth 64 - y.setWidth 64) ?_ ?_
  · rw [sub_value (isSize_of hk) (isSize_of hk), hmax]
  · rw [setWidth_sub _ _ (by omega), low_self (isSize_of hk), low_self (isSize_of hk)]

theorem shift_plain (op : OpSize → BitVec 64 → BitVec 64 → Option (BitVec 64))
    (func : {w : Nat} → BitVec w → Nat → BitVec w)
    (h32 : ∀ v m, op .i32Bit v m = some ((func (v.setWidth 32) (m &&& 31#64).toNat).setWidth 64))
    (h64 : ∀ v m, op .i64Bit v m = some (func v (m &&& 63#64).toNat)) (hc : Counts n c) (hlt : c < 8 * size) :
    emit (max 4 size) (fun size => op size (x.setWidth 64) n.value) = ⟨size, (func x c).setWidth 64⟩ := by
  have hlow := low_self (isSize_of hk) x
  rcases hk with rfl | rfl
  · have hcount : (n.value &&& 31#64).toNat = c := by
      rw [toNat_and_31, hc.toNat, Nat.mod_eq_of_lt hlt]
    have hop := h32 (x.setWidth 64) n.value
    rw [hcount, show (x.setWidth 64).setWidth 32 = x from hlow] at hop
    exact congrArg (fun v => Node.mk 4 (Option.getD v 0)) hop
  · have hcount : (n.value &&& 63#64).toNat = c := by
      rw [toNat_and_63, hc.toNat, Nat.mod_eq_of_lt hlt]
    have hop := h64 (x.setWidth 64) n.value
    rw [hcount, setWidth_eq x] at hop
    exact congrArg (fun v => Node.mk 8 (Option.getD v 0)) hop

theorem lshl_plain (hc : Counts n c) (hlt : c < 8 * size) :
    lshl ⟨size, x.setWidth 64⟩ n = ⟨size, (x <<< c).setWidth 64⟩ :=
  shift_plain hk x opLshl (· <<< ·) (fun _ _ => rfl) (fun _ _ => rfl) hc hlt

theorem lshr_plain (hc : Counts n c) (hlt : c < 8 * size) :
    lshr ⟨size, x.setWidth 64⟩ n = ⟨size, (x >>> c).setWidth 64⟩ :=
  shift_plain hk x opLshr (· >>> ·) (fun _ _ => rfl) (fun _ _ => rfl) hc hlt

theorem ashr_plain (hc : Counts n c) (hlt : c < 8 * size) :
    ashr ⟨size, x.setWidth 64⟩ n = ⟨size, (x.sshiftRight c).setWidth 64⟩ :=
  shift_plain hk x opAshr (fun x c => x.sshiftRight c) (fun _ _ => rfl) (fun _ _ => rfl) hc hlt

theorem ror_plain (amount : BitVec 64) :
    ror ⟨size, x.setWidth 64⟩ (const amount) = ⟨size, (x.rotateRight (amount.toNat % (8 * size))).setWidth 64⟩ := by
  have hlow := low_self (isSize_of hk) x
  rcases hk with rfl | rfl
  · have hmask : (amount.setWidth 32 &&& BitVec.ofNat 32 31).toNat = (amount.setWidth 32).toNat % 32 := by
      exact Nat.and_two_pow_sub_one_eq_mod _ 5
    have hrot : rotated x (amount.setWidth 32) = x.rotateRight (amount.toNat % 32) := by
      rw [rotated_eq _ _ hmask, toNat_setWidth, ← BitVec.rotateRight_mod_eq_rotateRight]
      congr 1
      omega
    calc ror ⟨4, x.setWidth 64⟩ (const amount) =
          ⟨4, (rotated ((x.setWidth 64).setWidth (8 * 4)) (amount.setWidth 32)).setWidth 64⟩ := rfl
      _ = ⟨4, (x.rotateRight (amount.toNat % (8 * 4))).setWidth 64⟩ := by rw [hlow, hrot]
  · have hrot : rotated x amount = x.rotateRight (amount.toNat % 64) := by
      rw [rotated_eq _ _ (toNat_and_63 amount), BitVec.rotateRight_mod_eq_rotateRight]
    calc ror ⟨8, x.setWidth 64⟩ (const amount) = ⟨8, rotated (x.setWidth 64) amount⟩ := rfl
      _ = ⟨8, (x.rotateRight (amount.toNat % (8 * 8))).setWidth 64⟩ := by
        rw [setWidth_eq x, hrot, setWidth_eq]

theorem umul_plain : umul ⟨size, x.setWidth 64⟩ ⟨size, y.setWidth 64⟩ =
    ⟨size, ((BMI.product x y).setWidth (8 * size)).setWidth 64⟩ := by
  have hx := low_self (isSize_of hk) x
  have hy := low_self (isSize_of hk) y
  have hlower : (BMI.product x y).setWidth (8 * size) = x * y := by
    rw [BMI.product, BitVec.setWidth_mul _ _ (by omega), setWidth_setWidth_of_le _ (by omega),
      setWidth_setWidth_of_le _ (by omega), setWidth_eq, setWidth_eq]
  rw [hlower]
  rcases hk with rfl | rfl
  · calc umul ⟨4, x.setWidth 64⟩ ⟨4, y.setWidth 64⟩ =
          ⟨4, ((x.setWidth 64).setWidth (8 * 4) * (y.setWidth 64).setWidth (8 * 4)).setWidth 64⟩ := rfl
      _ = ⟨4, (x * y).setWidth 64⟩ := by rw [hx, hy]
  · calc umul ⟨8, x.setWidth 64⟩ ⟨8, y.setWidth 64⟩ = ⟨8, x.setWidth 64 * y.setWidth 64⟩ := rfl
      _ = ⟨8, (x * y).setWidth 64⟩ := by rw [setWidth_eq x, setWidth_eq y, setWidth_eq (x * y)]

theorem umulh_plain : umulh ⟨size, x.setWidth 64⟩ ⟨size, y.setWidth 64⟩ =
    ⟨size, ((BMI.product x y >>> (8 * size)).setWidth (8 * size)).setWidth 64⟩ := by
  rcases hk with rfl | rfl
  · have hhigh : ((BMI.product x y >>> (8 * 4)).setWidth (8 * 4)).setWidth 64 = (x.setWidth 64 * y.setWidth 64) >>> 32 := by
      apply eq_of_getLsbD_eq
      intro i hi
      rw [getLsbD_setWidth, getLsbD_setWidth, getLsbD_ushiftRight, getLsbD_ushiftRight]
      by_cases h : i < 32
      · simp [h, hi, BMI.product]
      · rw [getLsbD_of_ge (x.setWidth 64 * y.setWidth 64) (32 + i) (by omega)]
        simp [h]
    rw [hhigh]
    rfl
  · rfl

theorem select_eq (cond : CondClass) (ht : t.size = size) (hf : f.size = size) : select cond a b t f =
    ⟨size, ((if compared cond a b then t.value else f.value).setWidth (8 * size)).setWidth 64⟩ := by
  have hmax : atLeast4 t f = size := by
    unfold atLeast4
    omega
  unfold select compared emit
  rw [hmax]
  rcases hk with rfl | rfl
  · simp only [opSize, opSelect, bind_some, Option.getD_some, if_true, zext]
    split_ifs <;> rfl
  · simp only [opSize, opSelect, bind_some, Option.getD_some, reduceCtorEq, if_false]
    split_ifs <;> simp

end

/-! ## Fields -/

section
variable {w : Nat} (x : BitVec w)

theorem BMI.and_neg_eq_zero_iff : x &&& -x = 0 ↔ x = 0 := by
  constructor
  · intro h
    by_contra hne
    have hbit : x.getLsbD x.ctz.toNat = true := BitVec.getLsbD_true_ctz_of_ne_zero hne
    have hbelow : ¬ ∃ j < x.ctz.toNat, x.getLsbD j = true := by
      rintro ⟨j, hj, hset⟩
      rw [BitVec.getLsbD_false_of_lt_ctz hj] at hset
      cases hset
    have hneg : (-x).getLsbD x.ctz.toNat = true := by
      rw [BitVec.getLsbD_neg, hbit, decide_eq_false hbelow, Bool.and_false]
      rfl
    have hand := congrArg (getLsbD · x.ctz.toNat) h
    simp only [getLsbD_and, hbit, hneg, Bool.and_self] at hand
    rw [show (0 : BitVec w) = 0#w from rfl, getLsbD_zero] at hand
    cases hand
  · rintro rfl
    exact BitVec.zero_and

theorem BMI.cpop_eq_zero_iff : x.cpop = 0 ↔ x = 0 := by
  rw [← toNat_inj, show (0 : BitVec w).toNat = 0 from rfl]
  induction x with
  | nil => simp
  | cons b x ih =>
    rw [BitVec.toNat_cpop_cons, Nat.add_eq_zero_iff, ih, ← toNat_inj, ← toNat_inj, BitVec.toNat_cons',
      show (0 : BitVec (_ + 1)).toNat = 0 from rfl, show (0 : BitVec _).toNat = 0 from rfl, Nat.add_eq_zero_iff,
      Nat.shiftLeft_eq, Nat.mul_eq_zero]
    cases b <;> simp

/-- The lowest set bit is at an even place behind the first. -/
def BMI.EvenLowest : Prop := ∃ k, 0 < k ∧ k % 2 = 0 ∧ x.getLsbD k = true ∧ ∀ j < k, x.getLsbD j = false

theorem BMI.evenLowest_iff : BMI.EvenLowest x ↔ x ≠ 0 ∧ x.ctz ≠ 0 ∧ x.ctz.getLsbD 0 = false := by
  have hparity : x.ctz.getLsbD 0 = false ↔ x.ctz.toNat % 2 = 0 := by
    rw [getLsbD, Nat.testBit_zero, decide_eq_false_iff_not]
    omega
  have hpos : x.ctz ≠ 0 ↔ 0 < x.ctz.toNat := by
    rw [ne_eq, ← toNat_inj, Nat.pos_iff_ne_zero]
    rfl
  rw [hparity, hpos]
  constructor
  · rintro ⟨k, hk, heven, hset, hbelow⟩
    have hne : x ≠ 0 := by
      rintro rfl
      rw [show (0 : BitVec w) = 0#w from rfl, getLsbD_zero] at hset
      cases hset
    have hctz : x.ctz.toNat = k := by
      rcases Nat.lt_trichotomy x.ctz.toNat k with h | h | h
      · have := BitVec.getLsbD_true_ctz_of_ne_zero hne
        rw [hbelow _ h] at this
        cases this
      · exact h
      · rw [BitVec.getLsbD_false_of_lt_ctz h] at hset
        cases hset
    rw [hctz]
    exact ⟨hne, hk, heven⟩
  · rintro ⟨hne, hk, heven⟩
    exact ⟨x.ctz.toNat, hk, heven, BitVec.getLsbD_true_ctz_of_ne_zero hne, fun j hj => BitVec.getLsbD_false_of_lt_ctz hj⟩

theorem field_bit (start length : Nat) {i : Nat} (hi : i < w) :
    (BMI.field x start length).getLsbD i = (decide (i < length) && x.getLsbD (start + i)) := by
  rw [BMI.field, getLsbD_and, getLsbD_ushiftRight, BitVec.getLsbD_ofNat, Nat.testBit_two_pow_sub_one,
    decide_eq_true hi, Bool.true_and, Bool.and_comm]

theorem mask_bit {length i : Nat} (hlength : length < w) (hi : i < w) :
    (1#w <<< length - 1#w).getLsbD i = decide (i < length) := by
  have hpow : 1 < 2 ^ w := Nat.one_lt_two_pow (by omega)
  have hlt : 2 ^ length < 2 ^ w := Nat.pow_lt_pow_right (by decide) hlength
  have hmask : (1#w <<< length - 1#w).toNat = 2 ^ length - 1 := by
    rw [BitVec.toNat_sub, BitVec.toNat_shiftLeft, toNat_ofNat, Nat.mod_eq_of_lt hpow, Nat.shiftLeft_eq, Nat.one_mul,
      Nat.mod_eq_of_lt hlt]
    have := Nat.two_pow_pos length
    rw [show 2 ^ w - 1 + 2 ^ length = 2 ^ length - 1 + 2 ^ w by omega, Nat.add_mod_right, Nat.mod_eq_of_lt (by omega)]
  rw [getLsbD, hmask, Nat.testBit_two_pow_sub_one]

/-- What the mask of `BEXTR` leaves: a length of all the bits is taken for one less. -/
theorem field_shortened (start length : Nat) (hw : 0 < w) :
    (if start ≤ w - 1 then x >>> start else 0#w) &&& (1#w <<< min length (w - 1) - 1#w) =
      BMI.field x start (min length (w - 1)) := by
  apply eq_of_getLsbD_eq
  intro i hi
  rw [getLsbD_and, mask_bit (by omega) hi, field_bit x _ _ hi]
  split_ifs with h
  · rw [getLsbD_ushiftRight, Bool.and_comm]
  · rw [getLsbD_of_ge x _ (by omega), Bool.and_false, getLsbD_zero, Bool.false_and]

/-- This matters for a field that is the whole source, if its highest bit is set. -/
theorem field_shortened_iff (start length : Nat) (hw : 0 < w) :
    BMI.field x start (min length (w - 1)) = BMI.field x start length ↔ ¬ (start = 0 ∧ w ≤ length ∧ x.msb = true) := by
  rw [BitVec.msb_eq_getLsbD_last]
  constructor
  · rintro h ⟨rfl, hlength, hmsb⟩
    have hbit := congrArg (getLsbD · (w - 1)) h
    simp only [field_bit x _ _ (show w - 1 < w by omega), Nat.zero_add, hmsb, Bool.and_true, decide_eq_decide] at hbit
    omega
  · intro h
    apply eq_of_getLsbD_eq
    intro i hi
    rw [field_bit x _ _ hi, field_bit x _ _ hi]
    by_cases hlast : i < w - 1
    · congr 1
      exact decide_eq_decide.2 (by omega)
    · by_cases hstart : start = 0
      · subst hstart
        obtain rfl : i = w - 1 := by omega
        rw [Nat.zero_add]
        by_cases hmsb : x.getLsbD (w - 1) = true
        · have : ¬ w ≤ length := fun hlength => h ⟨rfl, hlength, hmsb⟩
          congr 1
          exact decide_eq_decide.2 (by omega)
        · rw [Bool.not_eq_true] at hmsb
          rw [hmsb, Bool.and_false, Bool.and_false]
      · rw [getLsbD_of_ge x (start + i) (by omega), Bool.and_false, Bool.and_false]

end

section
variable {size : Nat} (hk : size = 4 ∨ size = 8) (x y : BitVec (8 * size))
include hk

theorem byte_node (lsb : Nat) (hlsb : lsb + 8 ≤ 8 * size) :
    bfe 8 lsb ⟨size, y.setWidth 64⟩ = ⟨size, BitVec.ofNat 64 (y.toNat / 2 ^ lsb % 256)⟩ := by
  have hvalue : opBfe 8 lsb (y.setWidth 64) = BitVec.ofNat 64 (y.toNat / 2 ^ lsb % 256) := by
    apply eq_of_getLsbD_eq
    intro i hi
    rw [getLsbD_opBfe, maskWidth_of_le (by decide), Nat.mod_eq_of_lt (show lsb < 64 by omega), BitVec.getLsbD_ofNat,
      show (256 : Nat) = 2 ^ 8 by decide, Nat.testBit_mod_two_pow, Nat.testBit_div_two_pow, getLsbD_setWidth,
      getLsbD, decide_eq_true hi, Bool.true_and]
    by_cases h : i < 8
    · simp [h, show lsb + i < 64 by omega, Nat.add_comm]
    · simp [h]
  rw [bfe, hvalue]

omit hk in
theorem compared_numbers {a b : Node} {c d : Nat} (ha : a.value = BitVec.ofNat 64 c) (hb : b.value = BitVec.ofNat 64 d)
    (hc : c < 256) (hd : d < 256) (cond : CondClass) (p : Bool)
    (hcond : ∀ {w : Nat} (x y : BitVec w), x.toNat = c → y.toNat = d → isConditionTrue x y cond = p) :
    compared cond a b = p := by
  unfold compared
  rw [ha, hb]
  split_ifs <;> apply hcond <;> simp only [toNat_setWidth, toNat_ofNat] <;> omega

theorem within_bound {c : Nat} (hc : c < 256) :
    compared .ULE ⟨size, BitVec.ofNat 64 c⟩ (constant (size * 8) (BitVec.ofNat 64 (size * 8 - 1))) =
      decide (c ≤ 8 * size - 1) :=
  compared_numbers rfl (counts_constant (isSize_of hk) (show size * 8 - 1 < 128 by omega)).value hc (by omega) _ _
    fun a b ha hb => by rw [isConditionTrue, ha, hb, Nat.mul_comm size 8]

theorem sanitizedShifted_eq {start : Nat} (hstart : start < 256) :
    select .ULE ⟨size, BitVec.ofNat 64 start⟩ (constant (size * 8) (BitVec.ofNat 64 (size * 8 - 1)))
        (lshr ⟨size, x.setWidth 64⟩ ⟨size, BitVec.ofNat 64 start⟩) ⟨size, (0#(8 * size)).setWidth 64⟩ =
      ⟨size, (if start ≤ 8 * size - 1 then x >>> start else 0#(8 * size)).setWidth 64⟩ := by
  have hlshr : (lshr ⟨size, x.setWidth 64⟩ ⟨size, BitVec.ofNat 64 start⟩).size = size :=
    Nat.max_eq_right (show 4 ≤ size by omega)
  rw [select_eq hk _ hlshr rfl, within_bound hk hstart]
  by_cases h : start ≤ 8 * size - 1
  · rw [decide_eq_true h, if_pos rfl, if_pos h, lshr_plain hk x ⟨isSize_of hk, rfl, by omega⟩ (by omega),
      low_self (isSize_of hk)]
  · rw [decide_eq_false h, if_neg Bool.false_ne_true, if_neg h, low_self (isSize_of hk)]

theorem sanitizedLength_counts {length : Nat} (hlength : length < 256) :
    Counts (select .ULE ⟨size, BitVec.ofNat 64 length⟩ (constant (size * 8) (BitVec.ofNat 64 (size * 8 - 1)))
      ⟨size, BitVec.ofNat 64 length⟩ (constant (size * 8) (BitVec.ofNat 64 (size * 8 - 1)))) (min length (8 * size - 1)) := by
  have hmax := counts_constant (isSize_of hk) (show size * 8 - 1 < 128 by omega)
  have hsize : (constant (size * 8) (BitVec.ofNat 64 (size * 8 - 1))).size = size := by
    rw [constant_eq (by omega)]
  have hvalue : (if decide (length ≤ 8 * size - 1) then BitVec.ofNat 64 length
      else (constant (size * 8) (BitVec.ofNat 64 (size * 8 - 1))).value) = BitVec.ofNat 64 (min length (8 * size - 1)) := by
    by_cases h : length ≤ 8 * size - 1
    · rw [decide_eq_true h, if_pos rfl, Nat.min_eq_left h]
    · rw [decide_eq_false h, if_neg Bool.false_ne_true, Nat.min_eq_right (by omega), hmax.value, Nat.mul_comm]
  rw [select_eq hk _ rfl hsize, within_bound hk hlength, hvalue, ← constant_eq (by omega)]
  exact counts_constant (isSize_of hk) (by omega)

theorem bextr_dest :
    let maxSrcBitOp := constant (size * 8) (BitVec.ofNat 64 (size * 8 - 1))
    let start := bfe 8 0 ⟨size, y.setWidth 64⟩
    let sanitizedShifted := select .ULE start maxSrcBitOp (lshr ⟨size, x.setWidth 64⟩ start) (constant (size * 8) 0)
    let length := bfe 8 8 ⟨size, y.setWidth 64⟩
    let sanitizedLength := select .ULE length maxSrcBitOp length maxSrcBitOp
    let one := constant (size * 8) 1
    and sanitizedShifted (sub (lshl one sanitizedLength) one) =
      ⟨size, (BMI.field x (y.toNat % 256) (min (y.toNat / 256 % 256) (8 * size - 1))).setWidth 64⟩ := by
  have hbits : 8 * size ≤ 64 := by omega
  have hwidth : 0 < 8 * size := by omega
  have hstart := byte_node hk y 0 (by omega)
  have hlength := byte_node hk y 8 (by omega)
  have hone : constant (size * 8) 1 = ⟨size, (1#(8 * size)).setWidth 64⟩ := by
    rw [constant_eq (by omega), show (1 : BitVec 64) = 1#64 from rfl, BitVec.setWidth_ofNat_of_le hbits]
  have hzero : constant (size * 8) 0 = ⟨size, (0#(8 * size)).setWidth 64⟩ := by
    rw [constant_eq (by omega), show (0 : BitVec 64) = 0#64 from rfl, BitVec.setWidth_ofNat_of_le hbits]
  rw [Nat.pow_zero, Nat.div_one] at hstart
  rw [show (2 : Nat) ^ 8 = 256 from rfl] at hlength
  dsimp only
  rw [hstart, hlength, hone, hzero, sanitizedShifted_eq hk x (Nat.mod_lt _ (by decide)),
    lshl_plain hk _ (sanitizedLength_counts hk (Nat.mod_lt _ (by decide))) (by omega), sub_plain hk, and_plain hk,
    field_shortened x _ _ hwidth]

theorem index_node : and ⟨size, y.setWidth 64⟩ (const 0xFF) = ⟨8, BitVec.ofNat 64 (y.toNat % 256)⟩ := by
  have hmax : max size 8 = 8 := by omega
  have hmask : (0xFF : BitVec 64).toNat = 2 ^ 8 - 1 := rfl
  have hvalue : (and ⟨size, y.setWidth 64⟩ (const 0xFF)).value = BitVec.ofNat 64 (y.toNat % 256) := by
    rw [and_value (isSize_of hk) isSize_eight, const_size, const_value]
    rw [hmax, setWidth_eq, setWidth_eq]
    apply BitVec.eq_of_toNat_eq
    rw [BitVec.toNat_and, hmask, Nat.and_two_pow_sub_one_eq_mod, BitVec.toNat_setWidth_of_le (by omega), toNat_ofNat]
    omega
  rw [← hvalue]
  exact congrArg (Node.mk · (and ⟨size, y.setWidth 64⟩ (const 0xFF)).value) hmax

theorem index_above : compared .UGT ⟨8, BitVec.ofNat 64 (y.toNat % 256)⟩ (const (BitVec.ofNat 64 (size * 8 - 1))) =
    decide (8 * size ≤ y.toNat % 256) :=
  compared_numbers rfl rfl (Nat.mod_lt _ (by decide)) (show size * 8 - 1 < 256 by omega) _ _ fun a b ha hb => by
    exact decide_eq_decide.2 (by omega)

theorem bzhi_dest :
    select .UGT ⟨8, BitVec.ofNat 64 (y.toNat % 256)⟩ (const (BitVec.ofNat 64 (size * 8 - 1))) ⟨size, x.setWidth 64⟩
        (andn ⟨size, x.setWidth 64⟩ (lshl (constant (size * 8) (-1)) ⟨8, BitVec.ofNat 64 (y.toNat % 256)⟩)) =
      ⟨size, (BMI.result x y .bzhi).setWidth 64⟩ := by
  have hones : constant (size * 8) (-1) = ⟨size, (allOnes (8 * size)).setWidth 64⟩ := by
    rw [constant_eq (by omega)]
    congr 1
    apply eq_of_getLsbD_eq
    intro i hi
    rw [getLsbD_setWidth, getLsbD_setWidth, getLsbD_setWidth, getLsbD_allOnes,
      show (-1 : BitVec 64) = allOnes 64 by decide, getLsbD_allOnes, decide_eq_true hi, Bool.and_true]
  have hsize : (andn ⟨size, x.setWidth 64⟩
      (lshl (constant (size * 8) (-1)) ⟨8, BitVec.ofNat 64 (y.toNat % 256)⟩)).size = size :=
    Nat.max_eq_right (show 4 ≤ size by omega)
  rw [select_eq hk _ rfl hsize, index_above hk, BMI.result]
  by_cases h : 8 * size ≤ y.toNat % 256
  · rw [decide_eq_true h, if_pos rfl, if_neg (by omega), low_self (isSize_of hk)]
  · rw [decide_eq_false h, if_neg Bool.false_ne_true, if_pos (by omega), hones,
      lshl_plain hk _ ⟨isSize_eight, rfl, by omega⟩ (by omega), andn_plain hk]
    congr 2
    rw [low_self (isSize_of hk)]
    apply eq_of_getLsbD_eq
    intro i hi
    rw [field_bit x _ _ hi, getLsbD_and, BitVec.getLsbD_not, BitVec.getLsbD_shiftLeft, getLsbD_allOnes,
      Nat.zero_add]
    by_cases hlt : i < y.toNat % 256
    · simp [hi, hlt]
    · simp [hi, hlt, show i - y.toNat % 256 < 8 * size by omega]

theorem blsi_dest : and ⟨size, x.setWidth 64⟩ (neg ⟨size, x.setWidth 64⟩) = ⟨size, (x &&& -x).setWidth 64⟩ := by
  have hmax : max size (max 4 size) = size := by omega
  refine node_eq hk _ hmax (v := x.setWidth 64 &&& (neg ⟨size, x.setWidth 64⟩).value) ?_ ?_
  · rw [and_value (isSize_of hk) (isSize_four.max (isSize_of hk)), neg_size]
    rw [hmax]
  · rw [setWidth_and, low_self (isSize_of hk), neg_low (isSize_of hk)]

theorem lessOne_value : (sub ⟨size, x.setWidth 64⟩ (const 1)).size = 8 ∧
    (sub ⟨size, x.setWidth 64⟩ (const 1)).value.setWidth (8 * size) = x - 1#(8 * size) := by
  have hmax : atLeast4 ⟨size, x.setWidth 64⟩ (const 1) = 8 := by
    simp only [atLeast4, const_size]
    omega
  refine ⟨hmax, ?_⟩
  rw [sub_value (isSize_of hk) isSize_eight, hmax, setWidth_eq, setWidth_eq, setWidth_sub _ _ (by omega),
    low_self (isSize_of hk), const_value, show (1 : BitVec 64) = 1#64 from rfl, BitVec.setWidth_ofNat_of_le (by omega)]

theorem blsmsk_low : (xor (sub ⟨size, x.setWidth 64⟩ (const 1)) ⟨size, x.setWidth 64⟩).size = 8 ∧
    (xor (sub ⟨size, x.setWidth 64⟩ (const 1)) ⟨size, x.setWidth 64⟩).value.setWidth (8 * size) =
      (x - 1#(8 * size)) ^^^ x := by
  obtain ⟨hsize, hlow⟩ := lessOne_value hk x
  have hmax : max (sub ⟨size, x.setWidth 64⟩ (const 1)).size size = 8 := by
    omega
  refine ⟨hmax, ?_⟩
  rw [xor_value (by rw [hsize]; exact isSize_eight) (isSize_of hk)]
  rw [hmax, setWidth_eq, setWidth_eq, BitVec.setWidth_xor, hlow, low_self (isSize_of hk)]

theorem blsr_dest : and (sub ⟨size, x.setWidth 64⟩ (const 1)) ⟨size, x.setWidth 64⟩ =
    ⟨8, ((x - 1#(8 * size)) &&& x).setWidth 64⟩ := by
  obtain ⟨hsize, hlow⟩ := lessOne_value hk x
  have hmax : max (sub ⟨size, x.setWidth 64⟩ (const 1)).size size = 8 := by
    omega
  have hvalue : (and (sub ⟨size, x.setWidth 64⟩ (const 1)) ⟨size, x.setWidth 64⟩).value =
      ((x - 1#(8 * size)) &&& x).setWidth 64 := by
    rw [and_value (by rw [hsize]; exact isSize_eight) (isSize_of hk)]
    rw [hmax, setWidth_eq, setWidth_eq, ← hlow]
    apply eq_of_getLsbD_eq
    intro i hi
    simp only [getLsbD_and, getLsbD_setWidth]
    by_cases h : i < 8 * size
    · simp [h, hi]
    · rw [getLsbD_of_ge x i (by omega)]
      simp
  rw [← hvalue]
  exact congrArg (Node.mk · (and (sub ⟨size, x.setWidth 64⟩ (const 1)) ⟨size, x.setWidth 64⟩).value) hmax

end

section
variable {size : Nat} (hsize : IsSize size) (x : BitVec (8 * size))
include hsize

theorem ctz_dest : findTrailingZeros ⟨size, x.setWidth 64⟩ = ⟨size, x.ctz.setWidth 64⟩ := by
  have hx : (x.setWidth 64).setWidth (8 * size) = x := by
    rw [setWidth_setWidth_of_le _ (by have := hsize.le; omega), setWidth_eq]
  rcases hsize with rfl | rfl | rfl | rfl
  all_goals exact congrArg (fun v => Node.mk _ (BitVec.setWidth 64 (ctz v))) hx

theorem clz_dest : countLeadingZeroes ⟨size, x.setWidth 64⟩ = ⟨size, x.clz.setWidth 64⟩ := by
  have hx : (x.setWidth 64).setWidth (8 * size) = x := by
    rw [setWidth_setWidth_of_le _ (by have := hsize.le; omega), setWidth_eq]
  rcases hsize with rfl | rfl | rfl | rfl
  all_goals exact congrArg (fun v => Node.mk _ (BitVec.setWidth 64 (clz v))) hx

theorem cpop_dest : popcount ⟨size, x.setWidth 64⟩ = ⟨size, x.cpop.setWidth 64⟩ := by
  have hle : 8 * size ≤ 64 := by have := hsize.le; omega
  have hcount := BitVec.toNat_cpop_setWidth_eq_of_le hle (x := x)
  unfold popcount opPopcount
  congr 1
  apply BitVec.eq_of_toNat_eq
  rw [hcount, BitVec.toNat_setWidth_of_le hle]

end

/-! ## Flags -/

section
variable {size : Nat} {res src : Node} {x r : BitVec (8 * size)} (old : ALUFlags)

theorem notZero_eq (h : Carries src x) : rflag (select .EQ src (const 0) (const 0) (const 1)) = decide (x ≠ 0) := by
  have hzero : compared .EQ src (const 0) = decide (x = 0) := by
    have hrflag := rflag_select (a := src) (b := const 0) .EQ (t := const 1) (f := const 0) isSize_eight isSize_eight
    rw [show rflag (select .EQ src (const 0) (const 1) (const 0)) = decide (x = 0) from calculatedZF_eq h] at hrflag
    rw [hrflag]
    cases compared .EQ src (const 0) <;> rfl
  rw [rflag_select _ isSize_eight isSize_eight, hzero, show decide (x ≠ 0) = !decide (x = 0) from decide_not]
  cases decide (x = 0) <;> rfl

theorem calculcateFlags_BEXTR_eq (h : Carries src x) :
    calculcateFlags_BEXTR src = ⟨false, false, false, x = 0, false, false⟩ := by
  unfold calculcateFlags_BEXTR
  rw [show rflag (select .EQ src (const 0) (const 1) (const 0)) = decide (x = 0) from calculatedZF_eq h]
  rfl

theorem calculcateFlags_POPCOUNT_eq (h : Carries src x) :
    calculcateFlags_POPCOUNT src = ⟨false, false, false, x = 0, false, false⟩ := calculcateFlags_BEXTR_eq h

theorem calculcateFlags_BLSI_eq (hsize : IsSize size) (h : Carries src x) :
    calculcateFlags_BLSI size src = ⟨x ≠ 0, false, false, x = 0, x.msb, false⟩ := by
  unfold calculcateFlags_BLSI
  rw [notZero_eq h, sign_lshr hsize h,
    show rflag (select .EQ src (const 0) (const 1) (const 0)) = decide (x = 0) from calculatedZF_eq h]
  rfl

theorem calculcateFlags_BLSMSK_cf (h : Carries src x) : (calculcateFlags_BLSMSK src old).cf = decide (x ≠ 0) := notZero_eq h

theorem calculcateFlags_BLSR_cf (h : Carries src x) : (calculcateFlags_BLSR size res src).cf = decide (x ≠ 0) := notZero_eq h

theorem calculcateFlags_BZHI_eq (hsize : IsSize size) (h : Carries res r) {above : Bool}
    (habove : compared .UGT src (const (BitVec.ofNat 64 (size * 8 - 1))) = above) :
    calculcateFlags_BZHI size res src = ⟨above, false, false, r = 0, r.msb, false⟩ := by
  unfold calculcateFlags_BZHI
  rw [rflag_select _ isSize_eight isSize_eight, habove, sign_lshr hsize h,
    show rflag (select .EQ res (const 0) (const 1) (const 0)) = decide (r = 0) from calculatedZF_eq h]
  cases above <;> rfl

theorem calculcateFlags_TZCNT_eq (h : Carries src x) (hsize : IsSize size) :
    calculcateFlags_TZCNT src old = { old with cf := decide (x = 0), zf := x.getLsbD 0 } := by
  unfold calculcateFlags_TZCNT
  rw [show rflag (select .EQ src (const 0) (const 1) (const 0)) = decide (x = 0) from calculatedZF_eq h,
    rflag_bfe _ (by decide), h.bit (by have := hsize.pos; omega)]

theorem calculcateFlags_LZCNT_eq (h : Carries src x) (hsize : IsSize size) :
    calculcateFlags_LZCNT size src old = { old with cf := decide (x = 0), zf := x.msb } := by
  unfold calculcateFlags_LZCNT
  rw [show rflag (select .EQ src (const 0) (const 1) (const 0)) = decide (x = 0) from calculatedZF_eq h,
    sign_bfe hsize h]

end

/-! ## Instructions -/

namespace DecodedBMI

section
variable {is64BitMode : Bool} (op : DecodedBMI is64BitMode) (s : State)

theorem isSize' : IsSize op.size := by
  rcases op.isSize with h | h | ⟨h, -⟩
  · exact .inr (.inr (.inl h))
  · exact .inr (.inr (.inr h))
  · exact .inr (.inl h)

theorem size_wide (h : op.instruction.isCount = false) : op.size = 4 ∨ op.size = 8 := by
  rcases op.isSize with h4 | h8 | ⟨-, hcount⟩
  · exact .inl h4
  · exact .inr h8
  · rw [h] at hcount
    cases hcount

theorem bitSize : getSrcBitSize op.toDecodedInst = op.size * 8 := by
  rw [getSrcBitSize, op.getSrcSize_eq]

theorem loadOperand {i : Nat} (h : IsRM op.size (op.src i)) :
    loadSource is64BitMode op.toDecodedInst s (op.src i) =
      some ⟨op.size, (operandValue is64BitMode op.toDecodedInst s op.size (op.src i)).setWidth 64⟩ := by
  obtain ⟨l, hl, hload⟩ := @loadSource_rm is64BitMode op.toDecodedInst s op.size (op.src i) op.isSize'.le h
  unfold loadSource
  rw [op.getSrcSize_eq, hload, operandValue_rm h hl]

theorem loadFirst (h : op.instruction ≠ .mulx) :
    loadSource is64BitMode op.toDecodedInst s (op.src 0) = some ⟨op.size, (op.x s).setWidth 64⟩ := by
  rw [op.loadOperand s op.first_rm, x, if_neg h]

theorem loadSecond (h : op.instruction.hasSecond = true) (hmulx : op.instruction ≠ .mulx) :
    loadSource is64BitMode op.toDecodedInst s (op.src 1) = some ⟨op.size, (op.y s).setWidth 64⟩ := by
  rw [op.loadOperand s (op.second_rm h), y, if_neg hmulx]

theorem storeRegister {operand : DecodedOperand} (hgpr : isGPR operand = true) (hrm : IsRM op.size operand) (before : State)
    (src : Node) (hhalf : op.size = 4 → src.size ≠ 8 → src.value = (src.value.setWidth 32).setWidth 64) :
    storeResultTo is64BitMode op.toDecodedInst s operand src =
      some (writeOperand is64BitMode op.toDecodedInst operand before s (src.value.setWidth (8 * op.size))) := by
  cases operand with
  | gpr high gpr =>
    have hstore := @storeResult_rm is64BitMode op.toDecodedInst s op.size (.gpr high gpr) op.isSize' op.size_mode hrm
      (.reg high gpr) rfl src fun _ _ => hhalf
    unfold storeResultTo
    rw [op.getDstSize_eq, hstore]
    rfl
  | _ => cases hgpr

theorem storeDest (src : Node) (hhalf : op.size = 4 → src.size ≠ 8 → src.value = (src.value.setWidth 32).setWidth 64) :
    storeResult is64BitMode op.toDecodedInst s src =
      some (writeOperand is64BitMode op.toDecodedInst op.dest s s (src.value.setWidth (8 * op.size))) :=
  op.storeRegister s op.dest_isGPR.1 op.dest_isGPR.2 s src hhalf

theorem storePlain (r : BitVec (8 * op.size)) : storeResult is64BitMode op.toDecodedInst s ⟨op.size, r.setWidth 64⟩ =
    some (writeOperand is64BitMode op.toDecodedInst op.dest s s r) := by
  have hr : (r.setWidth 64).setWidth (8 * op.size) = r := by
    rw [setWidth_setWidth_of_le _ (by have := op.isSize'.le; omega), setWidth_eq]
  rw [op.storeDest s ⟨op.size, r.setWidth 64⟩ fun h4 _ => ?_, hr]
  rw [show 32 = 8 * op.size by omega]
  rw [hr]

variable {op s}

theorem written (hmulx : op.instruction ≠ .mulx) :
    (writeOperand is64BitMode op.toDecodedInst op.dest s s
        (op.instruction.result (op.x s) (op.y s))).calculateDeferredFlags =
      op.executed s.calculateDeferredFlags s.calculateDeferredFlags.flags := by
  have hgpr := op.dest_isGPR.1
  unfold executed writeOperand
  rw [if_neg hmulx]
  cases hdest : op.dest with
  | gpr high gpr => rfl
  | _ => rw [hdest] at hgpr; cases hgpr

theorem written_flags (hmulx : op.instruction ≠ .mulx) (calculate : ALUFlags → ALUFlags) :
    (deferFlags (writeOperand is64BitMode op.toDecodedInst op.dest s s (op.instruction.result (op.x s) (op.y s)))
        calculate).calculateDeferredFlags = op.executed s.calculateDeferredFlags (calculate s.flags) := by
  have hgpr := op.dest_isGPR.1
  unfold executed writeOperand
  rw [if_neg hmulx]
  cases hdest : op.dest with
  | gpr high gpr => rfl
  | _ => rw [hdest] at hgpr; cases hgpr

theorem follows_iff {name : BMIHandler} {s' : State} {flags : ALUFlags} (hname : BMIHandler.ofOp op.table op.op = some name)
    (hrun : name.handler is64BitMode op.toDecodedInst s = some s')
    (hs' : s'.calculateDeferredFlags = op.executed s.calculateDeferredFlags flags) :
    op.FollowsX86 s ↔ FlagsAgree op.instruction.defined
      (op.instruction.flags (op.x s) (op.y s) s.calculateDeferredFlags.flags) flags := by
  have hflags : s'.calculateDeferredFlags.flags = flags := by
    rw [hs']
    rfl
  constructor
  · rintro ⟨name', t, hname', hrun', -, hagree⟩
    obtain rfl : name = name' := some_inj.1 (hname.symm.trans hname')
    obtain rfl : s' = t := some_inj.1 (hrun.symm.trans hrun')
    rwa [hflags] at hagree
  · intro hagree
    refine ⟨name, s', hname, hrun, ?_, ?_⟩
    · rw [hflags, hs']
    · rwa [hflags]

end

end DecodedBMI

def BMI.handlerName : BMI → BMIHandler
  | andn => .ANDNBMIOp
  | bextr => .BEXTRBMIOp
  | blsi => .BLSIBMIOp
  | blsmsk => .BLSMSKBMIOp
  | blsr => .BLSRBMIOp
  | sarx | shlx | shrx => .BMI2Shift
  | bzhi => .BZHI
  | rorx => .RORX
  | mulx => .MULX
  | tzcnt => .TZCNT
  | lzcnt => .LZCNT
  | popcnt => .PopcountOp

def BMI.opcode : BMI → BMITable × Nat
  | andn => (.vex, 0x4F2)
  | bzhi => (.vex, 0x4F5)
  | mulx => (.vex, 0x7F6)
  | bextr => (.vex, 0x4F7)
  | shlx => (.vex, 0x5F7)
  | sarx => (.vex, 0x6F7)
  | shrx => (.vex, 0x7F7)
  | rorx => (.vex, 0xBF0)
  | blsr => (.vexGroup, 0x41)
  | blsmsk => (.vexGroup, 0x42)
  | blsi => (.vexGroup, 0x43)
  | popcnt => (.repMod, 0xB8)
  | tzcnt => (.repMod, 0xBC)
  | lzcnt => (.repMod, 0xBD)

theorem BMI.opcode_eq {table : BMITable} {op : Nat} {i : BMI} (h : BMI.ofOpcode table op = some i) :
    i.opcode = (table, op) := by
  unfold BMI.ofOpcode at h
  split at h <;> cases h <;> rfl

theorem BMIHandler.ofOp_eq {table : BMITable} {op : Nat} {i : BMI} (h : BMI.ofOpcode table op = some i) :
    BMIHandler.ofOp table op = some i.handlerName := by
  have hop := BMI.opcode_eq h
  cases i <;> cases hop <;> rfl

namespace DecodedBMI

variable {is64BitMode : Bool} (op : DecodedBMI is64BitMode) (s : State)

section
variable {op s}

theorem hname {i : BMI} (h : op.instruction = i) : BMIHandler.ofOp op.table op.op = some i.handlerName := by
  rw [BMIHandler.ofOp_eq op.ofOpcode_eq, h]

theorem follows_flags_iff {i : BMI} (h : op.instruction = i) (hmulx : i ≠ .mulx) {n : Node} {f : ALUFlags → ALUFlags}
    (hrun : i.handlerName.handler is64BitMode op.toDecodedInst s =
      (storeResult is64BitMode op.toDecodedInst s n).bind fun s => some (deferFlags s f))
    (hlow : n.value.setWidth (8 * op.size) = i.result (op.x s) (op.y s))
    (hhalf : op.size = 4 → n.size ≠ 8 → n.value = (n.value.setWidth 32).setWidth 64) :
    op.FollowsX86 s ↔ FlagsAgree i.defined (i.flags (op.x s) (op.y s) s.calculateDeferredFlags.flags) (f s.flags) := by
  subst h
  rw [op.storeDest s n hhalf, hlow, bind_some] at hrun
  exact follows_iff (hname rfl) hrun (written_flags hmulx f)

theorem follows_plain_iff {i : BMI} (h : op.instruction = i) (hmulx : i ≠ .mulx) {f : ALUFlags → ALUFlags}
    (hrun : i.handlerName.handler is64BitMode op.toDecodedInst s =
      (storeResult is64BitMode op.toDecodedInst s ⟨op.size, (i.result (op.x s) (op.y s)).setWidth 64⟩).bind
        fun s => some (deferFlags s f)) :
    op.FollowsX86 s ↔ FlagsAgree i.defined (i.flags (op.x s) (op.y s) s.calculateDeferredFlags.flags) (f s.flags) := by
  subst h
  rw [op.storePlain s, bind_some] at hrun
  exact follows_iff (hname rfl) hrun (written_flags hmulx f)

theorem follows_kept {i : BMI} (h : op.instruction = i) (hmulx : i ≠ .mulx)
    (hflags : i.flags (op.x s) (op.y s) s.calculateDeferredFlags.flags = s.calculateDeferredFlags.flags)
    (hrun : i.handlerName.handler is64BitMode op.toDecodedInst s =
      storeResult is64BitMode op.toDecodedInst s ⟨op.size, (i.result (op.x s) (op.y s)).setWidth 64⟩) : op.FollowsX86 s := by
  subst h
  rw [op.storePlain s] at hrun
  rw [follows_iff (hname rfl) hrun (written hmulx), hflags]
  exact ⟨fun _ => rfl, fun _ => rfl, fun _ => rfl, fun _ => rfl, fun _ => rfl, fun _ => rfl⟩

end

theorem carries_result (r : BitVec (8 * op.size)) : Carries (⟨op.size, r.setWidth 64⟩ : Node) r :=
  (holds_of op.isSize' r).carries

theorem follows_andn (h : op.instruction = .andn) : op.FollowsX86 s := by
  have hm : op.instruction ≠ .mulx := by rw [h]; decide
  have hk := op.size_wide (by rw [h]; rfl)
  have hdest : andn ⟨op.size, (op.y s).setWidth 64⟩ ⟨op.size, (op.x s).setWidth 64⟩ =
      ⟨op.size, (BMI.andn.result (op.x s) (op.y s)).setWidth 64⟩ := by
    rw [andn_plain hk, BitVec.and_comm]
    rfl
  have hflags := calculcateFlags_Logical_eq (w := 8 * op.size) rfl op.isSize'.pos
    (holds_of op.isSize' (BMI.andn.result (op.x s) (op.y s)))
  rw [follows_plain_iff h (by decide) (f := fun _ =>
    calculcateFlags_Logical op.size ⟨op.size, (BMI.andn.result (op.x s) (op.y s)).setWidth 64⟩), hflags]
  · exact ⟨fun _ => rfl, fun _ => rfl, fun _ => rfl, fun _ => rfl, fun _ => rfl, fun _ => rfl⟩
  · change andnBMIOp is64BitMode op.toDecodedInst s = _
    simp [andnBMIOp, op.loadFirst s hm, op.loadSecond s (by rw [h]; rfl) hm, hdest, generateFlags_Logical, op.getSrcSize_eq]

theorem follows_blsi (h : op.instruction = .blsi) : op.FollowsX86 s := by
  have hm : op.instruction ≠ .mulx := by rw [h]; decide
  have hk := op.size_wide (by rw [h]; rfl)
  have hflags := calculcateFlags_BLSI_eq op.isSize' (op.carries_result (BMI.blsi.result (op.x s) (op.y s)))
  have hzero : op.x s &&& -op.x s = 0 ↔ op.x s = 0 := BMI.and_neg_eq_zero_iff (op.x s)
  rw [follows_plain_iff h (by decide) (f := fun _ =>
    calculcateFlags_BLSI op.size ⟨op.size, (BMI.blsi.result (op.x s) (op.y s)).setWidth 64⟩), hflags]
  · refine ⟨fun _ => ?_, fun h => (Bool.false_ne_true h).elim, fun h => (Bool.false_ne_true h).elim, fun _ => rfl,
      fun _ => rfl, fun _ => rfl⟩
    exact decide_eq_decide.2 (not_congr hzero)
  · change blsiBMIOp is64BitMode op.toDecodedInst s = _
    simp only [blsiBMIOp, op.loadFirst s hm, blsi_dest hk, bind_eq_bind, bind_some, op.getSrcSize_eq]
    rfl

theorem not_follows_blsmsk (h : op.instruction = .blsmsk) : ¬ op.FollowsX86 s := by
  have hm : op.instruction ≠ .mulx := by rw [h]; decide
  have hk := op.size_wide (by rw [h]; rfl)
  obtain ⟨hsize, hlow⟩ := blsmsk_low hk (op.x s)
  rw [follows_flags_iff h (by decide)
    (n := xor (sub ⟨op.size, (op.x s).setWidth 64⟩ (const 1)) ⟨op.size, (op.x s).setWidth 64⟩)
    (f := calculcateFlags_BLSMSK ⟨op.size, (op.x s).setWidth 64⟩) ?_ hlow fun _ h8 => absurd hsize h8]
  · intro hagree
    have hcf := hagree.cf rfl
    rw [calculcateFlags_BLSMSK_cf _ (op.carries_result (op.x s))] at hcf
    have hzero : decide (op.x s ≠ 0) = decide (op.x s = 0) := hcf
    rw [decide_eq_decide] at hzero
    tauto
  · change blsmskBMIOp is64BitMode op.toDecodedInst s = _
    simp [blsmskBMIOp, op.loadFirst s hm]

theorem not_follows_blsr (h : op.instruction = .blsr) : ¬ op.FollowsX86 s := by
  have hm : op.instruction ≠ .mulx := by rw [h]; decide
  have hk := op.size_wide (by rw [h]; rfl)
  have hlow :
      (and (sub ⟨op.size, (op.x s).setWidth 64⟩ (const 1)) ⟨op.size, (op.x s).setWidth 64⟩).value.setWidth (8 * op.size) =
        BMI.blsr.result (op.x s) (op.y s) := by
    rw [blsr_dest hk]
    exact low_self (isSize_of hk) _
  have hsize : (and (sub ⟨op.size, (op.x s).setWidth 64⟩ (const 1)) ⟨op.size, (op.x s).setWidth 64⟩).size = 8 := by
    rw [blsr_dest hk]
  rw [follows_flags_iff h (by decide) (f := fun _ => calculcateFlags_BLSR op.size
    (and (sub ⟨op.size, (op.x s).setWidth 64⟩ (const 1)) ⟨op.size, (op.x s).setWidth 64⟩) ⟨op.size, (op.x s).setWidth 64⟩)
    ?_ hlow fun _ h8 => absurd hsize h8]
  · intro hagree
    have hcf := hagree.cf rfl
    rw [calculcateFlags_BLSR_cf (op.carries_result (op.x s))] at hcf
    have hzero : decide (op.x s ≠ 0) = decide (op.x s = 0) := hcf
    rw [decide_eq_decide] at hzero
    tauto
  · change blsrBMIOp is64BitMode op.toDecodedInst s = _
    simp [blsrBMIOp, op.loadFirst s hm, op.getSrcSize_eq]

theorem follows_bzhi (h : op.instruction = .bzhi) : op.FollowsX86 s := by
  have hm : op.instruction ≠ .mulx := by rw [h]; decide
  have hk := op.size_wide (by rw [h]; rfl)
  have hflags := calculcateFlags_BZHI_eq op.isSize' (op.carries_result (BMI.bzhi.result (op.x s) (op.y s)))
    (index_above hk (op.y s))
  rw [follows_plain_iff h (by decide) (f := fun _ =>
    calculcateFlags_BZHI op.size ⟨op.size, (BMI.bzhi.result (op.x s) (op.y s)).setWidth 64⟩
      ⟨8, BitVec.ofNat 64 ((op.y s).toNat % 256)⟩), hflags]
  · exact ⟨fun _ => rfl, fun h => (Bool.false_ne_true h).elim, fun h => (Bool.false_ne_true h).elim, fun _ => rfl,
      fun _ => rfl, fun _ => rfl⟩
  · change bzhi is64BitMode op.toDecodedInst s = _
    simp only [bzhi, op.loadFirst s hm, op.loadSecond s (by rw [h]; rfl) hm, op.bitSize, index_node hk, bzhi_dest hk,
      bind_eq_bind, bind_some, op.getSrcSize_eq]

theorem follows_shift {i : BMI} (h : op.instruction = i) (hi : i = .sarx ∨ i = .shlx ∨ i = .shrx) : op.FollowsX86 s := by
  have hmulx : i ≠ .mulx := by rintro rfl; simp at hi
  have hsecond : i.hasSecond = true := by rcases hi with rfl | rfl | rfl <;> rfl
  have hcount : i.isCount = false := by rcases hi with rfl | rfl | rfl <;> rfl
  have hm : op.instruction ≠ .mulx := by rwa [h]
  have hk := op.size_wide (by rwa [h])
  have hmask : Counts (maskCount const (op.size * 8) ⟨op.size, (op.y s).setWidth 64⟩) ((op.y s).toNat % (8 * op.size)) := by
    have hmasked := @maskCount_counts _ op.size _ _ (holds_of op.isSize' (op.y s)) const fun c hc => counts_const hc
    have hmod : (if op.size = 8 then 64 else 32) = 8 * op.size := by
      split_ifs <;> omega
    rwa [hmod] at hmasked
  have hlt : (op.y s).toNat % (8 * op.size) < 8 * op.size := Nat.mod_lt _ (by omega)
  have hop := BMI.opcode_eq op.ofOpcode_eq
  rw [h] at hop
  apply follows_kept h hmulx
  · rcases hi with rfl | rfl | rfl <;> rfl
  · have hrun : i.handlerName.handler is64BitMode op.toDecodedInst s = bmi2Shift is64BitMode op.toDecodedInst s := by
      rcases hi with rfl | rfl | rfl <;> rfl
    rw [hrun]
    simp only [bmi2Shift, op.loadFirst s hm, op.loadSecond s (by rwa [h]) hm, op.bitSize, bind_eq_bind,
      bind_some]
    change storeResult is64BitMode op.toDecodedInst s (if op.op = 0x6F7 then
      ashr ⟨op.size, (op.x s).setWidth 64⟩ (maskCount const (op.size * 8) ⟨op.size, (op.y s).setWidth 64⟩) else
      if op.op = 0x5F7 then
        lshl ⟨op.size, (op.x s).setWidth 64⟩ (maskCount const (op.size * 8) ⟨op.size, (op.y s).setWidth 64⟩)
      else lshr ⟨op.size, (op.x s).setWidth 64⟩ (maskCount const (op.size * 8) ⟨op.size, (op.y s).setWidth 64⟩)) = _
    rw [ashr_plain hk _ hmask hlt, lshl_plain hk _ hmask hlt, lshr_plain hk _ hmask hlt]
    rcases hi with rfl | rfl | rfl
    · have hop' : op.op = 0x6F7 := (congrArg Prod.snd hop).symm
      rw [hop', if_pos rfl]
      rfl
    · have hop' : op.op = 0x5F7 := (congrArg Prod.snd hop).symm
      rw [hop', if_neg (by decide), if_pos rfl]
      rfl
    · have hop' : op.op = 0x7F7 := (congrArg Prod.snd hop).symm
      rw [hop', if_neg (by decide), if_neg (by decide)]
      rfl

theorem follows_rorx (h : op.instruction = .rorx) : op.FollowsX86 s := by
  have hm : op.instruction ≠ .mulx := by rw [h]; decide
  have hk := op.size_wide (by rw [h]; rfl)
  obtain ⟨literalSize, value, hsrc⟩ := op.amount_literal h
  have hy : (op.y s).toNat % (8 * op.size) = value.toNat % (8 * op.size) := by
    have hvalue : op.y s = value.setWidth (8 * op.size) := by
      rw [y, if_neg hm, hsrc]
      rfl
    rw [hvalue, toNat_setWidth]
    rcases hk with h4 | h8
    · rw [h4]
      omega
    · rw [h8]
      omega
  apply follows_kept h (by decide) rfl
  change rorx is64BitMode op.toDecodedInst s = _
  simp [rorx, op.loadFirst s hm, hsrc, ror_plain hk, BMI.result, hy]

/-- The longest length cuts off the highest bit of the source. -/
def CutsHighest : Prop :=
  op.instruction = .bextr ∧ (op.y s).toNat % 256 = 0 ∧ 8 * op.size ≤ (op.y s).toNat / 256 % 256 ∧ (op.x s).msb = true

theorem follows_tzcnt_iff (h : op.instruction = .tzcnt) : op.FollowsX86 s ↔ BMI.EvenLowest (op.x s) := by
  have hm : op.instruction ≠ .mulx := by rw [h]; decide
  have hflags := calculcateFlags_TZCNT_eq (x := BMI.tzcnt.result (op.x s) (op.y s)) s.flags (op.carries_result _) op.isSize'
  rw [follows_plain_iff h (by decide) (f :=
    calculcateFlags_TZCNT ⟨op.size, (BMI.tzcnt.result (op.x s) (op.y s)).setWidth 64⟩), hflags, BMI.evenLowest_iff]
  · constructor
    · intro hagree
      have hcf : decide ((op.x s).ctz = 0) = decide (op.x s = 0) := hagree.cf rfl
      have hzf : (op.x s).ctz.getLsbD 0 = decide ((op.x s).ctz = 0) := hagree.zf rfl
      have hne : (op.x s).ctz ≠ 0 := by
        intro hzero
        rw [hzero, decide_eq_true rfl] at hzf
        simp at hzf
      rw [decide_eq_false hne] at hzf hcf
      exact ⟨of_decide_eq_false hcf.symm, hne, hzf⟩
    · rintro ⟨hx, hne, hbit⟩
      refine ⟨fun _ => ?_, fun h => (Bool.false_ne_true h).elim, fun h => (Bool.false_ne_true h).elim, fun _ => ?_,
        fun h => (Bool.false_ne_true h).elim, fun h => (Bool.false_ne_true h).elim⟩
      · exact (decide_eq_false hne).trans (decide_eq_false hx).symm
      · exact hbit.trans (decide_eq_false hne).symm
  · change tzcnt is64BitMode op.toDecodedInst s = _
    simp only [tzcnt, op.loadFirst s hm, ctz_dest op.isSize', bind_eq_bind, bind_some]
    rfl

theorem follows_lzcnt (h : op.instruction = .lzcnt) : op.FollowsX86 s := by
  have hm : op.instruction ≠ .mulx := by rw [h]; decide
  have hw : 0 < 8 * op.size := by have := op.isSize'.pos; omega
  have hflags := calculcateFlags_LZCNT_eq s.flags (op.carries_result (op.x s)) op.isSize'
  rw [follows_plain_iff h (by decide) (f := calculcateFlags_LZCNT op.size ⟨op.size, (op.x s).setWidth 64⟩), hflags]
  · refine ⟨fun _ => rfl, fun h => (Bool.false_ne_true h).elim, fun h => (Bool.false_ne_true h).elim, fun _ => ?_,
      fun h => (Bool.false_ne_true h).elim, fun h => (Bool.false_ne_true h).elim⟩
    have hzero : (op.x s).clz.toNat = 0 ↔ (op.x s).clz = 0 := @toNat_inj _ _ 0
    rw [BitVec.msb_eq_decide]
    exact decide_eq_decide.2 ((BitVec.clz_eq_zero_iff hw).symm.trans hzero)
  · change lzcnt is64BitMode op.toDecodedInst s = _
    simp only [lzcnt, op.loadFirst s hm, clz_dest op.isSize', bind_eq_bind, bind_some, op.getSrcSize_eq]
    rfl

theorem follows_popcnt (h : op.instruction = .popcnt) : op.FollowsX86 s := by
  have hm : op.instruction ≠ .mulx := by rw [h]; decide
  have hflags := calculcateFlags_POPCOUNT_eq (op.carries_result (BMI.popcnt.result (op.x s) (op.y s)))
  rw [follows_plain_iff h (by decide) (f := fun _ =>
    calculcateFlags_POPCOUNT ⟨op.size, (BMI.popcnt.result (op.x s) (op.y s)).setWidth 64⟩), hflags]
  · exact ⟨fun _ => rfl, fun _ => rfl, fun _ => rfl, fun _ => decide_eq_decide.2 (BMI.cpop_eq_zero_iff (op.x s)),
      fun _ => rfl, fun _ => rfl⟩
  · change popcountOp is64BitMode op.toDecodedInst s = _
    simp only [popcountOp, op.loadFirst s hm, cpop_dest op.isSize', bind_eq_bind, bind_some]
    rfl

theorem written_inj {r r' : BitVec (8 * op.size)} {t t' : State}
    (h : (writeOperand is64BitMode op.toDecodedInst op.dest s t r).cpu =
      (writeOperand is64BitMode op.toDecodedInst op.dest s t' r').cpu)
    (hk : op.size = 4 ∨ op.size = 8) : r = r' := by
  obtain ⟨hgpr, hrm⟩ := op.dest_isGPR
  unfold writeOperand at h
  cases hdest : op.dest with
  | gpr high gpr =>
    rw [hdest] at h hrm
    obtain rfl : high = false := by
      rcases high with _ | _
      · rfl
      · have := hrm.2 rfl
        omega
    have hreg : writeReg is64BitMode false r (t.cpu.gregs gpr) = writeReg is64BitMode false r' (t'.cpu.gregs gpr) := by
      have hgregs := congrArg (fun cpu => cpu.gregs gpr) h
      simpa [location, Location.write, setGPR] using hgregs
    rw [← readReg_writeReg hk r is64BitMode, hreg, readReg_writeReg hk]
  | _ => rw [hdest] at hgpr; cases hgpr

theorem follows_bextr_iff (h : op.instruction = .bextr) : op.FollowsX86 s ↔ ¬ op.CutsHighest s := by
  have hm : op.instruction ≠ .mulx := by rw [h]; decide
  have hk := op.size_wide (by rw [h]; rfl)
  have hw : 0 < 8 * op.size := by omega
  set r := BMI.field (op.x s) ((op.y s).toNat % 256) (min ((op.y s).toNat / 256 % 256) (8 * op.size - 1)) with hr
  have hcut : r = BMI.bextr.result (op.x s) (op.y s) ↔ ¬ op.CutsHighest s := by
    rw [hr, CutsHighest, and_iff_right h]
    exact field_shortened_iff _ _ _ hw
  have hrun : bextrBMIOp is64BitMode op.toDecodedInst s =
      some (deferFlags (writeOperand is64BitMode op.toDecodedInst op.dest s s r)
        fun _ => calculcateFlags_BEXTR ⟨op.size, r.setWidth 64⟩) := by
    have hdest := bextr_dest hk (op.x s) (op.y s)
    simp only [bextrBMIOp, op.loadFirst s hm, op.loadSecond s (by rw [h]; rfl) hm, op.bitSize, hdest, ← hr, op.storePlain,
      bind_eq_bind, bind_some]
  rw [← hcut]
  constructor
  · rintro ⟨name, s', hname', hrun', heq, -⟩
    obtain rfl : BMIHandler.BEXTRBMIOp = name := some_inj.1 ((hname h).symm.trans hname')
    obtain rfl := some_inj.1 (hrun.symm.trans hrun')
    have hcpu := congrArg State.cpu heq
    rw [executed, if_neg hm, h] at hcpu
    exact op.written_inj s hcpu hk
  · intro hresult
    rw [follows_flags_iff h (by decide) (n := ⟨op.size, r.setWidth 64⟩) (f := fun _ =>
      calculcateFlags_BEXTR ⟨op.size, r.setWidth 64⟩), calculcateFlags_BEXTR_eq (op.carries_result r), hresult]
    · exact ⟨fun _ => rfl, fun h => (Bool.false_ne_true h).elim, fun h => (Bool.false_ne_true h).elim, fun _ => rfl,
        fun h => (Bool.false_ne_true h).elim, fun _ => rfl⟩
    · change bextrBMIOp is64BitMode op.toDecodedInst s = _
      rw [hrun, op.storePlain, bind_some]
    · rw [← hresult]
      exact low_self (isSize_of hk) r
    · intro h4 _
      rw [show 32 = 8 * op.size by omega]
      rw [low_self (isSize_of hk)]

/-- The low half is written first, and lost where both halves go to one register. -/
theorem follows_mulx (h : op.instruction = .mulx) : op.FollowsX86 s := by
  have hk := op.size_wide (by rw [h]; rfl)
  have hx : loadSource is64BitMode op.toDecodedInst s (op.src 1) = some ⟨op.size, (op.x s).setWidth 64⟩ := by
    rw [op.loadOperand s (op.second_rm (by rw [h]; rfl)), x, if_pos h]
  have hy : Address.loadContext op.size (s.cpu.gregs .rdx) = ⟨op.size, (op.y s).setWidth 64⟩ := by
    rw [y, if_pos h]
    rfl
  have hhalf (r : BitVec (8 * op.size)) (h4 : op.size = 4) : r.setWidth 64 = ((r.setWidth 64).setWidth 32).setWidth 64 := by
    rw [show 32 = 8 * op.size by omega, low_self (isSize_of hk)]
  have hfirst := op.first_isGPR h
  have hdest := op.dest_isGPR.1
  set lo := (BMI.product (op.x s) (op.y s)).setWidth (8 * op.size) with hlo
  set hi := BMI.mulx.result (op.x s) (op.y s) with hhi
  set s₁ := writeOperand is64BitMode op.toDecodedInst (op.src 0) s s lo with hs₁
  have hrun : mulx is64BitMode op.toDecodedInst s =
      some (writeOperand is64BitMode op.toDecodedInst op.dest s s₁ hi) := by
    have hlower : storeResultTo is64BitMode op.toDecodedInst s (op.src 0) ⟨op.size, lo.setWidth 64⟩ = some s₁ := by
      rw [op.storeRegister s hfirst op.first_rm s _ fun h4 _ => hhalf lo h4, low_self (isSize_of hk)]
    have hupper : storeResultTo is64BitMode op.toDecodedInst s₁ op.dest ⟨op.size, hi.setWidth 64⟩ =
        some (writeOperand is64BitMode op.toDecodedInst op.dest s s₁ hi) := by
      rw [op.storeRegister s₁ hdest op.dest_isGPR.2 s _ fun h4 _ => hhalf hi h4, low_self (isSize_of hk)]
    simp only [mulx, op.getSrcSize_eq, hx, hy, umul_plain hk, umulh_plain hk, bind_eq_bind, bind_some]
    rw [← hlo, hlower, bind_some]
    exact hupper
  have hexecuted : (writeOperand is64BitMode op.toDecodedInst op.dest s s₁ hi).calculateDeferredFlags =
      op.executed s.calculateDeferredFlags s.calculateDeferredFlags.flags := by
    unfold executed
    rw [if_pos h, h, hs₁]
    cases hsrc : op.src 0 with
    | gpr high gpr =>
      cases hreg : op.dest with
      | gpr high' gpr' => rfl
      | _ => rw [hreg] at hdest; cases hdest
    | _ => rw [hsrc] at hfirst; cases hfirst
  rw [follows_iff (hname h) hrun hexecuted, h]
  exact ⟨fun _ => rfl, fun _ => rfl, fun _ => rfl, fun _ => rfl, fun _ => rfl, fun _ => rfl⟩

/-- The instructions follow the architecture but for the carry of `BLSMSK` and `BLSR`, the cut fields of `BEXTR`, and the
flags of `TZCNT`. -/
theorem bmi_follows_iff : op.FollowsX86 s ↔
    op.instruction ≠ .blsmsk ∧ op.instruction ≠ .blsr ∧ ¬ op.CutsHighest s ∧
      (op.instruction = .tzcnt → BMI.EvenLowest (op.x s)) := by
  have right {i : BMI} (h : op.instruction = i) (hother : i ≠ .blsmsk ∧ i ≠ .blsr ∧ i ≠ .bextr ∧ i ≠ .tzcnt)
      (hfollows : op.FollowsX86 s) : op.FollowsX86 s ↔ op.instruction ≠ .blsmsk ∧ op.instruction ≠ .blsr ∧
        ¬ op.CutsHighest s ∧ (op.instruction = .tzcnt → BMI.EvenLowest (op.x s)) := by
    subst h
    exact iff_of_true hfollows
      ⟨hother.1, hother.2.1, fun hcuts => hother.2.2.1 hcuts.1, fun h => absurd h hother.2.2.2⟩
  cases h : op.instruction with
  | andn => rw [← h]; exact right h (by decide) (op.follows_andn s h)
  | blsi => rw [← h]; exact right h (by decide) (op.follows_blsi s h)
  | sarx => rw [← h]; exact right h (by decide) (op.follows_shift s h (.inl rfl))
  | shlx => rw [← h]; exact right h (by decide) (op.follows_shift s h (.inr (.inl rfl)))
  | shrx => rw [← h]; exact right h (by decide) (op.follows_shift s h (.inr (.inr rfl)))
  | bzhi => rw [← h]; exact right h (by decide) (op.follows_bzhi s h)
  | rorx => rw [← h]; exact right h (by decide) (op.follows_rorx s h)
  | mulx => rw [← h]; exact right h (by decide) (op.follows_mulx s h)
  | lzcnt => rw [← h]; exact right h (by decide) (op.follows_lzcnt s h)
  | popcnt => rw [← h]; exact right h (by decide) (op.follows_popcnt s h)
  | blsmsk => exact iff_of_false (op.not_follows_blsmsk s h) fun hright => hright.1 rfl
  | blsr => exact iff_of_false (op.not_follows_blsr s h) fun hright => hright.2.1 rfl
  | bextr =>
    rw [op.follows_bextr_iff s h]
    exact ⟨fun hcuts => ⟨by decide, by decide, hcuts, fun h => by cases h⟩, fun hright => hright.2.2.1⟩
  | tzcnt =>
    have hcuts : ¬ op.CutsHighest s := fun hcuts => by
      rw [hcuts.1] at h
      cases h
    rw [op.follows_tzcnt_iff s h]
    exact ⟨fun heven => ⟨by decide, by decide, hcuts, fun _ => heven⟩, fun hright => hright.2.2.2 rfl⟩

end DecodedBMI

/-- `blsr eax, ecx`. -/
def blsrEAX : DecodedBMI true where
  flags := 3#32 <<< 19 ||| 3#32 <<< 22
  pc := 0
  instSize := 5
  entry := 0
  op := 0x41
  dest := .gpr false .rax
  src := fun _ => .gpr false .rcx
  table := .vexGroup
  instruction := .blsr
  size := 4
  ofOpcode_eq := by decide
  getSrcSize_eq := by decide
  getDstSize_eq := by decide
  isSize := by decide
  size_mode := mode_four
  dest_isGPR := eax_gpr
  first_rm := ecx_rm
  first_isGPR := fun _ => rfl
  second_rm := fun _ => ecx_rm
  amount_literal := fun h => by cases h

/-- The carry is clear for a source of zero, and set for any other. -/
theorem blsrEAX_differs : ¬ ∀ (is64BitMode : Bool) (op : DecodedBMI is64BitMode) (s : State), op.FollowsX86 s := by
  intro h
  exact blsrEAX.not_follows_blsr oneEverywhere rfl (h true blsrEAX oneEverywhere)

end FexEmu.OpcodeDispatcher.Integer
