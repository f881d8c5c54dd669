import FexEmu.Interpreter.SoftFloatProofs
import FexEmu.OpcodeDispatcher.X87Context
/-!
# The load of an integer is exact

`FILD` writes the canonical encoding of the integer. For zero the shift is taken modulo 64 and the exponent is cleared.
-/
namespace FexEmu.OpcodeDispatcher.X87Context

open Interpreter
open Address (Node)
open Integer
open X87 (IntData)
open BitVec (eq_of_getLsbD_eq getLsbD_append toNat_sub eq_of_toNat_eq toNat_ofNat)

theorem converted_eq (a b : Node) : vInsElement 8 1 0 (vCastFromGPR 8 a) (vCastFromGPR 8 b) = b.value ++ a.value := by
  apply eq_of_getLsbD_eq
  intro i hi
  rw [getLsbD_vInsElement _ _ _ _ _ hi, getLsbD_append]
  by_cases h : i < 64
  · simp [h, vCastFromGPR, hi]
  · simp [h, vCastFromGPR, show i < 128 by omega, show i - 64 < 128 by omega]

/-- The low 80 bits. -/
def extendedOf (x : BitVec 128) : ExtendedFloat := ⟨x.setWidth 64, x.extractLsb' 64 15, x.getLsbD 79⟩

theorem extendedOf_append (upper lower : BitVec 64) :
    extendedOf (upper ++ lower) = ⟨lower, upper.setWidth 15, upper.getLsbD 15⟩ := by
  have hlow : (upper ++ lower).setWidth 64 = lower := by
    apply eq_of_getLsbD_eq
    intro i hi
    rw [BitVec.getLsbD_setWidth, getLsbD_append, if_pos hi, decide_eq_true hi, Bool.true_and]
  have hexp : (upper ++ lower).extractLsb' 64 15 = upper.setWidth 15 := by
    apply eq_of_getLsbD_eq
    intro i hi
    rw [BitVec.getLsbD_extractLsb', BitVec.getLsbD_setWidth, getLsbD_append, if_neg (by omega),
      Nat.add_sub_cancel_left]
  have hsign : (upper ++ lower).getLsbD 79 = upper.getLsbD 15 := by
    rw [getLsbD_append, if_neg (by decide)]
  rw [extendedOf, hlow, hexp, hsign]

/-! ## The load -/

/-- The integer in memory. -/
def signedValue : IntData → BitVec 64
  | .i16 bits => bits.signExtend 64
  | .i32 bits => bits.signExtend 64
  | .i64 bits => bits

theorem opSbfe_low {w : Nat} (hw : 0 < w) (h64 : w ≤ 64) (x : BitVec w) : opSbfe w 0 (x.setWidth 64) = x.signExtend 64 := by
  rw [opSbfe_zero hw h64, BitVec.setWidth_setWidth_of_le _ h64, BitVec.setWidth_eq]

theorem extended_source (src : IntData) :
    (if (intSource src).size ≠ 8 then sbfe ((intSource src).size * 8) 0 (intSource src) else intSource src) =
      ⟨8, signedValue src⟩ := by
  cases src with
  | i16 bits => exact congrArg (Node.mk 8) (opSbfe_low (by decide) (by decide) bits)
  | i32 bits => exact congrArg (Node.mk 8) (opSbfe_low (by decide) (by decide) bits)
  | i64 bits => rfl

section Load
variable (v : BitVec 64)

/-- The sign and the absolute value as the selects give them. -/
def absoluteOf : BitVec 64 := if v.toInt < 0 then 0 - v else v

theorem absoluteOf_toNat : (absoluteOf v).toNat = v.toInt.natAbs := by
  unfold absoluteOf
  rw [BitVec.toInt_eq_toNat_cond]
  split
  · case isTrue h =>
    rw [if_neg (by omega)]
    omega
  · case isFalse h =>
    rw [if_pos (by omega), toNat_sub]
    have : (0 : BitVec 64).toNat = 0 := rfl
    omega

/-- The words of the encoding. -/
def significandOf : BitVec 64 :=
  absoluteOf v <<< ((63 - BitVec.ofInt 64 (64 - (absoluteOf v).clz.toNat - 1)).toNat % 64)

def upperOf : BitVec 64 :=
  (if v.toInt < 0 then 0x8000 else 0) |||
    (if absoluteOf v = 0 then 0 else 0x403E - (63 - BitVec.ofInt 64 (64 - (absoluteOf v).clz.toNat - 1)))

theorem words_eq : (⟨significandOf v, (upperOf v).setWidth 15, (upperOf v).getLsbD 15⟩ : ExtendedFloat) =
    ExtendedFloat.ofNat (v.toInt < 0) v.toInt.natAbs := by
  have habs := absoluteOf_toNat v
  by_cases h0 : v.toInt.natAbs = 0
  · have hv : v = 0 := by
      apply BitVec.eq_of_toInt_eq
      exact Int.natAbs_eq_zero.mp h0
    subst hv
    rfl
  · have hne : absoluteOf v ≠ 0 := by
      intro hz
      rw [hz] at habs
      exact h0 habs.symm
    have hm : v.toInt.natAbs < 2 ^ 64 := by
      rw [← habs]
      exact (absoluteOf v).isLt
    have hlog := (ExtendedFloat.log2_bounds h0 hm).1
    have hclz := SoftFloat.clz_eq hne
    rw [habs] at hclz
    generalize hk : v.toInt.natAbs.log2 = k at *
    have hmsb : BitVec.ofInt 64 (64 - (absoluteOf v).clz.toNat - 1) = BitVec.ofNat 64 k := by
      rw [hclz, show ((64 : Int) - ((63 - k : Nat) : Int) - 1) = (k : Int) by omega, BitVec.ofInt_natCast]
    have hshift : (63 : BitVec 64) - BitVec.ofNat 64 k = BitVec.ofNat 64 (63 - k) := by
      apply eq_of_toNat_eq
      rw [toNat_sub, toNat_ofNat, toNat_ofNat]
      have : (63 : BitVec 64).toNat = 63 := rfl
      omega
    have hsig : significandOf v = BitVec.ofNat 64 (v.toInt.natAbs * 2 ^ (63 - k)) := by
      apply eq_of_toNat_eq
      rw [significandOf, hmsb, hshift, toNat_ofNat, BitVec.toNat_shiftLeft, Nat.shiftLeft_eq, habs,
        toNat_ofNat, Nat.mod_eq_of_lt (show 63 - k < 2 ^ 64 by omega), Nat.mod_eq_of_lt (show 63 - k < 64 by omega)]
    have hexp : (0x403E : BitVec 64) - BitVec.ofNat 64 (63 - k) = BitVec.ofNat 64 (ExtendedFloat.bias + k) := by
      apply eq_of_toNat_eq
      rw [toNat_sub, toNat_ofNat, toNat_ofNat, ExtendedFloat.bias]
      have : (0x403E : BitVec 64).toNat = 0x403E := rfl
      omega
    have hlt : ExtendedFloat.bias + k < 2 ^ 15 := by
      rw [ExtendedFloat.bias]
      omega
    have hword : (BitVec.ofNat 64 (ExtendedFloat.bias + k)).getLsbD 15 = false := by
      rw [BitVec.getLsbD_ofNat, Nat.testBit_lt_two_pow hlt, Bool.and_false]
    rw [hsig, upperOf, if_neg hne, hmsb, hshift, hexp, ExtendedFloat.ofNat, if_neg h0, hk, BitVec.setWidth_or,
      BitVec.setWidth_ofNat_of_le (by decide), BitVec.getLsbD_or, hword]
    by_cases hneg : v.toInt < 0
    · simp [hneg]
    · simp [hneg]

end Load

theorem below_top (c : Context) : Integer.and (sub c.getX87Top (const 1)) (const 7) = ⟨8, (c.top.setWidth 64 - 1) &&& 7⟩ :=
  and_eight _ 7

theorem below_top_byte (t : BitVec 8) : ((t.setWidth 64 - 1) &&& 7).setWidth 8 = (t - 1) &&& 7 := by
  revert t
  decide

theorem below_top_index (t : BitVec 8) : ((t - 1) &&& 7).toNat = ((t.setWidth 64 - 1) &&& 7 : BitVec 64).toNat := by
  revert t
  decide

theorem FILD_top (c : Context) (src : IntData) : (FILD c src).top = (c.top - 1) &&& 7 := by
  have hvalue := congrArg Node.value (below_top c)
  calc (FILD c src).top = (Integer.and (sub c.getX87Top (const 1)) (const 7)).value.setWidth 8 := rfl
    _ = (c.top - 1) &&& 7 := by rw [hvalue, below_top_byte]

theorem slt_zero (v : BitVec 64) : isConditionTrue v 0 .SLT = decide (v.toInt < 0) := rfl

theorem eq_zero (v : BitVec 64) : isConditionTrue v 0 .EQ = decide (v = 0) := rfl

theorem FILD_register (c : Context) (src : IntData) :
    (FILD c src).mm (FILD c src).top.toNat = upperOf (signedValue src) ++ significandOf (signedValue src) := by
  rw [FILD_top, below_top_index]
  unfold FILD
  simp only [below_top, extended_source, Context.storeMM, Function.update_self, converted_eq]
  simp only [const, sub_eight, select_eight, findMSB_eight, lshl_eight, or_eight, slt_zero, eq_zero, decide_eq_true_eq]
  rfl

/-- `TOP` goes down by one, and the register there holds the integer's encoding. -/
theorem fild_encodes (c : Context) (src : IntData) :
    (FILD c src).top = (c.top - 1) &&& 7 ∧
      (extendedOf ((FILD c src).mm (FILD c src).top.toNat)).Encodes ((signedValue src).toInt < 0)
        (signedValue src).toInt.natAbs := by
  have hm : (signedValue src).toInt.natAbs < 2 ^ 64 := by
    rw [← absoluteOf_toNat]
    exact (absoluteOf _).isLt
  refine ⟨FILD_top c src, ?_⟩
  rw [FILD_register, extendedOf_append, words_eq]
  exact ExtendedFloat.ofNat_encodes hm

end FexEmu.OpcodeDispatcher.X87Context
