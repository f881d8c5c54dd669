import FexEmu.Interpreter.ALUOps
/-!
# Bits of the integer ops

Counts of shifts as remainders, and an extract bit by bit.
-/
namespace FexEmu.Interpreter

theorem toNat_and_63 (c : BitVec 64) : (c &&& 63#64).toNat = c.toNat % 64 := by
  exact Nat.and_two_pow_sub_one_eq_mod c.toNat 6

theorem toNat_and_31 (c : BitVec 64) : (c &&& 31#64).toNat = c.toNat % 32 := by
  exact Nat.and_two_pow_sub_one_eq_mod c.toNat 5

/-! ## Extracts -/

/-- The bits of an extract's mask. -/
def maskWidth (width : Nat) : Nat := if width = 64 then 64 else width % 64

theorem maskWidth_le (width : Nat) : maskWidth width ≤ 64 := by
  simp only [maskWidth]
  split <;> omega

theorem maskWidth_of_le {width : Nat} (h : width ≤ 64) : maskWidth width = width := by
  simp only [maskWidth]
  split <;> omega

theorem toNat_mask {w : Nat} (h : w < 64) : ((1#64 <<< w) - 1).toNat = 2 ^ w - 1 := by
  have pos : 0 < 2 ^ w := Nat.two_pow_pos w
  have lt : 2 ^ w < 2 ^ 64 := Nat.pow_lt_pow_right (by omega) h
  have shifted : (1#64 <<< w).toNat = 2 ^ w := by
    rw [BitVec.toNat_shiftLeft, BitVec.toNat_ofNat, Nat.one_mod, Nat.one_shiftLeft, Nat.mod_eq_of_lt lt]
  rw [BitVec.toNat_sub_of_le (by rw [BitVec.le_def, shifted]; exact pos), shifted]
  rfl

theorem getLsbD_sourceMask (width : Nat) {i : Nat} (hi : i < 64) :
    (sourceMask width).getLsbD i = decide (i < maskWidth width) := by
  simp only [sourceMask, maskWidth]
  split
  · rw [BitVec.getLsbD_not, BitVec.getLsbD_zero]
    simp [hi]
  · rw [← BitVec.testBit_toNat, toNat_mask (Nat.mod_lt _ (by omega)), Nat.testBit_two_pow_sub_one]

theorem getLsbD_opBfe (width lsb : Nat) (src : BitVec 64) (i : Nat) :
    (opBfe width lsb src).getLsbD i = (decide (i < maskWidth width) && src.getLsbD (lsb % 64 + i)) := by
  simp only [opBfe, BitVec.getLsbD_ushiftRight, BitVec.getLsbD_and, BitVec.getLsbD_shiftLeft]
  by_cases h : lsb % 64 + i < 64
  · have ge : ¬ lsb % 64 + i < lsb % 64 := by omega
    rw [Nat.add_sub_cancel_left, getLsbD_sourceMask width (show i < 64 by omega)]
    simp [h, ge, Bool.and_comm]
  · have above : src.getLsbD (lsb % 64 + i) = false := BitVec.getLsbD_of_ge src _ (by omega)
    rw [above, Bool.false_and, Bool.and_false]

theorem opBfe_32 (v : BitVec 64) : opBfe 32 0 v = (v.setWidth 32).setWidth 64 := by
  apply BitVec.eq_of_getLsbD_eq
  intro i hi
  rw [getLsbD_opBfe, maskWidth_of_le (by omega)]
  simp [hi]

theorem opSbfe_zero {w : Nat} (hw : 0 < w) (hle : w ≤ 64) (v : BitVec 64) :
    opSbfe w 0 v = (v.setWidth w).signExtend 64 := by
  apply BitVec.eq_of_getLsbD_eq
  simp only [opSbfe, BitVec.getLsbD_sshiftRight, BitVec.getLsbD_shiftLeft, BitVec.getLsbD_signExtend, BitVec.getLsbD_setWidth,
    BitVec.msb_eq_getLsbD_last]
  grind

theorem opSbfe_32 (v : BitVec 64) : opSbfe 32 0 v = (v.setWidth 32).signExtend 64 := opSbfe_zero (by decide) (by decide) v

end FexEmu.Interpreter
