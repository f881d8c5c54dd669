import Mathlib.Data.BitVec
/-!
# Widths

What cutting and extending a bit vector does to its value and to the operations, and sums of 64 bits on numbers.
-/
namespace FexEmu

theorem setWidth_sub {w n : Nat} (x y : BitVec w) (h : n ≤ w) : (x - y).setWidth n = x.setWidth n - y.setWidth n := by
  have hadd := BitVec.setWidth_add (x - y) y h
  rw [BitVec.sub_add_cancel] at hadd
  rw [hadd, BitVec.add_sub_cancel]

/-- A wider vector with the same number has the vector in its low bits. -/
theorem setWidth_setWidth_self {w n : Nat} (x : BitVec w) (h : w ≤ n) : (x.setWidth n).setWidth w = x := by
  rw [BitVec.setWidth_setWidth_of_le _ h, BitVec.setWidth_eq]

theorem setWidth_eq_zero {w n : Nat} {x : BitVec w} (h : w ≤ n) : x.setWidth n = 0 ↔ x = 0 := by
  rw [← BitVec.toNat_inj, ← BitVec.toNat_inj, BitVec.toNat_setWidth_of_le h]
  rfl

/-- A difference of the numbers that the width cannot hold. -/
theorem ssubOverflow_iff {w : Nat} (x y : BitVec w) :
    x.ssubOverflow y = decide ((x - y).toInt ≠ x.toInt - y.toInt) := by
  by_cases h : x.ssubOverflow y = true
  · have hlow := BitVec.le_two_mul_toInt (x := x - y)
    have hhigh := BitVec.two_mul_toInt_lt (x := x - y)
    rw [h, eq_comm, decide_eq_true_iff]
    intro heq
    rw [heq] at hlow hhigh
    rcases Nat.eq_zero_or_pos w with rfl | hw
    · simp [BitVec.ssubOverflow, BitVec.of_length_zero] at h
    · have hpow : (2 : Int) ^ w = 2 * 2 ^ (w - 1) := by
        rw [← pow_succ', Nat.sub_add_cancel hw]
      simp only [BitVec.ssubOverflow, Bool.or_eq_true, decide_eq_true_eq] at h
      omega
  · rw [BitVec.toInt_sub_of_not_ssubOverflow h, Bool.eq_false_of_not_eq_true h]
    exact (decide_eq_false fun hne => hne rfl).symm

/-! ## Numbers of 64 bits -/

def add64 (a b : Nat) : Nat := (a + b) % 2 ^ 64

def sub64 (a b : Nat) : Nat := (a + 2 ^ 64 - b) % 2 ^ 64

theorem add64_of_lt {a b : Nat} (h : a + b < 2 ^ 64) : add64 a b = a + b := Nat.mod_eq_of_lt h

theorem sub64_of_le {a b : Nat} (hb : b ≤ a) (ha : a < 2 ^ 64) : sub64 a b = a - b := by
  unfold sub64
  omega

end FexEmu
