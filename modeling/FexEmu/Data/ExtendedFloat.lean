import Mathlib.Tactic
import Mathlib.Data.BitVec
/-!
# Extended precision

The integers among the 80-bit numbers, whose significand has an explicit integer bit.
-/
namespace FexEmu

/-- The 80-bit format, whose integer bit is explicit. -/
structure ExtendedFloat where
  significand : BitVec 64
  exponent : BitVec 15
  sign : Bool
deriving DecidableEq, Repr

namespace ExtendedFloat

def bias : Nat := 16383

/-- The canonical number `(-1) ^ sign * m`, for an `m` of 64 bits. -/
def ofNat (sign : Bool) (m : Nat) : ExtendedFloat :=
  if m = 0 then ⟨0, 0, sign⟩
  else ⟨BitVec.ofNat 64 (m * 2 ^ (63 - m.log2)), BitVec.ofNat 15 (bias + m.log2), sign⟩

/-- The number is `(-1) ^ sign * m`, and its integer bit is set unless it is zero. -/
structure Encodes (x : ExtendedFloat) (sign : Bool) (m : Nat) : Prop where
  sign : x.sign = sign
  value : x.significand.toNat * 2 ^ x.exponent.toNat = m * 2 ^ (bias + 63)
  integerBit : m ≠ 0 → x.significand.msb = true
  zero : m = 0 → x.exponent = 0

variable {m : Nat} {s : Bool}

theorem log2_bounds (h0 : m ≠ 0) (hm : m < 2 ^ 64) :
    m.log2 ≤ 63 ∧ 2 ^ 63 ≤ m * 2 ^ (63 - m.log2) ∧ m * 2 ^ (63 - m.log2) < 2 ^ 64 := by
  have hle : m.log2 < 64 := (Nat.log2_lt h0).mpr hm
  have hlow : 2 ^ m.log2 ≤ m := Nat.log2_self_le h0
  have hup : m < 2 ^ (m.log2 + 1) := Nat.lt_log2_self
  refine ⟨by omega, ?_, ?_⟩
  · calc 2 ^ 63 = 2 ^ m.log2 * 2 ^ (63 - m.log2) := by rw [← Nat.pow_add, Nat.add_sub_cancel' (by omega)]
      _ ≤ m * 2 ^ (63 - m.log2) := Nat.mul_le_mul_right _ hlow
  · calc m * 2 ^ (63 - m.log2) < 2 ^ (m.log2 + 1) * 2 ^ (63 - m.log2) :=
          Nat.mul_lt_mul_of_pos_right hup (Nat.two_pow_pos _)
      _ = 2 ^ 64 := by rw [← Nat.pow_add]; congr 1; omega

theorem ofNat_significand (hm : m < 2 ^ 64) : (ofNat s m).significand.toNat = m * 2 ^ (63 - m.log2) := by
  unfold ofNat
  split
  · case isTrue h0 => simp [h0]
  · case isFalse h0 =>
    rw [BitVec.toNat_ofNat, Nat.mod_eq_of_lt (log2_bounds h0 hm).2.2]

theorem ofNat_exponent (h0 : m ≠ 0) (hm : m < 2 ^ 64) : (ofNat s m).exponent.toNat = bias + m.log2 := by
  have := (log2_bounds h0 hm).1
  rw [ofNat, if_neg h0, BitVec.toNat_ofNat, Nat.mod_eq_of_lt (by rw [bias]; omega)]

@[simp] theorem ofNat_sign : (ofNat s m).sign = s := by
  unfold ofNat
  split <;> rfl

theorem ofNat_zero : ofNat s 0 = ⟨0, 0, s⟩ := rfl

theorem ofNat_encodes (hm : m < 2 ^ 64) : (ofNat s m).Encodes s m := by
  refine ⟨ofNat_sign, ?_, ?_, ?_⟩
  · by_cases h0 : m = 0
    · subst h0
      rw [ofNat_zero, Nat.zero_mul]
      exact Nat.zero_mul _
    · have hlog := (log2_bounds h0 hm).1
      rw [ofNat_significand hm, ofNat_exponent h0 hm, Nat.mul_assoc, ← Nat.pow_add,
        show 63 - m.log2 + (bias + m.log2) = bias + 63 by omega]
  · intro h0
    rw [BitVec.msb_eq_decide, ofNat_significand hm]
    simpa using (log2_bounds h0 hm).2.1
  · rintro rfl
    rfl

end ExtendedFloat

end FexEmu
