import Mathlib.Tactic
/-!
# FlexBitSet

A set of bits in 64-bit words. `MemSet` fills a number of bytes that is computed as if it were words.
-/
namespace FexEmu

/-- The words of `Memory`. -/
abbrev FlexBitSet := Nat → BitVec 64

/-- On `uint64_t`. -/
def alignUp (value size : Nat) : Nat := (value + (size - value % size) % size) % 2 ^ 64

namespace FlexBitSet

def minimumSizeBits : Nat := 64

def get (memory : FlexBitSet) (element : Nat) : Bool :=
  (memory (element / minimumSizeBits) &&& (1#64 <<< (element % minimumSizeBits))) != 0

def set (memory : FlexBitSet) (element : Nat) : FlexBitSet :=
  Function.update memory (element / minimumSizeBits)
    (memory (element / minimumSizeBits) ||| (1#64 <<< (element % minimumSizeBits)))

def clear (memory : FlexBitSet) (element : Nat) : FlexBitSet :=
  Function.update memory (element / minimumSizeBits)
    (memory (element / minimumSizeBits) &&& ~~~(1#64 <<< (element % minimumSizeBits)))

def testAndClear (memory : FlexBitSet) (element : Nat) : Bool × FlexBitSet :=
  (memory.get element, memory.clear element)

/-- The bytes of `elements` bits. -/
def size (elements : Nat) : Nat := alignUp (elements / minimumSizeBits) minimumSizeBits

/-- `memset` with `0xFF`, eight bytes a word. -/
def memSet (memory : FlexBitSet) (elements : Nat) : FlexBitSet :=
  fun word => if word < alignUp (elements / minimumSizeBits) minimumSizeBits / 8 then BitVec.allOnes 64 else memory word

/-! ## Bits -/

theorem and_twoPow_ne_zero (x : BitVec 64) {i : Nat} (hi : i < 64) : ((x &&& (1#64 <<< i)) != 0) = x.getLsbD i := by
  have hand : x &&& (1#64 <<< i) = if x.getLsbD i then BitVec.twoPow 64 i else 0#64 := by
    rw [← BitVec.twoPow_eq, BitVec.and_twoPow]
  rw [hand]
  cases h : x.getLsbD i with
  | false => simp
  | true =>
    have hne : BitVec.twoPow 64 i ≠ 0#64 := by
      intro h0
      have := congrArg (·.getLsbD i) h0
      simp [hi] at this
    simpa using hne

theorem get_eq (m : FlexBitSet) (e : Nat) : m.get e = (m (e / 64)).getLsbD (e % 64) :=
  and_twoPow_ne_zero _ (Nat.mod_lt _ (by decide))

@[simp] theorem get_set (m : FlexBitSet) (e i : Nat) : (m.set e).get i = (decide (i = e) || m.get i) := by
  have he : e % 64 < 64 := Nat.mod_lt _ (by decide)
  simp only [get_eq, set, minimumSizeBits]
  by_cases hw : i / 64 = e / 64
  · have hiff : (e % 64 = i % 64) ↔ i = e := by omega
    rw [hw, Function.update_self, BitVec.getLsbD_or, ← BitVec.twoPow_eq, BitVec.getLsbD_twoPow, ← hw, Bool.or_comm]
    simp [he, hiff]
  · rw [Function.update_of_ne hw]
    have : i ≠ e := fun h => hw (by rw [h])
    simp [this]

@[simp] theorem get_clear (m : FlexBitSet) (e i : Nat) : (m.clear e).get i = (decide (i ≠ e) && m.get i) := by
  have he : e % 64 < 64 := Nat.mod_lt _ (by decide)
  have hi : i % 64 < 64 := Nat.mod_lt _ (by decide)
  simp only [get_eq, clear, minimumSizeBits]
  by_cases hw : i / 64 = e / 64
  · have hiff : (e % 64 = i % 64) ↔ i = e := by omega
    rw [hw, Function.update_self, BitVec.getLsbD_and, BitVec.getLsbD_not, ← BitVec.twoPow_eq, BitVec.getLsbD_twoPow,
      ← hw, Bool.and_comm]
    simp [he, hi, hiff]
  · rw [Function.update_of_ne hw]
    have : i ≠ e := fun h => hw (by rw [h])
    simp [this]

theorem alignUp_eq {v k : Nat} (hk : 0 < k) (h : v + k ≤ 2 ^ 64) : alignUp v k = (v + (k - 1)) / k * k := by
  have hv := Nat.div_add_mod v k
  have hm := Nat.mod_lt v hk
  have hq : k * (v / k) = v / k * k := Nat.mul_comm _ _
  have hadd : (v + (k - 1)) / k = v / k + (v % k + (k - 1)) / k := by
    conv_lhs => rw [← hv, Nat.add_assoc, Nat.mul_add_div hk]
  unfold alignUp
  rcases Nat.eq_zero_or_pos (v % k) with h0 | hpos
  · have hzero : (v % k + (k - 1)) / k = 0 := Nat.div_eq_of_lt (by omega)
    rw [hadd, hzero, h0, Nat.sub_zero, Nat.mod_self, Nat.add_zero, Nat.add_zero, Nat.mod_eq_of_lt (by omega)]
    omega
  · have hone : (v % k + (k - 1)) / k = 1 := by
      refine Nat.div_eq_of_lt_le ?_ ?_ <;> omega
    have hlt : v + (k - v % k) < 2 ^ 64 := by omega
    rw [hadd, hone, Nat.mod_eq_of_lt (show k - v % k < k by omega), Nat.mod_eq_of_lt hlt, Nat.add_mul, Nat.one_mul]
    omega

def memSetBits (elements : Nat) : Nat := 8 * alignUp (elements / 64) 64

theorem get_memSet (m : FlexBitSet) {n : Nat} (hn : n < 2 ^ 64) (i : Nat) :
    (m.memSet n).get i = (decide (i < memSetBits n) || m.get i) := by
  have hbytes : alignUp (n / 64) 64 = (n / 64 + 63) / 64 * 64 := alignUp_eq (by decide) (by omega)
  have hword : i / 64 < alignUp (n / 64) 64 / 8 ↔ i < memSetBits n := by
    rw [memSetBits, hbytes]
    omega
  have hi : i % 64 < 64 := Nat.mod_lt _ (by decide)
  simp only [get_eq, memSet, minimumSizeBits, hword]
  by_cases h : i < memSetBits n
  · rw [if_pos h, BitVec.getLsbD_allOnes]
    simp [h, hi]
  · simp [h]

end FlexBitSet
end FexEmu
