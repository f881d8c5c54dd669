import Mathlib.Tactic
/-!
# The guest context

`CPUState` as bytes, which `LoadContext` and `StoreContext` address by offset.
-/
namespace FexEmu.IR

/-- The bytes of `CPUState` by offset. -/
abbrev Context := Nat → UInt8

abbrev Value := Nat

/-- `memcpy` from the context, zero extended. -/
def loadBytes (c : Context) : (offset size : Nat) → Value
  | _, 0 => 0
  | offset, size + 1 => (c offset).toNat + 256 * loadBytes c (offset + 1) size

/-- `memcpy` of the low bytes of a value to the context. -/
def storeBytes (c : Context) (offset size : Nat) (v : Value) : Context := fun a =>
  if offset ≤ a ∧ a < offset + size then UInt8.ofNat (v / 256 ^ (a - offset)) else c a

def ripOffset : Nat := 0

def gregsOffset : Nat := 8

def xmmOffset : Nat := 160

def flagsOffset : Nat := 672

def mmOffset : Nat := 720

def numFlags : Nat := 48

def xmmRegSize (avx : Bool) : Nat := if avx then 32 else 16

def isFlagByte (a : Nat) : Bool := decide (flagsOffset ≤ a) && decide (a < flagsOffset + numFlags)

/-! ## Loads and stores -/

theorem loadBytes_congr {c c' : Context} {offset size : Nat}
    (h : ∀ a, offset ≤ a → a < offset + size → c a = c' a) : loadBytes c offset size = loadBytes c' offset size := by
  induction size generalizing offset with
  | zero => rfl
  | succ size ih =>
    unfold loadBytes
    rw [h offset (le_refl _) (by omega), ih (fun a h1 h2 => h a (by omega) (by omega))]

theorem storeBytes_of_mem {c : Context} {offset size a : Nat} {v : Value} (h : offset ≤ a ∧ a < offset + size) :
    storeBytes c offset size v a = UInt8.ofNat (v / 256 ^ (a - offset)) := if_pos h

theorem storeBytes_of_not_mem {c : Context} {offset size a : Nat} {v : Value}
    (h : ¬ (offset ≤ a ∧ a < offset + size)) : storeBytes c offset size v a = c a := if_neg h

theorem loadBytes_mod (c : Context) {offset size n : Nat} (h : n ≤ size) :
    loadBytes c offset size % 256 ^ n = loadBytes c offset n := by
  induction n generalizing offset size with
  | zero => rw [pow_zero, Nat.mod_one]; rfl
  | succ n ih =>
    obtain ⟨size, rfl⟩ : ∃ k, size = k + 1 := ⟨size - 1, by omega⟩
    have hb : (c offset).toNat < 256 := (c offset).toNat_lt
    unfold loadBytes
    rw [← @ih (offset + 1) size (by omega), pow_succ, Nat.mul_comm (256 ^ n), Nat.mod_mul, Nat.add_mul_mod_self_left,
      Nat.mod_eq_of_lt hb, Nat.add_mul_div_left _ _ (by decide), Nat.div_eq_of_lt hb, Nat.zero_add]

theorem loadBytes_lt (c : Context) (offset size : Nat) : loadBytes c offset size < 256 ^ size := by
  rw [← loadBytes_mod c (Nat.le_refl size)]
  exact Nat.mod_lt _ (Nat.pow_pos (by decide))

theorem loadBytes_storeBytes (c : Context) (offset size : Nat) (v : Value) :
    loadBytes (storeBytes c offset size v) offset size = v % 256 ^ size := by
  suffices h : ∀ n k, n + k = size →
      loadBytes (storeBytes c offset size v) (offset + n) k = v / 256 ^ n % 256 ^ k by
    simpa using h 0 size (Nat.zero_add _)
  intro n k
  induction k generalizing n with
  | zero => intro _; rw [pow_zero, Nat.mod_one]; rfl
  | succ k ih =>
    intro hk
    unfold loadBytes
    rw [storeBytes_of_mem ⟨by omega, by omega⟩, Nat.add_assoc, ih (n + 1) (by omega), Nat.add_sub_cancel_left,
      pow_succ 256 k, Nat.mul_comm (256 ^ k), Nat.mod_mul, Nat.div_div_eq_div_mul, ← pow_succ]
    rfl

end FexEmu.IR
