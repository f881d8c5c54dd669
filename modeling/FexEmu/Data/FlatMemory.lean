import FexEmu.Data.LittleEndian
import Mathlib.Data.List.GetD
/-!
# Flat memory

Memory as a function of addresses that do not wrap around, and lists of bytes that lie in it.
-/
namespace FexEmu.FlatMemory

open ByteMemory (bytes ofBytes)

abbrev Byte := BitVec 8

abbrev Memory := Nat → Byte

variable {m m' : Memory} {a b : Nat} {l r : List Byte}

def store (m : Memory) (a : Nat) (l : List Byte) : Memory :=
  fun b => if a ≤ b ∧ b < a + l.length then l.getD (b - a) 0 else m b

/-- The bytes lie at an address. -/
def Holds (m : Memory) (a : Nat) (l : List Byte) : Prop := ∀ i < l.length, m (a + i) = l.getD i 0

/-- The number of `n` bytes, the low one first. -/
def load (m : Memory) (a n : Nat) : Nat := ofBytes ((List.range n).map (fun i => m (a + i)))

/-- Two areas, given as the address and the length, have no byte in common. -/
def Apart (x y : Nat × Nat) : Prop := x.1 + x.2 ≤ y.1 ∨ y.1 + y.2 ≤ x.1

instance (x y : Nat × Nat) : Decidable (Apart x y) := inferInstanceAs (Decidable (_ ∨ _))

/-- An area lies in another one. -/
def Inside (x y : Nat × Nat) : Prop := y.1 ≤ x.1 ∧ x.1 + x.2 ≤ y.1 + y.2

instance (x y : Nat × Nat) : Decidable (Inside x y) := inferInstanceAs (Decidable (_ ∧ _))

theorem holds_store (m : Memory) (a : Nat) (l : List Byte) : Holds (store m a l) a l := by
  intro i hi
  simp [store, hi]

theorem store_outside (h : b < a ∨ a + l.length ≤ b) : store m a l b = m b := by
  apply if_neg
  omega

theorem Holds.congr (h : Holds m a l) (same : ∀ b, a ≤ b → b < a + l.length → m' b = m b) : Holds m' a l := by
  intro i hi
  rw [same (a + i) (by omega) (by omega), h i hi]

theorem Holds.store (h : Holds m a l) (apart : a + l.length ≤ b ∨ b + r.length ≤ a) : Holds (FlatMemory.store m b r) a l := by
  apply h.congr
  intro c ge lt
  apply store_outside
  omega

theorem holds_append : Holds m a (l ++ r) ↔ Holds m a l ∧ Holds m (a + l.length) r := by
  constructor
  · intro h
    constructor
    · intro i hi
      rw [h i (by simp; omega), List.getD_append _ _ _ _ hi]
    · intro i hi
      rw [Nat.add_assoc, h (l.length + i) (by simp; omega), List.getD_append_right _ _ _ _ (by omega), Nat.add_sub_cancel_left]
  · rintro ⟨hl, hr⟩ i hi
    by_cases lt : i < l.length
    · rw [hl i lt, List.getD_append _ _ _ _ lt]
    · rw [List.length_append] at hi
      have here := hr (i - l.length) (by omega)
      rw [Nat.add_assoc, Nat.add_sub_cancel' (by omega)] at here
      rw [here, List.getD_append_right _ _ _ _ (by omega)]

theorem holds_singleton {x : Byte} : Holds m a [x] ↔ m a = x := by
  simp [Holds]

theorem ofBytes_bytes_mod (n v : Nat) : ofBytes (bytes n v) = v % (2 ^ 8) ^ n := by
  induction n generalizing v with
  | zero => simp [bytes, ofBytes, Nat.mod_one]
  | succ n ih =>
    rw [bytes, ofBytes, ih, pow_succ' (2 ^ 8) n, BitVec.toNat_ofNat, Nat.mod_mul, Nat.add_comm]

theorem load_of_holds {n v : Nat} (h : Holds m a (bytes n v)) : load m a n = v % (2 ^ 8) ^ n := by
  have whole : (List.range n).map (fun i => m (a + i)) = bytes n v := by
    apply List.ext_getElem
    · simp
    · intro i h1 h2
      rw [List.getElem_map, List.getElem_range, h i h2, List.getD_eq_getElem _ _ h2]
  rw [load, whole, ofBytes_bytes_mod]

theorem bytes_ofBytes (l : List Byte) : bytes l.length (ofBytes l) = l := by
  induction l with
  | nil => rfl
  | cons b l ih =>
    have low : BitVec.ofNat 8 (2 ^ 8 * ofBytes l + b.toNat) = b := by
      apply BitVec.eq_of_toNat_eq
      rw [BitVec.toNat_ofNat]
      omega
    have high : (2 ^ 8 * ofBytes l + b.toNat) / 2 ^ 8 = ofBytes l := by
      omega
    rw [List.length_cons, ofBytes, bytes, low, high, ih]

theorem load_lt (m : Memory) (a n : Nat) : load m a n < (2 ^ 8) ^ n := by
  have whole := ofBytes_bytes_mod n (load m a n)
  have same := bytes_ofBytes ((List.range n).map (fun i => m (a + i)))
  rw [List.length_map, List.length_range] at same
  rw [load, same] at whole
  rw [load, whole]
  exact Nat.mod_lt _ (by positivity)

theorem holds_load (m : Memory) (a n : Nat) : Holds m a (bytes n (load m a n)) := by
  have whole := bytes_ofBytes ((List.range n).map (fun i => m (a + i)))
  rw [List.length_map, List.length_range] at whole
  rw [load, whole]
  intro i hi
  rw [List.getD_eq_getElem _ _ hi, List.getElem_map, List.getElem_range]

theorem store_eq_self : store m a l = m ↔ Holds m a l := by
  constructor
  · intro h
    rw [← h]
    exact holds_store m a l
  · intro h
    funext b
    unfold store
    split
    · rename_i within
      have here := h (b - a) (by omega)
      rw [← here, Nat.add_sub_cancel' within.1]
    · rfl

theorem apart_of_inside {x y : Nat × Nat} {a n b k : Nat} (hx : Inside x (a, n)) (hy : Inside y (b, k)) (behind : a + n ≤ b) :
    Apart x y := by
  obtain ⟨_, _⟩ := hx
  obtain ⟨_, _⟩ := hy
  exact .inl (by omega)

theorem Inside.trans {x y z : Nat × Nat} (h : Inside x y) (h' : Inside y z) : Inside x z := by
  obtain ⟨_, _⟩ := h
  obtain ⟨_, _⟩ := h'
  exact ⟨by omega, by omega⟩

end FexEmu.FlatMemory
