import FexEmu.Data.ByteMemory
/-!
# Bytes of numbers

A number as a list of bytes, the low one first, and lists of bytes that lie in memory.
-/
namespace FexEmu.ByteMemory

/-- The `n` low bytes of a number. -/
def bytes : Nat → Nat → List (BitVec 8)
  | 0, _ => []
  | n + 1, v => BitVec.ofNat 8 v :: bytes n (v / 2 ^ 8)

def ofBytes : List (BitVec 8) → Nat
  | [] => 0
  | b :: rest => 2 ^ 8 * ofBytes rest + b.toNat

@[simp] theorem bytes_length (n v : Nat) : (bytes n v).length = n := by
  induction n generalizing v with
  | zero => rfl
  | succ n ih => rw [bytes, List.length_cons, ih]

theorem ofBytes_bytes {n v : Nat} (h : v < (2 ^ 8) ^ n) : ofBytes (bytes n v) = v := by
  induction n generalizing v with
  | zero =>
    rw [pow_zero, Nat.lt_one_iff] at h
    rw [h]
    rfl
  | succ n ih =>
    have hrest : v / 2 ^ 8 < (2 ^ 8) ^ n := Nat.div_lt_of_lt_mul (by rwa [Nat.mul_comm])
    rw [bytes, ofBytes, ih hrest, BitVec.toNat_ofNat]
    omega

/-! ## Lists in memory -/

def readList (m : Memory) (a : BitVec 64) (n : Nat) : List (BitVec 8) :=
  (List.range n).map fun i => m (a + BitVec.ofNat 64 i)

/-- The bytes lie at an address. -/
def Stores (m : Memory) : BitVec 64 → List (BitVec 8) → Prop
  | _, [] => True
  | a, b :: rest => m a = b ∧ Stores m (a + 1#64) rest

variable {m : Memory} {a : BitVec 64} {l r : List (BitVec 8)}

theorem add_ofNat_succ (a : BitVec 64) (i : Nat) : a + BitVec.ofNat 64 (i + 1) = a + 1#64 + BitVec.ofNat 64 i := by
  rw [Nat.add_comm, BitVec.ofNat_add, BitVec.add_assoc]

theorem stores_append : Stores m a (l ++ r) ↔ Stores m a l ∧ Stores m (a + BitVec.ofNat 64 l.length) r := by
  induction l generalizing a with
  | nil =>
    rw [List.nil_append, List.length_nil, BitVec.add_zero]
    exact ⟨fun h => ⟨trivial, h⟩, fun h => h.2⟩
  | cons b l ih => rw [List.cons_append, Stores, Stores, ih, List.length_cons, add_ofNat_succ a l.length, and_assoc]

theorem readList_of_stores (h : Stores m a l) : readList m a l.length = l := by
  induction l generalizing a with
  | nil => rfl
  | cons b l ih =>
    have hrest : (List.range l.length).map (fun i => m (a + BitVec.ofNat 64 (i + 1))) = l := by
      refine (List.map_congr_left fun i _ => ?_).trans (ih h.2)
      rw [add_ofNat_succ a i]
    rw [readList, List.length_cons, List.range_succ_eq_map, List.map_cons, List.map_map, BitVec.add_zero, h.1]
    exact congrArg _ hrest

theorem readNat_of_stores {n v : Nat} (h : Stores m a (bytes n v)) (hv : v < (2 ^ 8) ^ n) : readNat m a n = v := by
  induction n generalizing a v with
  | zero =>
    rw [pow_zero, Nat.lt_one_iff] at hv
    rw [hv]
    rfl
  | succ n ih =>
    have hrest : v / 2 ^ 8 < (2 ^ 8) ^ n := Nat.div_lt_of_lt_mul (by rwa [Nat.mul_comm])
    rw [readNat, h.1, ih h.2 hrest, BitVec.toNat_ofNat]
    omega

end FexEmu.ByteMemory
