import FexEmu.Data.FlatMemory
/-!
# Records of integers

Structures of C as layouts and values, and the copies that two structures with common field names make of each other.
-/
namespace FexEmu.Records

open ByteMemory (bytes)
open FlatMemory (Memory Byte Holds)

/-- An integer type of C. -/
structure CInt where
  bits : Nat
  signed : Bool
deriving DecidableEq

/-- What an assignment does to an integer: the source's sign decides how it is widened. -/
def CInt.convert (s d : CInt) (v : BitVec s.bits) : BitVec d.bits :=
  if s.signed then v.signExtend d.bits else v.setWidth d.bits

theorem CInt.convert_of_le {s d : CInt} (h : d.bits ≤ s.bits) (v : BitVec s.bits) : s.convert d v = v.setWidth d.bits := by
  unfold convert
  split
  · exact BitVec.signExtend_eq_setWidth_of_le v h
  · rfl

theorem CInt.convert_convert {s d : CInt} (h : s.bits ≤ d.bits) (v : BitVec s.bits) : d.convert s (s.convert d v) = v := by
  rw [convert_of_le h]
  unfold convert
  apply BitVec.eq_of_getLsbD_eq
  intro i hi
  have wide : i < d.bits := by omega
  split
  · rw [BitVec.getLsbD_setWidth, BitVec.getLsbD_signExtend]
    simp [hi, wide]
  · simp [hi, wide]

/-! ## Layouts -/

variable {K : Type} [DecidableEq K]

/-- A member of a C structure. -/
structure Member (K : Type) where
  key : K
  type : CInt
  /-- Padding is stored, but says nothing. -/
  padding : Bool

def Member.size (f : Member K) : Nat := f.type.bits / 8

abbrev Layout (K : Type) := List (Member K)

def field (k : K) (t : CInt) : Member K := ⟨k, t, false⟩

def padding (k : K) (t : CInt) : Member K := ⟨k, t, true⟩

namespace Layout

/-- The type of a field, the empty one for a field that is not there. -/
def type (L : Layout K) (k : K) : CInt := ((L.find? fun f => f.key = k).map Member.type).getD ⟨0, false⟩

abbrev Value (L : Layout K) := (k : K) → BitVec (L.type k).bits

def zero (L : Layout K) : L.Value := fun _ => 0

def size (L : Layout K) : Nat := (L.map Member.size).sum

def offset : Layout K → K → Nat
  | [], _ => 0
  | f :: L, k => if f.key = k then 0 else f.size + offset L k

/-- No field twice, and all of them fill whole bytes. -/
structure WellFormed (L : Layout K) : Prop where
  nodup : (L.map Member.key).Nodup
  whole : ∀ f ∈ L, f.type.bits % 8 = 0

instance (L : Layout K) : Decidable (WellFormed L) :=
  decidable_of_iff ((L.map Member.key).Nodup ∧ ∀ f ∈ L, f.type.bits % 8 = 0)
    ⟨fun h => ⟨h.1, h.2⟩, fun h => ⟨h.nodup, h.whole⟩⟩

variable {L S T : Layout K} {f : Member K} {k : K}

omit [DecidableEq K] in
theorem WellFormed.tail (h : WellFormed (f :: L)) : WellFormed L :=
  ⟨(List.nodup_cons.1 h.nodup).2, fun g hg => h.whole g (List.mem_cons_of_mem f hg)⟩

omit [DecidableEq K] in
theorem WellFormed.head_ne (h : WellFormed (f :: L)) {g : Member K} (hg : g ∈ L) : f.key ≠ g.key := by
  intro same
  apply (List.nodup_cons.1 h.nodup).1
  rw [same]
  exact List.mem_map_of_mem hg

theorem type_of_mem (h : WellFormed L) (hf : f ∈ L) : L.type f.key = f.type := by
  induction L with
  | nil => cases hf
  | cons g L ih =>
    rcases List.mem_cons.1 hf with rfl | hf
    · simp [type]
    · have rest := ih h.tail hf
      simp only [type, List.find?_cons] at rest ⊢
      rw [decide_eq_false (h.head_ne hf)]
      exact rest

/-- The named fields are copied from a value of one layout into a value of another. -/
def copyInto (ks : List K) (s : S.Value) (t : T.Value) : T.Value :=
  fun k => if k ∈ ks then (S.type k).convert (T.type k) (s k) else t k

theorem copyInto_mem {ks : List K} (h : k ∈ ks) (s : S.Value) (t : T.Value) :
    copyInto ks s t k = (S.type k).convert (T.type k) (s k) := if_pos h

theorem copyInto_not_mem {ks : List K} (h : k ∉ ks) (s : S.Value) (t : T.Value) : copyInto ks s t k = t k := if_neg h

/-! ## Storage -/

def encode (L : Layout K) (v : K → Nat) : List Byte := L.flatMap fun f => bytes f.size (v f.key)

def bytesOf (v : L.Value) : List Byte := L.encode fun k => (v k).toNat

def readFrom (L : Layout K) (m : Memory) (a : Nat) : L.Value :=
  fun k => BitVec.ofNat _ (FlatMemory.load m (a + L.offset k) ((L.type k).bits / 8))

def writeTo (m : Memory) (a : Nat) (v : L.Value) : Memory := FlatMemory.store m a (bytesOf v)

omit [DecidableEq K] in
@[simp] theorem encode_length (L : Layout K) (v : K → Nat) : (L.encode v).length = L.size := by
  induction L with
  | nil => rfl
  | cons f L ih => simp [encode, size] at ih ⊢

@[simp] theorem bytesOf_length (v : L.Value) : (bytesOf v).length = L.size := encode_length L _

variable {m : Memory} {a : Nat} {v : L.Value}

theorem holds_encode {v : K → Nat} (h : WellFormed L) :
    Holds m a (encode L v) ↔ ∀ f ∈ L, Holds m (a + offset L f.key) (bytes f.size (v f.key)) := by
  induction L generalizing a with
  | nil => simp [encode, Holds]
  | cons g L ih =>
    have first : offset (g :: L) g.key = 0 := if_pos rfl
    have later : ∀ f ∈ L, a + offset (g :: L) f.key = a + g.size + offset L f.key := by
      intro f hf
      rw [offset.eq_def]
      simp only [if_neg (h.head_ne hf), Nat.add_assoc]
    have split : encode (g :: L) v = bytes g.size (v g.key) ++ encode L v := rfl
    rw [split, FlatMemory.holds_append, ByteMemory.bytes_length, ih h.tail, List.forall_mem_cons, first, Nat.add_zero]
    apply and_congr_right
    intro _
    apply forall₂_congr
    intro f hf
    rw [later f hf]

theorem readFrom_of_holds (h : WellFormed L) (stored : Holds m a (bytesOf v)) (hf : f ∈ L) :
    L.readFrom m a f.key = v f.key := by
  have here := FlatMemory.load_of_holds ((holds_encode h).1 stored f hf)
  have size : (L.type f.key).bits / 8 = f.size := by rw [type_of_mem h hf, Member.size]
  have whole : (2 ^ 8) ^ f.size = 2 ^ (L.type f.key).bits := by
    rw [← pow_mul, type_of_mem h hf]
    congr 1
    have := h.whole f hf
    rw [Member.size]
    omega
  apply BitVec.eq_of_toNat_eq
  rw [readFrom, BitVec.toNat_ofNat, size, here, whole, Nat.mod_mod, Nat.mod_eq_of_lt (v f.key).isLt]

theorem readFrom_writeTo (h : WellFormed L) (hf : f ∈ L) : L.readFrom (writeTo m a v) a f.key = v f.key :=
  readFrom_of_holds h (FlatMemory.holds_store m a _) hf

theorem writeTo_eq_writeTo {w : L.Value} (h : WellFormed L) :
    writeTo m a v = writeTo m a w ↔ ∀ f ∈ L, v f.key = w f.key := by
  constructor
  · intro same f hf
    rw [← readFrom_writeTo (m := m) (a := a) (v := v) h hf, same, readFrom_writeTo h hf]
  · intro same
    have bytes : bytesOf v = bytesOf w := by
      apply List.flatMap_congr
      intro f hf
      simp [same f hf]
    rw [writeTo, bytes, writeTo]

theorem writeTo_eq_self (h : WellFormed L) : writeTo m a v = m ↔ ∀ f ∈ L, L.readFrom m a f.key = v f.key := by
  rw [writeTo, FlatMemory.store_eq_self]
  constructor
  · intro stored f hf
    exact readFrom_of_holds h stored hf
  · intro same
    apply (holds_encode h).2
    intro f hf
    have read : (v f.key).toNat = FlatMemory.load m (a + offset L f.key) f.size % (2 ^ 8) ^ f.size := by
      rw [← same f hf, readFrom, BitVec.toNat_ofNat, type_of_mem h hf, ← Member.size, ← pow_mul]
      congr 2
      have := h.whole f hf
      rw [Member.size]
      omega
    have there := FlatMemory.holds_load m (a + offset L f.key) f.size
    rwa [read, ← FlatMemory.load_of_holds there]

end Layout

end FexEmu.Records
