import Mathlib.Tactic
import Mathlib.Data.BitVec
/-!
# Byte memory

Memory is a function of addresses that wrap around. Two areas are apart if each starts behind the end of the other.
-/
namespace FexEmu.ByteMemory

abbrev Memory := BitVec 64 → BitVec 8

variable {m m' : Memory} {a b : BitVec 64} {w w' n k : Nat}

def readNat (m : Memory) (a : BitVec 64) : Nat → Nat
  | 0 => 0
  | n + 1 => 2 ^ 8 * readNat m (a + 1#64) n + (m a).toNat

def read (m : Memory) (a : BitVec 64) (w : Nat) : BitVec w := BitVec.ofNat w (readNat m a ((w + 7) / 8))

def write (m : Memory) (a : BitVec 64) (x : BitVec w) : Memory :=
  fun b => if 8 * (b - a).toNat < w then x.extractLsb' (8 * (b - a).toNat) 8 else m b

/-- Two ranges of bytes that do not meet, also around the end of the address space. -/
def Apart (a : BitVec 64) (n : Nat) (b : BitVec 64) (k : Nat) : Prop := n ≤ (b - a).toNat ∧ k ≤ (a - b).toNat

/-- Two memories are the same in an area. -/
def Agree (m m' : Memory) (a : BitVec 64) (n : Nat) : Prop := ∀ b, (b - a).toNat < n → m b = m' b

theorem testBit_readNat (n : Nat) : ∀ (a : BitVec 64) (i : Nat), i < 8 * n →
    (readNat m a n).testBit i = (m (a + BitVec.ofNat 64 (i / 8))).getLsbD (i % 8) := by
  induction n with
  | zero => intro a i hi; omega
  | succ n ih =>
    intro a i hi
    rw [readNat, Nat.testBit_two_pow_mul_add _ (m a).isLt]
    by_cases h8 : i < 8
    · rw [if_pos h8, Nat.div_eq_of_lt h8, Nat.mod_eq_of_lt h8]
      simp [BitVec.getLsbD]
    · have hdiv : i / 8 = (i - 8) / 8 + 1 := by omega
      have hmod : i % 8 = (i - 8) % 8 := by omega
      have haddr : a + BitVec.ofNat 64 ((i - 8) / 8 + 1) = a + 1#64 + BitVec.ofNat 64 ((i - 8) / 8) := by
        rw [BitVec.ofNat_add]
        ring
      rw [if_neg h8, ih (a + 1#64) (i - 8) (by omega), hdiv, hmod, haddr]

theorem getLsbD_read (i : Nat) (hi : i < w) :
    (read m a w).getLsbD i = (m (a + BitVec.ofNat 64 (i / 8))).getLsbD (i % 8) := by
  rw [read, BitVec.getLsbD_ofNat, testBit_readNat _ a i (by omega)]
  simp [hi]

theorem read_congr (h : ∀ i < w, m (a + BitVec.ofNat 64 (i / 8)) = m' (a + BitVec.ofNat 64 (i / 8))) :
    read m a w = read m' a w := by
  apply BitVec.eq_of_getLsbD_eq
  intro i hi
  rw [getLsbD_read i hi, getLsbD_read i hi, h i hi]

theorem add_ofNat_sub (a : BitVec 64) {i : Nat} (hi : i < 2 ^ 64) : (a + BitVec.ofNat 64 i - a).toNat = i := by
  rw [add_sub_cancel_left, BitVec.toNat_ofNat, Nat.mod_eq_of_lt hi]

theorem read_write (x : BitVec w) (hw : w ≤ 2 ^ 64) : read (write m a x) a w = x := by
  apply BitVec.eq_of_getLsbD_eq
  intro i hi
  have hd : (a + BitVec.ofNat 64 (i / 8) - a).toNat = i / 8 := add_ofNat_sub a (by omega)
  have hlt : 8 * (i / 8) < w := by omega
  rw [getLsbD_read i hi, write, hd, if_pos hlt, BitVec.getLsbD_extractLsb']
  have hmod : i % 8 < 8 := Nat.mod_lt i (by decide)
  simp [hmod, Nat.div_add_mod]

theorem write_apply (x : BitVec w) :
    write m a x b = if 8 * (b - a).toNat < w then x.extractLsb' (8 * (b - a).toNat) 8 else m b := rfl

theorem write_of_le (x : BitVec w) (h : w ≤ 8 * (b - a).toNat) : write m a x b = m b := by
  rw [write, if_neg (by omega)]

theorem write_agree (x : BitVec w) (h : Apart a ((w + 7) / 8) b n) : Agree (write m a x) m b n := by
  intro c hc
  apply write_of_le
  obtain ⟨h1, h2⟩ := h
  have hca : c - a = (c - b) + (b - a) := by ring
  have hab : (a - b).toNat = (2 ^ 64 - (b - a).toNat) % 2 ^ 64 := by
    rw [← neg_sub, BitVec.toNat_neg]
  have hsum := BitVec.toNat_add (c - b) (b - a)
  rw [← hca] at hsum
  omega

theorem Agree.trans {m'' : Memory} (h : Agree m m' a n) (h' : Agree m' m'' a n) : Agree m m'' a n :=
  fun c hc => (h c hc).trans (h' c hc)

theorem Agree.mono (h : Agree m m' a n) (hin : (b - a).toNat + k ≤ n) (hn : n ≤ 2 ^ 64) : Agree m m' b k := by
  intro c hc
  apply h
  have hca : c - a = (c - b) + (b - a) := by ring
  have hsum := BitVec.toNat_add (c - b) (b - a)
  rw [← hca] at hsum
  omega

theorem read_of_agree (h : Agree m m' a ((w + 7) / 8)) (hw : w ≤ 2 ^ 64) : read m a w = read m' a w := by
  apply read_congr
  intro i hi
  apply h
  rw [add_ofNat_sub a (by omega)]
  omega

theorem read_write_apart (x : BitVec w) (h : Apart a ((w + 7) / 8) b ((w' + 7) / 8)) (hw : w' ≤ 2 ^ 64) :
    read (write m a x) b w' = read m b w' :=
  read_of_agree (write_agree x h) hw

theorem apart_offset (c d : BitVec 64) : Apart (a + c) n (a + d) k ↔ n ≤ (d - c).toNat ∧ k ≤ (c - d).toNat := by
  rw [Apart, add_sub_add_left_eq_sub, add_sub_add_left_eq_sub]

theorem Apart.inside {a' b' : BitVec 64} {n' k' : Nat} (h : Apart a n b k) (ha : (a' - a).toNat + n' ≤ n)
    (hb : (b' - b).toNat + k' ≤ k) (hn' : 0 < n') (hk' : 0 < k') : Apart a' n' b' k' := by
  obtain ⟨h1, h2⟩ := h
  have hab : (a - b).toNat = (2 ^ 64 - (b - a).toNat) % 2 ^ 64 := by
    rw [← neg_sub, BitVec.toNat_neg]
  have heq : b' - a' = (b - a) + ((b' - b) - (a' - a)) := by ring
  have hsum : (b' - a').toNat = (b - a).toNat + (b' - b).toNat - (a' - a).toNat := by
    rw [heq]
    generalize b - a = d at *
    rw [BitVec.toNat_add, BitVec.toNat_sub]
    omega
  have hba : (a' - b').toNat = (2 ^ 64 - (b' - a').toNat) % 2 ^ 64 := by
    rw [← neg_sub, BitVec.toNat_neg]
  exact ⟨by omega, by omega⟩

theorem Apart.symm (h : Apart a n b k) : Apart b k a n := ⟨h.2, h.1⟩

theorem read_lower (m : Memory) (a : BitVec 64) (h : w ≤ w') : (read m a w').setWidth w = read m a w := by
  apply BitVec.eq_of_getLsbD_eq
  intro i hi
  rw [BitVec.getLsbD_setWidth, getLsbD_read i (by omega), getLsbD_read i hi]
  simp [hi]

/-! ## Places at offsets from an address -/

section Offsets
variable {d e : Nat}

theorem sub_offset (hd : d < 2 ^ 64) : (b - (a + BitVec.ofNat 64 d)).toNat = ((b - a).toNat + (2 ^ 64 - d)) % 2 ^ 64 := by
  rw [← sub_sub, BitVec.toNat_sub, BitVec.toNat_ofNat, Nat.mod_eq_of_lt hd, Nat.add_comm]

theorem write_offset_of_out (x : BitVec w) (hd : d + (w + 7) / 8 ≤ 2 ^ 64)
    (h : (b - a).toNat < d ∨ d + (w + 7) / 8 ≤ (b - a).toNat) : write m (a + BitVec.ofNat 64 d) x b = m b := by
  by_cases hd' : d < 2 ^ 64
  · have hsub := sub_offset (a := a) (b := b) hd'
    apply write_of_le
    omega
  · apply write_of_le
    omega

theorem read_offset_congr (he : e + (w + 7) / 8 ≤ 2 ^ 64)
    (h : ∀ b, e ≤ (b - a).toNat → (b - a).toNat < e + (w + 7) / 8 → m b = m' b) :
    read m (a + BitVec.ofNat 64 e) w = read m' (a + BitVec.ofNat 64 e) w := by
  apply read_congr
  intro i hi
  have hplace : (a + BitVec.ofNat 64 e + BitVec.ofNat 64 (i / 8) - a).toNat = e + i / 8 := by
    rw [BitVec.add_assoc, ← BitVec.ofNat_add, add_ofNat_sub a (by omega)]
  exact h _ (by omega) (by omega)

theorem read_write_offset (x : BitVec w) (hd : d + (w + 7) / 8 ≤ 2 ^ 64) (he : e + (w' + 7) / 8 ≤ 2 ^ 64)
    (h : d + (w + 7) / 8 ≤ e ∨ e + (w' + 7) / 8 ≤ d) :
    read (write m (a + BitVec.ofNat 64 d) x) (a + BitVec.ofNat 64 e) w' = read m (a + BitVec.ofNat 64 e) w' := by
  apply read_offset_congr he
  intro b hlow hup
  exact write_offset_of_out x hd (by omega)

end Offsets

attribute [irreducible] read write

end FexEmu.ByteMemory
