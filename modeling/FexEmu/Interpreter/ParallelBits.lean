import FexEmu.Interpreter.ALUOpsProofs
import Mathlib.Data.Nat.Count
/-!
# Parallel deposit and extract

A round of `PDep` or `PExt` takes the lowest bit of the mask that is left. The manual's loops go over all its bits.
-/
namespace FexEmu.Interpreter

open BitVec (eq_of_getLsbD_eq getLsbD_false_of_lt_ctz getLsbD_of_ge getLsbD_or getLsbD_setWidth ofBool toNat_cpop_le)

section
variable {w : Nat}

def depositBits (temp mask : BitVec w) : Nat → Nat × BitVec w
  | 0 => (0, 0)
  | m + 1 =>
    let taken := depositBits temp mask m
    if mask.getLsbD m then (taken.1 + 1, taken.2 ||| (ofBool (temp.getLsbD taken.1)).setWidth w <<< m) else taken

/-- PEXT over the lowest bits of the mask. -/
def extractBits (temp mask : BitVec w) : Nat → Nat × BitVec w
  | 0 => (0, 0)
  | m + 1 =>
    let taken := extractBits temp mask m
    if mask.getLsbD m then (taken.1 + 1, taken.2 ||| (ofBool (temp.getLsbD m)).setWidth w <<< taken.1) else taken

def pdep (temp mask : BitVec w) : BitVec w := (depositBits temp mask w).2

def pext (temp mask : BitVec w) : BitVec w := (extractBits temp mask w).2

/-! ## Bits below a bit -/

/-- The number of set bits below a bit. -/
def rank (mask : BitVec w) (i : Nat) : Nat := Nat.count (mask.getLsbD · = true) i

theorem rank_succ (mask : BitVec w) (i : Nat) : rank mask (i + 1) = rank mask i + if mask.getLsbD i then 1 else 0 :=
  Nat.count_succ _ i

theorem cpopNatRec_eq_rank (mask : BitVec w) (i : Nat) : mask.cpopNatRec i 0 = rank mask i := by
  induction i with
  | zero => rfl
  | succ i ih =>
    rw [BitVec.cpopNatRec_succ, BitVec.cpopNatRec_eq, ih, rank_succ]
    cases mask.getLsbD i <;> simp

theorem toNat_cpop_eq_rank (mask : BitVec w) : mask.cpop.toNat = rank mask w := by
  rw [BitVec.toNat_cpop, cpopNatRec_eq_rank]

theorem rank_le (mask : BitVec w) (i : Nat) : rank mask i ≤ i := Nat.count_le _

theorem rank_lt (mask : BitVec w) {i j : Nat} (hi : mask.getLsbD i = true) (h : i < j) : rank mask i < rank mask j :=
  Nat.count_strict_mono hi h

theorem rank_inj (mask : BitVec w) {i j : Nat} (hi : mask.getLsbD i = true) (hj : mask.getLsbD j = true)
    (h : rank mask i = rank mask j) : i = j :=
  Nat.count_injective hi hj h

theorem exists_of_lt_rank (mask : BitVec w) {k : Nat} : ∀ {n : Nat}, k < rank mask n →
    ∃ i < n, mask.getLsbD i = true ∧ rank mask i = k
  | 0, h => absurd h (Nat.not_lt_zero _)
  | n + 1, h => by
    rw [rank_succ] at h
    by_cases hlt : k < rank mask n
    · obtain ⟨i, hi, hbit, hrank⟩ := exists_of_lt_rank mask hlt
      exact ⟨i, by omega, hbit, hrank⟩
    · split at h
      case isTrue hbit => exact ⟨n, by omega, hbit, by omega⟩
      case isFalse => omega

theorem rank_setWidth {v : Nat} (mask : BitVec w) (hw : w ≤ v) {i : Nat} (hi : i ≤ w) :
    rank (mask.setWidth v) i = rank mask i := by
  induction i with
  | zero => rfl
  | succ i ih =>
    rw [rank_succ, rank_succ, ih (by omega), getLsbD_setWidth, decide_eq_true (by omega), Bool.true_and]

/-! ## The loops of the manual -/

theorem ofBool_shiftLeft_bit (b : Bool) (n i : Nat) :
    ((ofBool b).setWidth w <<< n).getLsbD i = (decide (i < w) && (decide (i = n) && b)) := by
  rw [BitVec.getLsbD_shiftLeft, getLsbD_setWidth]
  by_cases h : i = n
  · subst h
    cases b <;> simp
    omega
  · rcases Nat.lt_or_ge i n with hlt | hge
    · simp [h, hlt]
    · have hbit : (ofBool b).getLsbD (i - n) = false := getLsbD_of_ge _ _ (by omega)
      rw [hbit]
      simp [h]

theorem depositBits_rank (temp mask : BitVec w) (m : Nat) : (depositBits temp mask m).1 = rank mask m := by
  induction m with
  | zero => rfl
  | succ m ih =>
    rw [rank_succ, ← ih, depositBits]
    split <;> rfl

theorem depositBits_bit (temp mask : BitVec w) (m i : Nat) :
    (depositBits temp mask m).2.getLsbD i = (decide (i < m) && (mask.getLsbD i && temp.getLsbD (rank mask i))) := by
  induction m with
  | zero => simp [depositBits]
  | succ m ih =>
    have hrank := depositBits_rank temp mask m
    rw [depositBits]
    by_cases hmask : mask.getLsbD m = true
    · rw [if_pos hmask, getLsbD_or, ih, ofBool_shiftLeft_bit, hrank]
      by_cases him : i = m
      · subst him
        have hw : i < w := by
          by_contra hge
          rw [getLsbD_of_ge _ _ (by omega)] at hmask
          cases hmask
        simp [hmask, hw]
      · simp [him, show i < m + 1 ↔ i < m by omega]
    · rw [if_neg hmask, ih]
      by_cases him : i = m
      · subst him
        simp [hmask]
      · simp [show i < m + 1 ↔ i < m by omega]

theorem pdep_bit (temp mask : BitVec w) (i : Nat) :
    (pdep temp mask).getLsbD i = (mask.getLsbD i && temp.getLsbD (rank mask i)) := by
  unfold pdep
  rw [depositBits_bit]
  by_cases hi : i < w
  · simp [hi]
  · rw [getLsbD_of_ge mask _ (by omega)]
    simp

theorem extractBits_rank (temp mask : BitVec w) (m : Nat) : (extractBits temp mask m).1 = rank mask m := by
  induction m with
  | zero => rfl
  | succ m ih =>
    rw [rank_succ, ← ih, extractBits]
    split <;> rfl

theorem extractBits_bit (temp mask : BitVec w) {m : Nat} (hm : m ≤ w) (k : Nat) :
    (extractBits temp mask m).2.getLsbD k = true ↔
      ∃ i < m, mask.getLsbD i = true ∧ rank mask i = k ∧ temp.getLsbD i = true := by
  induction m with
  | zero => simp [extractBits]
  | succ m ih =>
    have hrank := extractBits_rank temp mask m
    have hle := rank_le mask m
    have hsplit : ∀ p : Nat → Prop, (∃ i < m + 1, p i) ↔ (∃ i < m, p i) ∨ p m := fun p => Nat.exists_lt_succ_right
    rw [extractBits, hsplit, ← ih (by omega)]
    by_cases hmask : mask.getLsbD m = true
    · rw [if_pos hmask, getLsbD_or, ofBool_shiftLeft_bit, hrank]
      simp only [Bool.or_eq_true, Bool.and_eq_true, decide_eq_true_eq, hmask, true_and]
      constructor
      · rintro (h | ⟨-, rfl, h⟩)
        · exact .inl h
        · exact .inr ⟨rfl, h⟩
      · rintro (h | ⟨rfl, h⟩)
        · exact .inl h
        · exact .inr ⟨by omega, rfl, h⟩
    · simp [hmask]

theorem pext_bit (temp mask : BitVec w) (k : Nat) :
    (pext temp mask).getLsbD k = true ↔ ∃ i < w, mask.getLsbD i = true ∧ rank mask i = k ∧ temp.getLsbD i = true :=
  extractBits_bit temp mask (Nat.le_refl w) k

/-! ## The instructions are inverse -/

/-- What was deposited is extracted again, as far as the mask has bits for it. -/
theorem pext_pdep (x mask : BitVec w) : pext (pdep x mask) mask = (x.setWidth mask.cpop.toNat).setWidth w := by
  apply eq_of_getLsbD_eq
  intro k hk
  rw [Bool.eq_iff_iff, pext_bit, getLsbD_setWidth, getLsbD_setWidth, toNat_cpop_eq_rank,
    decide_eq_true hk, Bool.true_and, Bool.and_eq_true, decide_eq_true_eq]
  constructor
  · rintro ⟨i, hi, hmask, rfl, hbit⟩
    rw [pdep_bit, hmask, Bool.true_and] at hbit
    exact ⟨rank_lt mask hmask hi, hbit⟩
  · rintro ⟨hlt, hbit⟩
    obtain ⟨i, hi, hmask, rfl⟩ := exists_of_lt_rank mask hlt
    refine ⟨i, hi, hmask, rfl, ?_⟩
    rw [pdep_bit, hmask, hbit]
    rfl

theorem pdep_pext (x mask : BitVec w) : pdep (pext x mask) mask = x &&& mask := by
  apply eq_of_getLsbD_eq
  intro i hi
  rw [Bool.eq_iff_iff, pdep_bit, BitVec.getLsbD_and, Bool.and_eq_true, Bool.and_eq_true, pext_bit]
  constructor
  · rintro ⟨hmask, j, -, hj, hrank, hbit⟩
    obtain rfl := rank_inj mask hj hmask hrank
    exact ⟨hbit, hmask⟩
  · rintro ⟨hbit, hmask⟩
    exact ⟨hmask, i, hi, hmask, rfl, hbit⟩

end

/-! ## The loops of the interpreter -/

/-- What a round leaves of the mask. -/
def clearLowest (mask : BitVec 64) : BitVec 64 := mask &&& (mask - 1)

section
variable {mask : BitVec 64}

theorem ctz_lt (h : mask ≠ 0) : mask.ctz.toNat < 64 := by
  have hlt := BitVec.ctz_lt_iff_ne_zero.2 h
  rwa [BitVec.lt_def] at hlt

theorem toNat_eq_ctz (h : mask ≠ 0) : ∃ q, mask.toNat = 2 ^ (mask.ctz.toNat + 1) * q + 2 ^ mask.ctz.toNat := by
  have hbit := BitVec.getLsbD_true_ctz_of_ne_zero h
  have hmod : mask.toNat % 2 ^ (mask.ctz.toNat + 1) = 2 ^ mask.ctz.toNat := by
    apply Nat.eq_of_testBit_eq
    intro i
    rw [Nat.testBit_mod_two_pow, Nat.testBit_two_pow, BitVec.testBit_toNat]
    rcases Nat.lt_trichotomy i mask.ctz.toNat with hi | hi | hi
    · rw [getLsbD_false_of_lt_ctz hi, Bool.and_false, eq_comm, decide_eq_false_iff_not]
      omega
    · rw [hi, hbit]
      simp
    · rw [decide_eq_false (by omega), decide_eq_false (by omega), Bool.false_and]
  refine ⟨mask.toNat / 2 ^ (mask.ctz.toNat + 1), ?_⟩
  have hdiv := Nat.div_add_mod mask.toNat (2 ^ (mask.ctz.toNat + 1))
  omega

theorem clearLowest_bit (h : mask ≠ 0) (i : Nat) :
    (clearLowest mask).getLsbD i = (mask.getLsbD i && decide (i ≠ mask.ctz.toNat)) := by
  obtain ⟨q, hq⟩ := toNat_eq_ctz h
  have hpos := Nat.two_pow_pos mask.ctz.toNat
  have hlt : 2 ^ mask.ctz.toNat < 2 ^ (mask.ctz.toNat + 1) := Nat.pow_lt_pow_right (by decide) (Nat.lt_succ_self _)
  have hone : (1 : BitVec 64) ≤ mask := by
    rw [BitVec.le_def, hq]
    exact Nat.le_add_left_of_le hpos
  have hsub : (mask - 1).toNat = 2 ^ (mask.ctz.toNat + 1) * q + (2 ^ mask.ctz.toNat - 1) := by
    rw [BitVec.toNat_sub_of_le hone, hq]
    exact Nat.add_sub_assoc hpos _
  unfold clearLowest
  rw [BitVec.getLsbD_and, ← BitVec.testBit_toNat, ← BitVec.testBit_toNat, hsub, hq, Nat.testBit_two_pow_mul_add _ hlt,
    Nat.testBit_two_pow_mul_add _ (by omega), Nat.testBit_two_pow, Nat.testBit_two_pow_sub_one]
  rcases Nat.lt_trichotomy i mask.ctz.toNat with hi | hi | hi
  · simp [hi, show i < mask.ctz.toNat + 1 by omega, show mask.ctz.toNat ≠ i by omega]
  · simp [hi]
  · simp [show ¬ i < mask.ctz.toNat + 1 by omega, show i ≠ mask.ctz.toNat by omega]

theorem rank_ctz : rank mask mask.ctz.toNat = 0 := by
  apply Nat.count_iff_forall_not.2
  intro i hi
  rw [getLsbD_false_of_lt_ctz hi]
  exact Bool.false_ne_true

theorem rank_clearLowest (h : mask ≠ 0) (i : Nat) :
    rank mask i = rank (clearLowest mask) i + if mask.ctz.toNat < i then 1 else 0 := by
  induction i with
  | zero => rfl
  | succ i ih =>
    rw [rank_succ, rank_succ, ih, clearLowest_bit h]
    rcases Nat.lt_trichotomy i mask.ctz.toNat with hi | hi | hi
    · simp [show ¬ mask.ctz.toNat < i by omega, show ¬ mask.ctz.toNat < i + 1 by omega, show i ≠ mask.ctz.toNat by omega]
    · rw [hi, BitVec.getLsbD_true_ctz_of_ne_zero h]
      simp
    · simp [hi, show mask.ctz.toNat < i + 1 by omega, show i ≠ mask.ctz.toNat by omega]
      omega

theorem cpop_clearLowest (h : mask ≠ 0) : mask.cpop.toNat = (clearLowest mask).cpop.toNat + 1 := by
  rw [toNat_cpop_eq_rank, toNat_cpop_eq_rank, rank_clearLowest h, if_pos (ctz_lt h)]

theorem eq_zero_of_cpop (h : mask.cpop.toNat = 0) : mask = 0 := by
  by_contra hne
  have := cpop_clearLowest hne
  omega

theorem clearLowest_iterate (n : Nat) : ∀ mask : BitVec 64, mask.cpop.toNat = n → clearLowest^[n] mask = 0 := by
  induction n with
  | zero =>
    intro mask hn
    exact eq_zero_of_cpop hn
  | succ n ih =>
    intro mask hn
    have h : mask ≠ 0 := by
      rintro rfl
      have hzero : (0#64).cpop.toNat = 0 := congrArg BitVec.toNat BitVec.cpop_zero
      exact Nat.succ_ne_zero n (hn.symm.trans hzero)
    exact ih _ (by have := cpop_clearLowest h; omega)

theorem taken_bit (input : BitVec 64) (m n : Nat) (i : Nat) :
    ((((input >>> m) &&& 1#64) <<< n).getLsbD i = true) ↔ i < 64 ∧ i = n ∧ input.getLsbD m = true := by
  have hand : (input >>> m) &&& 1#64 = (ofBool (input.getLsbD m)).setWidth 64 := by
    apply eq_of_getLsbD_eq
    intro j hj
    rw [BitVec.getLsbD_and, BitVec.getLsbD_ushiftRight, getLsbD_setWidth]
    rcases Nat.eq_zero_or_pos j with rfl | hpos
    · simp
    · rw [getLsbD_of_ge (ofBool _) _ (by omega)]
      simp
      omega
  rw [hand, ofBool_shiftLeft_bit]
  simp

theorem pdepLoop_bit (input : BitVec 64) (rounds : Nat) : ∀ (mask : BitVec 64) (index : Nat) (result : BitVec 64),
    mask.cpop.toNat ≤ rounds → ∀ i, (pdepLoop input rounds mask index result).getLsbD i = true ↔
      result.getLsbD i = true ∨ mask.getLsbD i = true ∧ input.getLsbD (index + rank mask i) = true := by
  induction rounds with
  | zero =>
    intro mask index result hrounds i
    obtain rfl := eq_zero_of_cpop (Nat.le_zero.1 hrounds)
    simp [pdepLoop]
  | succ rounds ih =>
    intro mask index result hrounds i
    rw [pdepLoop]
    split
    case isTrue h =>
      subst h
      simp
    case isFalse h =>
      have hcpop := cpop_clearLowest h
      have hbit := BitVec.getLsbD_true_ctz_of_ne_zero h
      have hrank := rank_clearLowest h i
      change (pdepLoop input rounds (clearLowest mask) (index + 1) _).getLsbD i = true ↔ _
      rw [ih _ _ _ (by omega), getLsbD_or, Bool.or_eq_true, taken_bit, clearLowest_bit h, Bool.and_eq_true,
        decide_eq_true_eq, or_assoc]
      apply or_congr_right
      -- The lowest bit is taken, the others follow with the mask that is left.
      rcases Nat.lt_trichotomy i mask.ctz.toNat with hi | hi | hi
      · simp [getLsbD_false_of_lt_ctz hi]
        omega
      · have := ctz_lt h
        have hzero := @rank_ctz mask
        subst hi
        simp [hbit, this, hzero]
      · rw [if_pos hi] at hrank
        rw [hrank, show index + 1 + rank (clearLowest mask) i = index + (rank (clearLowest mask) i + 1) by omega]
        have hne : i ≠ mask.ctz.toNat := by omega
        simp [hne]

theorem pextLoop_bit (input : BitVec 64) (rounds : Nat) : ∀ (mask : BitVec 64) (offset : Nat) (result : BitVec 64),
    mask.cpop.toNat ≤ rounds → offset + mask.cpop.toNat ≤ 64 → ∀ k,
      (pextLoop input rounds mask offset result).getLsbD k = true ↔
        result.getLsbD k = true ∨ ∃ i, mask.getLsbD i = true ∧ offset + rank mask i = k ∧ input.getLsbD i = true := by
  -- on the rounds; the set bits that are left are at most that many
  induction rounds with
  | zero =>
    intro mask offset result hrounds hoffset k
    obtain rfl := eq_zero_of_cpop (Nat.le_zero.1 hrounds)
    simp [pextLoop]
  | succ rounds ih =>
    intro mask offset result hrounds hoffset k
    rw [pextLoop]
    split
    case isTrue h =>
      subst h
      simp
    case isFalse h =>
      have hcpop := cpop_clearLowest h
      have hbit := BitVec.getLsbD_true_ctz_of_ne_zero h
      have hzero := @rank_ctz mask
      change (pextLoop input rounds (clearLowest mask) (offset + 1) _).getLsbD k = true ↔ _
      rw [ih _ _ _ (by omega) (by omega), getLsbD_or, Bool.or_eq_true, taken_bit, or_assoc]
      apply or_congr_right
      constructor
      · rintro (⟨-, rfl, hinput⟩ | ⟨i, hi, hrank, hinput⟩)
        · exact ⟨_, hbit, by omega, hinput⟩
        · have hi' : (clearLowest mask).getLsbD i = true := hi
          rw [clearLowest_bit h, Bool.and_eq_true, decide_eq_true_eq] at hi'
          have habove : mask.ctz.toNat < i := by
            by_contra hle
            have hlt : i < mask.ctz.toNat := by omega
            rw [getLsbD_false_of_lt_ctz hlt] at hi'
            cases hi'.1
          have hsum := rank_clearLowest h i
          rw [if_pos habove] at hsum
          refine ⟨i, hi'.1, ?_, hinput⟩
          omega
      · rintro ⟨i, hi, hrank, hinput⟩
        by_cases hlowest : i = mask.ctz.toNat
        · subst hlowest
          exact .inl ⟨by omega, by omega, hinput⟩
        · have habove : mask.ctz.toNat < i := by
            by_contra hle
            have hlt : i < mask.ctz.toNat := by omega
            rw [getLsbD_false_of_lt_ctz hlt] at hi
            cases hi
          have hsum := rank_clearLowest h i
          rw [if_pos habove] at hsum
          refine .inr ⟨i, ?_, ?_, hinput⟩
          · rw [clearLowest_bit h, hi, decide_eq_true hlowest]
            rfl
          · omega

/-- The loop ends once the mask is used up. -/
def Ends (loop : Nat → BitVec 64 → Nat → BitVec 64 → BitVec 64) (mask : BitVec 64) : Prop :=
  ∃ n ≤ 64, clearLowest^[n] mask = 0 ∧ ∀ rounds ≥ n, loop rounds mask 0 0 = loop n mask 0 0

theorem pdepLoop_ends (input mask : BitVec 64) : Ends (pdepLoop input) mask := by
  refine ⟨mask.cpop.toNat, toNat_cpop_le mask, clearLowest_iterate _ mask rfl, fun rounds hrounds => ?_⟩
  apply eq_of_getLsbD_eq
  intro i hi
  rw [Bool.eq_iff_iff, pdepLoop_bit input rounds mask 0 0 hrounds, pdepLoop_bit input _ mask 0 0 (Nat.le_refl _)]

theorem pextLoop_ends (input mask : BitVec 64) : Ends (pextLoop input) mask := by
  have hle := toNat_cpop_le mask
  refine ⟨mask.cpop.toNat, hle, clearLowest_iterate _ mask rfl, fun rounds hrounds => ?_⟩
  apply eq_of_getLsbD_eq
  intro i hi
  rw [Bool.eq_iff_iff, pextLoop_bit input rounds mask 0 0 hrounds (by omega),
    pextLoop_bit input _ mask 0 0 (Nat.le_refl _) (by omega)]

end

/-! ## The ops -/

section
variable {size : OpSize} (hsize : size = .i32Bit ∨ size = .i64Bit) (x mask : BitVec 64)

theorem bits_le (size : OpSize) : size.bits ≤ 64 := by
  cases size <;> decide

theorem zext_bit (i : Nat) : (zext size x).getLsbD i = (x.setWidth size.bits).getLsbD i := by
  unfold zext
  rw [getLsbD_setWidth]
  by_cases hi : i < 64
  · rw [decide_eq_true hi, Bool.true_and]
  · have := bits_le size
    rw [getLsbD_of_ge (x.setWidth size.bits) i (by omega), Bool.and_false]

theorem rank_zext {i : Nat} (hi : (x.setWidth size.bits).getLsbD i = true) :
    rank (zext size mask) i = rank (mask.setWidth size.bits) i :=
  rank_setWidth _ (bits_le size) (BitVec.lt_of_getLsbD hi).le

theorem getLsbD_zero_false (i : Nat) : (0 : BitVec 64).getLsbD i = false := BitVec.getLsbD_zero

theorem setWidth_through_size (y : BitVec size.bits) : (y.setWidth 64).setWidth size.bits = y := by
  rw [BitVec.setWidth_setWidth_of_le _ (bits_le size), BitVec.setWidth_eq]

theorem setWidth_low {n : Nat} (h : n ≤ size.bits) :
    ((x.setWidth n).setWidth size.bits).setWidth 64 = (x.setWidth n).setWidth 64 := by
  rw [BitVec.setWidth_setWidth]
  omega

include hsize

theorem opPDep_eq : opPDep size x mask = some ((pdep (x.setWidth size.bits) (mask.setWidth size.bits)).setWidth 64) := by
  have hloop : opPDep size x mask = some (pdepLoop (zext size x) 64 (zext size mask) 0 0) := by
    rcases hsize with rfl | rfl <;> rfl
  rw [hloop]
  refine congrArg some (eq_of_getLsbD_eq fun i hi => ?_)
  rw [Bool.eq_iff_iff, pdepLoop_bit _ _ _ _ _ (toNat_cpop_le _), getLsbD_setWidth, decide_eq_true hi,
    Bool.true_and, pdep_bit, Bool.and_eq_true, Nat.zero_add, getLsbD_zero_false, zext_bit, zext_bit]
  simp only [Bool.false_eq_true, false_or]
  refine and_congr_right fun h => ?_
  rw [rank_zext mask mask h]

theorem opPExt_eq : opPExt size x mask = some ((pext (x.setWidth size.bits) (mask.setWidth size.bits)).setWidth 64) := by
  have hloop : opPExt size x mask = some (pextLoop (zext size x) 64 (zext size mask) 0 0) := by
    rcases hsize with rfl | rfl <;> rfl
  have hle := toNat_cpop_le (zext size mask)
  rw [hloop]
  refine congrArg some (eq_of_getLsbD_eq fun k hk => ?_)
  rw [Bool.eq_iff_iff, pextLoop_bit _ _ _ _ _ hle (by omega), getLsbD_setWidth, decide_eq_true hk, Bool.true_and,
    pext_bit, getLsbD_zero_false]
  simp only [Bool.false_eq_true, false_or, Nat.zero_add, zext_bit]
  constructor
  · rintro ⟨i, hi, hrank, hbit⟩
    exact ⟨i, BitVec.lt_of_getLsbD hi, hi, rank_zext mask mask hi ▸ hrank, hbit⟩
  · rintro ⟨i, -, hi, hrank, hbit⟩
    exact ⟨i, hi, (rank_zext mask mask hi).trans hrank, hbit⟩

/-- The loops end and give what the instructions do, which are inverse to one another. -/
theorem pdep_pext_correct :
    opPDep size x mask = some ((pdep (x.setWidth size.bits) (mask.setWidth size.bits)).setWidth 64) ∧
    opPExt size x mask = some ((pext (x.setWidth size.bits) (mask.setWidth size.bits)).setWidth 64) ∧
    Ends (pdepLoop (zext size x)) (zext size mask) ∧ Ends (pextLoop (zext size x)) (zext size mask) ∧
    (opPDep size x mask).bind (opPExt size · mask) =
      some ((x.setWidth (mask.setWidth size.bits).cpop.toNat).setWidth 64) ∧
    (opPExt size x mask).bind (opPDep size · mask) = some (zext size (x &&& mask)) := by
  have hcpop := toNat_cpop_le (mask.setWidth size.bits)
  refine ⟨opPDep_eq hsize x mask, opPExt_eq hsize x mask, pdepLoop_ends _ _, pextLoop_ends _ _, ?_, ?_⟩
  · rw [opPDep_eq hsize, Option.bind_some, opPExt_eq hsize, setWidth_through_size, pext_pdep,
      BitVec.setWidth_setWidth_of_le _ hcpop, setWidth_low x hcpop]
  · rw [opPExt_eq hsize, Option.bind_some, opPDep_eq hsize, setWidth_through_size, pdep_pext, zext,
      BitVec.setWidth_and (x := x)]

omit hsize in
/-- A mask of alternating bytes, on half a register. -/
theorem pdep_pext_bytes :
    opPDep .i32Bit 0xFFFF12AB 0xFFFFFFFF00FF00FF = some 0x001200AB ∧
      opPExt .i32Bit 0x001200AB 0xFFFFFFFF00FF00FF = some 0x12AB ∧
      (opPDep .i32Bit 0xFFFF12AB 0xFFFFFFFF00FF00FF).bind (opPExt .i32Bit · 0xFFFFFFFF00FF00FF) = some 0x12AB := by
  have h := (pdep_pext_correct (.inl rfl) 0xFFFF12AB 0xFFFFFFFF00FF00FF).2.2.2.2.1
  refine ⟨by decide +kernel, by decide +kernel, h.trans (by decide +kernel)⟩

end

end FexEmu.Interpreter
