import FexEmu.IR.DeadStoreDataflow
/-!
# The bytes behind the bits

A bit stands for a flag, a GPR, or a lane of an XMM register. Which half of a YMM register the lanes are is a parameter.
-/
namespace FexEmu.IR.DeadStoreElimination

variable (avx : Bool)

/-! ## The bytes of a location -/

def laneStart (lane : Nat) : Nat := if lane = 0 then 0 else if lane = 1 then 4 else 8

def laneEnd (lane : Nat) : Nat := if lane = 0 then 4 else if lane = 1 then 8 else 16

/-- Where the lanes of a register are; `upper` says for which YMM registers they
are the upper half. -/
def fprBase (upper : Nat → Bool) (r : Nat) : Nat :=
  xmmOffset + r * xmmRegSize avx + if avx && upper r then 16 else 0

def Covers (upper : Nat → Bool) : Loc → Nat → Prop
  | .flag n, a => n < numFlags ∧ a = flagsOffset + n
  | .gpr r, a => r < 16 ∧ 8 + 8 * r ≤ a ∧ a < 16 + 8 * r
  | .fpr r lane, a => r < 16 ∧ lane < 3 ∧
      fprBase avx upper r + laneStart lane ≤ a ∧ a < fprBase avx upper r + laneEnd lane

theorem getLsbD_one_shift {w n i : Nat} : (1#w <<< n).getLsbD i = true ↔ i = n ∧ i < w := by
  rw [BitVec.getLsbD_shiftLeft, BitVec.getLsbD_one]
  simp only [Bool.and_eq_true, decide_eq_true_eq, Bool.not_eq_true', decide_eq_false_iff_not]
  omega

variable {offset size : Nat}

theorem getLsbD_gprBit {r : Nat} : (gprBit offset).getLsbD r = true ↔ isGPR offset = true ∧ r = (offset - 8) / 8 := by
  unfold gprBit
  split
  · rename_i h
    rw [getLsbD_one_shift]
    simp only [isGPR, Bool.and_eq_true, decide_eq_true_eq] at h
    simp only [isGPR, Bool.and_eq_true, decide_eq_true_eq]
    omega
  · rename_i h
    simp [h]

/-- The lanes an access of an XMM register has bits for. -/
def lanes (offset size : Nat) : Nat :=
  if isTrackedWriteFPR avx offset size then if size = 16 then 3 else if size = 8 then 2 else 1 else 3

theorem getLsbD_lanes {x : BitVec 64} {k r q lane : Nat} (hx : ∀ i, x.getLsbD i = true ↔ i < k) (hk : k ≤ 3)
    (hq : q < 16) (hl : lane < 3) :
    (x <<< (q * 3)).getLsbD (3 * r + lane) = true ↔ r = q ∧ lane < k := by
  rw [BitVec.getLsbD_shiftLeft]
  simp only [Bool.and_eq_true, decide_eq_true_eq, Bool.not_eq_true', decide_eq_false_iff_not, hx]
  omega

theorem getLsbD_small {k : Nat} (hk : k ≤ 3) (i : Nat) :
    (BitVec.ofNat 64 (2 ^ k - 1)).getLsbD i = true ↔ i < k := by
  rw [BitVec.getLsbD_ofNat, Nat.testBit_two_pow_sub_one]
  simp only [Bool.and_eq_true, decide_eq_true_eq]
  omega

theorem fprReg_lt (h : isFPR avx offset = true) : (offset - xmmOffset) / xmmRegSize avx < 16 := by
  simp only [isFPR, Bool.and_eq_true, decide_eq_true_eq] at h
  have hpos : 0 < xmmRegSize avx := by unfold xmmRegSize; split <;> omega
  rw [Nat.div_lt_iff_lt_mul hpos]
  omega

theorem getLsbD_fprBit {offset size r lane : Nat} (hl : lane < 3) :
    (fprBit avx offset size).getLsbD (3 * r + lane) = true ↔
      isFPR avx offset = true ∧ r = (offset - xmmOffset) / xmmRegSize avx ∧ lane < lanes avx offset size := by
  unfold fprBit lanes
  split
  · rename_i h
    have hq := fprReg_lt avx h
    simp only [h, true_and]
    split
    · split
      · exact getLsbD_lanes (getLsbD_small (k := 3) (by omega)) (by omega) hq hl
      · split
        · exact getLsbD_lanes (getLsbD_small (k := 2) (by omega)) (by omega) hq hl
        · exact getLsbD_lanes (getLsbD_small (k := 1) (by omega)) (by omega) hq hl
    · exact getLsbD_lanes (getLsbD_small (k := 3) (by omega)) (by omega) hq hl
  · rename_i h
    simp [h]

/-! ## What the ops read and write -/

theorem isTrackedWriteFPR_iff : isTrackedWriteFPR avx offset size = true ↔
    (size = 16 ∨ size = 8 ∨ size = 4) ∧ offset % 16 = 0 ∧ isFPR avx offset = true := by
  unfold isTrackedWriteFPR
  split
  · simp only [Bool.false_eq_true, false_iff]
    omega
  · split
    · simp only [Bool.false_eq_true, false_iff]
      omega
    · constructor
      · exact fun h => ⟨by omega, by omega, h⟩
      · exact fun h => h.2.2

theorem isFullGPR_iff : isFullGPR offset size = true ↔ size = 8 ∧ offset % 8 = 0 ∧ isGPR offset = true := by
  unfold isFullGPR
  split
  · simp only [Bool.false_eq_true, false_iff]
    omega
  · split
    · simp only [Bool.false_eq_true, false_iff]
      omega
    · constructor
      · exact fun h => ⟨by omega, by omega, h⟩
      · exact fun h => h.2.2

theorem writes_storeContext {v : Nat} {l : Loc} (hl : ∀ r lane, l = .fpr r lane → lane < 3) :
    Writes (opInfo avx (.storeContext size offset v)) l ↔
      (isFullGPR offset size = true ∧ l = .gpr ((offset - 8) / 8)) ∨
      (isTrackedWriteFPR avx offset size = true ∧ ∃ lane, lane < lanes avx offset size ∧
        l = .fpr ((offset - xmmOffset) / xmmRegSize avx) lane) := by
  unfold Writes opInfo Info.has
  cases l with
  | flag n => simp
  | gpr r =>
    dsimp only
    by_cases hf : isFullGPR offset size = true
    · rw [if_pos hf, getLsbD_gprBit]
      simp [hf, (isFullGPR_iff.1 hf).2.2]
    · simp [hf]
  | fpr r lane =>
    dsimp only
    by_cases ht : isTrackedWriteFPR avx offset size = true
    · rw [if_pos ht, getLsbD_fprBit avx (hl r lane rfl)]
      simp only [((isTrackedWriteFPR_iff avx).1 ht).2.2, true_and, ht, Loc.fpr.injEq, reduceCtorEq, and_false, false_or]
      constructor
      · rintro ⟨h1, h2⟩
        exact ⟨lane, h2, h1, rfl⟩
      · rintro ⟨lane', h2, h1, rfl⟩
        exact ⟨h1, h2⟩
    · simp [ht]

theorem reads_storeContext {v : Nat} : (isFullGPR offset size = false → isGPR offset = true →
      Reads (opInfo avx (.storeContext size offset v)) (.gpr ((offset - 8) / 8))) ∧
    (isTrackedWriteFPR avx offset size = false → isFPR avx offset = true →
      Reads (opInfo avx (.storeContext size offset v)) (.fpr ((offset - xmmOffset) / xmmRegSize avx) 0)) := by
  unfold Reads opInfo Info.has
  dsimp only
  constructor
  · intro hf hg
    rw [hf, if_neg (by simp), getLsbD_gprBit]
    exact ⟨hg, rfl⟩
  · intro ht hf
    rw [ht, if_neg (by simp), getLsbD_fprBit avx (by omega)]
    exact ⟨hf, rfl, by simp [lanes, ht]⟩

theorem covers_tracked {upper : Nat → Bool} {a : Nat} (ht : isTrackedWriteFPR avx offset size = true)
    (hb : fprBase avx upper ((offset - xmmOffset) / xmmRegSize avx) = offset) :
    (∃ lane, lane < lanes avx offset size ∧
      Covers avx upper (.fpr ((offset - xmmOffset) / xmmRegSize avx) lane) a) ↔
      offset ≤ a ∧ a < offset + size := by
  have hreg := fprReg_lt avx ((isTrackedWriteFPR_iff avx).1 ht).2.2
  obtain ⟨hsize, -, -⟩ := (isTrackedWriteFPR_iff avx).1 ht
  simp only [Covers, lanes, hb, if_pos ht]
  constructor
  · rintro ⟨lane, h1, -, -, h2, h3⟩
    rcases hsize with rfl | rfl | rfl <;> simp only [laneStart, laneEnd] at h1 h2 h3 <;> split_ifs at h1 h2 h3 <;> omega
  · rintro ⟨h1, h2⟩
    by_cases h4 : a < offset + 4
    · refine ⟨0, ?_, hreg, by omega, by simp [laneStart]; omega, by simp [laneEnd]; omega⟩
      split_ifs <;> omega
    · by_cases h8 : a < offset + 8
      · refine ⟨1, ?_, hreg, by omega, by simp [laneStart]; omega, by simp [laneEnd]; omega⟩
        split_ifs <;> omega
      · refine ⟨2, ?_, hreg, by omega, by simp [laneStart]; omega, by simp [laneEnd]; omega⟩
        split_ifs <;> omega

theorem covers_fullGPR {upper : Nat → Bool} {a : Nat} (hf : isFullGPR offset size = true) :
    Covers avx upper (.gpr ((offset - 8) / 8)) a ↔ offset ≤ a ∧ a < offset + size := by
  obtain ⟨rfl, h1, h2⟩ := isFullGPR_iff.1 hf
  simp only [isGPR, Bool.and_eq_true, decide_eq_true_eq] at h2
  unfold Covers
  omega

end FexEmu.IR.DeadStoreElimination
