import FexEmu.OpcodeDispatcher.IntegerALU
/-!
# Results of arithmetic and logic

What the nodes of sums, differences, bitwise ops and negations hold, at the size of the operation.
-/
namespace FexEmu.OpcodeDispatcher.Integer

open Address (Node)
open BitVec (setWidth_setWidth_of_le setWidth_add setWidth_or setWidth_and setWidth_xor getLsbD_setWidth getLsbD_signExtend setWidth_eq)

/-! ## Results -/

section
variable {size : Nat} {a b n : Node} {x y r : BitVec (8 * size)}

theorem holds_of (hsize : IsSize size) (x : BitVec (8 * size)) : Holds (⟨size, x.setWidth 64⟩ : Node) x where
  size := hsize
  le := Nat.le_refl _
  value := rfl

/-- A node whose low bits are a result, cut to its own size. -/
structure Computes (size : Nat) (n : Node) (r : BitVec (8 * size)) : Prop where
  isSize : IsSize n.size
  le : size ≤ n.size
  size_eq : 4 ≤ size → n.size = size
  truncated : n.value = (n.value.setWidth (8 * n.size)).setWidth 64
  low : n.value.setWidth (8 * size) = r

theorem low_of {value v : BitVec 64} {k w : Nat} (hk : k ≤ 8) (hw : w ≤ 8 * k)
    (h : value = (v.setWidth (8 * k)).setWidth 64) :
    value.setWidth w = v.setWidth w := by
  rw [h, setWidth_setWidth_of_le _ (by omega), setWidth_setWidth_of_le _ hw]

theorem computes_of {v : BitVec 64} (hn : IsSize n.size) (hle : size ≤ n.size)
    (hsizes : 4 ≤ size → n.size = size) (hvalue : n.value = (v.setWidth (8 * n.size)).setWidth 64)
    (hlow : v.setWidth (8 * size) = r) : Computes size n r where
  isSize := hn
  le := hle
  size_eq := hsizes
  truncated := by rw [low_of hn.le (Nat.le_refl _) hvalue, ← hvalue]
  low := (low_of hn.le (by omega) hvalue).trans hlow

theorem add_computes (hsize : IsSize size) (ha : IsSize a.size) (hb : IsSize b.size) (hab : atLeast4 a b = max 4 size)
    (hx : a.value.setWidth (8 * size) = x) (hy : b.value.setWidth (8 * size) = y) : Computes size (add a b) (x + y) := by
  have h := atLeast4_eq ha hb
  have hle := hsize.le
  refine computes_of ?_ ?_ ?_ (add_value ha hb) ?_
  · exact .inr (.inr h)
  · rw [add_size]
    omega
  · rw [add_size]
    omega
  · rw [setWidth_add _ _ (by omega), hx, hy]

theorem sub_computes (hsize : IsSize size) (ha : IsSize a.size) (hb : IsSize b.size) (hab : atLeast4 a b = max 4 size)
    (hx : a.value.setWidth (8 * size) = x) (hy : b.value.setWidth (8 * size) = y) : Computes size (sub a b) (x - y) := by
  have h := atLeast4_eq ha hb
  have hle := hsize.le
  refine computes_of ?_ ?_ ?_ (sub_value ha hb) ?_
  · exact .inr (.inr h)
  · rw [sub_size]
    omega
  · rw [sub_size]
    omega
  · rw [setWidth_sub _ _ (by omega), hx, hy]

theorem masked_holds (hsize : IsSize size) (h : Computes size n r) : Holds (masked size n) r := by
  unfold masked
  split_ifs with hlt
  · refine ⟨hsize, Nat.le_refl _, ?_⟩
    unfold bfeSized
    rw [opBfe_zero (by omega), Nat.mul_comm, h.low]
  · refine ⟨h.isSize, by have := h.le; omega, ?_⟩
    rw [h.truncated, h.size_eq (by omega), h.low]

theorem cut_holds (hsize : IsSize size) (h : Computes size n r) : Holds (cut size n) r := by
  have hle := hsize.le
  have hn := h.le
  unfold cut
  split_ifs with hlt
  · refine ⟨h.isSize, by rw [bfe_size]; omega, ?_⟩
    unfold bfe
    rw [opBfe_zero (by omega), Nat.mul_comm, h.low]
  · refine ⟨h.isSize, by omega, ?_⟩
    rw [h.truncated, h.size_eq (by omega), h.low]

theorem Computes.half (h : Computes size n r) (hsize : size = 4) : n.value = (n.value.setWidth 32).setWidth 64 := by
  have htruncated := h.truncated
  rwa [h.size_eq (by omega), hsize] at htruncated

end

/-! ## Ops -/

section
variable {size : Nat} {a b : Node} {x y : BitVec (8 * size)}

theorem overwritten_value (alu : ALU) (ha : IsSize a.size) (hb : IsSize b.size) :
    (alu.overwritten a b).value = ((alu.func a.value b.value).setWidth (8 * atLeast4 a b)).setWidth 64 := by
  have hsize : IsSize (atLeast4 a b) := .inr (.inr (atLeast4_eq ha hb))
  cases alu with
  | ADD => exact add_value ha hb
  | SUB => exact sub_value ha hb
  | OR => exact doOp_value (· ||| ·) _ _ (fun _ _ => setWidth_or.symm) hsize
  | AND => exact doOp_value (· &&& ·) _ _ (fun _ _ => setWidth_and.symm) hsize
  | XOR => exact doOp_value (· ^^^ ·) _ _ (fun _ _ => setWidth_xor.symm) hsize

theorem node_value (alu : ALU) (ha : IsSize a.size) (hb : IsSize b.size) :
    ∃ n, (alu.node a b).size = n ∧ (n = atLeast4 a b ∨ n = max a.size b.size) ∧
      (alu.node a b).value = ((alu.func a.value b.value).setWidth (8 * n)).setWidth 64 := by
  cases alu with
  | ADD => exact ⟨_, rfl, .inl rfl, add_value ha hb⟩
  | SUB => exact ⟨_, rfl, .inl rfl, sub_value ha hb⟩
  | OR => exact ⟨_, rfl, .inr rfl, or_value ha hb⟩
  | AND => exact ⟨_, rfl, .inr rfl, and_value ha hb⟩
  | XOR => exact ⟨_, rfl, .inr rfl, xor_value ha hb⟩

theorem func_setWidth (alu : ALU) (x y : BitVec 64) {w : Nat} (hw : w ≤ 64) :
    (alu.func x y).setWidth w = alu.func (x.setWidth w) (y.setWidth w) := by
  cases alu with
  | ADD => exact setWidth_add _ _ hw
  | SUB => exact setWidth_sub _ _ hw
  | OR => exact setWidth_or
  | AND => exact setWidth_and
  | XOR => exact setWidth_xor

theorem func_holds (alu : ALU) (halu : alu.requiresMask = false) :
    alu.func (x.setWidth 64) (y.setWidth 64) = (alu.func x y).setWidth 64 := by
  cases alu with
  | ADD | SUB => cases halu
  | OR => exact setWidth_or.symm
  | AND => exact setWidth_and.symm
  | XOR => exact setWidth_xor.symm

theorem setWidth_through {w k : Nat} (x : BitVec w) (hw : w ≤ k) (hk : k ≤ 64) :
    ((x.setWidth 64).setWidth k).setWidth 64 = x.setWidth 64 := by
  rw [setWidth_setWidth_of_le _ hk]
  apply BitVec.eq_of_toNat_eq
  rw [BitVec.toNat_setWidth_of_le hk, BitVec.toNat_setWidth_of_le hw, BitVec.toNat_setWidth_of_le (by omega)]

variable (hsize : IsSize size) (ha : Holds a x) (hb : Holds b y) (hasize : a.size = size) (hbsize : b.size = size)
include hsize ha hb hasize hbsize

theorem alu_computes (alu : ALU) {n : Node} (hn : n = alu.node a b ∨ n = alu.overwritten a b) :
    Computes size n (alu.func x y) ∧ (alu.requiresMask = false → Holds n (alu.func x y)) := by
  have hle := hsize.le
  have hvalue : ∃ k, n.size = k ∧ (k = atLeast4 a b ∨ k = max a.size b.size) ∧
      n.value = ((alu.func a.value b.value).setWidth (8 * k)).setWidth 64 := by
    rcases hn with rfl | rfl
    · exact node_value alu ha.size hb.size
    · exact ⟨_, rfl, .inl rfl, overwritten_value alu ha.size hb.size⟩
  obtain ⟨k, hk, hsizes, hvalue⟩ := hvalue
  have hmax : k = max 4 size ∨ k = size := by
    unfold atLeast4 at hsizes
    omega
  have hisSize : IsSize n.size := by
    rw [hk]
    rcases hmax with rfl | rfl
    · exact isSize_four.max hsize
    · exact hsize
  rw [← hk] at hvalue hmax
  have hlow : (alu.func a.value b.value).setWidth (8 * size) = alu.func x y := by
    rw [func_setWidth alu _ _ (by omega), ha.carries.low, hb.carries.low]
  refine ⟨computes_of hisSize (by omega) (by omega) hvalue hlow, fun halu => ⟨hisSize, by omega, ?_⟩⟩
  rw [hvalue, ha.value, hb.value, func_holds alu halu, setWidth_through _ (by omega)]
  omega

end

/-! ## Negation -/

section
variable {size : Nat} {x : BitVec (8 * size)}

theorem setWidth_signExtend {w n m : Nat} (x : BitVec w) (hm : m ≤ w) (hn : w ≤ n) :
    (x.signExtend n).setWidth m = x.setWidth m := by
  apply BitVec.eq_of_getLsbD_eq
  intro i hi
  rw [getLsbD_setWidth, getLsbD_setWidth, getLsbD_signExtend, decide_eq_true (by omega : i < n),
    if_pos (by omega : i < w), Bool.true_and]

theorem signExtend_eq_zero {w n : Nat} (x : BitVec w) (hn : w ≤ n) : x.signExtend n = 0 ↔ x = 0 := by
  constructor
  · intro h
    rw [← setWidth_eq x, ← setWidth_signExtend x (Nat.le_refl _) hn, h]
    exact BitVec.setWidth_zero _ _
  · rintro rfl
    apply BitVec.eq_of_getLsbD_eq
    simp [getLsbD_signExtend]

theorem neg_setWidth {n : Nat} (hn : 8 * size ≤ n) (hn' : n ≤ 64) :
    (-((x.setWidth 64).setWidth n)).setWidth (8 * size) = -x := by
  rw [← BitVec.zero_sub, setWidth_sub _ _ hn, setWidth_setWidth_of_le _ hn', setWidth_setWidth_of_le _ hn,
    setWidth_eq]
  exact (congrArg (· - x) (BitVec.setWidth_zero _ _)).trans (BitVec.zero_sub _)

theorem neg_value (hle : size ≤ 4) :
    (neg ⟨size, x.setWidth 64⟩).value = (-((x.setWidth 64).setWidth 32)).signExtend 64 := by
  unfold neg
  rw [Nat.max_eq_left hle]
  rfl

theorem neg_value_eight (hsize : size = 8) : (neg ⟨size, x.setWidth 64⟩).value = -(x.setWidth 64) := by
  subst hsize
  rfl

theorem neg_low (hsize : IsSize size) : (neg ⟨size, x.setWidth 64⟩).value.setWidth (8 * size) = -x := by
  by_cases hle : size ≤ 4
  · rw [neg_value hle, setWidth_signExtend _ (by omega) (by decide), neg_setWidth (by omega) (by decide)]
  · obtain rfl : size = 8 := by
      rcases hsize with h | h | h | h <;> omega
    have h := neg_setWidth (x := x) (Nat.le_refl 64) (Nat.le_refl 64)
    rw [setWidth_eq (x.setWidth 64)] at h
    rw [neg_value_eight rfl, h]

/-- What the flags of a negation are calculated from. -/
def negResult (size : Nat) (result : Node) : Node := if size < 4 then bfe (size * 8) 0 result else result

theorem negResult_carries (hsize : IsSize size) : Carries (negResult size (neg ⟨size, x.setWidth 64⟩)) (-x) := by
  have hlow := neg_low hsize (x := x)
  have hisSize : IsSize (neg ⟨size, x.setWidth 64⟩).size := isSize_four.max hsize
  have hmax : size ≤ (neg ⟨size, x.setWidth 64⟩).size := Nat.le_max_right _ _
  unfold negResult
  split_ifs with hlt
  · refine Holds.carries ⟨hisSize, by rw [bfe_size]; omega, ?_⟩
    unfold bfe
    dsimp only
    rw [opBfe_zero (by omega), Nat.mul_comm, hlow]
  · refine ⟨hisSize, by omega, hlow, ?_⟩
    rw [← hlow]
    rcases hsize with rfl | rfl | rfl | rfl
    · cases hlt (by decide)
    · cases hlt (by decide)
    · rw [neg_value (by decide), setWidth_signExtend _ (by decide) (by decide), signExtend_eq_zero _ (by decide),
        setWidth_eq]
    · exact Iff.of_eq (congrArg (· = 0) (setWidth_eq _).symm)

theorem neg_half (hsize : size = 4) :
    (neg ⟨size, x.setWidth 64⟩).value = ((neg ⟨size, x.setWidth 64⟩).value.setWidth 32).setWidth 64 ↔ (-x).msb = false := by
  subst hsize
  have hx : (x.setWidth 64).setWidth 32 = x := by
    rw [setWidth_setWidth_of_le _ (by decide), setWidth_eq]
  rw [neg_value (by decide), setWidth_signExtend _ (by decide) (by decide), setWidth_eq, hx]
  constructor
  · intro h
    have hbit : ((-x).signExtend 64).getLsbD 63 = ((-x).setWidth 64).getLsbD 63 := congrArg (BitVec.getLsbD · 63) h
    rw [getLsbD_signExtend, getLsbD_setWidth, BitVec.getLsbD_of_ge (-x) 63 (by decide)] at hbit
    exact hbit
  · intro h
    exact BitVec.signExtend_eq_setWidth_of_msb_false h

end

end FexEmu.OpcodeDispatcher.Integer
