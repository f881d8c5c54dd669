import FexEmu.OpcodeDispatcher.StringSpec
/-!
# Proofs about string instructions

What the nodes of the handlers hold, and what a state that they leave is for the architecture.
-/
namespace FexEmu.OpcodeDispatcher.StringOps

open Address
open Frontend.Prefixes (flag fsPrefixBit gsPrefixBit)
open BitVec (toNat_sub getLsbD_and getLsbD_setWidth getLsbD_xor toNat_setWidth toNat_inj)

/-! ## Values of nodes -/

theorem storeContext_toNat {size : Nat} (h : size ≤ 8) (value : Node) (member : BitVec 64) :
    (storeContext size value member).toNat =
      member.toNat / 2 ^ (8 * size) * 2 ^ (8 * size) + value.value.toNat % 2 ^ (8 * size) := by
  have hlow : ((value.value.setWidth (8 * size)).setWidth 64).toNat = value.value.toNat % 2 ^ (8 * size) :=
    loadContext_toNat h value.value
  have hhigh : (member >>> (8 * size) <<< (8 * size)).toNat = 2 ^ (8 * size) * (member.toNat / 2 ^ (8 * size)) := by
    rw [BitVec.toNat_shiftLeft, BitVec.toNat_ushiftRight, Nat.shiftRight_eq_div_pow, Nat.shiftLeft_eq, Nat.mul_comm]
    exact Nat.mod_eq_of_lt ((Nat.mul_div_le _ _).trans_lt member.isLt)
  unfold storeContext
  rw [BitVec.toNat_or, hlow, hhigh, ← Nat.two_pow_add_eq_or_of_lt (Nat.mod_lt _ (by positivity)), Nat.mul_comm]

theorem sub_means {src1 src2 : Node} {bits : Nat} {x y : Int} (h1 : src1.Means bits x) (h2 : src2.Means bits y)
    (hbits : bits ≤ 8 * max 4 (max src1.size src2.size)) (hle : bits ≤ 64) : (sub src1 src2).Means bits (x - y) := by
  apply arithmetic_means _ hbits
  have hsub : ((src1.value - src2.value).toNat : Int) ≡ src1.value.toNat - src2.value.toNat [ZMOD 2 ^ 64] := by
    rw [toNat_sub]
    push_cast [Nat.cast_sub src2.value.isLt.le]
    refine (Int.mod_modEq _ _).trans ?_
    rw [Int.modEq_iff_dvd]
    exact ⟨-1, by ring⟩
  exact (hsub.of_dvd (pow_dvd_pow 2 hle)).trans (h1.sub h2)

theorem constant64_means (c : BitVec 64) : (constant 64 c).Means 64 c.toInt := by
  simpa only [Nat.reduceMul] using constant_means c (le_refl 8)

theorem ptrDir_means (s : State) {size : Nat} (h : size ≤ 8) : (s.ptrDir size).Means 64 (step size s.df) := by
  have hsize : (BitVec.ofNat 64 size).toInt = size := by
    rw [BitVec.toInt_ofNat']
    exact Int.bmod_eq_of_le (by omega) (by omega)
  unfold State.ptrDir select loadFlag step
  cases s.df
  · have hmeans := constant64_means (BitVec.ofNat 64 size)
    rw [hsize] at hmeans
    exact hmeans
  · have hneg : (-BitVec.ofNat 64 size).toInt ≡ -size [ZMOD 2 ^ 64] := by
      rw [BitVec.toInt_neg, hsize]
      exact Int.bmod_emod
    exact (constant64_means _).trans hneg

theorem ptrDir_size (s : State) (size : Nat) : (s.ptrDir size).size = 8 := by
  unfold State.ptrDir select
  split_ifs <;> rfl

/-! ## Addresses -/

theorem appendES_value {is64BitMode : Bool} (s : State) {value : Node} (hok : value.Ok (gprSize is64BitMode)) :
    (s.appendES is64BitMode value).value.toNat =
      (value.value.toNat + destinationBase is64BitMode s.cpu) % 2 ^ linearBits is64BitMode := by
  cases is64BitMode with
  | true => exact hok.value_mod.symm
  | false => exact add_segment hok s.cpu .es

section
variable {is64BitMode : Bool} (op : Decoded is64BitMode)

/-- The same instruction, for its prefixes of segments only. -/
def Decoded.address : Address.Decoded is64BitMode where
  toDecodedOp := op.toDecodedOp
  has67 := false
  overrides := op.override.toList
  flags_addressSize := by simp [op.flags_addressSize]
  flags_segment := op.flags_segment

theorem segments_eq_zero (op : Decoded false) (h : op.override = none) : op.flags &&& flagSegments = 0 := by
  apply BitVec.eq_of_getLsbD_eq
  intro i _
  rw [getLsbD_and, getLsbD_segments, show BitVec.getLsbD (0 : BitVec 32) i = false from BitVec.getLsbD_zero]
  by_cases hi : 11 ≤ i ∧ i < 17
  · obtain ⟨segment, rfl⟩ := exists_bit hi
    have hflag := (@flag_ne_zero_iff op.flags segment.bit (by omega)).not.1
      ((op.flags_segment segment).not.2 (by simp [h]))
    rw [Bool.not_eq_true] at hflag
    rw [hflag, Bool.false_and]
  · rw [decide_eq_false hi, Bool.and_false]

theorem appendDS_value (s : State) {value : Node} (hok : value.Ok (gprSize is64BitMode)) :
    (s.appendDS is64BitMode op.toDecodedOp value).value.toNat =
      (value.value.toNat + sourceBase is64BitMode s.cpu op.override) % 2 ^ linearBits is64BitMode := by
  unfold State.appendDS appendSegmentOffset sourceBase
  cases is64BitMode with
  | true =>
    have hfs : (op.flags &&& flag fsPrefixBit ≠ 0) ↔ _ := op.flags_segment .fs
    have hgs : (op.flags &&& flag gsPrefixBit ≠ 0) ↔ _ := op.flags_segment .gs
    rcases hoverride : op.override with _ | segment
    · rw [hoverride] at hfs hgs
      rw [if_neg (hfs.not.2 (by simp)), if_neg (hgs.not.2 (by simp))]
      exact hok.value_mod.symm
    · rw [hoverride] at hfs hgs
      cases segment with
      | fs =>
        rw [if_pos (hfs.2 (by simp [inEffect]))]
        exact add_base (.inr rfl) hok _
      | gs =>
        rw [if_neg (hfs.not.2 (by simp)), if_pos (hgs.2 (by simp [inEffect]))]
        exact add_base (.inr rfl) hok _
      | _ =>
        rw [if_neg (hfs.not.2 (by simp)), if_neg (hgs.not.2 (by simp))]
        exact hok.value_mod.symm
  | false =>
    have hsegments := segmentOfFlag_segments op.address
    change segmentOfFlag (op.flags &&& flagSegments) = _ at hsegments
    rw [if_neg Bool.false_ne_true]
    rcases hoverride : op.override with _ | segment
    · dsimp only
      rw [if_pos (.inl (segments_eq_zero op hoverride))]
      exact add_segment hok s.cpu .ds
    · have hgiven : segmentOfFlag (op.flags &&& flagSegments) = some segment := by
        rw [hsegments]
        simp [Decoded.address, hoverride, inEffect]
      have hne : ¬(op.flags &&& flagSegments = 0 ∨ false = true) := by
        rintro (hzero | hfalse)
        · rw [hzero] at hgiven
          cases hgiven
        · exact Bool.false_ne_true hfalse
      dsimp only
      rw [if_neg hne, hgiven]
      exact add_segment hok s.cpu segment

end

/-! ## Flags -/

theorem arithmetic_bit {f : BitVec 64 → BitVec 64 → BitVec 64} (src1 src2 : Node) {i : Nat} (h : i < 64)
    (hi : i < 8 * max 4 (max src1.size src2.size)) :
    (arithmetic f src1 src2).value.getLsbD i = (f src1.value src2.value).getLsbD i := by
  unfold arithmetic
  dsimp only
  split_ifs with hsize
  · rw [getLsbD_setWidth, getLsbD_setWidth, decide_eq_true h, decide_eq_true (by omega : i < 32)]
    rfl
  · rfl

theorem rflag_bfeFrom (lsb : Nat) (src : Node) : rflag (bfeFrom 1 lsb src) = src.value.getLsbD lsb := by
  unfold rflag bfeFrom bfe
  rw [getLsbD_and, BitVec.getLsbD_ushiftRight, Nat.add_zero]
  exact Bool.and_true _

theorem rflag_select (condition : Bool) : rflag (select condition (constant 64 1) (constant 64 0)) = condition := by
  cases condition <;> decide

theorem borrow_four (a b : BitVec 64) :
    (a ^^^ b ^^^ (a - b)).getLsbD 4 = decide (a.toNat % 16 < b.toNat % 16) := by
  have hadd : a.getLsbD 4 = ((a - b).getLsbD 4 ^^ (b.getLsbD 4 ^^ BitVec.carry 4 (a - b) b false)) := by
    rw [← BitVec.getLsbD_add (by decide), BitVec.sub_add_cancel]
  have hcarry : BitVec.carry 4 (a - b) b false = decide (a.toNat % 16 < b.toNat % 16) := by
    unfold BitVec.carry
    rw [decide_eq_decide, toNat_sub]
    change _ + 0 ≥ _ ↔ _
    omega
  rw [getLsbD_xor, getLsbD_xor, hadd, hcarry]
  cases (a - b).getLsbD 4 <;> cases b.getLsbD 4 <;> simp

section
variable {size : Nat}

/-- A node with an element of the string. -/
structure Element (size : Nat) (src : Node) : Prop where
  size_eq : src.size = size
  fits : src.value.toNat < 2 ^ (8 * size)

theorem sub_toNat (src1 src2 : Node) :
    (sub src1 src2).value.toNat =
      if max 4 (max src1.size src2.size) = 4 then (src1.value - src2.value).toNat % 2 ^ 32
      else (src1.value - src2.value).toNat := by
  unfold sub arithmetic
  dsimp only
  split_ifs
  · rw [toNat_setWidth, toNat_setWidth, Nat.mod_eq_of_lt (b := 2 ^ 64) (by omega)]
  · rfl

theorem bfeFrom_zero {width : Nat} (h : width ≤ 64) (src : Node) :
    (bfeFrom width 0 src).value.toNat = src.value.toNat % 2 ^ width := by
  have hmask := toNat_and_mask (src.value >>> 0) h
  exact hmask

theorem result_value {op : DecodedOp} (hop : getSrcSize op = size) (hsize : size = 1 ∨ size = 2 ∨ size = 4 ∨ size = 8)
    {src1 src2 : Node} (h1 : Element size src1) (h2 : Element size src2) :
    (result op src1 src2).value = ((src1.value - src2.value).setWidth (8 * size)).setWidth 64 := by
  apply BitVec.eq_of_toNat_eq
  rw [toNat_setWidth, toNat_setWidth]
  unfold result
  rw [hop]
  have hsub := sub_toNat src1 src2
  rw [h1.size_eq, h2.size_eq] at hsub
  rcases hsize with rfl | rfl | rfl | rfl
  · rw [if_pos (by decide), bfeFrom_zero (by decide), hsub, if_pos (by decide)]
    omega
  · rw [if_pos (by decide), bfeFrom_zero (by decide), hsub, if_pos (by decide)]
    omega
  · rw [if_neg (by decide), hsub, if_pos (by decide)]
    omega
  · rw [if_neg (by decide), hsub, if_neg (by decide)]
    omega

theorem Element.toNat {src : Node} (h : Element size src) :
    (src.value.setWidth (8 * size)).toNat = src.value.toNat := by
  rw [toNat_setWidth, Nat.mod_eq_of_lt h.fits]

theorem calculcateFlags_eq {op : DecodedOp} (hop : getSrcSize op = size)
    (hsize : size = 1 ∨ size = 2 ∨ size = 4 ∨ size = 8) {src1 src2 : Node} (h1 : Element size src1)
    (h2 : Element size src2) :
    calculcateFlags_SUB size (result op src1 src2) src1 src2 =
      subFlags (src1.value.setWidth (8 * size)) (src2.value.setWidth (8 * size)) false := by
  have hle : 8 * size ≤ 64 := by omega
  have hsub := setWidth_sub src1.value src2.value hle
  have hres := result_value hop hsize h1 h2
  have hbit : ∀ i < 8 * size, (result op src1 src2).value.getLsbD i = (src1.value - src2.value).getLsbD i := by
    intro i hi
    rw [hres, getLsbD_setWidth, getLsbD_setWidth, decide_eq_true hi, decide_eq_true (by omega)]
    rfl
  rw [subFlags_false]
  unfold calculcateFlags_SUB parity
  congr 1
  case e_cf =>
    rw [rflag_select]
    unfold BitVec.usubOverflow
    rw [h1.toNat, h2.toNat]
    rfl
  case e_pf =>
    have hconstant : ∀ c, (constant 64 c).size = 8 := fun _ => rfl
    have hlow : (and (result op src1 src2) (constant 64 0xFF)).value =
        ((src1.value.setWidth (8 * size) - src2.value.setWidth (8 * size)).setWidth 8).setWidth 64 := by
      have hmask : ∀ i < 64, (constant 64 0xFF).value.getLsbD i = decide (i < 8) := by decide
      apply BitVec.eq_of_getLsbD_eq
      intro i hi
      unfold and
      rw [arithmetic_bit _ _ hi (by rw [hconstant]; omega), getLsbD_and, hmask i hi, ← hsub]
      by_cases hlt : i < 8
      · rw [hbit i (by omega)]
        simp [hi, hlt, (by omega : i < 8 * size)]
      · simp [hlt]
    have hbits : (xor (popcount (and (result op src1 src2) (constant 64 0xFF))) (constant 64 1)).value.getLsbD 0 =
        (!(and (result op src1 src2) (constant 64 0xFF)).value.cpop.getLsbD 0) := by
      unfold xor
      rw [arithmetic_bit _ _ (by decide) (by omega), getLsbD_xor]
      exact Bool.xor_true _
    have hcount := BitVec.toNat_cpop_setWidth_eq_of_le (by decide : 8 ≤ 64)
      (x := (src1.value.setWidth (8 * size) - src2.value.setWidth (8 * size)).setWidth 8)
    have hparity : ∀ c : BitVec 64, (!c.getLsbD 0) = decide (c.toNat % 2 = 0) := by
      intro c
      rw [BitVec.getLsbD, Nat.testBit_zero]
      rcases Nat.mod_two_eq_zero_or_one c.toNat with h | h <;> rw [h] <;> rfl
    unfold rflag
    rw [hbits, hlow, hparity, hcount]
  case e_af =>
    have hbits : (xor (xor src1 src2) (result op src1 src2)).value.getLsbD 4 =
        (src1.value ^^^ src2.value ^^^ (src1.value - src2.value)).getLsbD 4 := by
      unfold xor
      rw [arithmetic_bit _ _ (by decide) (by omega), getLsbD_xor, arithmetic_bit _ _ (by decide) (by omega),
        hbit 4 (by omega), ← getLsbD_xor]
    rw [rflag_bfeFrom, hbits, borrow_four, h1.toNat, h2.toNat]
  case e_zf =>
    have hzero : ∀ c : BitVec (8 * size), c.setWidth 64 = 0 ↔ c = 0 := by
      intro c
      rw [← toNat_inj, ← toNat_inj, BitVec.toNat_setWidth_of_le hle]
      rfl
    rw [rflag_select, decide_eq_decide, hres, hsub, hzero, sub_eq_zero]
  case e_sf =>
    have hsign : rflag (lshr (result op src1 src2) (size * 8 - 1)) =
        (result op src1 src2).value.getLsbD (8 * size - 1) := by
      unfold rflag lshr
      rw [BitVec.getLsbD_ushiftRight, Nat.add_zero, Nat.mul_comm]
    rw [hsign, hbit _ (by omega), BitVec.msb_eq_getLsbD_last, ← hsub, getLsbD_setWidth, decide_eq_true (by omega),
      Bool.true_and]
  case e_of =>
    have hmsb : ∀ a : BitVec 64, (a.setWidth (8 * size)).msb = a.getLsbD (8 * size - 1) := by
      intro a
      rw [BitVec.msb_eq_getLsbD_last, getLsbD_setWidth, decide_eq_true (by omega), Bool.true_and]
    have hsizes : ∀ f a b, (arithmetic f a b).size = max 4 (max a.size b.size) := fun _ _ _ => rfl
    have h1size := h1.size_eq
    unfold and xor
    rw [rflag_bfeFrom, BitVec.ssubOverflow_eq, ← hsub, hmsb, hmsb, hmsb, Nat.mul_comm size 8,
      arithmetic_bit _ _ (by omega) (by rw [hsizes, hsizes]; omega), getLsbD_and,
      arithmetic_bit _ _ (by omega) (by omega), arithmetic_bit _ _ (by omega) (by omega), getLsbD_xor,
      getLsbD_xor, hbit _ (by omega)]
    cases src1.value.getLsbD (8 * size - 1) <;> cases src2.value.getLsbD (8 * size - 1) <;>
      cases (src1.value - src2.value).getLsbD (8 * size - 1) <;> rfl

end
end FexEmu.OpcodeDispatcher.StringOps
