import FexEmu.OpcodeDispatcher.IntegerRotates
/-!
# Rotates through the carry follow the architecture

The carry and the operand are one number with a bit more. The narrow rotate to the right stores the overflow even if nothing
is rotated.
-/
namespace FexEmu.OpcodeDispatcher.Integer

open Interpreter
open Address (Node constant)
open StringOps (State ALUFlags rflag loadFlag)
open BitVec (eq_of_getLsbD_eq getLsbD_of_ge getLsbD_setWidth msb_eq_getLsbD_last)
open Option (bind_eq_bind bind_some)
open Nat (mod_eq_of_lt)

/-! ## The carry and the operand -/

section
variable {w c i : Nat} {x : BitVec w} {cf : Bool}

theorem cons_bit : (BitVec.cons cf x).getLsbD i = if i = w then cf else x.getLsbD i := by
  rw [BitVec.getLsbD_cons]

theorem cons_low (h : i < w) : (BitVec.cons cf x).getLsbD i = x.getLsbD i := by
  rw [cons_bit, if_neg (by omega)]

theorem rcr_bit (hc : c ≤ w) (hi : i < w) :
    (((BitVec.cons cf x).rotateRight c).setWidth w).getLsbD i =
      if c + i < w then x.getLsbD (c + i) else if c + i = w then cf else x.getLsbD (c + i - (w + 1)) := by
  rw [getLsbD_setWidth, decide_eq_true hi, Bool.true_and, rotateRight_bit _ _ (by omega), cons_bit]
  rcases Nat.lt_or_ge (c + i) (w + 1) with h | h
  · rw [mod_eq_of_lt h]
    split_ifs <;> first | rfl | omega
  · rw [Nat.mod_eq_sub_mod h, mod_eq_of_lt (by omega)]
    split_ifs <;> first | rfl | omega

theorem rcl_bit (hc : c ≤ w) (hi : i < w) :
    (((BitVec.cons cf x).rotateLeft c).setWidth w).getLsbD i =
      if c ≤ i then x.getLsbD (i - c) else if i + 1 = c then cf else x.getLsbD (w + 1 - c + i) := by
  rw [getLsbD_setWidth, decide_eq_true hi, Bool.true_and, rotateLeft_bit _ _ (by omega), cons_bit,
    mod_eq_of_lt (show c < w + 1 by omega)]
  rcases Nat.lt_or_ge (w + 1 - c + i) (w + 1) with h | h
  · rw [mod_eq_of_lt h]
    split_ifs <;> first | rfl | omega
  · rw [Nat.mod_eq_sub_mod h, mod_eq_of_lt (by omega), show w + 1 - c + i - (w + 1) = i - c by omega]
    split_ifs <;> first | rfl | omega

theorem rcr_carry (hc : 0 < c) (hc' : c ≤ w) : ((BitVec.cons cf x).rotateRight c).msb = x.getLsbD (c - 1) := by
  rw [msb_eq_getLsbD_last, rotateRight_bit _ _ (by omega), show c + (w + 1 - 1) = c - 1 + (w + 1) by omega,
    Nat.add_mod_right, mod_eq_of_lt (by omega), cons_low (by omega)]

theorem rcl_carry (hc : 0 < c) (hc' : c ≤ w) : ((BitVec.cons cf x).rotateLeft c).msb = x.getLsbD (w - c) := by
  rw [msb_eq_getLsbD_last, rotateLeft_bit _ _ (by omega), mod_eq_of_lt (show c < w + 1 by omega),
    show w + 1 - c + (w + 1 - 1) = w - c + (w + 1) by omega, Nat.add_mod_right, mod_eq_of_lt (by omega),
    cons_low (by omega)]

end

theorem loadFlag_bit (c : Bool) (i : Nat) : (loadFlag c).value.getLsbD i = (decide (i = 0) && c) := by
  have hone : (1#64).getLsbD i = decide (i = 0) := by
    rw [BitVec.getLsbD_one, decide_eq_true (by decide : 0 < 64), Bool.true_and]
  cases c
  · rw [Bool.and_false]
    exact BitVec.getLsbD_zero
  · rw [Bool.and_true, ← hone]
    rfl

/-! ## Copies -/

section
variable {size : Nat} {x : BitVec (8 * size)} {cf : Bool}

theorem copy_bit (tmp : Node) {p j : Nat} (hp : p + 8 * size < 64) (hj : j < 64) :
    (bfi 8 1 (p + 8 * size) (bfi 8 (8 * size) p tmp ⟨size, x.setWidth 64⟩) (loadFlag cf)).value.getLsbD j =
      if p ≤ j ∧ j ≤ p + 8 * size then (BitVec.cons cf x).getLsbD (j - p) else tmp.value.getLsbD j := by
  unfold bfi
  rw [getLsbD_opBfi (by omega) (by omega), getLsbD_opBfi (by omega) (by omega), loadFlag_bit, decide_eq_true hj,
    Bool.true_and, Bool.true_and, cons_bit, getLsbD_setWidth, decide_eq_true (show j - p < 64 by omega), Bool.true_and]
  rcases eq_or_ne j (p + 8 * size) with rfl | hne
  · simp
  · grind

theorem foldl_copies_up (tmp : Node) (k : Nat) (hk : (8 * size + 1) * k ≤ 64) {j : Nat} (hj : j < (8 * size + 1) * k) :
    ((List.range' 0 k (8 * size + 1)).foldl
      (fun tmp i => bfi 8 1 (i + 8 * size) (bfi 8 (8 * size) i tmp ⟨size, x.setWidth 64⟩) (loadFlag cf)) tmp).value.getLsbD
        j =
      (BitVec.cons cf x).getLsbD (j % (8 * size + 1)) := by
  induction k with
  | zero => omega
  | succ k ih =>
    rw [Nat.mul_succ] at hk hj
    rw [List.range'_concat, List.foldl_append, List.foldl_cons, List.foldl_nil, Nat.zero_add,
      copy_bit _ (by omega) (by omega)]
    rcases Nat.lt_or_ge j ((8 * size + 1) * k) with h | h
    · rw [if_neg (by omega), ih (by omega) h]
    · rw [if_pos (by omega), ← Nat.sub_mul_mod h, mod_eq_of_lt (by omega)]

theorem foldl_copies_down (tmp : Node) (k : Nat) (hk : (8 * size + 1) * k ≤ 64) {j : Nat} (hj : j < (8 * size + 1) * k) :
    ((List.range' 0 k (8 * size + 1)).foldl
      (fun tmp i => bfi 8 1 (63 - i) (bfi 8 (8 * size) (63 - i - 8 * size) tmp ⟨size, x.setWidth 64⟩) (loadFlag cf))
        tmp).value.getLsbD (63 - j) =
      (BitVec.cons cf x).getLsbD (8 * size - j % (8 * size + 1)) := by
  induction k with
  | zero => omega
  | succ k ih =>
    rw [Nat.mul_succ] at hk hj
    have hbit := @copy_bit size x cf (p := 63 - (8 * size + 1) * k - 8 * size) (j := 63 - j)
    rw [Nat.sub_add_cancel (by omega)] at hbit
    rw [List.range'_concat, List.foldl_append, List.foldl_cons, List.foldl_nil, Nat.zero_add,
      hbit _ (by omega) (by omega)]
    rcases Nat.lt_or_ge j ((8 * size + 1) * k) with h | h
    · rw [if_neg (by omega), ih (by omega) h]
    · rw [if_pos (by omega), ← Nat.sub_mul_mod h, mod_eq_of_lt (by omega)]
      congr 1
      omega

/-- The copies that the loops insert. -/
def copies (size : Nat) : Nat := (32 + 8 * size) / (8 * size + 1) + 1

theorem copies_fit (hsize : size = 1 ∨ size = 2) :
    (8 * size + 1) * copies size ≤ 64 ∧ 31 + 8 * size < (8 * size + 1) * copies size := by
  rcases hsize with rfl | rfl <;> decide

theorem rcrCopies_bit (hsize : size = 1 ∨ size = 2) {j : Nat} (hj : j < 31 + 8 * size) :
    (rcrCopies (size * 8) ⟨size, x.setWidth 64⟩ (loadFlag cf)).value.getLsbD j =
      (BitVec.cons cf x).getLsbD (j % (8 * size + 1)) := by
  have hfit := copies_fit hsize
  rw [Nat.mul_comm size 8]
  exact foldl_copies_up _ _ hfit.1 (by omega)

theorem rclCopies_bit (hsize : size = 1 ∨ size = 2) {j : Nat} (hj : j < 32) :
    (rclCopies (size * 8) ⟨size, x.setWidth 64⟩ (loadFlag cf)).value.getLsbD (63 - j) =
      (BitVec.cons cf x).getLsbD (8 * size - j % (8 * size + 1)) := by
  have hfit := copies_fit hsize
  rw [Nat.mul_comm size 8]
  unfold rclCopies
  unfold bfi
  rw [getLsbD_opBfi (by omega) (by omega), if_neg (by omega)]
  exact foldl_copies_down _ _ hfit.1 (by omega)

theorem rclCopies_low (hsize : size = 1 ∨ size = 2) {j : Nat} (hj : j < 8 * size) :
    (rclCopies (size * 8) ⟨size, x.setWidth 64⟩ (loadFlag cf)).value.getLsbD j = x.getLsbD j := by
  unfold rclCopies
  unfold bfi
  rw [getLsbD_opBfi (by omega) (by omega), if_pos (by omega), decide_eq_true (by omega), Bool.true_and, Nat.sub_zero,
    getLsbD_setWidth, decide_eq_true (by omega), Bool.true_and]

end

/-! ## Narrow results -/

section
variable {size c : Nat} {src : Node} (x : BitVec (8 * size)) (cf : Bool)

theorem rcrCopies_size (hsize : size = 1 ∨ size = 2) (dest cf : Node) : (rcrCopies (size * 8) dest cf).size = 8 := by
  rcases hsize with rfl | rfl <;> rfl

theorem rcrSmaller_low (hsize : size = 1 ∨ size = 2) (hc : Counts src c) (hlt : c < 32) :
    (lshr (rcrCopies (size * 8) ⟨size, x.setWidth 64⟩ (loadFlag cf)) src).value.setWidth (8 * size) =
      ((BitVec.cons cf x).rotateRight c).setWidth (8 * size) := by
  have hnode := rcrCopies_size hsize ⟨size, x.setWidth 64⟩ (loadFlag cf)
  apply eq_of_getLsbD_eq
  intro i hi
  rw [getLsbD_setWidth, getLsbD_setWidth, lshr_counts (by rw [hnode]; rfl) (.inr rfl) hc (by omega),
    rcrCopies_bit hsize (by omega), rotateRight_bit _ _ (by omega), decide_eq_true (by omega : c + i < 8 * 8), Bool.true_and]

theorem rcrSmaller_carry (hsize : size = 1 ∨ size = 2) (hc : Counts src c) (hlt : c < 32) (hpos : 1 ≤ c) :
    rflag (lshr (rcrCopies (size * 8) ⟨size, x.setWidth 64⟩ (loadFlag cf)) (sub src (constant (size * 8) 1))) =
      ((BitVec.cons cf x).rotateRight c).msb := by
  have hnode := rcrCopies_size hsize ⟨size, x.setWidth 64⟩ (loadFlag cf)
  have hisSize : IsSize size := by
    rcases hsize with rfl | rfl <;> decide
  have hone := sub_counts hc (counts_one hisSize) hpos
  unfold rflag
  rw [lshr_counts (by rw [hnode]; rfl) (.inr rfl) hone (by omega), decide_eq_true (by omega : c - 1 + 0 < 8 * 8),
    Bool.true_and, rcrCopies_bit hsize (by omega), msb_eq_getLsbD_last, rotateRight_bit _ _ (by omega),
    Nat.add_zero (c - 1),
    show c + (8 * size + 1 - 1) = c - 1 + (8 * size + 1) by omega, Nat.add_mod_right]

theorem rclSmaller_low (hsize : size = 1 ∨ size = 2) {count : Node} (hc : Counts count (64 - c)) (hlt : c < 32) :
    (ror (rclCopies (size * 8) ⟨size, x.setWidth 64⟩ (loadFlag cf)) count).value.setWidth (8 * size) =
      ((BitVec.cons cf x).rotateLeft c).setWidth (8 * size) := by
  apply eq_of_getLsbD_eq
  intro i hi
  rw [getLsbD_setWidth, getLsbD_setWidth, ror_counts (k := 8) rfl (.inr rfl) hc, decide_eq_true hi,
    decide_eq_true (by omega : i < 8 * 8), Bool.true_and, Bool.true_and, Bool.true_and, rotateLeft_bit _ _ (by omega)]
  rcases Nat.lt_or_ge i c with h | h
  · rw [show (64 - c + i) % (8 * 8) = 63 - (c - i - 1) by omega, rclCopies_bit hsize (by omega)]
    congr 1
    rcases hsize with rfl | rfl <;> omega
  · rw [show (64 - c + i) % (8 * 8) = i - c by omega, rclCopies_low hsize (by omega), ← @cons_low _ _ x cf (by omega)]
    congr 1
    rw [mod_eq_of_lt (show c < 8 * size + 1 by omega), show 8 * size + 1 - c + i = i - c + (8 * size + 1) by omega,
      Nat.add_mod_right, mod_eq_of_lt (by omega)]

theorem rclSmaller_carry (hsize : size = 1 ∨ size = 2) {count : Node} (hc : Counts count (63 - c)) (hlt : c < 32) :
    rflag (ror (rclCopies (size * 8) ⟨size, x.setWidth 64⟩ (loadFlag cf)) count) =
      ((BitVec.cons cf x).rotateLeft c).msb := by
  unfold rflag
  rw [ror_counts (k := 8) rfl (.inr rfl) hc, decide_eq_true (by decide : 0 < 8 * 8), Bool.true_and,
    show (63 - c + 0) % (8 * 8) = 63 - c by omega, rclCopies_bit hsize (by omega), msb_eq_getLsbD_last,
    rotateLeft_bit _ _ (by omega)]
  congr 1
  rcases hsize with rfl | rfl <;> omega

end

/-! ## Wide results -/

section
variable {size c : Nat} {src : Node} (x : BitVec (8 * size)) (cf : Bool)

theorem setWidth_bit (hsize : IsSize size) (x : BitVec (8 * size)) (i : Nat) : (x.setWidth 64).getLsbD i = x.getLsbD i := by
  have := hsize.le
  rw [getLsbD_setWidth]
  by_cases h : i < 64
  · rw [decide_eq_true h, Bool.true_and]
  · rw [getLsbD_of_ge x i (by omega), Bool.and_false]

theorem piece_bit (hsize : IsSize size) {piece : Node} (hpiece : IsSize piece.size) (cond : CondClass) {i : Nat}
    (hi : i < 8 * size) :
    (select cond src (constant (size * 8) 1) piece (constant (size * 8) 0)).value.getLsbD i =
      (compared cond src (constant (size * 8) 1) && piece.value.getLsbD i) := by
  have hzero := counts_zero hsize
  have hsize' : (constant (size * 8) 0).size = size := Nat.mul_div_cancel _ (by decide)
  rw [selected_bit cond hpiece hzero.size (by unfold atLeast4; omega), hzero.value]
  cases compared cond src (constant (size * 8) 1)
  · exact BitVec.getLsbD_zero
  · rfl

theorem pieces_bit (hsize : IsSize size) {shifted higher carry : Node} (hshifted : IsSize shifted.size)
    (hle : size ≤ shifted.size) (hhigher : IsSize higher.size) (hcarry : IsSize carry.size) (hc : Counts src c) {i : Nat}
    (hi : i < 8 * size) :
    (or (or shifted (select .UGT src (constant (size * 8) 1) higher (constant (size * 8) 0)))
      (select .UGE src (constant (size * 8) 1) carry (constant (size * 8) 0))).value.getLsbD i =
      (shifted.value.getLsbD i || (decide (1 < c) && higher.value.getLsbD i) ||
        (decide (1 ≤ c) && carry.value.getLsbD i)) := by
  have hzero := (counts_zero hsize).size
  have hone := counts_one hsize
  rw [or_bit (hshifted.max (select_isSize hhigher hzero)) (select_isSize hcarry hzero)
      (by rw [or_size]; omega),
    or_bit hshifted (select_isSize hhigher hzero) (by omega), piece_bit hsize hhigher _ hi, piece_bit hsize hcarry _ hi,
    compared_ugt hc hone, compared_uge hc hone]

theorem rcrResult_low (hsize : size = 4 ∨ size = 8) (hc : Counts src c) (hlt : c < 8 * size) :
    (rcrResult (size * 8) src ⟨size, x.setWidth 64⟩ (loadFlag cf)).value.setWidth (8 * size) =
      ((BitVec.cons cf x).rotateRight c).setWidth (8 * size) := by
  have hisSize : IsSize size := .inr (.inr hsize)
  have hmax : max 4 size = size := by omega
  have hhigher := sub_counts (counts_constant (c := size * 8 + 1) hisSize (by omega)) hc (by omega)
  have hcarry := sub_counts (counts_constant (c := size * 8) hisSize (by omega)) hc (by omega)
  apply eq_of_getLsbD_eq
  intro i hi
  rw [rcr_bit (by omega) hi, getLsbD_setWidth, decide_eq_true hi, Bool.true_and]
  unfold rcrResult
  rw [pieces_bit hisSize (isSize_four.max hisSize) (Nat.le_max_right _ _) (isSize_four.max hisSize) isSize_eight hc hi,
    lshr_counts hmax hsize hc hlt]
  unfold lshl lshlSized
  rw [opLshl_bit _ _ (.inr rfl), hcarry.toNat, hmax, opLshl_bit _ _ hsize, hhigher.toNat, loadFlag_bit]
  rw [setWidth_bit hisSize, setWidth_bit hisSize]
  have hbeyond : ∀ j, 8 * size ≤ j → x.getLsbD j = false := fun j hj => getLsbD_of_ge x j hj
  rcases Nat.eq_zero_or_pos c with rfl | hpos
  · simp [hi]
  -- The pieces are below the carry, the carry, and above it. There is nothing above it for a count of one.
  rw [mod_eq_of_lt (show size * 8 - c < 8 * 8 by omega)]
  rcases Nat.lt_or_ge 1 c with h1 | h1
  · rw [mod_eq_of_lt (show size * 8 + 1 - c < 8 * size by omega)]
    grind
  · grind

theorem rclResult_low (hsize : size = 4 ∨ size = 8) (hc : Counts src c) (hlt : c < 8 * size) :
    (rclResult (size * 8) src ⟨size, x.setWidth 64⟩ (loadFlag cf)).value.setWidth (8 * size) =
      ((BitVec.cons cf x).rotateLeft c).setWidth (8 * size) := by
  have hisSize : IsSize size := .inr (.inr hsize)
  have hmax : max 4 size = size := by omega
  have hhigher := sub_counts (counts_constant (c := size * 8 + 1) hisSize (by omega)) hc (by omega)
  apply eq_of_getLsbD_eq
  intro i hi
  rw [rcl_bit (by omega) hi, getLsbD_setWidth, decide_eq_true hi, Bool.true_and]
  unfold rclResult
  rw [pieces_bit hisSize (isSize_four.max hisSize) (Nat.le_max_right _ _) (isSize_four.max hisSize) isSize_eight hc hi,
    lshl_counts hmax hsize hc hlt]
  unfold lshr lshlSized
  rw [opLshl_bit _ _ (.inr rfl), hmax, opLshr_bit _ _ hsize, hhigher.toNat, loadFlag_bit]
  rw [setWidth_bit hisSize, setWidth_bit hisSize]
  rcases Nat.eq_zero_or_pos c with rfl | hpos
  · simp [hi]
  have hcarry := sub_counts hc (counts_one hisSize) hpos
  rw [hcarry.toNat, mod_eq_of_lt (show c - 1 < 8 * 8 by omega)]
  rcases Nat.lt_or_ge 1 c with h1 | h1
  · rw [mod_eq_of_lt (show size * 8 + 1 - c < 8 * size by omega)]
    grind
  · grind

theorem rcr_lastBit (hsize : size = 4 ∨ size = 8) (hc : Counts src c) (hlt : c < 8 * size) (hpos : 1 ≤ c) :
    rflag (lshr ⟨size, x.setWidth 64⟩ (sub src (constant (size * 8) 1))) = ((BitVec.cons cf x).rotateRight c).msb := by
  have hisSize : IsSize size := .inr (.inr hsize)
  have hcount := sub_counts hc (counts_one hisSize) hpos
  unfold rflag
  rw [lshr_counts (k := size) (by change max 4 size = size; omega) hsize hcount (by omega), rcr_carry hpos (by omega),
    decide_eq_true (by omega), Bool.true_and]
  exact setWidth_bit hisSize x _

theorem rcl_lastBit (hsize : size = 4 ∨ size = 8) (hc : Counts src c) (hlt : c < 8 * size) (hpos : 1 ≤ c) :
    rflag (lshr ⟨size, x.setWidth 64⟩ (sub (constant (size * 8) (BitVec.ofNat 64 (size * 8))) src)) =
      ((BitVec.cons cf x).rotateLeft c).msb := by
  have hisSize : IsSize size := .inr (.inr hsize)
  have hcount := sub_counts (counts_constant (c := size * 8) hisSize (by omega)) hc (by omega)
  unfold rflag
  rw [lshr_counts (k := size) (by change max 4 size = size; omega) hsize hcount (by omega), rcl_carry hpos (by omega),
    decide_eq_true (by omega), Bool.true_and, Nat.mul_comm size 8]
  exact setWidth_bit hisSize x _

end

/-! ## By one -/

section
variable {size : Nat} (x : BitVec (8 * size)) (cf : Bool)

theorem extracted_bit {n : Nat} (hn : n ≤ 64) (upper lower : BitVec n) {lsb i : Nat} (hi : i < n) :
    (extracted upper lower lsb).getLsbD i =
      if lsb + i < n then lower.getLsbD (lsb + i) else upper.getLsbD (lsb + i - n) := by
  unfold extracted
  simp only [getLsbD_setWidth, BitVec.getLsbD_ushiftRight, BitVec.getLsbD_or, BitVec.getLsbD_shiftLeft]
  have hupper : ∀ j, n ≤ j → upper.getLsbD j = false := fun j hj => getLsbD_of_ge upper j hj
  have hlower : ∀ j, n ≤ j → lower.getLsbD j = false := fun j hj => getLsbD_of_ge lower j hj
  grind

theorem extr_low (hsize : size = 4 ∨ size = 8) :
    (extr (loadFlag cf) ⟨size, x.setWidth 64⟩ 1).value.setWidth (8 * size) =
      ((BitVec.cons cf x).rotateRight 1).setWidth (8 * size) := by
  have hcf : ∀ (w j : Nat), ((loadFlag cf).value.setWidth w).getLsbD j = (decide (j < w) && (decide (j = 0) && cf)) := by
    intro w j
    rw [getLsbD_setWidth, loadFlag_bit]
  apply eq_of_getLsbD_eq
  intro i hi
  rw [rcr_bit (by omega) hi, getLsbD_setWidth, decide_eq_true hi, Bool.true_and]
  rcases hsize with rfl | rfl
  · change ((extracted ((loadFlag cf).value.setWidth 32) ((x.setWidth 64).setWidth 32) 1).setWidth 64).getLsbD i = _
    rw [getLsbD_setWidth, extracted_bit (by decide) _ _ hi, hcf, getLsbD_setWidth, getLsbD_setWidth]
    grind
  · change (extracted (loadFlag cf).value (x.setWidth 64) 1).getLsbD i = _
    rw [extracted_bit (by decide) _ _ hi, loadFlag_bit, getLsbD_setWidth]
    by_cases htop : i = 63
    · simp [htop]
    · grind

theorem extr_half (hsize : size = 4) :
    (extr (loadFlag cf) ⟨size, x.setWidth 64⟩ 1).value =
      ((extr (loadFlag cf) ⟨size, x.setWidth 64⟩ 1).value.setWidth 32).setWidth 64 := by
  subst hsize
  have hvalue : (extr (loadFlag cf) ⟨4, x.setWidth 64⟩ 1).value =
      (extracted ((loadFlag cf).value.setWidth 32) ((x.setWidth 64).setWidth 32) 1).setWidth 64 := by
    rfl
  apply truncated_of
  intro i hi
  rw [hvalue, getLsbD_setWidth, getLsbD_of_ge _ i hi, Bool.and_false]

theorem rcrWord_low (hsize : size = 2) :
    (or (bfe (size * 8 - 1) 1 ⟨size, x.setWidth 64⟩)
      (lshl (loadFlag cf) (constant (size * 8) (BitVec.ofNat 64 (size * 8 - 1))))).value.setWidth (8 * size) =
      ((BitVec.cons cf x).rotateRight 1).setWidth (8 * size) := by
  have hisSize : IsSize size := .inr (.inl hsize)
  have hcount := counts_constant (c := size * 8 - 1) hisSize (by omega)
  apply eq_of_getLsbD_eq
  intro i hi
  rw [rcr_bit (by omega) hi, getLsbD_setWidth, decide_eq_true hi, Bool.true_and,
    or_bit hisSize (isSize_four.max (isSize_loadFlag cf)) (by rw [bfe_size]; dsimp only; omega), bfe_bit,
    maskWidth_of_le (by omega), lshl_counts (k := 4) rfl (.inl rfl) hcount (by omega), loadFlag_bit]
  rw [setWidth_bit hisSize]
  grind

theorem rcrByte_low (hsize : size = 1) :
    (bfi (size * 8 / 8) 1 7 (bfe 7 1 ⟨size, x.setWidth 64⟩) (loadFlag cf)).value.setWidth (8 * size) =
      ((BitVec.cons cf x).rotateRight 1).setWidth (8 * size) := by
  have hisSize : IsSize size := .inl hsize
  apply eq_of_getLsbD_eq
  intro i hi
  unfold bfi
  rw [rcr_bit (by omega) hi, getLsbD_setWidth, decide_eq_true hi, Bool.true_and, getLsbD_opBfi (by omega) (by omega),
    bfe_bit, maskWidth_of_le (by omega), loadFlag_bit]
  rw [setWidth_bit hisSize]
  by_cases htop : i = 7
  · simp [htop, hsize]
  · grind

theorem rclOne_low (hsize : IsSize size) :
    (or (lshl ⟨size, x.setWidth 64⟩ (constant (size * 8) 1)) (loadFlag cf)).value.setWidth (8 * size) =
      ((BitVec.cons cf x).rotateLeft 1).setWidth (8 * size) := by
  have hpos := hsize.pos
  have hk : max 4 size = 4 ∨ max 4 size = 8 := by
    rcases hsize with rfl | rfl | rfl | rfl <;> decide
  apply eq_of_getLsbD_eq
  intro i hi
  rw [rcl_bit (by omega) hi, getLsbD_setWidth, decide_eq_true hi, Bool.true_and,
    or_bit (isSize_four.max hsize) (isSize_loadFlag cf) (by rw [lshl_size]; dsimp only; omega),
    lshl_counts rfl hk (counts_one hsize) (by omega), loadFlag_bit]
  rw [setWidth_bit hsize]
  grind

theorem rclOne_half (hsize : size = 4) :
    (or (lshl ⟨size, x.setWidth 64⟩ (constant (size * 8) 1)) (loadFlag cf)).value =
      ((or (lshl ⟨size, x.setWidth 64⟩ (constant (size * 8) 1)) (loadFlag cf)).value.setWidth 32).setWidth 64 := by
  subst hsize
  have hvalue := or_value (a := lshl ⟨4, x.setWidth 64⟩ (constant (4 * 8) 1)) (b := loadFlag cf) isSize_four
    (isSize_loadFlag cf)
  change _ = (BitVec.setWidth (8 * 4) _).setWidth 64 at hvalue
  exact hvalue.trans (congrArg (BitVec.setWidth 64) (low_of (by decide) (by decide) hvalue).symm)

end

/-! ## Handlers -/

namespace DecodedShift

section
variable {is64BitMode : Bool} (op : DecodedShift is64BitMode) (s : State) {b : Node}

theorem setCFOF_eq (res : BitVec (8 * op.size)) (cf of : Node) :
    (setCFOF (writeOperand is64BitMode op.toDecodedInst op.dest s.calculateDeferredFlags s.calculateDeferredFlags res)
        cf of).calculateDeferredFlags =
      op.executed s.calculateDeferredFlags res { s.calculateDeferredFlags.flags with cf := rflag cf, of := rflag of } := by
  obtain ⟨l, hl, -⟩ := op.exists_location s.calculateDeferredFlags
  unfold executed writeOperand
  rw [hl]
  cases l <;> rfl

/-- The result, the carry and the overflow of the number with the carry. -/
abbrev rotated (v : BitVec (8 * op.size + 1)) : BitVec (8 * op.size) := v.setWidth (8 * op.size)

abbrev carried : BitVec (8 * op.size + 1) := BitVec.cons s.calculateDeferredFlags.flags.cf (op.x s)

theorem loadDest_calculate : loadSource is64BitMode op.toDecodedInst s.calculateDeferredFlags op.dest =
    some ⟨op.size, (op.x s).setWidth 64⟩ := op.loadDest s.calculateDeferredFlags

theorem loadCount_calculate (h : op.countForm ≠ .one) :
    ∃ n, loadSource is64BitMode op.toDecodedInst s.calculateDeferredFlags (op.src 1) = some n ∧
      Counts (maskCount (constant (op.size * 8)) (op.size * 8) n) (op.count s) :=
  op.loadCount s.calculateDeferredFlags h fun _ hc => counts_constant op.isSize hc

theorem loadNarrowCount (hsize : op.size ≠ 8) (h : op.countForm ≠ .one) :
    ∃ n, loadSource is64BitMode op.toDecodedInst s.calculateDeferredFlags (op.src 1) = some n ∧
      Counts (and n (constant (op.size * 8) 0x1F)) (op.count s) := by
  obtain ⟨n, hload, hcount⟩ := op.loadCount_calculate s h
  refine ⟨n, hload, ?_⟩
  unfold maskCount at hcount
  rwa [if_neg (by omega)] at hcount

theorem count_lt_32 (hsize : op.size ≠ 8) : op.count s < 32 := by
  have hlt := op.count_lt s
  rwa [if_neg hsize] at hlt

theorem carry_select {src newCF : Node} (hc : Counts src (op.count s)) (hone : Counts b 1) (hnew : IsSize newCF.size)
    {last : Bool}
    (hlast : 1 ≤ op.count s → rflag newCF = last) (old : Bool) :
    rflag (select .UGE src b newCF (loadFlag old)) = if op.count s = 0 then old else last := by
  rw [rflag_select _ hnew (isSize_loadFlag old), compared_uge hc hone, rflag_loadFlag]
  by_cases hzero : op.count s = 0
  · rw [if_pos hzero, if_neg (by simp [hzero])]
  · rw [if_neg hzero, if_pos (decide_eq_true (by omega)), hlast (by omega)]

theorem topBits_eq {size : Nat} {res : Node} (hsize : IsSize size) (hres : IsSize res.size) {r : BitVec (8 * size)}
    (hlow : res.value.setWidth (8 * size) = r) : rflag (topBits (size * 8) res) = (r.msb ^^ r.getLsbD (8 * size - 2)) := by
  have := hsize.pos
  unfold topBits
  rw [rflag_xor_bfe hres hres, rflag_msb hsize hlow, rflag_low hsize hlow (by omega),
    show size * 8 - 2 = 8 * size - 2 by omega]

theorem overflow_select {src f : Node} (hc : Counts src (op.count s)) (hf : IsSize f.size) (old : Bool) :
    rflag (select .EQ src (const 0) (loadFlag old) f) = if op.count s = 0 then old else rflag f :=
  condFlagSet_eq hc hf old

theorem stored (run : Option State) {res cf of : Node} {r : BitVec (8 * op.size)}
    (hrun : run = (storeResult is64BitMode op.toDecodedInst s.calculateDeferredFlags res).bind fun s =>
      some (setCFOF s cf of))
    (hlow : res.value.setWidth (8 * op.size) = r)
    (hhalf : op.size = 4 → res.size ≠ 8 → res.value = (res.value.setWidth 32).setWidth 64) :
    op.Leaves s run r { s.calculateDeferredFlags.flags with cf := rflag cf, of := rflag of } := by
  subst hlow
  rw [op.storeDest s.calculateDeferredFlags res hhalf] at hrun
  exact ⟨_, hrun, op.setCFOF_eq s _ cf of⟩

/-- The two flags are as the architecture has them, with the overflow of a single step. -/
abbrev rcrFlags (op : DecodedShift is64BitMode) (s : State) : ALUFlags :=
  let v := (op.carried s).rotateRight (op.count s)
  variableFlags s.calculateDeferredFlags.flags (op.count s) v.msb
    ((op.rotated v).msb ^^ (op.rotated v).getLsbD (8 * op.size - 2))

abbrev rclFlags (op : DecodedShift is64BitMode) (s : State) : ALUFlags :=
  let v := (op.carried s).rotateLeft (op.count s)
  variableFlags s.calculateDeferredFlags.flags (op.count s) v.msb ((op.rotated v).msb ^^ v.msb)

/-- The emitted code leaves the value rotated to the right through the carry. -/
abbrev LeavesRcr (run : Option State) : Prop :=
  op.Leaves s run (op.rotated ((op.carried s).rotateRight (op.count s))) (op.rcrFlags s)

/-- The overflow is that of the result also if nothing is rotated. -/
abbrev LeavesRcrOF (run : Option State) : Prop :=
  let r := op.rotated ((op.carried s).rotateRight (op.count s))
  op.Leaves s run r { op.rcrFlags s with of := r.msb ^^ r.getLsbD (8 * op.size - 2) }

/-- The emitted code leaves the value rotated to the left through the carry. -/
abbrev LeavesRcl (run : Option State) : Prop :=
  op.Leaves s run (op.rotated ((op.carried s).rotateLeft (op.count s))) (op.rclFlags s)

/-! ### To the right -/

theorem rcrSmallerOp_eq (hsize : op.size = 1 ∨ op.size = 2) (h : op.countForm ≠ .one) :
    op.LeavesRcrOF s (rcrSmallerOp is64BitMode op.toDecodedInst s) := by
  obtain ⟨n, hload, hcount⟩ := op.loadNarrowCount s (by omega) h
  have hlt := op.count_lt_32 s (by omega)
  have hlow := rcrSmaller_low (op.x s) s.calculateDeferredFlags.flags.cf hsize hcount hlt
  have hres : ∀ count, IsSize (lshr (rcrCopies (op.size * 8) ⟨op.size, (op.x s).setWidth 64⟩
      (loadFlag s.calculateDeferredFlags.flags.cf)) count).size := by
    intro count
    rw [lshr_size, rcrCopies_size hsize]
    exact isSize_eight
  obtain ⟨s', hrun, hs'⟩ := op.stored s (rcrSmallerOp is64BitMode op.toDecodedInst s) (by
    simp only [rcrSmallerOp, hload, op.loadDest_calculate s, op.bitSize, bind_eq_bind, bind_some]
    rfl) hlow (by omega)
  refine ⟨s', hrun, hs'.trans ?_⟩
  rw [topBits_eq op.isSize (hres _) hlow, op.carry_select s hcount (counts_one op.isSize) (hres _) fun hpos =>
    rcrSmaller_carry _ _ hsize hcount hlt hpos]
  rfl

theorem result_size {shifted higher carry src one zero : Node} (hshifted : IsSize shifted.size)
    (hhigher : IsSize higher.size) (hzero : IsSize zero.size) (hcarry : carry.size = 8) :
    (or (or shifted (select .UGT src one higher zero)) (select .UGE src one carry zero)).size = 8 := by
  have h1 := hshifted.le
  have h2 := hhigher.le
  have h3 := hzero.le
  simp only [or_size, select_size, atLeast4, hcarry]
  omega

theorem rcrOp_wide (hsize : op.size = 4 ∨ op.size = 8) (h : op.countForm ≠ .one) :
    op.LeavesRcr s (rcrOp is64BitMode op.toDecodedInst s) := by
  obtain ⟨n, hload, hcount⟩ := op.loadCount_calculate s h
  have hlt := op.count_lt_copies s
  have hlow := rcrResult_low (op.x s) s.calculateDeferredFlags.flags.cf hsize hcount (by omega)
  have hnode : (rcrResult (op.size * 8) (maskCount (constant (op.size * 8)) (op.size * 8) n)
      ⟨op.size, (op.x s).setWidth 64⟩ (loadFlag s.calculateDeferredFlags.flags.cf)).size = 8 :=
    result_size (isSize_four.max op.isSize) (isSize_four.max op.isSize) (counts_zero op.isSize).size rfl
  have hres := isSize_eight
  rw [← hnode] at hres
  obtain ⟨s', hrun, hs'⟩ := op.stored s (rcrOp is64BitMode op.toDecodedInst s) (by
    simp only [rcrOp, hload, op.loadDest_calculate s, op.bitSize, bind_eq_bind, bind_some,
      show ¬ (op.size * 8 = 8 ∨ op.size * 8 = 16) by omega, if_false]
    rfl) hlow fun _ h8 => absurd hnode h8
  refine ⟨s', hrun, hs'.trans ?_⟩
  rw [op.overflow_select s hcount (hres.max hres), topBits_eq op.isSize hres hlow,
    op.carry_select s hcount (counts_one op.isSize) (isSize_four.max op.isSize) fun hpos =>
      rcr_lastBit _ _ hsize hcount (by omega) hpos]
  rfl

theorem rcrOp_narrow (hsize : op.size = 1 ∨ op.size = 2) :
    rcrOp is64BitMode op.toDecodedInst s = rcrSmallerOp is64BitMode op.toDecodedInst s := by
  unfold rcrOp
  rw [op.bitSize]
  exact if_pos (by omega)

theorem rcrOne_carry : rflag (bfe 1 0 ⟨op.size, (op.x s).setWidth 64⟩) = ((op.carried s).rotateRight 1).msb := by
  have := op.isSize.pos
  rw [rflag_bfe 0 (by decide), rcr_carry (by decide) (by omega)]
  exact setWidth_bit op.isSize (op.x s) 0

theorem leavesRcr_one (h : op.countForm = .one) {run : Option State} : op.LeavesRcr s run ↔
    op.Leaves s run (op.rotated ((op.carried s).rotateRight 1)) { s.calculateDeferredFlags.flags with
      cf := ((op.carried s).rotateRight 1).msb
      of := (op.rotated ((op.carried s).rotateRight 1)).msb ^^
        (op.rotated ((op.carried s).rotateRight 1)).getLsbD (8 * op.size - 2) } := by
  unfold LeavesRcr rcrFlags
  rw [op.count_one s h]
  rfl

theorem rcrOp1Bit_eq (hsize : op.size ≠ 1) (h : op.countForm = .one) :
    op.LeavesRcr s (rcrOp1Bit is64BitMode op.toDecodedInst s) := by
  rw [op.leavesRcr_one s h]
  by_cases hwide : op.size = 4 ∨ op.size = 8
  · have hlow := extr_low (op.x s) s.calculateDeferredFlags.flags.cf hwide
    obtain ⟨s', hrun, hs'⟩ := op.stored s (rcrOp1Bit is64BitMode op.toDecodedInst s) (by
      simp only [rcrOp1Bit, op.loadDest_calculate s, op.bitSize, bind_eq_bind, bind_some,
        show op.size * 8 = 32 ∨ op.size * 8 = 64 by omega, if_true]
      rfl) hlow fun h4 _ => extr_half _ _ h4
    refine ⟨s', hrun, hs'.trans ?_⟩
    rw [topBits_eq op.isSize ((isSize_loadFlag _).max op.isSize) hlow, op.rcrOne_carry s]
  · have h2 : op.size = 2 := by
      rcases op.isSize with h | h | h | h <;> omega
    have hlow := rcrWord_low (op.x s) s.calculateDeferredFlags.flags.cf h2
    obtain ⟨s', hrun, hs'⟩ := op.stored s (rcrOp1Bit is64BitMode op.toDecodedInst s) (by
      simp only [rcrOp1Bit, op.loadDest_calculate s, op.bitSize, bind_eq_bind, bind_some,
        show ¬ (op.size * 8 = 32 ∨ op.size * 8 = 64) by omega, if_false]
      rfl) hlow (by omega)
    refine ⟨s', hrun, hs'.trans ?_⟩
    rw [topBits_eq op.isSize (op.isSize.max (isSize_four.max (isSize_loadFlag _))) hlow, op.rcrOne_carry s]

theorem rcrOp8x1Bit_eq (hsize : op.size = 1) (h : op.countForm = .one) :
    op.LeavesRcr s (rcrOp8x1Bit is64BitMode op.toDecodedInst s) := by
  have hlow := rcrByte_low (op.x s) s.calculateDeferredFlags.flags.cf hsize
  rw [op.leavesRcr_one s h]
  obtain ⟨s', hrun, hs'⟩ := op.stored s (rcrOp8x1Bit is64BitMode op.toDecodedInst s) (by
    simp only [rcrOp8x1Bit, op.loadDest_calculate s, op.bitSize, bind_eq_bind, bind_some]
    rfl) hlow (by omega)
  refine ⟨s', hrun, hs'.trans ?_⟩
  rw [topBits_eq op.isSize (by rw [bfi_size, Nat.mul_div_cancel _ (by decide)]; exact op.isSize) hlow, op.rcrOne_carry s]

/-! ### To the left -/

theorem leavesRcl_one (h : op.countForm = .one) {run : Option State} : op.LeavesRcl s run ↔
    op.Leaves s run (op.rotated ((op.carried s).rotateLeft 1)) { s.calculateDeferredFlags.flags with
      cf := ((op.carried s).rotateLeft 1).msb
      of := (op.rotated ((op.carried s).rotateLeft 1)).msb ^^ ((op.carried s).rotateLeft 1).msb } := by
  unfold LeavesRcl rclFlags
  rw [op.count_one s h]
  rfl

theorem xor_eq {res newCF : Node} (hres : IsSize res.size) (hnew : IsSize newCF.size) {r : BitVec (8 * op.size)}
    (hlow : res.value.setWidth (8 * op.size) = r) :
    rflag (xor (bfe 1 (op.size * 8 - 1) res) newCF) = (r.msb ^^ rflag newCF) := by
  have := hres.pos
  rw [← rflag_msb op.isSize hlow]
  exact @xor_bit (bfe 1 (op.size * 8 - 1) res) newCF hres hnew 0 (by simp only [bfe_size]; omega)

theorem overflow_xor {src res newCF : Node} (hc : Counts src (op.count s)) (hres : IsSize res.size)
    (hnew : IsSize newCF.size) {r : BitVec (8 * op.size)} (hlow : res.value.setWidth (8 * op.size) = r) (old : Bool) :
    rflag (select .EQ src (const 0) (loadFlag old) (xor (bfe 1 (op.size * 8 - 1) res) newCF)) =
      if op.count s = 0 then old else r.msb ^^ rflag newCF := by
  rw [← op.xor_eq hres hnew hlow]
  exact condFlagSet_eq hc (hres.max hnew) old

theorem rclSmallerOp_eq (hsize : op.size = 1 ∨ op.size = 2) (h : op.countForm ≠ .one) :
    op.LeavesRcl s (rclSmallerOp is64BitMode op.toDecodedInst s) := by
  obtain ⟨n, hload, hcount⟩ := op.loadNarrowCount s (by omega) h
  have hlt := op.count_lt_32 s (by omega)
  have hrest : Counts (sub (constant (op.size * 8) 64) (and n (constant (op.size * 8) 0x1F))) (64 - op.count s) :=
    sub_counts (counts_constant op.isSize (by decide)) hcount (by omega)
  have hlast : Counts (sub (const 63) (and n (constant (op.size * 8) 0x1F))) (63 - op.count s) :=
    sub_counts (counts_const (by decide)) hcount (by omega)
  have hone : Counts (const 1) 1 := counts_const (by decide)
  have hlow := rclSmaller_low (op.x s) s.calculateDeferredFlags.flags.cf hsize hrest hlt
  have hcarry := rclSmaller_carry (op.x s) s.calculateDeferredFlags.flags.cf hsize hlast hlt
  obtain ⟨s', hrun, hs'⟩ := op.stored s (rclSmallerOp is64BitMode op.toDecodedInst s) (by
    simp only [rclSmallerOp, hload, op.loadDest_calculate s, op.bitSize, bind_eq_bind, bind_some]
    rfl) hlow (by omega)
  refine ⟨s', hrun, hs'.trans ?_⟩
  have hres : ∀ count, IsSize (ror (rclCopies (op.size * 8) ⟨op.size, (op.x s).setWidth 64⟩
      (loadFlag s.calculateDeferredFlags.flags.cf)) count).size := fun _ => isSize_eight
  rw [op.carry_select s hcount hone (hres _) fun _ => hcarry, op.overflow_xor s hcount (hres _) (hres _) hlow, hcarry]
  rfl

theorem rclOp_wide (hsize : op.size = 4 ∨ op.size = 8) (h : op.countForm ≠ .one) :
    op.LeavesRcl s (rclOp is64BitMode op.toDecodedInst s) := by
  obtain ⟨n, hload, hcount⟩ := op.loadCount_calculate s h
  have hlt := op.count_lt_copies s
  have hlow := rclResult_low (op.x s) s.calculateDeferredFlags.flags.cf hsize hcount (by omega)
  have hnode : (rclResult (op.size * 8) (maskCount (constant (op.size * 8)) (op.size * 8) n)
      ⟨op.size, (op.x s).setWidth 64⟩ (loadFlag s.calculateDeferredFlags.flags.cf)).size = 8 :=
    result_size (isSize_four.max op.isSize) (isSize_four.max op.isSize) (counts_zero op.isSize).size rfl
  have hres := isSize_eight
  rw [← hnode] at hres
  obtain ⟨s', hrun, hs'⟩ := op.stored s (rclOp is64BitMode op.toDecodedInst s) (by
    simp only [rclOp, hload, op.loadDest_calculate s, op.bitSize, bind_eq_bind, bind_some,
      show ¬ (op.size * 8 = 8 ∨ op.size * 8 = 16) by omega, if_false]
    rfl) hlow fun _ h8 => absurd hnode h8
  refine ⟨s', hrun, hs'.trans ?_⟩
  have hnew : ∀ count, IsSize (lshr ⟨op.size, (op.x s).setWidth 64⟩ count).size := fun _ => isSize_four.max op.isSize
  have hlast := rcl_lastBit (op.x s) s.calculateDeferredFlags.flags.cf hsize hcount (by omega)
  rw [op.carry_select s hcount (counts_one op.isSize) (hnew _) hlast, op.overflow_xor s hcount hres (hnew _) hlow]
  unfold rclFlags variableFlags
  by_cases hzero : op.count s = 0
  · simp [hzero]
  · rw [hlast (by omega)]

theorem rclOp_narrow (hsize : op.size = 1 ∨ op.size = 2) :
    rclOp is64BitMode op.toDecodedInst s = rclSmallerOp is64BitMode op.toDecodedInst s := by
  unfold rclOp
  rw [op.bitSize]
  exact if_pos (by omega)

theorem rclOp1Bit_eq (h : op.countForm = .one) :
    op.LeavesRcl s (rclOp1Bit is64BitMode op.toDecodedInst s) := by
  have hpos := op.isSize.pos
  have hlow := rclOne_low (op.x s) s.calculateDeferredFlags.flags.cf op.isSize
  have hcarry : rflag (bfe 1 (op.size * 8 - 1) ⟨op.size, (op.x s).setWidth 64⟩) = ((op.carried s).rotateLeft 1).msb := by
    have hle := op.isSize.le
    rw [rflag_bfe _ (by omega), rcl_carry (by decide) (by omega), show op.size * 8 - 1 = 8 * op.size - 1 by omega]
    exact setWidth_bit op.isSize (op.x s) _
  rw [op.leavesRcl_one s h]
  obtain ⟨s', hrun, hs'⟩ := op.stored s (rclOp1Bit is64BitMode op.toDecodedInst s) (by
    simp only [rclOp1Bit, op.loadDest_calculate s, op.bitSize, bind_eq_bind, bind_some]
    rfl) hlow fun h4 _ => rclOne_half _ _ h4
  refine ⟨s', hrun, hs'.trans ?_⟩
  rw [op.xor_eq ((isSize_four.max op.isSize).max (isSize_loadFlag _)) op.isSize hlow, hcarry]

end

end DecodedShift

/-! ## Instructions -/

/-- A rotate of the carry and the operand. -/
structure DecodedRotateCarry (is64BitMode : Bool) extends DecodedShift is64BitMode where
  rotate_eq : shift = .rcl ∨ shift = .rcr

namespace DecodedRotateCarry

variable {is64BitMode : Bool} (op : DecodedRotateCarry is64BitMode) (s : State)

/-- Nothing is rotated, and the top bits of a narrow operand tell another overflow than there is. -/
def ChangesOF : Prop :=
  let x := op.x s
  op.shift = .rcr ∧ op.size ≤ 2 ∧ op.countForm ≠ .one ∧ op.count s = 0 ∧
    (x.msb ^^ x.getLsbD (8 * op.size - 2)) ≠ s.calculateDeferredFlags.flags.of

theorem isRotate : op.shift.isRotate = true := by
  rcases op.rotate_eq with h | h <;> rw [h] <;> rfl

theorem isDouble_of {op : Nat} {shift : Shift} {form : CountForm} (h : Shift.ofOpcode .secondBase op = some (shift, form)) :
    shift.isDouble = true := by
  unfold Shift.ofOpcode at h
  split at h
  case h_6 =>
    cases h
  all_goals first
    | cases h
      rfl
    | contradiction

theorem table_eq : op.table = .primaryGroup := by
  have hop := op.ofOpcode_eq
  cases htable : op.table with
  | base =>
    rw [htable] at hop
    cases hop
  | primaryGroup => rfl
  | secondBase =>
    rw [htable] at hop
    have hdouble := isDouble_of hop
    rcases op.rotate_eq with h | h <;> rw [h] at hdouble <;> cases hdouble

theorem rotateRight_overflow {w : Nat} (hw : 8 ≤ w) (x : BitVec w) (cf : Bool) :
    ((((BitVec.cons cf x).rotateRight 1).setWidth w).msb ^^
      (((BitVec.cons cf x).rotateRight 1).setWidth w).getLsbD (w - 2)) = (x.msb ^^ cf) := by
  rw [msb_eq_getLsbD_last, rcr_bit (by omega) (by omega), rcr_bit (by omega) (by omega), if_neg (by omega),
    if_pos (by omega), if_pos (by omega), msb_eq_getLsbD_last, show 1 + (w - 2) = w - 1 by omega, Bool.xor_comm]

theorem rotateRight_none {w : Nat} (x : BitVec w) (cf : Bool) : ((BitVec.cons cf x).rotateRight 0).setWidth w = x := by
  apply eq_of_getLsbD_eq
  intro i hi
  rw [rcr_bit (by omega) hi, Nat.zero_add, if_pos hi]

theorem bits_le : 8 ≤ 8 * op.size := by
  have := op.isSize.pos
  omega

theorem rcl_runs (h : op.shift = .rcl) :
    op.LeavesRcl s ((op.shift.handler (op.size = 1) op.countForm).handler is64BitMode op.toDecodedInst s) := by
  have hwhole (hform : op.countForm ≠ .one) : op.LeavesRcl s (rclOp is64BitMode op.toDecodedInst s) := by
    rcases op.isSize with h1 | h2 | hwide
    · rw [op.rclOp_narrow s (.inl h1)]
      exact op.rclSmallerOp_eq s (.inl h1) hform
    · rw [op.rclOp_narrow s (.inr h2)]
      exact op.rclSmallerOp_eq s (.inr h2) hform
    · exact op.rclOp_wide s hwide hform
  rw [h]
  cases hform : op.countForm with
  | one => exact op.rclOp1Bit_eq s hform
  | immediate => exact hwhole (by rw [hform]; decide)
  | cl =>
    by_cases hbyte : op.size = 1
    · simp only [Shift.handler, hbyte, decide_true, if_true]
      exact op.rclSmallerOp_eq s (.inl hbyte) (by rw [hform]; decide)
    · simp only [Shift.handler, hbyte, decide_false, Bool.false_eq_true, if_false]
      exact hwhole (by rw [hform]; decide)

theorem follows_rcl (h : op.shift = .rcl) : op.FollowsX86 s := by
  obtain ⟨s', hrun, hs'⟩ := op.rcl_runs s h
  rw [op.follows_iff s (op.ofOp_size op.table_eq) hrun hs' (fun _ => by rw [h]; rfl)]
  exact variableFlags_match op.isRotate (fun _ => by rw [h]; rfl) (by rw [h]; rfl)

/-- The handlers that keep the flags if nothing is rotated, and the single steps. -/
theorem rcr_runs (h : op.shift = .rcr) (hkeeps : op.countForm = .one ∨ op.size = 4 ∨ op.size = 8) :
    op.LeavesRcr s ((op.shift.handler (op.size = 1) op.countForm).handler is64BitMode op.toDecodedInst s) := by
  rw [h]
  cases hform : op.countForm with
  | one =>
    by_cases hbyte : op.size = 1
    · simp only [Shift.handler, hbyte, decide_true, if_true]
      exact op.rcrOp8x1Bit_eq s hbyte hform
    · simp only [Shift.handler, hbyte, decide_false, Bool.false_eq_true, if_false]
      exact op.rcrOp1Bit_eq s hbyte hform
  | immediate =>
    rw [hform] at hkeeps
    exact op.rcrOp_wide s (hkeeps.resolve_left (by decide)) (by rw [hform]; decide)
  | cl =>
    rw [hform] at hkeeps
    have hwide := hkeeps.resolve_left (by decide)
    simp only [Shift.handler, show ¬ op.size = 1 by omega, decide_false, Bool.false_eq_true, if_false]
    exact op.rcrOp_wide s hwide (by rw [hform]; decide)

theorem rcr_runs_narrow (h : op.shift = .rcr) (hsize : op.size = 1 ∨ op.size = 2) (hform : op.countForm ≠ .one) :
    op.LeavesRcrOF s ((op.shift.handler (op.size = 1) op.countForm).handler is64BitMode op.toDecodedInst s) := by
  have hnarrow := op.rcrSmallerOp_eq s hsize hform
  rw [h]
  cases hcount : op.countForm with
  | one => exact absurd hcount hform
  | immediate =>
    change op.LeavesRcrOF s (rcrOp is64BitMode op.toDecodedInst s)
    rwa [op.rcrOp_narrow s hsize]
  | cl =>
    by_cases hbyte : op.size = 1
    · have hname : Shift.handler (op.size = 1) .rcr .cl = .RCRSmallerOp := by
        simp [Shift.handler, hbyte]
      rw [hname]
      exact hnarrow
    · have hname : Shift.handler (op.size = 1) .rcr .cl = .RCROp := by
        simp [Shift.handler, hbyte]
      rw [hname]
      change op.LeavesRcrOF s (rcrOp is64BitMode op.toDecodedInst s)
      rwa [op.rcrOp_narrow s hsize]

theorem rcrFlags_match (h : op.shift = .rcr) : op.shift.FlagsMatch (8 * op.size) (op.count s)
    (op.shift.flags (op.x s) (op.y s) (op.count s) s.calculateDeferredFlags.flags) (op.rcrFlags s) :=
  variableFlags_match op.isRotate
    (fun hone => by
      rw [h, hone]
      exact rotateRight_overflow op.bits_le _ _)
    (by rw [h]; rfl)

/-- The emitted code of a rotate through the carry leaves what the architecture leaves, unless it sets the overflow by a
count of zero. -/
theorem carry_rotates_follow_iff : op.FollowsX86 s ↔ ¬ op.ChangesOF s := by
  rcases op.rotate_eq with h | h
  · exact iff_of_true (op.follows_rcl s h) fun hchanges => by rw [hchanges.1] at h; cases h
  by_cases hkeeps : op.countForm = .one ∨ op.size = 4 ∨ op.size = 8
  · obtain ⟨s', hrun, hs'⟩ := op.rcr_runs s h hkeeps
    rw [op.follows_iff s (op.ofOp_size op.table_eq) hrun hs' (fun _ => by rw [h]; rfl)]
    refine iff_of_true (op.rcrFlags_match s h) fun hchanges => ?_
    rcases hkeeps with hone | hwide
    · exact hchanges.2.2.1 hone
    · have := hchanges.2.1
      omega
  · have hform : op.countForm ≠ .one := fun hone => hkeeps (.inl hone)
    have hsize : op.size = 1 ∨ op.size = 2 := by
      rcases op.isSize with h1 | h2 | hwide
      · exact .inl h1
      · exact .inr h2
      · exact absurd (.inr hwide) hkeeps
    obtain ⟨s', hrun, hs'⟩ := op.rcr_runs_narrow s h hsize hform
    rw [op.follows_iff s (op.ofOp_size op.table_eq) hrun hs' (fun _ => by rw [h]; rfl)]
    have hmatch := op.rcrFlags_match s h
    unfold ChangesOF
    by_cases hzero : op.count s = 0
    · -- All that may differ is the overflow, which is that of the operand.
      have hnone : op.rotated ((op.carried s).rotateRight 0) = op.x s := rotateRight_none _ _
      rw [hzero] at hmatch ⊢
      rw [hnone]
      constructor
      · rintro hfollows ⟨-, -, -, -, hne⟩
        exact hne (hfollows.of (by decide))
      · intro hnot
        refine ⟨hmatch.cf, fun _ => ?_, hmatch.af, hmatch.result⟩
        exact Classical.byContradiction fun hne => hnot ⟨h, by omega, hform, rfl, hne⟩
    · refine iff_of_true ⟨hmatch.cf, fun hle => ?_, hmatch.af, hmatch.result⟩ fun hchanges => hzero hchanges.2.2.2.1
      have hof := hmatch.of hle
      simp only [DecodedShift.rcrFlags, variableFlags, hzero, if_false] at hof
      exact hof

end DecodedRotateCarry

/-- `rcr ch, cl`. -/
def rcrCH : DecodedRotateCarry true where
  flags := 1#32 <<< 19 ||| 1#32 <<< 22
  pc := 0
  instSize := 2
  entry := 0
  op := ALU.opd 2 4 3
  dest := .gpr true .rcx
  src := fun _ => .gpr false .rcx
  table := .primaryGroup
  shift := .rcr
  countForm := .cl
  size := 1
  ofOpcode_eq := by decide
  byte_iff := by decide
  getSrcSize_eq := by decide
  getDstSize_eq := by decide
  isSize := by decide
  size_mode := by decide
  dest_rm := ⟨rfl, by decide⟩
  src_isGPR := fun h => by cases h
  count_isIn := rfl
  rotate_eq := .inr rfl

/-- The top bit of the second byte in every register, and no flags. -/
def topOfSecondByte : State := { oneEverywhere with cpu := ⟨fun _ => 0x8000, fun _ => 0, fun _ => 0⟩ }

/-- The count is zero, and the overflow is set. -/
theorem rcrCH_differs : ¬ ∀ (is64BitMode : Bool) (op : DecodedRotateCarry is64BitMode) (s : State), op.FollowsX86 s := by
  intro h
  obtain ⟨s', hrun, hs'⟩ := rcrCH.rcr_runs_narrow topOfSecondByte rfl (.inl rfl) (by decide)
  have hfollows := (rcrCH.follows_iff topOfSecondByte (rcrCH.ofOp_size rfl) hrun hs' fun _ => rfl).1
    (h true rcrCH topOfSecondByte)
  have hof := hfollows.of (by decide)
  revert hof
  decide

end FexEmu.OpcodeDispatcher.Integer
