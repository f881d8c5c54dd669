import FexEmu.OpcodeDispatcher.IntegerCounts
/-!
# Rotates follow the architecture

Narrow operands are copied in the node that is rotated. With immediate counts the carry is not always the last bit that goes
out.
-/
namespace FexEmu.OpcodeDispatcher.Integer

open Interpreter
open Address (Node constant)
open StringOps (State ALUFlags rflag)
open Nat (mod_lt mod_eq_of_lt mul_sub)

/-! ## Bits of rotates -/

variable {w : Nat}

theorem rotateRight_bit (x : BitVec w) (c : Nat) {i : Nat} (hi : i < w) :
    (x.rotateRight c).getLsbD i = x.getLsbD ((c + i) % w) := by
  have hmod := mod_lt c (by omega : 0 < w)
  rw [BitVec.getLsbD_rotateRight, decide_eq_true hi, Bool.true_and, Bool.cond_decide, ← Nat.mod_add_mod]
  generalize c % w = r at hmod ⊢
  split_ifs with h
  · rw [mod_eq_of_lt (by omega)]
  · rw [Nat.mod_eq_sub_mod (by omega), mod_eq_of_lt (by omega)]
    congr 1
    omega

theorem rotateLeft_bit (x : BitVec w) (c : Nat) {i : Nat} (hi : i < w) :
    (x.rotateLeft c).getLsbD i = x.getLsbD ((w - c % w + i) % w) := by
  have hmod := mod_lt c (by omega : 0 < w)
  rw [BitVec.getLsbD_rotateLeft, decide_eq_true hi, Bool.true_and, Bool.cond_decide]
  generalize c % w = r at hmod ⊢
  split_ifs with h
  · rw [mod_eq_of_lt (by omega)]
  · rw [Nat.mod_eq_sub_mod (by omega), mod_eq_of_lt (by omega)]
    congr 1
    omega

theorem rotateRight_sub {m c : Nat} (x : BitVec w) (hw : w ∣ m) (hc : c ≤ m) : x.rotateRight (m - c) = x.rotateLeft c := by
  apply BitVec.eq_of_getLsbD_eq
  intro i hi
  rw [rotateRight_bit x _ hi, rotateLeft_bit x _ hi]
  have hmod := mod_lt c (by omega : 0 < w)
  congr 1
  obtain ⟨q, rfl⟩ := hw
  have hdiv := Nat.div_add_mod c w
  have hle : c / w ≤ q := Nat.div_le_of_le_mul hc
  rcases Nat.eq_zero_or_pos (c % w) with hzero | hpos
  · have : w * q - c + i = i + w * (q - c / w) := by
      rw [mul_sub]
      omega
    rw [this, Nat.add_mul_mod_self_left, hzero, Nat.sub_zero, Nat.add_mod_left]
  · have hlt : c / w < q := by
      rcases Nat.lt_or_ge (c / w) q with h | h
      · exact h
      · have := Nat.mul_le_mul_left w h
        omega
    have : w * q - c + i = w - c % w + i + w * (q - c / w - 1) := by
      have h1 := Nat.mul_le_mul_left w (show c / w + 1 ≤ q by omega)
      rw [mul_sub, mul_sub, Nat.mul_one]
      rw [Nat.mul_add] at h1
      omega
    rw [this, Nat.add_mul_mod_self_left]

/-! ## Copies of narrow operands -/

section
variable {size m : Nat} {n b : Node} {x : BitVec (8 * size)}

/-- A node with copies of an operand in its low bits, and nothing above. -/
structure Repeats (n : Node) (x : BitVec (8 * size)) (m : Nat) : Prop where
  bit : ∀ i < m, n.value.getLsbD i = x.getLsbD (i % (8 * size))
  above : ∀ i, m ≤ i → n.value.getLsbD i = false

theorem Repeats.insert (h : Repeats n x m) (hm : 0 < m) (hdvd : 8 * size ∣ m) (hle : 2 * m ≤ 64) (k : Nat) :
    Repeats (bfi k m m n n) x (2 * m) where
  bit i hi := by
    unfold bfi
    rw [getLsbD_opBfi (by omega) (by omega), decide_eq_true (by omega), Bool.true_and]
    split_ifs with hbit
    · obtain ⟨q, rfl⟩ := hdvd
      rw [h.bit _ (by omega), Nat.sub_mul_mod hbit.1]
    · exact h.bit i (by omega)
  above i hi := by
    unfold bfi
    rw [getLsbD_opBfi (by omega) (by omega), if_neg (by omega)]
    exact h.above i (by omega)

/-- The bits that `insertCopies` fills. -/
def copiedBits (size : Nat) (again : Bool) : Nat := if size = 1 ∧ again = false then 16 else 8 * max 4 size

theorem insertCopies_size (hsize : IsSize size) (again : Bool) (n : Node) (hn : n.size = size) :
    (insertCopies (size * 8) again n).size = max 4 size := by
  unfold insertCopies
  rcases hsize with rfl | rfl | rfl | rfl <;> cases again <;> simp [hn]

theorem insertCopies_repeats (hsize : IsSize size) (x : BitVec (8 * size)) (again : Bool) :
    Repeats (insertCopies (size * 8) again ⟨size, x.setWidth 64⟩) x (copiedBits size again) := by
  have hplain : Repeats ⟨size, x.setWidth 64⟩ x (8 * size) := by
    have := hsize.le
    refine ⟨fun i hi => ?_, fun i hi => ?_⟩
    · rw [mod_eq_of_lt hi, BitVec.getLsbD_setWidth, decide_eq_true (by omega), Bool.true_and]
    · rw [BitVec.getLsbD_setWidth, BitVec.getLsbD_of_ge x i hi, Bool.and_false]
  rcases hsize with rfl | rfl | rfl | rfl
  · have htwo := hplain.insert (by decide) (by decide) (by decide) 4
    cases again with
    | false => exact htwo
    | true => exact htwo.insert (by decide) (by decide) (by decide) 4
  · exact hplain.insert (by decide) (by decide) (by decide) 4
  · exact hplain
  · exact hplain

theorem ror_low (hsize : IsSize size) (hn : n.size = max 4 size) (h : Repeats n x m)
    (hm : ∀ i < 8 * size, (b.value.toNat + i) % (8 * max 4 size) < m) :
    (ror n b).value.setWidth (8 * size) = x.rotateRight b.value.toNat := by
  have hdvd : 8 * size ∣ 8 * max 4 size := by
    rcases hsize with rfl | rfl | rfl | rfl <;> decide
  have hmax := max4_eq (a := n) (by rw [hn]; exact isSize_four.max hsize)
  have hmax4 : max 4 n.size = max 4 size := by omega
  apply BitVec.eq_of_getLsbD_eq
  intro i hi
  unfold ror
  rw [BitVec.getLsbD_setWidth, decide_eq_true hi, Bool.true_and, opRor_bit _ _ hmax, decide_eq_true (by omega),
    Bool.true_and, hmax4, h.bit _ (hm i hi), rotateRight_bit x _ hi, Nat.mod_mod_of_dvd _ hdvd]

theorem ror_half (hsize : size = 4) (hn : n.size = max 4 size) :
    (ror n b).value = ((ror n b).value.setWidth 32).setWidth 64 := by
  have hmax4 : max 4 n.size = 4 := by omega
  apply truncated_of
  intro i hi
  unfold ror
  rw [hmax4, opRor_bit _ _ (.inl rfl), decide_eq_false (by omega), Bool.false_and]

end

/-! ## Flags -/

theorem rflag_xor_bfe {a b : Node} (ha : IsSize a.size) (hb : IsSize b.size) (i j : Nat) :
    rflag (xor (bfe 1 i a) (bfe 1 j b)) = (rflag (bfe 1 i a) ^^ rflag (bfe 1 j b)) := by
  have := ha.pos
  exact @xor_bit (bfe 1 i a) (bfe 1 j b) ha hb 0 (by simp only [bfe_size]; omega)

section
variable {size c : Nat} {res src1 src2 : Node} {x r : BitVec (8 * size)} {old : ALUFlags}

theorem rflag_low (hsize : IsSize size) (hlow : res.value.setWidth (8 * size) = r) {i : Nat} (hi : i < 8 * size) :
    rflag (bfe 1 i res) = r.getLsbD i := by
  have := hsize.le
  rw [rflag_bfe i (by omega), ← hlow, BitVec.getLsbD_setWidth, decide_eq_true hi, Bool.true_and]

theorem rflag_msb (hsize : IsSize size) (hlow : res.value.setWidth (8 * size) = r) :
    rflag (bfe 1 (size * 8 - 1) res) = r.msb := by
  have := hsize.pos
  rw [rflag_low hsize hlow (by omega), BitVec.msb_eq_getLsbD_last]
  congr 1
  omega

theorem calculcateFlags_RotateRight_eq (hsize : IsSize size) (hres : IsSize res.size)
    (hlow : res.value.setWidth (8 * size) = r) (hc : Counts src2 c) :
    calculcateFlags_RotateRight size res src2 old =
      { old with
        cf := if c = 0 then old.cf else r.msb
        of := if c = 0 then old.of else r.getLsbD (8 * size - 2) ^^ r.msb } := by
  have := hsize.pos
  have hof := rflag_xor_bfe hres hres (size * 8 - 2) (size * 8 - 1)
  rw [rflag_msb hsize hlow, rflag_low hsize hlow (by omega), show size * 8 - 2 = 8 * size - 2 by omega] at hof
  unfold calculcateFlags_RotateRight
  dsimp only
  rw [show size * 8 - 2 = 8 * size - 2 by omega, condFlagSet_eq hc (f := bfe 1 _ res) hres,
    condFlagSet_eq hc (f := xor (bfe 1 _ res) (bfe 1 _ res)) (hres.max hres), rflag_msb hsize hlow,
    hof]

theorem calculcateFlags_RotateLeft_eq (hsize : IsSize size) (hres : IsSize res.size)
    (hlow : res.value.setWidth (8 * size) = r) (hc : Counts src2 c) :
    calculcateFlags_RotateLeft size res src2 old =
      { old with
        cf := if c = 0 then old.cf else r.getLsbD 0
        of := if c = 0 then old.of else r.msb ^^ r.getLsbD 0 } := by
  have := hsize.pos
  have hof := rflag_xor_bfe hres hres (size * 8 - 1) 0
  rw [rflag_msb hsize hlow, rflag_low hsize hlow (by omega)] at hof
  unfold calculcateFlags_RotateLeft
  dsimp only
  rw [condFlagSet_eq hc (f := bfe 1 0 res) hres, condFlagSet_eq hc (f := xor (bfe 1 _ res) (bfe 1 _ res)) (hres.max hres),
    rflag_low hsize hlow (by omega), hof]

theorem copiedBits_le (hsize : IsSize size) (again : Bool) :
    8 * size ≤ copiedBits size again ∧ copiedBits size again ≤ 8 * max 4 size := by
  have := hsize.le
  unfold copiedBits
  split_ifs <;> omega

theorem calculcateFlags_RotateRightImmediate_eq (hsize : IsSize size) (hres : IsSize res.size) (hsrc : IsSize src1.size)
    (hlow : res.value.setWidth (8 * size) = r) {again : Bool} (hcopies : Repeats src1 x (copiedBits size again))
    (hc : c < if size = 8 then 64 else 32) :
    calculcateFlags_RotateRightImmediate size res src1 c old =
      if c = 0 then old
      else { old with
        cf := decide (c ≤ 8 * size) && x.getLsbD (8 * size - c)
        of := if c = 1 then r.msb ^^ x.msb else old.of } := by
  have hpos := hsize.pos
  have hle := hsize.le
  have hcopied := copiedBits_le hsize again
  by_cases hzero : c = 0
  · unfold calculcateFlags_RotateRightImmediate
    rw [if_pos hzero, if_pos hzero]
  have hcf : rflag (bfe 1 (lsbByte (size * 8) c) src1) = (decide (c ≤ 8 * size) && x.getLsbD (8 * size - c)) := by
    unfold rflag lsbByte
    rw [bfe_bit]
    by_cases hc' : c ≤ 8 * size
    · rw [decide_eq_true hc', show (256 + size * 8 - c) % 256 % 64 + 0 = 8 * size - c by omega, hcopies.bit _ (by omega),
        mod_eq_of_lt (by omega)]
      rfl
    · have hc32 : c < 32 := by
        split_ifs at hc <;> omega
      rw [decide_eq_false hc', hcopies.above _ (by omega), Bool.and_false, Bool.false_and]
  have hof := rflag_xor_bfe hres hsrc (size * 8 - 1) (lsbByte (size * 8) c)
  rw [hcf, rflag_msb hsize hlow] at hof
  unfold calculcateFlags_RotateRightImmediate
  dsimp only
  rw [hof, hcf, if_neg hzero, if_neg hzero]
  split_ifs with hone
  · rw [hone, decide_eq_true (by omega), Bool.true_and, ← BitVec.msb_eq_getLsbD_last]
  · rfl

theorem calculcateFlags_RotateLeftImmediate_eq (hsize : IsSize size) (hsrc : IsSize src1.size)
    (hcopies : Repeats src1 x (8 * max 4 size)) (hc : c < if size = 8 then 64 else 32) :
    calculcateFlags_RotateLeftImmediate size src1 c old =
      if c = 0 then old
      else { old with
        cf := x.getLsbD (c % (8 * size))
        of := if c = 1 then x.msb ^^ x.getLsbD (8 * size - 2) else old.of } := by
  have hpos := hsize.pos
  have hle := hsize.le
  have hbit : ∀ i < 8 * max 4 size, rflag (bfe 1 i src1) = x.getLsbD (i % (8 * size)) := by
    intro i hi
    rw [rflag_bfe i (by omega), hcopies.bit i hi]
  have hc' : c < 8 * max 4 size := by
    split_ifs at hc <;> omega
  unfold calculcateFlags_RotateLeftImmediate
  rw [rflag_xor_bfe hsrc hsrc, hbit c hc', hbit _ (by omega), hbit _ (by omega),
    mod_eq_of_lt (a := size * 8 - 1) (by omega),
    mod_eq_of_lt (a := size * 8 - 2) (by omega), BitVec.msb_eq_getLsbD_last, Nat.mul_comm size 8]

end

/-- The two flags by a count that is known when the code is emitted. -/
def immediateFlags (old : ALUFlags) (c : Nat) (cf of : Bool) : ALUFlags :=
  if c = 0 then old else { old with cf, of := if c = 1 then of else old.of }

/-- The two flags by a count that is not known. -/
def variableFlags (old : ALUFlags) (c : Nat) (cf of : Bool) : ALUFlags :=
  { old with cf := if c = 0 then old.cf else cf, of := if c = 0 then old.of else of }

section
variable {w c : Nat} {shift : Shift} {x y : BitVec w} {old : ALUFlags} {cf of : Bool}
  (hrotate : shift.isRotate = true) (hof : c = 1 → of = (shift.result x y old.cf c).2.2)
include hrotate hof

theorem immediateFlags_match : shift.FlagsMatch w c (shift.flags x y c old) (immediateFlags old c cf of) ↔
    (c ≠ 0 → cf = (shift.result x y old.cf c).2.1) := by
  unfold Shift.flags immediateFlags
  dsimp only
  by_cases hzero : c = 0
  · rw [if_pos hzero, if_pos hzero]
    exact ⟨fun _ h => absurd hzero h, fun _ => ⟨fun _ => rfl, fun _ => rfl, fun _ => rfl, fun _ => ⟨rfl, rfl, rfl⟩⟩⟩
  · rw [if_neg hzero, if_neg hzero, if_pos hrotate]
    constructor
    · intro h _
      exact h.cf (by rw [Shift.definesCF, hrotate, Bool.true_or, Bool.true_or])
    · intro h
      refine ⟨fun _ => h hzero, fun hle => ?_, fun _ => rfl, fun _ => ⟨rfl, rfl, rfl⟩⟩
      have hone : c = 1 := by omega
      rw [if_pos hone, hof hone]

theorem variableFlags_match (hcf : cf = (shift.result x y old.cf c).2.1) :
    shift.FlagsMatch w c (shift.flags x y c old) (variableFlags old c cf of) := by
  unfold Shift.flags variableFlags
  dsimp only
  by_cases hzero : c = 0
  · simp only [hzero, if_true]
    exact ⟨fun _ => rfl, fun _ => rfl, fun _ => rfl, fun _ => ⟨rfl, rfl, rfl⟩⟩
  · rw [if_neg hzero, if_neg hzero, if_neg hzero, if_pos hrotate]
    refine ⟨fun _ => hcf, fun hle => ?_, fun _ => rfl, fun _ => ⟨rfl, rfl, rfl⟩⟩
    exact hof (by omega)

end

/-! ## Handlers -/

namespace DecodedShift

section
variable {is64BitMode : Bool} (op : DecodedShift is64BitMode) (s : State)

theorem count_lt_copies : op.count s < 8 * max 4 op.size := by
  have hlt := op.count_lt s
  split_ifs at hlt <;> omega

/-- The node that `ROR` makes of the destination and the node of a count. -/
def rorNode (again : Bool) (count : Node) : Node :=
  ror (insertCopies (op.size * 8) again ⟨op.size, (op.x s).setWidth 64⟩) count

theorem rorNode_size (again : Bool) (count : Node) : IsSize (op.rorNode s again count).size := by
  unfold rorNode
  rw [ror_size, insertCopies_size op.isSize again _ rfl]
  exact isSize_four.max (isSize_four.max op.isSize)

variable {count : Node} {c : Nat}

theorem rorNode_low {again : Bool}
    (h : ∀ i < 8 * op.size, (count.value.toNat + i) % (8 * max 4 op.size) < copiedBits op.size again) :
    (op.rorNode s again count).value.setWidth (8 * op.size) = (op.x s).rotateRight count.value.toNat :=
  ror_low op.isSize (insertCopies_size op.isSize again _ rfl) (insertCopies_repeats op.isSize (op.x s) again) h

theorem storeRor (again : Bool) (count : Node) :
    storeResult is64BitMode op.toDecodedInst s (op.rorNode s again count) =
      some (writeOperand is64BitMode op.toDecodedInst op.dest s s
        ((op.rorNode s again count).value.setWidth (8 * op.size))) :=
  op.storeDest s _ fun hsize _ => ror_half hsize (insertCopies_size op.isSize again _ rfl)

theorem copies_last (again : Bool) (h : again = false → c ≤ 8) :
    ∀ i < 8 * op.size, (c + i) % (8 * max 4 op.size) < copiedBits op.size again := by
  intro i hi
  have hmod := mod_lt (c + i) (show 0 < 8 * max 4 op.size by omega)
  unfold copiedBits
  split_ifs with hbyte
  · have := h hbyte.2
    rw [mod_eq_of_lt (by omega)]
    omega
  · exact hmod

/-- A handler stores the result, and leaves the flags. -/
abbrev Leaves (run : Option State) (r : BitVec (8 * op.size)) (flags : ALUFlags) : Prop :=
  ∃ s', run = some s' ∧ s'.calculateDeferredFlags = op.executed s.calculateDeferredFlags r flags

/-- The emitted code leaves the value rotated to the right, with the flags of a fixed count. -/
abbrev LeavesRor (run : Option State) : Prop :=
  op.Leaves s run ((op.x s).rotateRight (op.count s))
    (immediateFlags s.calculateDeferredFlags.flags (op.count s)
      (decide (op.count s ≤ 8 * op.size) && (op.x s).getLsbD (8 * op.size - op.count s))
      (((op.x s).rotateRight (op.count s)).msb ^^ (op.x s).msb))

/-- The emitted code leaves the value rotated to the left, with the flags of a fixed count. -/
abbrev LeavesRol (run : Option State) : Prop :=
  op.Leaves s run ((op.x s).rotateLeft (op.count s))
    (immediateFlags s.calculateDeferredFlags.flags (op.count s) ((op.x s).getLsbD (op.count s % (8 * op.size)))
      ((op.x s).msb ^^ (op.x s).getLsbD (8 * op.size - 2)))

theorem rorOp_variable (h : op.countForm ≠ .one) :
    op.Leaves s (rorOp false is64BitMode op.toDecodedInst s) ((op.x s).rotateRight (op.count s))
        (variableFlags s.calculateDeferredFlags.flags (op.count s) ((op.x s).rotateRight (op.count s)).msb
          (((op.x s).rotateRight (op.count s)).getLsbD (8 * op.size - 2) ^^ ((op.x s).rotateRight (op.count s)).msb)) := by
  obtain ⟨n, hload, hcount⟩ := op.loadCount s h (k := constant (op.size * 8)) fun c hc => counts_constant op.isSize hc
  have hlow := op.rorNode_low s (op.copies_last true (c := (maskCount (constant (op.size * 8)) (op.size * 8) n).value.toNat)
    (by simp))
  rw [hcount.toNat] at hlow
  apply Exists.intro
  apply And.intro
  · simp only [rorOp, op.loadDest s, hload, op.bitSize, Option.bind_eq_bind, Option.bind_some, Bool.false_eq_true, if_false,
      Bool.not_false]
    rw [show ror _ _ = op.rorNode s true _ from rfl, op.storeRor s]
    rfl
  · rw [generateFlags_variable_eq, hlow, calculcateFlags_RotateRight_eq op.isSize (op.rorNode_size s _ _) hlow hcount]
    rfl

theorem rorImmediate (again : Bool) (hcount : Counts count c)
    (hc : c < if op.size = 8 then 64 else 32) (hagain : again = false → c ≤ 8) :
    let dest := insertCopies (op.size * 8) again ⟨op.size, (op.x s).setWidth 64⟩
    ∃ s', storeResult is64BitMode op.toDecodedInst s (ror dest count) = some s' ∧
      (generateFlags_rotateImmediate op.toDecodedInst s' c
        (calculcateFlags_RotateRightImmediate · (ror dest count) dest c)).calculateDeferredFlags =
      op.executed s.calculateDeferredFlags ((op.x s).rotateRight c)
        (immediateFlags s.calculateDeferredFlags.flags c
          (decide (c ≤ 8 * op.size) && (op.x s).getLsbD (8 * op.size - c))
          (((op.x s).rotateRight c).msb ^^ (op.x s).msb)) := by
  have hsize := insertCopies_size op.isSize again ⟨op.size, (op.x s).setWidth 64⟩ rfl
  have hlow := op.rorNode_low s (op.copies_last again (c := count.value.toNat) (by rwa [hcount.toNat]))
  rw [hcount.toNat] at hlow
  refine ⟨_, op.storeRor s again count, ?_⟩
  rw [generateFlags_rotateImmediate_eq, hlow, show ror _ _ = op.rorNode s again count from rfl,
    calculcateFlags_RotateRightImmediate_eq op.isSize (op.rorNode_size s _ _)
      (by rw [hsize]; exact isSize_four.max op.isSize) hlow (insertCopies_repeats op.isSize (op.x s) again) hc]
  unfold immediateFlags
  split_ifs <;> rfl

theorem rorOp_one (h : op.countForm = .one) :
    op.LeavesRor s (rorOp true is64BitMode op.toDecodedInst s) := by
  have hone : Counts (constant (max 32 (op.size * 8)) 1) 1 := by
    rw [show max 32 (op.size * 8) = max 4 op.size * 8 by omega]
    exact counts_constant (c := 1) (isSize_four.max op.isSize) (by decide)
  have hcount := @maskCount_one _ op.size hone (constant (op.size * 8)) fun c hc => counts_constant op.isSize hc
  have hlt := op.count_lt s
  rw [op.count_one s h] at hlt
  unfold LeavesRor
  rw [op.count_one s h]
  obtain ⟨s', hstore, hs'⟩ := op.rorImmediate s false hcount hlt (by omega)
  refine ⟨_, ?_, hs'⟩
  simp only [rorOp, op.loadDest s, op.bitSize, Option.bind_eq_bind, Option.bind_some, if_true, Bool.not_true, hstore]

theorem rorImmediateOp_eq (h : op.countForm = .immediate) :
    op.LeavesRor s (rorImmediateOp is64BitMode op.toDecodedInst s) := by
  have hlt := op.count_lt s
  have hcount : Counts (constant (max 32 (op.size * 8)) (BitVec.ofNat 64 (op.count s))) (op.count s) := by
    rw [show max 32 (op.size * 8) = max 4 op.size * 8 by omega]
    exact counts_constant (isSize_four.max op.isSize) (by split_ifs at hlt <;> omega)
  obtain ⟨s', hstore, hs'⟩ := op.rorImmediate s (8 < op.count s) hcount hlt (by simp)
  refine ⟨_, ?_, hs'⟩
  simp [rorImmediateOp, op.loadDest s, op.literalShift_eq s h, op.bitSize, hstore]

/-! ### To the left -/

theorem rol_low (hcount : Counts count (8 * max 4 op.size - c)) (hc : c ≤ 8 * max 4 op.size) :
    (op.rorNode s true count).value.setWidth (8 * op.size) = (op.x s).rotateLeft c := by
  have hdvd : 8 * op.size ∣ 8 * max 4 op.size := by
    rcases op.isSize with h | h | h | h <;> rw [h] <;> decide
  rw [op.rorNode_low s (op.copies_last true (c := count.value.toNat) (by simp)), hcount.toNat, rotateRight_sub _ hdvd hc]

theorem rolOp_variable (h : op.countForm ≠ .one) :
    op.Leaves s (rolOp false is64BitMode op.toDecodedInst s) ((op.x s).rotateLeft (op.count s))
        (variableFlags s.calculateDeferredFlags.flags (op.count s) (((op.x s).rotateLeft (op.count s)).getLsbD 0)
          (((op.x s).rotateLeft (op.count s)).msb ^^ ((op.x s).rotateLeft (op.count s)).getLsbD 0)) := by
  obtain ⟨n, hload, hcount⟩ := op.loadCount s h (k := constant (op.size * 8)) fun c hc => counts_constant op.isSize hc
  have hlt := op.count_lt_copies s
  have hle := op.isSize.le
  have hrest : Counts (sub (constant (op.size * 8) (BitVec.ofNat 64 (max 32 (op.size * 8))))
      (maskCount (constant (op.size * 8)) (op.size * 8) n)) (8 * max 4 op.size - op.count s) := by
    rw [show max 32 (op.size * 8) = 8 * max 4 op.size by omega]
    exact sub_counts (counts_constant op.isSize (by omega)) hcount (by omega)
  have hlow := op.rol_low s hrest (by omega)
  apply Exists.intro
  apply And.intro
  · simp only [rolOp, op.loadDest s, hload, op.bitSize, Option.bind_eq_bind, Option.bind_some, Bool.false_eq_true, if_false]
    rw [show ror _ _ = op.rorNode s true _ from rfl, op.storeRor s]
    rfl
  · rw [generateFlags_variable_eq, hlow, calculcateFlags_RotateLeft_eq op.isSize (op.rorNode_size s _ _) hlow hcount]
    rfl

theorem rolImmediate (hcount : Counts count (8 * max 4 op.size - c)) (hc : c < if op.size = 8 then 64 else 32) :
    let dest := insertCopies (op.size * 8) true ⟨op.size, (op.x s).setWidth 64⟩
    ∃ s', storeResult is64BitMode op.toDecodedInst s (ror dest count) = some s' ∧
      (generateFlags_rotateImmediate op.toDecodedInst s' c
        (calculcateFlags_RotateLeftImmediate · dest c)).calculateDeferredFlags =
      op.executed s.calculateDeferredFlags ((op.x s).rotateLeft c)
        (immediateFlags s.calculateDeferredFlags.flags c ((op.x s).getLsbD (c % (8 * op.size)))
          ((op.x s).msb ^^ (op.x s).getLsbD (8 * op.size - 2))) := by
  have hsize := insertCopies_size op.isSize true ⟨op.size, (op.x s).setWidth 64⟩ rfl
  have hlow := op.rol_low s hcount (by split_ifs at hc <;> omega)
  have hcopies := insertCopies_repeats op.isSize (op.x s) true
  rw [show copiedBits op.size true = 8 * max 4 op.size by simp [copiedBits]] at hcopies
  refine ⟨_, op.storeRor s true count, ?_⟩
  rw [generateFlags_rotateImmediate_eq, hlow,
    calculcateFlags_RotateLeftImmediate_eq op.isSize (by rw [hsize]; exact isSize_four.max op.isSize) hcopies hc]
  unfold immediateFlags
  split_ifs <;> rfl

theorem rolOp_one (h : op.countForm = .one) :
    op.LeavesRol s (rolOp true is64BitMode op.toDecodedInst s) := by
  have hone := counts_constant (c := 1) op.isSize (by decide)
  have hcount := @maskCount_one _ op.size hone (constant (op.size * 8)) fun c hc => counts_constant op.isSize hc
  have hlt := op.count_lt s
  have hle := op.isSize.le
  rw [op.count_one s h] at hlt
  unfold LeavesRol
  rw [op.count_one s h]
  have hrest : Counts (sub (constant (op.size * 8) (BitVec.ofNat 64 (max 32 (op.size * 8))))
      (maskCount (constant (op.size * 8)) (op.size * 8) (constant (op.size * 8) 1))) (8 * max 4 op.size - 1) := by
    rw [show max 32 (op.size * 8) = 8 * max 4 op.size by omega]
    exact sub_counts (counts_constant op.isSize (by omega)) hcount (by omega)
  obtain ⟨s', hstore, hs'⟩ := op.rolImmediate s hrest hlt
  refine ⟨_, ?_, hs'⟩
  simp only [rolOp, op.loadDest s, op.bitSize, Option.bind_eq_bind, Option.bind_some, if_true, hstore]

theorem rolImmediateOp_eq (h : op.countForm = .immediate) :
    op.LeavesRol s (rolImmediateOp is64BitMode op.toDecodedInst s) := by
  have hlt := op.count_lt s
  have hle := op.isSize.le
  have hrest : Counts (constant (op.size * 8) (BitVec.ofNat 64 (max 32 (op.size * 8) - op.count s)))
      (8 * max 4 op.size - op.count s) := by
    rw [show max 32 (op.size * 8) = 8 * max 4 op.size by omega]
    exact counts_constant op.isSize (by omega)
  obtain ⟨s', hstore, hs'⟩ := op.rolImmediate s hrest hlt
  refine ⟨_, ?_, hs'⟩
  simp [rolImmediateOp, op.loadDest s, op.literalShift_eq s h, op.bitSize, hstore]

end

end DecodedShift

/-! ## Instructions -/

/-- A rotate that leaves the carry alone. -/
structure DecodedRotate (is64BitMode : Bool) extends DecodedShift is64BitMode where
  rotate_eq : shift = .rol ∨ shift = .ror

namespace DecodedRotate

variable {is64BitMode : Bool} (op : DecodedRotate is64BitMode) (s : State)

/-- With a count known at emission, the carry is the last bit that goes out to the left for one to the right, and the bit at
the count for one to the left. -/
def WrongCarry : Prop :=
  let x := op.x s
  let w := 8 * op.size
  let c := op.count s
  op.countForm ≠ .cl ∧ c ≠ 0 ∧
    if op.shift = .ror then (decide (c ≤ w) && x.getLsbD (w - c)) ≠ x.getLsbD ((c - 1) % w)
    else x.getLsbD (c % w) ≠ x.getLsbD ((w - c % w) % w)

theorem isRotate : op.shift.isRotate = true := by
  rcases op.rotate_eq with h | h <;> rw [h] <;> rfl

variable {w : Nat}

theorem rotateLeft_end (hw : 8 ≤ w) (x : BitVec w) (c : Nat) :
    (x.rotateLeft c).getLsbD 0 = x.getLsbD ((w - c % w) % w) := by
  rw [rotateLeft_bit x c (by omega), Nat.add_zero]

theorem rotateRight_end (hw : 8 ≤ w) (x : BitVec w) {c : Nat} (hc : c ≠ 0) :
    (x.rotateRight c).msb = x.getLsbD ((c - 1) % w) := by
  rw [BitVec.msb_eq_getLsbD_last, rotateRight_bit x c (by omega), show c + (w - 1) = c - 1 + w by omega, Nat.add_mod_right]

theorem rotateLeft_overflow (hw : 8 ≤ w) (x : BitVec w) :
    (x.msb ^^ x.getLsbD (w - 2)) = ((x.rotateLeft 1).msb ^^ (x.rotateLeft 1).getLsbD 0) := by
  rw [BitVec.msb_eq_getLsbD_last, BitVec.msb_eq_getLsbD_last, rotateLeft_bit x 1 (by omega), rotateLeft_bit x 1 (by omega),
    mod_eq_of_lt (show 1 < w by omega), show w - 1 + (w - 1) = w - 2 + w by omega, Nat.add_mod_right,
    mod_eq_of_lt (show w - 2 < w by omega), Nat.add_zero, mod_eq_of_lt (show w - 1 < w by omega), Bool.xor_comm]

theorem rotateRight_overflow (hw : 8 ≤ w) (x : BitVec w) : x.msb = (x.rotateRight 1).getLsbD (w - 2) := by
  rw [BitVec.msb_eq_getLsbD_last, rotateRight_bit x 1 (by omega), show 1 + (w - 2) = w - 1 by omega,
    mod_eq_of_lt (by omega)]

theorem bits_le : 8 ≤ 8 * op.size := by
  have := op.isSize.pos
  omega

theorem follows_cl (h : op.countForm = .cl) : op.FollowsX86 s := by
  have hform : op.countForm ≠ .one := by
    rw [h]
    decide
  have hrotate := op.isRotate
  have hname := ofOp_eq op.ofOpcode_eq
  rcases op.rotate_eq with hshift | hshift
  · rw [h, hshift] at hname
    obtain ⟨s', hrun, hs'⟩ := op.rolOp_variable s hform
    rw [op.follows_iff s hname hrun hs' (fun _ => by rw [hshift]; rfl)]
    exact variableFlags_match hrotate (fun _ => by rw [hshift]; rfl) (by rw [hshift]; rfl)
  · rw [h, hshift] at hname
    obtain ⟨s', hrun, hs'⟩ := op.rorOp_variable s hform
    rw [op.follows_iff s hname hrun hs' (fun _ => by rw [hshift]; rfl)]
    exact variableFlags_match hrotate (fun _ => by rw [hshift]; exact Bool.xor_comm _ _) (by rw [hshift]; rfl)

theorem follows_iff_carry {name : ShiftHandler} {s' : State} {res : BitVec (8 * op.size)} {cf of : Bool}
    (hname : ShiftHandler.ofOp op.table op.op = some name) (hrun : name.handler is64BitMode op.toDecodedInst s = some s')
    (hs' : s'.calculateDeferredFlags =
      op.executed s.calculateDeferredFlags res (immediateFlags s.calculateDeferredFlags.flags (op.count s) cf of))
    (hres : res = (op.shift.result (op.x s) (op.y s) s.calculateDeferredFlags.flags.cf (op.count s)).1)
    (hof : op.count s = 1 →
      of = (op.shift.result (op.x s) (op.y s) s.calculateDeferredFlags.flags.cf (op.count s)).2.2) :
    op.FollowsX86 s ↔ (op.count s ≠ 0 →
      cf = (op.shift.result (op.x s) (op.y s) s.calculateDeferredFlags.flags.cf (op.count s)).2.1) := by
  rw [op.follows_iff s hname hrun hs' fun _ => hres]
  exact immediateFlags_match op.isRotate hof

theorem follows_ror (h : op.shift = .ror) (hform : op.countForm ≠ .cl) : op.FollowsX86 s ↔ ¬ op.WrongCarry s := by
  have hname := ofOp_eq op.ofOpcode_eq
  have hrun : op.LeavesRor s
      ((op.shift.handler (op.op / 8 % 2 = 0) op.countForm).handler is64BitMode op.toDecodedInst s) := by
    rw [h]
    cases hcount : op.countForm with
    | one => exact op.rorOp_one s hcount
    | immediate => exact op.rorImmediateOp_eq s hcount
    | cl => exact absurd hcount hform
  obtain ⟨s', hrun, hs'⟩ := hrun
  rw [op.follows_iff_carry s hname hrun hs' (by rw [h]; rfl) (fun hone => by
    rw [h, hone, rotateRight_overflow op.bits_le (op.x s)]
    rfl)]
  unfold WrongCarry
  dsimp only
  rw [if_pos h, h]
  simp only [Shift.result]
  constructor
  · rintro himp ⟨-, hzero, hne⟩
    rw [← rotateRight_end op.bits_le (op.x s) hzero] at hne
    exact hne (himp hzero)
  · intro hnot hzero
    rw [rotateRight_end op.bits_le (op.x s) hzero]
    exact Classical.byContradiction fun hne => hnot ⟨hform, hzero, hne⟩

theorem follows_rol (h : op.shift = .rol) (hform : op.countForm ≠ .cl) : op.FollowsX86 s ↔ ¬ op.WrongCarry s := by
  have hname := ofOp_eq op.ofOpcode_eq
  have hrun : op.LeavesRol s
      ((op.shift.handler (op.op / 8 % 2 = 0) op.countForm).handler is64BitMode op.toDecodedInst s) := by
    rw [h]
    cases hcount : op.countForm with
    | one => exact op.rolOp_one s hcount
    | immediate => exact op.rolImmediateOp_eq s hcount
    | cl => exact absurd hcount hform
  obtain ⟨s', hrun, hs'⟩ := hrun
  rw [op.follows_iff_carry s hname hrun hs' (by rw [h]; rfl) (fun hone => by
    rw [h, hone, rotateLeft_overflow op.bits_le (op.x s)]
    rfl)]
  unfold WrongCarry
  dsimp only
  rw [if_neg (by rw [h]; decide), h]
  simp only [Shift.result, rotateLeft_end op.bits_le (op.x s)]
  constructor
  · rintro himp ⟨-, hzero, hne⟩
    exact hne (himp hzero)
  · intro hnot hzero
    exact Classical.byContradiction fun hne => hnot ⟨hform, hzero, hne⟩

/-- The emitted code leaves what the architecture leaves, unless a count that is known at emission takes another bit for the
carry. -/
theorem rotates_follow_iff : op.FollowsX86 s ↔ ¬ op.WrongCarry s := by
  by_cases hform : op.countForm = .cl
  · exact iff_of_true (op.follows_cl s hform) fun hwrong => hwrong.1 hform
  · rcases op.rotate_eq with h | h
    · exact op.follows_rol s h hform
    · exact op.follows_ror s h hform

end DecodedRotate

/-- `ror eax, 1`. -/
def rorEAX : DecodedRotate true where
  flags := 3#32 <<< 19 ||| 3#32 <<< 22
  pc := 0
  instSize := 2
  entry := 0
  op := ALU.opd 2 3 1
  dest := .gpr false .rax
  src := fun _ => .nothing
  table := .primaryGroup
  shift := .ror
  countForm := .one
  size := 4
  ofOpcode_eq := by decide
  byte_iff := by decide
  getSrcSize_eq := by decide
  getDstSize_eq := by decide
  isSize := isSize_four
  size_mode := mode_four
  dest_rm := eax_rm
  src_isGPR := fun h => by cases h
  count_isIn := trivial
  rotate_eq := .inr rfl

/-- One in every register, and no flags. -/
def oneEverywhere : State where
  cpu := ⟨fun _ => 1, fun _ => 0, fun _ => 0⟩
  flags := ⟨false, false, false, false, false, false⟩
  df := false
  deferred := none
  mem := fun _ => 0

/-- The bit that comes in at the top goes to the carry, but the top bit does instead. -/
theorem rorEAX_differs : ¬ ∀ (is64BitMode : Bool) (op : DecodedRotate is64BitMode) (s : State), op.FollowsX86 s := by
  intro h
  refine (rorEAX.follows_ror oneEverywhere rfl (by decide)).1 (h true rorEAX oneEverywhere) ⟨by decide, by decide, ?_⟩
  decide

end FexEmu.OpcodeDispatcher.Integer
