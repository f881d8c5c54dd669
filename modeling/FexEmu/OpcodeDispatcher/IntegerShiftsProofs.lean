import FexEmu.OpcodeDispatcher.IntegerRotatesCarry
/-!
# Shifts follow the architecture

Narrow operands are shifted in wider nodes, with copies of the sign above them in an arithmetic shift to the right.
-/
namespace FexEmu.OpcodeDispatcher.Integer

open Interpreter
open Address (Node constant)
open StringOps (State ALUFlags rflag)
open Option (bind_eq_bind bind_some)

/-! ## Flags -/

/-- The flags of a shift, which stay if the count is zero. -/
def shiftedFlags {w : Nat} (old : ALUFlags) (c : Nat) (res : BitVec w) (cf of : Bool) : ALUFlags :=
  if c = 0 then old else resultFlags res cf false of

/-- What is left to show of the flags of a shift is the overflow of a single step. -/
theorem shiftedFlags_match {w c : Nat} {shift : Shift} {x y r : BitVec w} {old : ALUFlags} {cf of : Bool}
    (hrotate : shift.isRotate = false)
    (hres : shift.definesResult w c = true → r = (shift.result x y old.cf c).1)
    (hcf : c ≠ 0 → shift.definesCF w c = true → cf = (shift.result x y old.cf c).2.1) :
    shift.FlagsMatch w c (shift.flags x y c old) (shiftedFlags old c r cf of) ↔
      (c = 1 → of = (shift.result x y old.cf c).2.2) := by
  unfold Shift.flags shiftedFlags
  dsimp only
  by_cases hzero : c = 0
  · rw [if_pos hzero, if_pos hzero]
    refine iff_of_true ⟨fun _ => rfl, fun _ => rfl, fun _ => rfl, fun _ => ⟨rfl, rfl, rfl⟩⟩ fun hone => ?_
    omega
  · rw [if_neg hzero, if_neg hzero, if_neg (by rw [hrotate]; decide)]
    constructor
    · intro h hone
      exact h.of (by omega)
    · intro hof
      refine ⟨hcf hzero, fun hle => hof (by omega), fun _ => rfl, fun hdefined => ?_⟩
      rw [hres hdefined]
      exact ⟨rfl, rfl, rfl⟩

section
variable {size c : Nat} {res src1 src2 cf sf of : Node} {x r : BitVec (8 * size)} (old : ALUFlags)

theorem parityNode_eq (hsize : IsSize size) (hr : Carries res r) : rflag (parityNode res) = parity r :=
  calculatedPF_eq (by have := hsize.pos; omega) hr

theorem zeroNode_eq (hr : Carries res r) : rflag (zeroNode res) = decide (r = 0) := calculatedZF_eq hr

theorem condFlagSet_flags (hsize : IsSize size) (hc : Counts src2 c) (hr : Carries res r) (hcf : IsSize cf.size)
    (hsf : IsSize sf.size) (hof : IsSize of.size) (hsign : rflag sf = r.msb) :
    ({ cf := condFlagSet src2 old.cf cf
       pf := condFlagSet src2 old.pf (parityNode res)
       af := condFlagSet src2 old.af (const 0)
       zf := condFlagSet src2 old.zf (zeroNode res)
       sf := condFlagSet src2 old.sf sf
       of := condFlagSet src2 old.of of } : ALUFlags) = shiftedFlags old c r (rflag cf) (rflag of) := by
  have hparity : IsSize (parityNode res).size := (hr.size.max isSize_eight).max isSize_eight
  have hzero : IsSize (zeroNode res).size := select_isSize isSize_eight isSize_eight
  unfold shiftedFlags resultFlags
  rw [condFlagSet_eq hc hcf, condFlagSet_eq hc hparity, condFlagSet_eq hc isSize_eight, condFlagSet_eq hc hzero,
    condFlagSet_eq hc hsf, condFlagSet_eq hc hof, parityNode_eq hsize hr, zeroNode_eq hr, hsign]
  split_ifs <;> rfl

theorem sign_bfe (hsize : IsSize size) (hr : Carries res r) : rflag (bfe 1 (size * 8 - 1) res) = r.msb :=
  rflag_msb hsize hr.low

theorem sign_lshr (hsize : IsSize size) (hr : Carries res r) :
    rflag (lshr res (const (BitVec.ofNat 64 (size * 8 - 1)))) = r.msb :=
  calculatedSF_eq rfl hsize.pos hr

theorem rflag_and_one (h : IsSize res.size) : rflag (and res (const 1)) = rflag res := by
  unfold rflag
  rw [and_bit h isSize_eight (by have := h.pos; omega)]
  exact Bool.and_true _

theorem changed_sign (hsize : IsSize size) (hx : Carries src1 x) (hr : Carries res r) :
    rflag (bfe 1 (size * 8 - 1) (xor src1 res)) = (x.msb ^^ r.msb) := by
  have hle := hsize.le
  have hpos := hsize.pos
  have hwidth := hx.le
  rw [rflag_bfe _ (by omega), xor_bit hx.size hr.size (by omega), show size * 8 - 1 = 8 * size - 1 by omega,
    hx.msb (by omega), hr.msb (by omega)]

theorem calculcateFlags_ShiftLeft_eq (hsize : IsSize size) (hc : Counts src2 c) (hx : Carries src1 x) (hr : Carries res r) :
    ∃ cf, calculcateFlags_ShiftLeft size res src1 src2 old = shiftedFlags old c r cf (x.msb ^^ r.msb) ∧
      (c ≠ 0 → c ≤ 8 * size → cf = x.getLsbD (8 * size - c)) := by
  have hle := hsize.le
  have hwidth := hx.le
  refine ⟨rflag (and (lshr src1 (sub (const (BitVec.ofNat 64 (size * 8))) src2)) (const 1)), ?_, fun hzero hcount => ?_⟩
  · have hsign : IsSize (bfe 1 (size * 8 - 1) res).size := hr.size
    have hchange : IsSize (bfe 1 (size * 8 - 1) (xor src1 res)).size := hx.size.max hr.size
    unfold calculcateFlags_ShiftLeft
    rw [condFlagSet_flags old hsize hc hr ((isSize_four.max hx.size).max isSize_eight) hsign hchange (sign_bfe hsize hr),
      changed_sign hsize hx hr]
  · have hshift : Counts (sub (const (BitVec.ofNat 64 (size * 8))) src2) (size * 8 - c) :=
      sub_counts (counts_const (by omega)) hc (by omega)
    rw [rflag_and_one (isSize_four.max hx.size), rflag, lshr_counts rfl (max4_eq hx.size) hshift (by omega),
      decide_eq_true (by omega), Bool.true_and, Nat.add_zero, hx.bit (by omega), Nat.mul_comm size 8]

theorem calculcateFlags_ShiftRight_eq (hsize : IsSize size) (hc : Counts src2 c) (hlt : c ≤ 8 * max 4 src1.size)
    (hx : Carries src1 x) (hr : Carries res r) :
    ∃ cf, calculcateFlags_ShiftRight size res src1 src2 old = shiftedFlags old c r cf (x.msb ^^ r.msb) ∧
      (c ≠ 0 → cf = src1.value.getLsbD (c - 1)) := by
  refine ⟨rflag (and (lshr src1 (sub src2 (const 1))) (const 1)), ?_, fun hzero => ?_⟩
  · have hsign : IsSize (bfe 1 (size * 8 - 1) res).size := hr.size
    have hchange : IsSize (bfe 1 (size * 8 - 1) (xor src1 res)).size := hx.size.max hr.size
    unfold calculcateFlags_ShiftRight
    rw [condFlagSet_flags old hsize hc hr ((isSize_four.max hx.size).max isSize_eight) hsign hchange (sign_bfe hsize hr),
      changed_sign hsize hx hr]
  · have hshift : Counts (sub src2 (const 1)) (c - 1) := sub_counts hc (counts_const (by decide)) (by omega)
    rw [rflag_and_one (isSize_four.max hx.size), rflag, lshr_counts rfl (max4_eq hx.size) hshift (by omega),
      decide_eq_true (by omega), Bool.true_and, Nat.add_zero]

theorem calculcateFlags_SignShiftRight_eq (hsize : IsSize size) (hc : Counts src2 c) (hlt : c ≤ 8 * max 4 src1.size)
    (hx : IsSize src1.size) (hr : Carries res r) :
    ∃ cf, calculcateFlags_SignShiftRight size res src1 src2 old = shiftedFlags old c r cf false ∧
      (c ≠ 0 → cf = src1.value.getLsbD (c - 1)) := by
  refine ⟨rflag (and (lshr src1 (sub src2 (const 1))) (const 1)), ?_, fun hzero => ?_⟩
  · unfold calculcateFlags_SignShiftRight
    rw [condFlagSet_flags old hsize hc hr ((isSize_four.max hx).max isSize_eight) (isSize_four.max hr.size) isSize_eight
      (sign_lshr hsize hr)]
    rfl
  · have hshift : Counts (sub src2 (const 1)) (c - 1) := sub_counts hc (counts_const (by decide)) (by omega)
    rw [rflag_and_one (isSize_four.max hx), rflag, lshr_counts rfl (max4_eq hx) hshift (by omega),
      decide_eq_true (by omega), Bool.true_and, Nat.add_zero]

/-! ### Of counts that are known -/

theorem calculcateFlags_ShiftLeftImmediate_eq (hsize : IsSize size) (hzero : c ≠ 0) (hx : Carries src1 x)
    (hr : Carries res r) :
    ∃ cf, calculcateFlags_ShiftLeftImmediate size res src1 c old =
        resultFlags r cf false (if c = 1 then x.msb ^^ r.msb else old.of) ∧
      (c ≤ 8 * size → cf = x.getLsbD (8 * size - c)) := by
  have hle := hsize.le
  have hof : rflag (xor (bfe 1 (size * 8 - 1) src1) (bfe 1 (size * 8 - 1) res)) = (x.msb ^^ r.msb) := by
    rw [rflag_xor_bfe hx.size hr.size, sign_bfe hsize hx, sign_bfe hsize hr]
  refine ⟨rflag (bfe 1 (lsbByte (size * 8) c) src1), ?_, fun hcount => ?_⟩
  · unfold calculcateFlags_ShiftLeftImmediate resultFlags
    dsimp only
    rw [if_neg hzero, parityNode_eq hsize hr, zeroNode_eq hr, sign_bfe hsize hr, hof]
    rfl
  · have hlsb : lsbByte (size * 8) c = 8 * size - c := by
      unfold lsbByte
      omega
    rw [hlsb, rflag_bfe _ (by omega), hx.bit (by omega)]

theorem calculcateFlags_ShiftRightImmediate_eq (hsize : IsSize size) (hzero : c ≠ 0) (hlt : c ≤ 64) (hx : Carries src1 x)
    (hr : Carries res r) :
    calculcateFlags_ShiftRightImmediate size res src1 c old =
      resultFlags r (src1.value.getLsbD (c - 1)) false (if c = 1 then x.msb else old.of) := by
  unfold calculcateFlags_ShiftRightImmediate resultFlags
  rw [if_neg hzero, parityNode_eq hsize hr, zeroNode_eq hr, sign_lshr hsize hr, rflag_bfe _ (by omega), sign_bfe hsize hx]
  rfl

theorem calculcateFlags_SignShiftRightImmediate_eq (hsize : IsSize size) (hzero : c ≠ 0) (hlt : c ≤ 64)
    (hr : Carries res r) :
    calculcateFlags_SignShiftRightImmediate size res src1 c old =
      resultFlags r (src1.value.getLsbD (c - 1)) false (if c = 1 then false else old.of) := by
  unfold calculcateFlags_SignShiftRightImmediate resultFlags
  rw [if_neg hzero, parityNode_eq hsize hr, zeroNode_eq hr, sign_lshr hsize hr, rflag_bfe _ (by omega)]
  rfl

end

/-! ## Results -/

section
variable {size c : Nat} {src : Node} {x : BitVec (8 * size)}

theorem plain_carries (hsize : IsSize size) (x : BitVec (8 * size)) : Carries ⟨size, x.setWidth 64⟩ x :=
  (holds_of hsize x).carries

theorem lshl_computes (x : BitVec (8 * size)) (hsize : IsSize size) (hc : Counts src c) (hlt : c < 8 * max 4 size) :
    Computes size (lshl ⟨size, x.setWidth 64⟩ src) (x <<< c) := by
  have hk : max 4 size = 4 ∨ max 4 size = 8 := max4_eq (a := ⟨size, x.setWidth 64⟩) hsize
  have hbit := @lshl_counts ⟨size, x.setWidth 64⟩ src c _ rfl hk hc hlt
  refine ⟨isSize_four.max hsize, Nat.le_max_right _ _, fun h => Nat.max_eq_right h, ?_, ?_⟩
  · apply truncated_of
    intro i hi
    rw [hbit, decide_eq_false (by rw [lshl_size] at hi; exact Nat.not_lt.2 hi), Bool.false_and]
  · apply BitVec.eq_of_getLsbD_eq
    intro i hi
    rw [BitVec.getLsbD_setWidth, hbit, decide_eq_true hi, decide_eq_true (show i < 8 * max 4 size by omega),
      BitVec.getLsbD_shiftLeft, decide_eq_true hi]
    rw [setWidth_bit hsize]
    by_cases h : i < c
    · simp [h]
    · simp [h]
      omega

theorem lshr_holds (x : BitVec (8 * size)) (hsize : IsSize size) (hc : Counts src c) (hlt : c < 8 * max 4 size) :
    Holds (lshr ⟨size, x.setWidth 64⟩ src) (x >>> c) := by
  have hk : max 4 size = 4 ∨ max 4 size = 8 := max4_eq (a := ⟨size, x.setWidth 64⟩) hsize
  have hmax : size ≤ max 4 size := Nat.le_max_right _ _
  refine ⟨isSize_four.max hsize, Nat.mul_le_mul_left 8 hmax, ?_⟩
  apply BitVec.eq_of_getLsbD_eq
  intro i hi
  rw [@lshr_counts ⟨size, x.setWidth 64⟩ src c _ rfl hk hc hlt]
  rw [setWidth_bit hsize, setWidth_bit hsize, BitVec.getLsbD_ushiftRight]
  by_cases h : c + i < 8 * max 4 size
  · rw [decide_eq_true h, Bool.true_and]
  · rw [decide_eq_false h, BitVec.getLsbD_of_ge x _ (by omega), Bool.false_and]

theorem Holds.half {n : Node} {x : BitVec (8 * size)} (h : Holds n x) (hsize : size = 4) :
    n.value = (n.value.setWidth 32).setWidth 64 := by
  apply truncated_of
  intro i hi
  rw [h.value, BitVec.getLsbD_setWidth, BitVec.getLsbD_of_ge x i (by omega), Bool.and_false]

/-! ### Signs -/

theorem getLsbD_opSbfe {w i : Nat} (hw : 0 < w) (hle : w ≤ 64) (hi : i < 64) (v : BitVec 64) :
    (opSbfe w 0 v).getLsbD i = v.getLsbD (min i (w - 1)) := by
  unfold opSbfe
  rw [BitVec.getLsbD_sshiftRight, BitVec.getLsbD_shiftLeft, BitVec.msb_eq_getLsbD_last, BitVec.getLsbD_shiftLeft]
  grind

/-- The operand of an arithmetic shift, which is extended if it is narrow. -/
def extendedSign (size : Nat) (dest : Node) : Node := if size * 8 < 32 then sbfe (size * 8) 0 dest else dest

theorem extendedSign_size : (extendedSign size ⟨size, x.setWidth 64⟩).size = if size < 4 then 8 else size := by
  unfold extendedSign
  split_ifs <;> first | rfl | omega

theorem extendedSign_bit (hsize : IsSize size) {i : Nat} (hi : i < 8 * (extendedSign size ⟨size, x.setWidth 64⟩).size) :
    (extendedSign size ⟨size, x.setWidth 64⟩).value.getLsbD i = x.getLsbD (min i (8 * size - 1)) := by
  have hpos := hsize.pos
  rw [extendedSign_size] at hi
  unfold extendedSign
  split_ifs with h
  · rw [if_pos (by omega)] at hi
    unfold sbfe
    rw [getLsbD_opSbfe (by omega) (by omega) (by omega), setWidth_bit hsize, Nat.mul_comm size 8]
  · rw [if_neg (by omega)] at hi
    rw [setWidth_bit hsize, Nat.min_eq_left (by omega)]

theorem ashr_bit (hsize : IsSize size) (hc : Counts src c) (hlt : c < 8 * max 4 size) {i : Nat} :
    (ashr (extendedSign size ⟨size, x.setWidth 64⟩) src).value.getLsbD i =
      (decide (i < if size = 4 then 32 else 64) && x.getLsbD (min (c + i) (8 * size - 1))) := by
  have hcases : size = 1 ∨ size = 2 ∨ size = 4 ∨ size = 8 := hsize
  have hsizes := @extendedSign_size size x
  have hk : max 4 (extendedSign size ⟨size, x.setWidth 64⟩).size = if size = 4 then 4 else 8 := by
    rcases hsize with rfl | rfl | rfl | rfl <;> rfl
  have hk' : (if size = 4 then 4 else 8) = 4 ∨ (if size = 4 then 4 else 8) = 8 := by
    split_ifs <;> decide
  have hwidth : (if size = 4 then 32 else 64) = 8 * if size = 4 then 4 else 8 := by
    split_ifs <;> rfl
  rw [hwidth]
  by_cases hi : i < 8 * if size = 4 then 4 else 8
  · unfold ashr
    rw [hk, opAshr_bit _ _ hk' hi, hc.toNat, decide_eq_true hi, Bool.true_and, Nat.mod_eq_of_lt (by split_ifs <;> omega),
      extendedSign_bit hsize (by rw [hsizes]; split_ifs <;> omega)]
    congr 1
    split_ifs <;> omega
  · rw [decide_eq_false hi, Bool.false_and]
    by_cases h4 : size = 4
    · subst h4
      unfold ashr
      change (BitVec.setWidth 64 (BitVec.sshiftRight (BitVec.setWidth 32 _) _)).getLsbD i = false
      rw [BitVec.getLsbD_setWidth, BitVec.getLsbD_of_ge _ i (by simpa using hi), Bool.and_false]
    · rw [if_neg h4] at hi
      exact BitVec.getLsbD_of_ge _ i (by omega)

theorem sshiftRight_bit {w i : Nat} (x : BitVec w) (hi : i < w) :
    (x.sshiftRight c).getLsbD i = x.getLsbD (min (c + i) (w - 1)) := by
  rw [BitVec.getLsbD_sshiftRight, BitVec.msb_eq_getLsbD_last]
  grind

/-- The copies of the sign above the result are clear only if all of it is. -/
theorem ashr_carries (x : BitVec (8 * size)) (hsize : IsSize size) (hc : Counts src c) (hlt : c < 8 * max 4 size) :
    Carries (ashr (extendedSign size ⟨size, x.setWidth 64⟩) src) (x.sshiftRight c) := by
  have hpos := hsize.pos
  have hle := hsize.le
  have hbit := fun i => @ashr_bit size c src x hsize hc hlt i
  have hwide : 8 * size ≤ if size = 4 then 32 else 64 := by
    split_ifs <;> omega
  have hlow : (ashr (extendedSign size ⟨size, x.setWidth 64⟩) src).value.setWidth (8 * size) = x.sshiftRight c := by
    apply BitVec.eq_of_getLsbD_eq
    intro i hi
    rw [BitVec.getLsbD_setWidth, decide_eq_true hi, Bool.true_and, hbit, decide_eq_true (by omega), Bool.true_and,
      sshiftRight_bit x hi]
  refine ⟨?_, ?_, hlow, fun h => ?_, fun h => ?_⟩
  · rw [ashr_size, extendedSign_size]
    exact isSize_four.max (by split_ifs; exact isSize_eight; exact hsize)
  · rw [ashr_size, extendedSign_size]
    split_ifs <;> omega
  · rw [← hlow, h]
    exact BitVec.setWidth_zero _ _
  · have hclear : ∀ i < 8 * size, x.getLsbD (min (c + i) (8 * size - 1)) = false := by
      intro i hi
      rw [← sshiftRight_bit x hi, h]
      exact BitVec.getLsbD_zero
    apply BitVec.eq_of_getLsbD_eq
    intro i _
    rw [hbit, show min (c + i) (8 * size - 1) = min (c + min i (8 * size - 1)) (8 * size - 1) by omega,
      hclear _ (by omega), Bool.and_false]
    exact BitVec.getLsbD_zero.symm

theorem ashr_half (hsize : size = 4) (hc : Counts src c) (hlt : c < 8 * max 4 size) :
    (ashr (extendedSign size ⟨size, x.setWidth 64⟩) src).value =
      ((ashr (extendedSign size ⟨size, x.setWidth 64⟩) src).value.setWidth 32).setWidth 64 := by
  apply truncated_of
  intro i hi
  rw [ashr_bit (.inr (.inr (.inl hsize))) hc hlt, if_pos hsize, decide_eq_false (by omega), Bool.false_and]

end

/-! ## Handlers -/

namespace DecodedShift

section
variable {is64BitMode : Bool} (op : DecodedShift is64BitMode) (s : State) {r : BitVec (8 * op.size)} {cf of : Bool}
  {res : Node}

/-- A handler stores the result, and leaves its flags. -/
def Shifted (run : Option State) (r : BitVec (8 * op.size)) (cf of : Bool) : Prop :=
  ∃ s', run = some s' ∧ s'.calculateDeferredFlags =
    op.executed s.calculateDeferredFlags r (shiftedFlags s.calculateDeferredFlags.flags (op.count s) r cf of)

theorem shifted_variable {calculate : Nat → ALUFlags → ALUFlags} (hlow : res.value.setWidth (8 * op.size) = r)
    (hhalf : op.size = 4 → res.size ≠ 8 → res.value = (res.value.setWidth 32).setWidth 64)
    (hflags : calculate op.size s.calculateDeferredFlags.flags =
      shiftedFlags s.calculateDeferredFlags.flags (op.count s) r cf of) :
    op.Shifted s ((storeResult is64BitMode op.toDecodedInst s res).bind fun s =>
      some (generateFlags_variable op.toDecodedInst s calculate)) r cf of := by
  subst hlow
  rw [op.storeDest s res hhalf]
  exact ⟨_, rfl, by rw [generateFlags_variable_eq, hflags]⟩

theorem shifted_immediate {calculate : Nat → ALUFlags → ALUFlags} {c : Nat} (hc : op.count s = c)
    (hlow : res.value.setWidth (8 * op.size) = r)
    (hhalf : op.size = 4 → res.size ≠ 8 → res.value = (res.value.setWidth 32).setWidth 64)
    (hflags : c ≠ 0 → calculate op.size s.flags = resultFlags r cf false of) :
    op.Shifted s ((storeResult is64BitMode op.toDecodedInst s res).bind fun s =>
      some (generateFlags_shiftImmediate op.toDecodedInst s c calculate)) r cf of := by
  subst hlow hc
  rw [op.storeDest s res hhalf]
  refine ⟨_, rfl, ?_⟩
  rw [generateFlags_shiftImmediate_eq]
  unfold shiftedFlags
  split_ifs with hzero
  · rfl
  · rw [hflags hzero]

variable {op s}

theorem Shifted.follows_iff {name : ShiftHandler}
    (h : op.Shifted s (name.handler is64BitMode op.toDecodedInst s) r cf of)
    (hname : ShiftHandler.ofOp op.table op.op = some name) (hrotate : op.shift.isRotate = false)
    (hres : op.shift.definesResult (8 * op.size) (op.count s) = true →
      r = (op.shift.result (op.x s) (op.y s) s.calculateDeferredFlags.flags.cf (op.count s)).1)
    (hcf : op.count s ≠ 0 → op.shift.definesCF (8 * op.size) (op.count s) = true →
      cf = (op.shift.result (op.x s) (op.y s) s.calculateDeferredFlags.flags.cf (op.count s)).2.1) :
    op.FollowsX86 s ↔ (op.count s = 1 →
      of = (op.shift.result (op.x s) (op.y s) s.calculateDeferredFlags.flags.cf (op.count s)).2.2) := by
  obtain ⟨s', hrun, hs'⟩ := h
  rw [op.follows_iff s hname hrun hs' hres]
  exact shiftedFlags_match hrotate hres hcf

variable (op s)

theorem maskedOne : Counts (maskCount const (op.size * 8) (const 1)) 1 := by
  have hone : Counts (const 1) 1 := counts_const (by decide)
  exact maskCount_one hone fun c hc => counts_const hc

theorem counts_immediate : Counts (constant (op.size * 8) (BitVec.ofNat 64 (op.count s))) (op.count s) := by
  have hlt := op.count_lt s
  exact counts_constant op.isSize (by split_ifs at hlt <;> omega)

/-! ### To the left -/

/-- What the handlers of `SHL` leave. -/
def ShiftedLeft (run : Option State) : Prop :=
  ∃ cf of, op.Shifted s run (op.x s <<< op.count s) cf of ∧
    (op.count s ≠ 0 → op.count s ≤ 8 * op.size → cf = (op.x s).getLsbD (8 * op.size - op.count s)) ∧
    (op.count s = 1 → of = ((op.x s).msb ^^ (op.x s <<< op.count s).msb))

theorem shlOp_variable (h : op.countForm ≠ .one) : op.ShiftedLeft s (shlOp false is64BitMode op.toDecodedInst s) := by
  obtain ⟨n, hload, hcount⟩ := op.loadCount s h (k := const) fun c hc => counts_const hc
  have hres := lshl_computes (op.x s) op.isSize hcount (op.count_lt_copies s)
  obtain ⟨cf, hflags, hcf⟩ := calculcateFlags_ShiftLeft_eq s.calculateDeferredFlags.flags op.isSize hcount
    (plain_carries op.isSize (op.x s)) (cut_holds op.isSize hres).carries
  refine ⟨cf, _, ?_, hcf, fun _ => rfl⟩
  simp only [shlOp, op.loadDest s, hload, op.bitSize, bind_eq_bind, bind_some, Bool.false_eq_true, if_false]
  exact op.shifted_variable s hres.low (fun h4 _ => hres.half h4) hflags

theorem shl_known {count : Node} {c : Nat} (hc : op.count s = c) (hcount : Counts count c) :
    let dest : Node := ⟨op.size, (op.x s).setWidth 64⟩
    op.ShiftedLeft s ((storeResult is64BitMode op.toDecodedInst s (lshl dest count)).bind fun s =>
      some (generateFlags_shiftImmediate op.toDecodedInst s c
        (calculcateFlags_ShiftLeftImmediate · (cut op.size (lshl dest count)) dest c))) := by
  subst hc
  have hres := lshl_computes (op.x s) op.isSize hcount (op.count_lt_copies s)
  by_cases hzero : op.count s = 0
  · exact ⟨false, false, op.shifted_immediate s rfl hres.low (fun h4 _ => hres.half h4) fun h => absurd hzero h,
      fun h => absurd hzero h, fun hone => by omega⟩
  · obtain ⟨cf, hflags, hcf⟩ := calculcateFlags_ShiftLeftImmediate_eq s.flags op.isSize hzero
      (plain_carries op.isSize (op.x s)) (cut_holds op.isSize hres).carries
    exact ⟨cf, _, op.shifted_immediate s rfl hres.low (fun h4 _ => hres.half h4) fun _ => hflags, fun _ => hcf,
      fun hone => if_pos hone⟩

theorem shlOp_one (h : op.countForm = .one) : op.ShiftedLeft s (shlOp true is64BitMode op.toDecodedInst s) := by
  simp only [shlOp, op.loadDest s, op.bitSize, bind_eq_bind, bind_some, if_true]
  exact op.shl_known s (op.count_one s h) op.maskedOne

theorem shlImmediateOp_eq (h : op.countForm = .immediate) :
    op.ShiftedLeft s (shlImmediateOp is64BitMode op.toDecodedInst s) := by
  simp only [shlImmediateOp, op.loadDest s, op.literalShift_eq s h, op.bitSize, bind_eq_bind, bind_some]
  exact op.shl_known s rfl (op.counts_immediate s)

/-! ### To the right -/

/-- What the handlers of `SHR` leave. -/
def ShiftedRight (run : Option State) : Prop :=
  ∃ cf of, op.Shifted s run (op.x s >>> op.count s) cf of ∧
    (op.count s ≠ 0 → cf = (op.x s).getLsbD (op.count s - 1)) ∧ (op.count s = 1 → of = (op.x s).msb)

theorem shrOp_variable (h : op.countForm ≠ .one) : op.ShiftedRight s (shrOp false is64BitMode op.toDecodedInst s) := by
  obtain ⟨n, hload, hcount⟩ := op.loadCount s h (k := const) fun c hc => counts_const hc
  have hlt := op.count_lt_copies s
  have hres := lshr_holds (op.x s) op.isSize hcount hlt
  obtain ⟨cf, hflags, hcf⟩ := calculcateFlags_ShiftRight_eq s.calculateDeferredFlags.flags op.isSize hcount
    (Nat.le_of_lt hlt) (plain_carries op.isSize (op.x s)) hres.carries
  refine ⟨cf, (op.x s).msb ^^ (op.x s >>> op.count s).msb, ?_, fun hzero => ?_, fun hone => ?_⟩
  · simp only [shrOp, op.loadDest s, hload, op.bitSize, bind_eq_bind, bind_some, Bool.false_eq_true, if_false]
    exact op.shifted_variable s hres.carries.low (fun h4 _ => hres.half h4) hflags
  · exact (hcf hzero).trans (setWidth_bit op.isSize _ _)
  · rw [hone, BitVec.msb_ushiftRight, decide_eq_true (by decide), Bool.not_true, Bool.false_and, Bool.xor_false]

theorem shr_known {count : Node} {c : Nat} (hc : op.count s = c) (hcount : Counts count c) :
    let dest : Node := ⟨op.size, (op.x s).setWidth 64⟩
    op.ShiftedRight s ((storeResult is64BitMode op.toDecodedInst s (lshr dest count)).bind fun s =>
      some (generateFlags_shiftImmediate op.toDecodedInst s c
        (calculcateFlags_ShiftRightImmediate · (lshr dest count) dest c))) := by
  subst hc
  have hlt := op.count_lt s
  have hres := lshr_holds (op.x s) op.isSize hcount (op.count_lt_copies s)
  refine ⟨(op.x s).getLsbD (op.count s - 1), if op.count s = 1 then (op.x s).msb else s.flags.of, ?_, fun _ => rfl,
    fun hone => if_pos hone⟩
  refine op.shifted_immediate s rfl hres.carries.low (fun h4 _ => hres.half h4) fun hzero => ?_
  rw [calculcateFlags_ShiftRightImmediate_eq s.flags op.isSize hzero (by split_ifs at hlt <;> omega)
    (plain_carries op.isSize (op.x s)) hres.carries]
  rw [setWidth_bit op.isSize]

theorem shrOp_one (h : op.countForm = .one) : op.ShiftedRight s (shrOp true is64BitMode op.toDecodedInst s) := by
  simp only [shrOp, op.loadDest s, op.bitSize, bind_eq_bind, bind_some, if_true]
  exact op.shr_known s (op.count_one s h) op.maskedOne

theorem shrImmediateOp_eq (h : op.countForm = .immediate) :
    op.ShiftedRight s (shrImmediateOp is64BitMode op.toDecodedInst s) := by
  simp only [shrImmediateOp, op.loadDest s, op.literalShift_eq s h, op.bitSize, bind_eq_bind, bind_some]
  exact op.shr_known s rfl (op.counts_immediate s)

/-! ### Signs to the right -/

/-- What the handlers of `SAR` leave. -/
def ShiftedSign (run : Option State) : Prop :=
  ∃ cf of, op.Shifted s run ((op.x s).sshiftRight (op.count s)) cf of ∧
    (op.count s ≠ 0 → cf = ((op.x s).sshiftRight (op.count s - 1)).getLsbD 0) ∧ (op.count s = 1 → of = false)

theorem lastBit_sign :
    (extendedSign op.size ⟨op.size, (op.x s).setWidth 64⟩).value.getLsbD (op.count s - 1) =
      ((op.x s).sshiftRight (op.count s - 1)).getLsbD 0 := by
  have hlt := op.count_lt s
  have hcases : op.size = 1 ∨ op.size = 2 ∨ op.size = 4 ∨ op.size = 8 := op.isSize
  rw [extendedSign_bit op.isSize (by rw [extendedSign_size]; split_ifs at hlt ⊢ <;> omega),
    sshiftRight_bit (op.x s) (by omega), Nat.add_zero]

theorem ashrOp_variable (h : op.countForm ≠ .one) : op.ShiftedSign s (ashrOp false is64BitMode op.toDecodedInst s) := by
  obtain ⟨n, hload, hcount⟩ := op.loadCount s h (k := constant (op.size * 8)) fun c hc => counts_constant op.isSize hc
  have hlt := op.count_lt_copies s
  have hres := ashr_carries (op.x s) op.isSize hcount hlt
  have hsize : IsSize (extendedSign op.size ⟨op.size, (op.x s).setWidth 64⟩).size := by
    rw [extendedSign_size]
    split_ifs
    · exact isSize_eight
    · exact op.isSize
  obtain ⟨cf, hflags, hcf⟩ := calculcateFlags_SignShiftRight_eq s.calculateDeferredFlags.flags op.isSize hcount
    (by rw [extendedSign_size]; split_ifs <;> omega) hsize hres
  refine ⟨cf, false, ?_, fun hzero => (hcf hzero).trans (op.lastBit_sign s), fun _ => rfl⟩
  simp only [ashrOp, op.loadDest s, hload, op.bitSize, bind_eq_bind, bind_some, Bool.false_eq_true, if_false]
  exact op.shifted_variable s hres.low (fun h4 _ => ashr_half h4 hcount hlt) hflags

theorem sar_known {count : Node} {c : Nat} (hc : op.count s = c) (hcount : Counts count c) :
    let dest := extendedSign op.size ⟨op.size, (op.x s).setWidth 64⟩
    op.ShiftedSign s ((storeResult is64BitMode op.toDecodedInst s (ashr dest count)).bind fun s =>
      some (generateFlags_shiftImmediate op.toDecodedInst s c
        (calculcateFlags_SignShiftRightImmediate · (ashr dest count) dest c))) := by
  subst hc
  have hlt := op.count_lt s
  have hres := ashr_carries (op.x s) op.isSize hcount (op.count_lt_copies s)
  refine ⟨((op.x s).sshiftRight (op.count s - 1)).getLsbD 0, if op.count s = 1 then false else s.flags.of, ?_,
    fun _ => rfl, fun hone => if_pos hone⟩
  refine op.shifted_immediate s rfl hres.low (fun h4 _ => ashr_half h4 hcount (op.count_lt_copies s)) fun hzero => ?_
  rw [calculcateFlags_SignShiftRightImmediate_eq s.flags op.isSize hzero (by split_ifs at hlt <;> omega) hres,
    op.lastBit_sign s]

theorem ashrOp_one (h : op.countForm = .one) : op.ShiftedSign s (ashrOp true is64BitMode op.toDecodedInst s) := by
  have hcount := @maskCount_one _ op.size (counts_one op.isSize) (constant (op.size * 8)) fun c hc =>
    counts_constant op.isSize hc
  simp only [ashrOp, op.loadDest s, op.bitSize, bind_eq_bind, bind_some, if_true]
  exact op.sar_known s (op.count_one s h) hcount

theorem ashrImmediateOp_eq (h : op.countForm = .immediate) :
    op.ShiftedSign s (ashrImmediateOp is64BitMode op.toDecodedInst s) := by
  simp only [ashrImmediateOp, op.loadDest s, op.literalShift_eq s h, op.bitSize, bind_eq_bind, bind_some]
  exact op.sar_known s rfl (op.counts_immediate s)

end

end DecodedShift

end FexEmu.OpcodeDispatcher.Integer
