import FexEmu.OpcodeDispatcher.IntegerShiftsProofs
/-!
# Double shifts follow the architecture

The result is put together of both operands. With an immediate count, the overflow to the right is that of a shift that
inserts zeros.
-/
namespace FexEmu.OpcodeDispatcher.Integer

open Address (Node)
open StringOps (State ALUFlags)
open BitVec (getLsbD_setWidth eq_of_getLsbD_eq toNat_ofNat setWidth_eq msb)

/-! ## Results -/

section
variable {size c : Nat} {shift other : Node} (x y : BitVec (8 * size))

theorem shld_bit {w i : Nat} (x y : BitVec w) (hi : i < w) (hc : c ≤ w) :
    (((x ++ y) <<< c).extractLsb' w w).getLsbD i = if c ≤ i then x.getLsbD (i - c) else y.getLsbD (w - c + i) := by
  rw [BitVec.getLsbD_extractLsb', decide_eq_true hi, Bool.true_and, BitVec.getLsbD_shiftLeft, BitVec.getLsbD_append,
    decide_eq_true (by omega), decide_eq_false (by omega), Bool.not_false, Bool.true_and, Bool.true_and]
  by_cases h : c ≤ i
  · rw [if_pos h, if_neg (by omega)]
    congr 1
    omega
  · rw [if_neg h, if_pos (by omega)]
    congr 1
    omega

theorem shrd_bit {w i : Nat} (x y : BitVec w) (hi : i < w) :
    (((y ++ x) >>> c).setWidth w).getLsbD i = if c + i < w then x.getLsbD (c + i) else y.getLsbD (c + i - w) := by
  rw [getLsbD_setWidth, decide_eq_true hi, Bool.true_and, BitVec.getLsbD_ushiftRight, BitVec.getLsbD_append]

theorem lshlSized_counts {a n : Node} (hn : Counts n c) (hc : c < 64) (i : Nat) :
    (lshlSized 8 a n).value.getLsbD i = (decide (i < 64) && (decide (c ≤ i) && a.value.getLsbD (i - c))) := by
  unfold lshlSized
  rw [opLshl_bit _ _ (.inr rfl), hn.toNat, Nat.mod_eq_of_lt hc]

theorem shld_low (hsize : IsSize size) (hc : Counts shift c) (hlt : c < 64) (hle : c ≤ 8 * size) (hzero : c ≠ 0)
    (hother : Counts other (8 * size - c)) :
    (or (lshlSized 8 ⟨size, x.setWidth 64⟩ shift) (lshr ⟨size, y.setWidth 64⟩ other)).value.setWidth (8 * size) =
      ((x ++ y) <<< c).extractLsb' (8 * size) (8 * size) := by
  have hk : max 4 size = 4 ∨ max 4 size = 8 := max4_eq (a := ⟨size, y.setWidth 64⟩) hsize
  have hsize8 := hsize.le
  apply eq_of_getLsbD_eq
  intro i hi
  rw [shld_bit x y hi hle, getLsbD_setWidth, decide_eq_true hi, Bool.true_and,
    or_bit isSize_eight (isSize_four.max hsize) (by rw [lshlSized_size]; omega), lshlSized_counts hc hlt,
    @lshr_counts ⟨size, y.setWidth 64⟩ other _ _ rfl hk hother (show 8 * size - c < 8 * max 4 size by omega),
    decide_eq_true (show i < 64 by omega), Bool.true_and]
  rw [setWidth_bit hsize, setWidth_bit hsize]
  have hbeyond : ∀ j, 8 * size ≤ j → y.getLsbD j = false := fun j hj => BitVec.getLsbD_of_ge y j hj
  grind

theorem shrd_low (hsize : IsSize size) (hc : Counts shift c) (hlt : c < 8 * max 4 size) (hle : c ≤ 8 * size) (hzero : c ≠ 0)
    (hother : Counts other (8 * size - c)) :
    (or (lshr ⟨size, x.setWidth 64⟩ shift) (lshlSized 8 ⟨size, y.setWidth 64⟩ other)).value.setWidth (8 * size) =
      ((y ++ x) >>> c).setWidth (8 * size) := by
  have hk : max 4 size = 4 ∨ max 4 size = 8 := max4_eq (a := ⟨size, x.setWidth 64⟩) hsize
  have hsize8 := hsize.le
  apply eq_of_getLsbD_eq
  intro i hi
  rw [shrd_bit x y hi, getLsbD_setWidth, decide_eq_true hi, Bool.true_and,
    or_bit (isSize_four.max hsize) isSize_eight (by rw [lshlSized_size]; omega), lshlSized_counts hother (by omega),
    @lshr_counts ⟨size, x.setWidth 64⟩ shift _ _ rfl hk hc hlt, decide_eq_true (show i < 64 by omega), Bool.true_and]
  rw [setWidth_bit hsize, setWidth_bit hsize]
  have hbeyond : ∀ j, 8 * size ≤ j → x.getLsbD j = false := fun j hj => BitVec.getLsbD_of_ge x j hj
  grind

theorem shld_none : ((x ++ y) <<< 0).extractLsb' (8 * size) (8 * size) = x := by
  apply eq_of_getLsbD_eq
  intro i hi
  rw [shld_bit x y hi (Nat.zero_le _), if_pos (Nat.zero_le _), Nat.sub_zero]

theorem shrd_none : ((y ++ x) >>> 0).setWidth (8 * size) = x := by
  apply eq_of_getLsbD_eq
  intro i hi
  rw [shrd_bit x y hi, Nat.zero_add, if_pos hi]

variable {x y}

theorem selected_low {dest res : Node} (hdest : IsSize dest.size) (hres : IsSize res.size)
    (hle : size ≤ res.size) (hc : Counts shift c) :
    (select .EQ shift (const 0) dest res).value.setWidth (8 * size) =
      if c = 0 then dest.value.setWidth (8 * size) else res.value.setWidth (8 * size) := by
  have hzero : compared .EQ shift (const 0) = decide (c = 0) := compared_eq hc (counts_const (by decide))
  apply eq_of_getLsbD_eq
  intro i hi
  rw [getLsbD_setWidth, decide_eq_true hi, Bool.true_and,
    selected_bit .EQ hdest hres (by unfold atLeast4; omega), hzero]
  split_ifs with h1 h2 h2
  · rw [getLsbD_setWidth, decide_eq_true hi, Bool.true_and]
  · exact absurd (of_decide_eq_true h1) h2
  · exact absurd (decide_eq_true h2) h1
  · rw [getLsbD_setWidth, decide_eq_true hi, Bool.true_and]

theorem jumpsIfZero_eq (hc : Counts shift c) (hsize : shift.size = 8) : jumpsIfZero shift = decide (c = 0) := by
  have hlt := hc.lt
  unfold jumpsIfZero
  rw [if_neg (by omega), hc.value]
  refine decide_eq_decide.2 ⟨fun h => ?_, fun h => by rw [h]; rfl⟩
  have := congrArg BitVec.toNat h
  rw [toNat_ofNat, Nat.mod_eq_of_lt (by omega)] at this
  exact this

end

/-! ## Operands -/

theorem write_read {is64BitMode : Bool} {s : State} {size : Nat} {l : Location} (hsize : size = 2 ∨ size = 8)
    (hmode : size = 8 → is64BitMode = true) (hhigh : ∀ gpr, l ≠ .reg true gpr) :
    l.write is64BitMode s (l.read s size) = s := by
  cases l with
  | reg high gpr =>
    cases high with
    | true => exact absurd rfl (hhigh gpr)
    | false =>
      have hreg : writeReg is64BitMode false (readReg size false (s.cpu.gregs gpr)) (s.cpu.gregs gpr) = s.cpu.gregs gpr := by
        rcases hsize with rfl | rfl
        · apply eq_of_getLsbD_eq
          intro i hi
          simp only [writeReg, readReg, Bool.false_eq_true, if_false, show ¬ (is64BitMode = true ∧ 4 ≤ 2) by simp]
          rw [BitVec.getLsbD_or, BitVec.getLsbD_shiftLeft, BitVec.getLsbD_ushiftRight, getLsbD_setWidth,
            getLsbD_setWidth]
          grind
        · rw [hmode rfl]
          exact (setWidth_eq _).trans (setWidth_eq _)
      unfold Location.write Location.read setGPR
      dsimp only
      rw [hreg, Function.update_eq_self]
  | mem address =>
    have hbytes : ByteMemory.bytes size (BitVec.ofNat (8 * size) (FlatMemory.load s.mem address size)).toNat =
        ByteMemory.bytes size (FlatMemory.load s.mem address size) := by
      rw [toNat_ofNat, bytes_mod]
    unfold Location.write Location.read
    dsimp only
    rw [hbytes, FlatMemory.store_eq_self.2 (FlatMemory.holds_load s.mem address size)]

theorem ofField_isDouble : ∀ field < 8, ∀ shift ∈ Shift.ofField field, shift.isDouble = false := by
  decide

theorem double_opcode {table : OpcodeTable} {op : Nat} {shift : Shift} {form : CountForm}
    (h : Shift.ofOpcode table op = some (shift, form)) (hdouble : shift.isDouble = true) :
    table = .secondBase ∧ form ≠ .one := by
  cases table with
  | base => cases h
  | secondBase =>
    refine ⟨rfl, ?_⟩
    unfold Shift.ofOpcode at h
    split at h
    case h_6 =>
      cases h
    all_goals first
      | cases h
        decide
      | contradiction
  | primaryGroup =>
    have hfield : ∃ form', (Shift.ofField (op % 8)).map (·, form') = some (shift, form) := by
      unfold Shift.ofOpcode at h
      dsimp only at h
      split_ifs at h <;> exact ⟨_, h⟩
    obtain ⟨form', hfield⟩ := hfield
    obtain ⟨shift', hshift, hpair⟩ := Option.map_eq_some_iff.1 hfield
    have hnot := ofField_isDouble (op % 8) (Nat.mod_lt _ (by decide)) shift' hshift
    cases hpair
    rw [hdouble] at hnot
    cases hnot

namespace DecodedShift

section
variable {is64BitMode : Bool} (op : DecodedShift is64BitMode) (s : State)

theorem loadSrc (h : op.shift.isDouble = true) :
    loadSource is64BitMode op.toDecodedInst s (op.src 0) = some ⟨op.size, (op.y s).setWidth 64⟩ := by
  have hrm := (op.src_isGPR h).2
  obtain ⟨l, hl, hload⟩ := @loadSource_rm is64BitMode op.toDecodedInst s op.size (op.src 0) op.isSize.le hrm
  have hy : op.y s = l.read s op.size := operandValue_rm hrm hl
  unfold loadSource
  rw [op.getSrcSize_eq, hload, hy]

theorem size_double (h : op.shift.isDouble = true) : op.size ≠ 1 := by
  intro hone
  have htable := (double_opcode op.ofOpcode_eq h).1
  rw [(op.byte_iff.1 hone).1] at htable
  cases htable

theorem clCount (h : op.countForm = .cl) :
    op.src 1 = .gpr false .rcx ∧
      Counts (maskCount const (op.size * 8) (loadGPR 1 false (s.cpu.gregs .rcx))) (op.count s) := by
  have hcount := op.count_isIn
  rw [h] at hcount
  refine ⟨hcount, ?_⟩
  have hmasked := @maskCount_counts _ op.size _ _ (holds_of (.inl rfl) ((s.cpu.gregs .rcx).setWidth (8 * 1))) _
    fun c hc => counts_const hc
  rw [count_eq, if_neg (by rw [h]; decide), hcount]
  exact hmasked

theorem writeOperand_same (hsize : op.size = 2 ∨ op.size = 8) :
    writeOperand is64BitMode op.toDecodedInst op.dest s s (op.x s) = s := by
  obtain ⟨l, hl, hx⟩ := op.exists_location s
  have hrm := op.dest_rm
  unfold writeOperand
  rw [hl, ← hx]
  refine write_read hsize op.size_mode fun gpr hreg => ?_
  rw [hreg] at hl
  cases hdest : op.dest with
  | gpr high gpr' =>
    rw [hdest] at hl hrm
    cases hl
    have := hrm.2 rfl
    omega
  | _ =>
    rw [hdest] at hl
    unfold location at hl
    obtain ⟨_, _, hmem⟩ := Option.map_eq_some_iff.1 hl
    cases hmem

end

end DecodedShift

/-! ## Handlers -/

namespace DecodedShift

section
variable {is64BitMode : Bool} (op : DecodedShift is64BitMode) (s : State) {r : BitVec (8 * op.size)} {cf of : Bool}
  {res shift : Node}

theorem cut_double (hlow : res.value.setWidth (8 * op.size) = r) (hsize : res.size = 8) :
    Holds (if op.size * 8 ≠ 64 then bfe (op.size * 8) 0 res else res) r := by
  have hle := op.isSize.le
  split_ifs with h
  · refine ⟨by rw [bfe_size, hsize]; exact isSize_eight, by rw [bfe_size]; omega, ?_⟩
    unfold bfe
    rw [opBfe_zero (by omega), Nat.mul_comm, hlow]
  · refine ⟨by rw [hsize]; exact isSize_eight, by omega, ?_⟩
    apply eq_of_getLsbD_eq
    intro i hi
    rw [← hlow, getLsbD_setWidth, getLsbD_setWidth, decide_eq_true hi, decide_eq_true (by omega),
      Bool.true_and,
      Bool.true_and]

theorem executed_calculate (r : BitVec (8 * op.size)) (flags : ALUFlags) :
    (op.executed s.calculateDeferredFlags r flags).calculateDeferredFlags =
      op.executed s.calculateDeferredFlags r flags := by
  obtain ⟨l, hl, -⟩ := op.exists_location s.calculateDeferredFlags
  unfold executed writeOperand
  rw [hl]
  cases l <;> rfl

theorem shifted_jump {calculate : Nat → ALUFlags → ALUFlags} (hlow : res.value.setWidth (8 * op.size) = r)
    (hsize : res.size = 8) (hjump : jumpsIfZero shift = decide (op.count s = 0))
    (hflags : calculate op.size s.calculateDeferredFlags.flags =
      shiftedFlags s.calculateDeferredFlags.flags (op.count s) r cf of) :
    op.Shifted s ((storeResult is64BitMode op.toDecodedInst s.calculateDeferredFlags res).bind fun s' =>
      if jumpsIfZero shift then some s'
      else some (generateFlags_variable op.toDecodedInst s' calculate).calculateDeferredFlags) r cf of := by
  subst hlow
  rw [op.storeDest s.calculateDeferredFlags res fun _ h8 => absurd hsize h8, Option.bind_some, hjump]
  by_cases hzero : op.count s = 0
  · rw [decide_eq_true hzero, if_pos rfl]
    refine ⟨_, rfl, writeOperand_calculate.trans ?_⟩
    unfold shiftedFlags
    rw [if_pos hzero]
    rfl
  · rw [decide_eq_false hzero, if_neg (by decide)]
    refine ⟨_, rfl, ?_⟩
    rw [generateFlags_variable_eq]
    refine (op.executed_calculate s _ _).trans ?_
    exact congrArg (op.executed s.calculateDeferredFlags _) hflags

/-- What the handlers of double shifts leave, as far as it is defined. -/
def ShiftedDouble (run : Option State) (v : BitVec (8 * op.size)) (last changed : Bool) : Prop :=
  ∃ r cf of, op.Shifted s run r cf of ∧ (op.count s ≤ 8 * op.size → r = v) ∧
    (op.count s ≠ 0 → op.count s ≤ 8 * op.size → cf = last) ∧ (op.count s = 1 → of = changed)

theorem double_low {v : BitVec (8 * op.size)} (hcount : Counts shift (op.count s)) (hsize : res.size = 8)
    (hres : op.count s ≠ 0 → op.count s ≤ 8 * op.size → res.value.setWidth (8 * op.size) = v)
    (hnone : op.count s = 0 → v = op.x s) (hle : op.count s ≤ 8 * op.size) :
    (select .EQ shift (const 0) ⟨op.size, (op.x s).setWidth 64⟩ res).value.setWidth (8 * op.size) = v := by
  have hres8 : IsSize res.size := by
    rw [hsize]
    exact isSize_eight
  rw [selected_low op.isSize hres8 (by rw [hsize]; exact op.isSize.le) hcount]
  split_ifs with hzero
  · exact (plain_carries op.isSize (op.x s)).low.trans (hnone hzero).symm
  · exact hres hzero hle

theorem counts_rest {n : Node} (hcount : Counts n (op.count s)) (hle : op.count s ≤ 8 * op.size) :
    Counts (sub (const (BitVec.ofNat 64 (op.size * 8))) n) (8 * op.size - op.count s) := by
  have hsize := op.isSize.le
  rw [Nat.mul_comm op.size 8]
  exact sub_counts (counts_const (by omega)) hcount hle

theorem counts_given : Counts (const (BitVec.ofNat 64 (op.count s))) (op.count s) := by
  have hlt := op.count_lt s
  exact counts_const (by split_ifs at hlt <;> omega)

theorem counts_givenRest (hle : op.count s ≤ 8 * op.size) :
    Counts (const (BitVec.ofNat 64 (op.size * 8) - BitVec.ofNat 64 (op.count s))) (8 * op.size - op.count s) := by
  have hsize := op.isSize.le
  have hrest : BitVec.ofNat 64 (op.size * 8) - BitVec.ofNat 64 (op.count s) =
      BitVec.ofNat 64 (8 * op.size - op.count s) := by
    apply BitVec.eq_of_toNat_eq
    rw [BitVec.toNat_sub, toNat_ofNat, toNat_ofNat, toNat_ofNat]
    omega
  rw [hrest]
  exact counts_const (by omega)

theorem count_lt_64 : op.count s < 64 := by
  have hlt := op.count_lt s
  split_ifs at hlt <;> omega

theorem maskCount_size (n : Node) (h : n.size ≤ 8) : (maskCount const (op.size * 8) n).size = 8 := by
  unfold maskCount
  split_ifs <;> exact Nat.max_eq_right h

theorem double_size (hsize : res.size = 8) :
    (select .EQ shift (const 0) ⟨op.size, (op.x s).setWidth 64⟩ res).size = 8 := by
  have hle := op.isSize.le
  rw [select_size]
  unfold atLeast4
  dsimp only
  omega

/-- The node of the result, before it is selected. -/
def shldNode (shift other : Node) : Node :=
  or (lshlSized 8 ⟨op.size, (op.x s).setWidth 64⟩ shift) (lshr ⟨op.size, (op.y s).setWidth 64⟩ other)

def shrdNode (shift other : Node) : Node :=
  or (lshr ⟨op.size, (op.x s).setWidth 64⟩ shift) (lshlSized 8 ⟨op.size, (op.y s).setWidth 64⟩ other)

theorem shldNode_size (shift other : Node) : (op.shldNode s shift other).size = 8 := by
  have hle := op.isSize.le
  unfold shldNode
  rw [or_size, lshlSized_size, lshr_size]
  dsimp only
  omega

theorem shrdNode_size (shift other : Node) : (op.shrdNode s shift other).size = 8 := by
  have hle := op.isSize.le
  unfold shrdNode
  rw [or_size, lshlSized_size, lshr_size]
  dsimp only
  omega

abbrev shldResult : BitVec (8 * op.size) := ((op.x s ++ op.y s) <<< op.count s).extractLsb' (8 * op.size) (8 * op.size)

abbrev shrdResult : BitVec (8 * op.size) := ((op.y s ++ op.x s) >>> op.count s).setWidth (8 * op.size)

theorem shldResult_none (h : op.count s = 0) : op.shldResult s = op.x s := by
  unfold shldResult
  rw [h]
  exact shld_none _ _

theorem shrdResult_none (h : op.count s = 0) : op.shrdResult s = op.x s := by
  unfold shrdResult
  rw [h]
  exact shrd_none _ _

theorem loadCL (h : op.src 1 = .gpr false .rcx) :
    loadSourceWithOpSize is64BitMode op.toDecodedInst s.calculateDeferredFlags (op.src 1) 1 =
      some (loadGPR 1 false (s.cpu.gregs .rcx)) := by
  rw [h]
  rfl

variable (hdouble : op.shift.isDouble = true)
include hdouble

theorem loadSrc_calculate :
    loadSource is64BitMode op.toDecodedInst s.calculateDeferredFlags (op.src 0) = some ⟨op.size, (op.y s).setWidth 64⟩ :=
  op.loadSrc s.calculateDeferredFlags hdouble

theorem shldOp_eq (h : op.countForm = .cl) :
    op.ShiftedDouble s (shldOp is64BitMode op.toDecodedInst s) (op.shldResult s)
      ((op.x s).getLsbD (8 * op.size - op.count s)) ((op.x s).msb ^^ (op.shldResult s).msb) := by
  obtain ⟨hcl, hcount⟩ := op.clCount s h
  have hnode := op.maskCount_size (loadGPR 1 false (s.cpu.gregs .rcx)) (show 1 ≤ 8 by decide)
  have hsize := op.shldNode_size s
  have hlow := op.double_low s hcount (hsize _ _)
    (fun hzero hle => shld_low (op.x s) (op.y s) op.isSize hcount (op.count_lt_64 s) hle hzero (op.counts_rest s hcount hle))
    (op.shldResult_none s)
  obtain ⟨cf, hflags, hcf⟩ := calculcateFlags_ShiftLeft_eq s.calculateDeferredFlags.flags op.isSize hcount
    (plain_carries op.isSize (op.x s)) (op.cut_double rfl (op.double_size s (hsize _ _))).carries
  simp only [shldOp, op.loadSrc_calculate s hdouble, op.loadDest_calculate s, op.loadCL s hcl, op.bitSize,
    Option.bind_eq_bind, Option.bind_some]
  refine ⟨_, _, _, op.shifted_jump s rfl (op.double_size s (hsize _ _)) (jumpsIfZero_eq hcount hnode) hflags, hlow, hcf,
    fun hone => ?_⟩
  exact congrArg (fun r => (op.x s).msb ^^ msb r) (hlow (by have := op.isSize.pos; omega))

theorem shrdOp_eq (h : op.countForm = .cl) :
    op.ShiftedDouble s (shrdOp is64BitMode op.toDecodedInst s) (op.shrdResult s) ((op.x s).getLsbD (op.count s - 1))
      ((op.x s).msb ^^ (op.shrdResult s).msb) := by
  obtain ⟨hcl, hcount⟩ := op.clCount s h
  have hlt := op.count_lt_copies s
  have hnode := op.maskCount_size (loadGPR 1 false (s.cpu.gregs .rcx)) (show 1 ≤ 8 by decide)
  have hsize := op.shrdNode_size s
  have hlow := op.double_low s hcount (hsize _ _)
    (fun hzero hle => shrd_low (op.x s) (op.y s) op.isSize hcount hlt hle hzero (op.counts_rest s hcount hle))
    (op.shrdResult_none s)
  obtain ⟨cf, hflags, hcf⟩ := calculcateFlags_ShiftRight_eq s.calculateDeferredFlags.flags op.isSize hcount
    (Nat.le_of_lt hlt) (plain_carries op.isSize (op.x s)) (op.cut_double rfl (op.double_size s (hsize _ _))).carries
  have hbits : getDstBitSize op.toDecodedInst = op.size * 8 := by
    rw [getDstBitSize, op.getDstSize_eq]
  simp only [shrdOp, op.loadSrc_calculate s hdouble, op.loadDest_calculate s, hbits, Option.bind_eq_bind, Option.bind_some]
  refine ⟨_, _, _, op.shifted_jump s rfl (op.double_size s (hsize _ _)) (jumpsIfZero_eq hcount hnode) hflags, hlow,
    fun hzero _ => (hcf hzero).trans (setWidth_bit op.isSize _ _), fun hone => ?_⟩
  exact congrArg (fun r => (op.x s).msb ^^ msb r) (hlow (by have := op.isSize.pos; omega))

/-- With an immediate count of zero, at most half a register is stored. -/
theorem shifted_none {v : BitVec (8 * op.size)} {last changed : Bool} (hzero : op.count s = 0) (hnone : v = op.x s) :
    op.ShiftedDouble s (if op.size * 8 = 32 then
        storeResult is64BitMode op.toDecodedInst s ⟨op.size, (op.x s).setWidth 64⟩ else some s) v last changed := by
  have hnot := op.size_double hdouble
  refine ⟨op.x s, false, false, ?_, fun _ => hnone.symm, fun h => absurd hzero h, fun hone => by omega⟩
  by_cases h32 : op.size * 8 = 32
  · have hhalf : Holds (⟨op.size, (op.x s).setWidth 64⟩ : Node) (op.x s) := holds_of op.isSize _
    rw [if_pos h32, op.storeDest s _ fun h4 _ => hhalf.half h4]
    refine ⟨_, rfl, writeOperand_calculate.trans ?_⟩
    rw [hhalf.carries.low]
    unfold shiftedFlags
    rw [if_pos hzero]
  · have hsame := op.writeOperand_same s.calculateDeferredFlags (by
      rcases op.isSize with h | h | h | h <;> omega)
    rw [if_neg h32]
    refine ⟨_, rfl, ?_⟩
    unfold executed shiftedFlags
    rw [if_pos hzero]
    exact congrArg (fun t : State => { t with flags := s.calculateDeferredFlags.flags }) hsame.symm

theorem shldImmediateOp_eq (h : op.countForm = .immediate) :
    op.ShiftedDouble s (shldImmediateOp is64BitMode op.toDecodedInst s) (op.shldResult s)
      ((op.x s).getLsbD (8 * op.size - op.count s)) ((op.x s).msb ^^ (op.shldResult s).msb) := by
  simp only [shldImmediateOp, op.loadSrc s hdouble, op.loadDest s, op.literalShift_eq s h, op.bitSize, Option.bind_eq_bind,
    Option.bind_some]
  by_cases hzero : op.count s = 0
  · rw [if_neg (by omega)]
    exact op.shifted_none s hdouble hzero (op.shldResult_none s hzero)
  · rw [if_pos hzero]
    have hsize := op.shldNode_size s
    have hlow (hle : op.count s ≤ 8 * op.size) := shld_low (op.x s) (op.y s) op.isSize (op.counts_given s)
      (op.count_lt_64 s) hle hzero (op.counts_givenRest s hle)
    obtain ⟨cf, hflags, hcf⟩ := calculcateFlags_ShiftLeftImmediate_eq s.flags op.isSize hzero
      (plain_carries op.isSize (op.x s)) (op.cut_double rfl (hsize _ _)).carries
    refine ⟨_, cf, _, op.shifted_immediate s rfl rfl (fun _ h8 => absurd (hsize _ _) h8) fun _ => hflags, hlow,
      fun _ => hcf, fun hone => ?_⟩
    rw [if_pos hone]
    exact congrArg (fun r => (op.x s).msb ^^ msb r) (hlow (by have := op.isSize.pos; omega))

theorem shrdImmediateOp_eq (h : op.countForm = .immediate) :
    op.ShiftedDouble s (shrdImmediateOp is64BitMode op.toDecodedInst s) (op.shrdResult s)
      ((op.x s).getLsbD (op.count s - 1)) (op.x s).msb := by
  simp only [shrdImmediateOp, op.loadSrc s hdouble, op.loadDest s, op.literalShift_eq s h, op.bitSize, Option.bind_eq_bind,
    Option.bind_some]
  by_cases hzero : op.count s = 0
  · rw [if_neg (by omega)]
    exact op.shifted_none s hdouble hzero (op.shrdResult_none s hzero)
  · rw [if_pos hzero]
    have hsize := op.shrdNode_size s
    refine ⟨_, _, _, op.shifted_immediate s rfl rfl (fun _ h8 => absurd (hsize _ _) h8) fun _ =>
      calculcateFlags_ShiftRightImmediate_eq s.flags op.isSize hzero (Nat.le_of_lt (op.count_lt_64 s))
        (plain_carries op.isSize (op.x s)) (op.cut_double rfl (hsize _ _)).carries, fun hle => ?_,
      fun _ _ => setWidth_bit op.isSize _ _, fun hone => if_pos hone⟩
    exact shrd_low (op.x s) (op.y s) op.isSize (op.counts_given s) (op.count_lt_copies s) hle hzero
      (op.counts_givenRest s hle)

end

end DecodedShift

/-! ## Instructions -/

structure DecodedPlainShift (is64BitMode : Bool) extends DecodedShift is64BitMode where
  isRotate_eq : shift.isRotate = false

namespace DecodedPlainShift

variable {is64BitMode : Bool} (op : DecodedPlainShift is64BitMode) (s : State)

/-- An immediate count of one to the right takes the sign of the operand for its change. The result's sign is the register's
lowest bit. -/
def WrongOverflow : Prop :=
  op.shift = .shrd ∧ op.countForm = .immediate ∧ op.count s = 1 ∧ (op.y s).getLsbD 0 = true

/-- Whatever the shift, the last bit is defined for counts up to the size. -/
theorem count_le (h : op.shift ≠ .sar) (hdefined : op.shift.definesCF (8 * op.size) (op.count s) = true) :
    op.count s ≤ 8 * op.size := by
  unfold Shift.definesCF at hdefined
  rw [op.isRotate_eq, decide_eq_false h, Bool.false_or, Bool.false_or] at hdefined
  exact of_decide_eq_true hdefined

theorem double_le (h : op.shift.isDouble = true) (hdefined : op.shift.definesResult (8 * op.size) (op.count s) = true) :
    op.count s ≤ 8 * op.size := by
  unfold Shift.definesResult at hdefined
  rw [h, Bool.not_true, Bool.false_or] at hdefined
  exact of_decide_eq_true hdefined

theorem follows_shl (h : op.shift = .shl) : op.FollowsX86 s := by
  have hname := ofOp_eq op.ofOpcode_eq
  have hrun : op.ShiftedLeft s
      ((op.shift.handler (op.op / 8 % 2 = 0) op.countForm).handler is64BitMode op.toDecodedInst s) := by
    rw [h]
    cases hform : op.countForm with
    | one => exact op.shlOp_one s hform
    | immediate => exact op.shlImmediateOp_eq s hform
    | cl => exact op.shlOp_variable s (by rw [hform]; decide)
  obtain ⟨cf, of, hshifted, hcf, hof⟩ := hrun
  refine (hshifted.follows_iff hname op.isRotate_eq (fun _ => by rw [h]; rfl) fun hzero hdefined => ?_).2 fun hone => ?_
  · rw [hcf hzero (op.count_le s (by rw [h]; decide) hdefined), h]
    rfl
  · rw [hof hone, h, hone, Bool.xor_comm, BitVec.msb_eq_getLsbD_last (op.x s)]
    rfl

theorem follows_shr (h : op.shift = .shr) : op.FollowsX86 s := by
  have hname := ofOp_eq op.ofOpcode_eq
  have hrun : op.ShiftedRight s
      ((op.shift.handler (op.op / 8 % 2 = 0) op.countForm).handler is64BitMode op.toDecodedInst s) := by
    rw [h]
    cases hform : op.countForm with
    | one => exact op.shrOp_one s hform
    | immediate => exact op.shrImmediateOp_eq s hform
    | cl => exact op.shrOp_variable s (by rw [hform]; decide)
  obtain ⟨cf, of, hshifted, hcf, hof⟩ := hrun
  refine (hshifted.follows_iff hname op.isRotate_eq (fun _ => by rw [h]; rfl) fun hzero _ => ?_).2 fun hone => ?_
  · rw [hcf hzero, h]
    rfl
  · rw [hof hone, h]
    rfl

theorem follows_sar (h : op.shift = .sar) : op.FollowsX86 s := by
  have hname := ofOp_eq op.ofOpcode_eq
  have hrun : op.ShiftedSign s
      ((op.shift.handler (op.op / 8 % 2 = 0) op.countForm).handler is64BitMode op.toDecodedInst s) := by
    rw [h]
    cases hform : op.countForm with
    | one => exact op.ashrOp_one s hform
    | immediate => exact op.ashrImmediateOp_eq s hform
    | cl => exact op.ashrOp_variable s (by rw [hform]; decide)
  obtain ⟨cf, of, hshifted, hcf, hof⟩ := hrun
  refine (hshifted.follows_iff hname op.isRotate_eq (fun _ => by rw [h]; rfl) fun hzero _ => ?_).2 fun hone => ?_
  · rw [hcf hzero, h]
    rfl
  · rw [hof hone, h]
    rfl

theorem follows_double {v : BitVec (8 * op.size)} {last changed : Bool} (hdouble : op.shift.isDouble = true)
    (hsar : op.shift ≠ .sar)
    (h : op.ShiftedDouble s ((op.shift.handler (op.op / 8 % 2 = 0) op.countForm).handler is64BitMode op.toDecodedInst s)
      v last changed)
    (hv : v = (op.shift.result (op.x s) (op.y s) s.calculateDeferredFlags.flags.cf (op.count s)).1)
    (hlast : last = (op.shift.result (op.x s) (op.y s) s.calculateDeferredFlags.flags.cf (op.count s)).2.1) :
    op.FollowsX86 s ↔ (op.count s = 1 →
      changed = (op.shift.result (op.x s) (op.y s) s.calculateDeferredFlags.flags.cf (op.count s)).2.2) := by
  obtain ⟨r, cf, of, hshifted, hr, hcf, hof⟩ := h
  rw [hshifted.follows_iff (ofOp_eq op.ofOpcode_eq) op.isRotate_eq
    (fun hdefined => (hr (op.double_le s hdouble hdefined)).trans hv)
    (fun hzero hdefined => (hcf hzero (op.count_le s hsar hdefined)).trans hlast)]
  constructor
  · intro h hone
    rw [← hof hone]
    exact h hone
  · intro h hone
    rw [hof hone]
    exact h hone

theorem follows_shld (h : op.shift = .shld) : op.FollowsX86 s := by
  have hdouble : op.shift.isDouble = true := by
    rw [h]
    rfl
  have hrun : op.ShiftedDouble s
      ((op.shift.handler (op.op / 8 % 2 = 0) op.countForm).handler is64BitMode op.toDecodedInst s) (op.shldResult s)
      ((op.x s).getLsbD (8 * op.size - op.count s)) ((op.x s).msb ^^ (op.shldResult s).msb) := by
    have hform := (double_opcode op.ofOpcode_eq hdouble).2
    rw [h]
    cases hcount : op.countForm with
    | one => exact absurd hcount hform
    | immediate => exact op.shldImmediateOp_eq s hdouble hcount
    | cl => exact op.shldOp_eq s hdouble hcount
  refine (op.follows_double s hdouble (by rw [h]; decide) hrun (by rw [h]; rfl) (by rw [h]; rfl)).2 fun _ => ?_
  rw [h]
  exact Bool.xor_comm _ _

theorem follows_shrd (h : op.shift = .shrd) : op.FollowsX86 s ↔ ¬ op.WrongOverflow s := by
  have hdouble : op.shift.isDouble = true := by
    rw [h]
    rfl
  have hform := (double_opcode op.ofOpcode_eq hdouble).2
  cases hcount : op.countForm with
  | one => exact absurd hcount hform
  | cl =>
    have hrun : op.ShiftedDouble s
        ((op.shift.handler (op.op / 8 % 2 = 0) op.countForm).handler is64BitMode op.toDecodedInst s) (op.shrdResult s)
        ((op.x s).getLsbD (op.count s - 1)) ((op.x s).msb ^^ (op.shrdResult s).msb) := by
      rw [h, hcount]
      exact op.shrdOp_eq s hdouble hcount
    refine iff_of_true ?_ fun hwrong => by rw [hwrong.2.1] at hcount; cases hcount
    refine (op.follows_double s hdouble (by rw [h]; decide) hrun (by rw [h]; rfl) (by rw [h]; rfl)).2 fun _ => ?_
    rw [h]
    exact Bool.xor_comm _ _
  | immediate =>
    have hrun : op.ShiftedDouble s
        ((op.shift.handler (op.op / 8 % 2 = 0) op.countForm).handler is64BitMode op.toDecodedInst s) (op.shrdResult s)
        ((op.x s).getLsbD (op.count s - 1)) (op.x s).msb := by
      rw [h, hcount]
      exact op.shrdImmediateOp_eq s hdouble hcount
    have hsign (hone : op.count s = 1) : (op.shrdResult s).msb = (op.y s).getLsbD 0 := by
      have hpos := op.isSize.pos
      unfold DecodedShift.shrdResult
      rw [BitVec.msb_eq_getLsbD_last, hone, shrd_bit _ _ (by omega), if_neg (by omega)]
      congr 1
      omega
    rw [op.follows_double s hdouble (by rw [h]; decide) hrun (by rw [h]; rfl) (by rw [h]; rfl)]
    unfold WrongOverflow
    rw [h]
    change (op.count s = 1 → (op.x s).msb = ((op.shrdResult s).msb ^^ (op.x s).msb)) ↔ _
    constructor
    · rintro hof ⟨-, -, hone, hbit⟩
      have := hof hone
      rw [hsign hone, hbit, Bool.true_xor] at this
      exact (Bool.eq_not_self _).1 this
    · intro hnot hone
      have hbit : (op.y s).getLsbD 0 = false := Bool.eq_false_iff.2 fun hbit => hnot ⟨rfl, hcount, hone, hbit⟩
      rw [hsign hone, hbit, Bool.false_xor]

/-- The emitted code of a shift leaves what the architecture leaves, unless it takes the sign of the operand for its
change. -/
theorem shifts_follow_iff : op.FollowsX86 s ↔ ¬ op.WrongOverflow s := by
  have hrotate := op.isRotate_eq
  cases hshift : op.shift with
  | rol | ror | rcl | rcr =>
    rw [hshift] at hrotate
    cases hrotate
  | shl => exact iff_of_true (op.follows_shl s hshift) fun hwrong => by rw [hwrong.1] at hshift; cases hshift
  | shr => exact iff_of_true (op.follows_shr s hshift) fun hwrong => by rw [hwrong.1] at hshift; cases hshift
  | sar => exact iff_of_true (op.follows_sar s hshift) fun hwrong => by rw [hwrong.1] at hshift; cases hshift
  | shld => exact iff_of_true (op.follows_shld s hshift) fun hwrong => by rw [hwrong.1] at hshift; cases hshift
  | shrd => exact op.follows_shrd s hshift

end DecodedPlainShift

/-- `shrd eax, ecx, 1`. -/
def shrdEAX : DecodedPlainShift true where
  flags := 3#32 <<< 19 ||| 3#32 <<< 22
  pc := 0
  instSize := 4
  entry := 0
  op := 0xAC
  dest := .gpr false .rax
  src := fun i => if i = 0 then .gpr false .rcx else .literal 1 1
  table := .secondBase
  shift := .shrd
  countForm := .immediate
  size := 4
  ofOpcode_eq := by decide
  byte_iff := by decide
  getSrcSize_eq := by decide
  getDstSize_eq := by decide
  isSize := isSize_four
  size_mode := mode_four
  dest_rm := eax_rm
  src_isGPR := fun _ => ⟨rfl, rfl, by decide⟩
  count_isIn := ⟨1, 1, by decide, rfl⟩
  isRotate_eq := rfl

/-- The lowest bit of `ecx` becomes the sign, which changes. -/
theorem shrdEAX_differs : ¬ ∀ (is64BitMode : Bool) (op : DecodedPlainShift is64BitMode) (s : State), op.FollowsX86 s := by
  intro h
  exact (shrdEAX.follows_shrd oneEverywhere rfl).1 (h true shrdEAX oneEverywhere) ⟨rfl, rfl, by decide, by decide⟩

end FexEmu.OpcodeDispatcher.Integer
