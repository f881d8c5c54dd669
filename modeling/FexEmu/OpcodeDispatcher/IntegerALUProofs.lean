import FexEmu.Frontend.Instruction
import FexEmu.OpcodeDispatcher.IntegerALUSpec
import FexEmu.OpcodeDispatcher.IntegerResults
/-!
# Arithmetic and logic follow the architecture

One lemma for each handler, and the negation that does not follow.
-/
namespace FexEmu.OpcodeDispatcher.Integer

open Address (Node constant)
open StringOps (State ALUFlags loadFlag)
open Frontend.ModRM (X86Reg)
open Frontend.Instruction (Decoder InstInfo literalOperand)
open Option (bind_eq_bind bind_some some_inj)

/-- The frontend extends the sign of a byte to the size of the operation. -/
theorem literalOperand_sext (is64BitMode : Bool) (op : DecodedInst) (s : State) (d : Decoder) (info : InstInfo)
    (sizes : Frontend.Prefixes.Sizes) (i : Nat) (hsext : info.srcSext = true) (hbytes : sizes.immediate = 1) :
    IsSource sizes.dst ((literalOperand d info sizes i).src i) ∧
      operandValue is64BitMode op s sizes.dst ((literalOperand d info sizes i).src i) =
        ((d.instStream d.instructionSize).signExtend 64).setWidth (8 * sizes.dst) := by
  have hbyte : (BitVec.ofNat 64 (FlatMemory.load d.instStream d.instructionSize 1)).setWidth 8 =
      d.instStream d.instructionSize := by
    apply BitVec.eq_of_toNat_eq
    simp [FlatMemory.load, ByteMemory.ofBytes]
  have hsrc : (literalOperand d info sizes i).src i =
      .literal sizes.dst ((d.instStream d.instructionSize).signExtend 64) := by
    unfold literalOperand Decoder.setSrc
    simp [hbytes, hsext, hbyte]
  rw [hsrc]
  exact ⟨rfl, rfl⟩

/-! ## Destinations -/

section
variable {is64BitMode : Bool} {op : DecodedInst} {s : State} {size : Nat}

theorem updateDest_eq (hsrc : getSrcSize op = size) (hdst : getDstSize op = size) (hsize : IsSize size)
    (hmode : size = 8 → is64BitMode = true) (hdest : IsRM size op.dest) {l : Location}
    (hl : location is64BitMode op s op.dest = some l) (value : Node)
    (func : {n : Nat} → BitVec n → BitVec n → BitVec n) (locked plain : Node → Node)
    (hlow : (plain ⟨size, (l.read s size).setWidth 64⟩).value.setWidth (8 * size) =
      func (l.read s size) (value.value.setWidth (8 * size)))
    (hhalf : isGPR op.dest = true → is64BitMode = true → size = 4 →
      (plain ⟨size, (l.read s size).setWidth 64⟩).size ≠ 8 →
      (plain ⟨size, (l.read s size).setWidth 64⟩).value =
        ((plain ⟨size, (l.read s size).setWidth 64⟩).value.setWidth 32).setWidth 64) :
    ∃ result, updateDest is64BitMode op s size value func locked plain =
        some (result, ⟨size, (l.read s size).setWidth 64⟩,
          l.write is64BitMode s (func (l.read s size) (value.value.setWidth (8 * size)))) ∧
      (result = locked ⟨size, (l.read s size).setWidth 64⟩ ∨ result = plain ⟨size, (l.read s size).setWidth 64⟩) := by
  unfold updateDest
  by_cases hlocked : destIsLockedMem op = true
  · rw [if_pos hlocked]
    have hmem : isGPR op.dest = false := by
      unfold destIsLockedMem at hlocked
      cases h : isGPR op.dest
      · rfl
      · rw [h] at hlocked
        cases hlocked
    obtain ⟨address, haddress, rfl⟩ := location_mem hmem hl
    refine ⟨_, ?_, .inl rfl⟩
    simp [haddress, @atomicFetch_eq is64BitMode s size func hsize.le]
  · rw [if_neg hlocked]
    obtain ⟨l', hl', hload⟩ := @loadSource_rm is64BitMode op s size op.dest hsize.le hdest
    obtain rfl : l = l' := some_inj.1 (hl.symm.trans hl')
    have hstore := @storeResult_rm is64BitMode op s size op.dest hsize hmode hdest l hl _ hhalf
    refine ⟨_, ?_, .inr rfl⟩
    simp [loadSource, hsrc, hload, storeResult, storeResultTo, hdst, hstore, hlow]

end

/-! ## Handlers -/

def ALU.instruction : ALU → Instruction
  | ADD => .add
  | OR => .or
  | AND => .and
  | SUB => .sub
  | XOR => .xor

/-- The instruction that a handler emits code for. -/
def HandlerName.instruction (op : Nat) : HandlerName → Option Instruction
  | ALUOp => (ALU.ofOp op).map ALU.instruction
  | SecondaryALUOp => (ALU.ofSecondaryOp op).map ALU.instruction
  | ADCOp _ => some .adc
  | SBBOp _ => some .sbb
  | CMPOp _ => some .cmp
  | TESTOp _ => some .test
  | NEGOp => some .neg
  | INCOp => some .inc
  | DECOp => some .dec
  | XADDOp => some .xadd

/-- The source that a handler loads. -/
def HandlerName.srcIndex : HandlerName → Option Nat
  | ALUOp | XADDOp => some 0
  | SecondaryALUOp => some 1
  | ADCOp srcIndex | SBBOp srcIndex | CMPOp srcIndex | TESTOp srcIndex => some srcIndex
  | NEGOp | INCOp | DECOp => none

/-- A handler is installed where its instruction is in the opcode map. -/
def Installed (is64BitMode : Bool) (table : OpcodeTable) (op : Nat) : Prop :=
  ∀ instruction ∈ Instruction.ofOpcode is64BitMode table op, ∃ name ∈ handlerOf is64BitMode table op,
    name.instruction op = some instruction ∧ ∀ srcIndex ∈ name.srcIndex, srcIndex = table.srcIndex

instance (is64BitMode : Bool) (table : OpcodeTable) (op : Nat) : Decidable (Installed is64BitMode table op) :=
  inferInstanceAs (Decidable (∀ instruction ∈ Instruction.ofOpcode is64BitMode table op,
    ∃ name ∈ handlerOf is64BitMode table op,
    name.instruction op = some instruction ∧ ∀ srcIndex ∈ name.srcIndex, srcIndex = table.srcIndex))

theorem installed_row (is64BitMode : Bool) :
    ∀ row < 8, ∀ column < 6, Installed is64BitMode .base (8 * row + column) := by
  cases is64BitMode <;> decide

theorem installed_test (is64BitMode : Bool) : ∀ op ∈ [0x84, 0x85, 0xA8, 0xA9], Installed is64BitMode .base op := by
  cases is64BitMode <;> decide

theorem installed_step : ∀ column < 16, Installed false .base (0x40 + column) := by
  decide

theorem installed_group (is64BitMode : Bool) :
    ∀ index ∈ [0, 1, 3, 24, 25, 32, 40], ∀ reg < 8, Installed is64BitMode .primaryGroup (8 * index + reg) := by
  cases is64BitMode <;> decide

theorem installed (is64BitMode : Bool) (table : OpcodeTable) (op : Nat) : Installed is64BitMode table op := by
  intro instruction h
  cases table with
  | base =>
    have hop : Installed is64BitMode .base op := by
      simp only [Instruction.ofOpcode] at h
      split_ifs at h with hrow htest hmode hinc hdec
      · have := installed_row is64BitMode (op / 8) (by omega) (op % 8) hrow.2
        rwa [Nat.div_add_mod] at this
      · exact installed_test is64BitMode op (by simpa using htest)
      · cases h
      · obtain rfl : is64BitMode = false := Bool.eq_false_iff.2 hmode
        have := installed_step (op - 0x40) (by omega)
        rwa [Nat.add_sub_cancel' (by omega)] at this
      · obtain rfl : is64BitMode = false := Bool.eq_false_iff.2 hmode
        have := installed_step (op - 0x40) (by omega)
        rwa [Nat.add_sub_cancel' (by omega)] at this
      · cases h
    exact hop instruction h
  | secondBase =>
    simp only [Instruction.ofOpcode, handlerOf] at h ⊢
    split_ifs at h ⊢
    · obtain rfl := some_inj.1 h
      exact ⟨_, rfl, rfl, fun _ hsrc => (some_inj.1 hsrc).symm⟩
    · cases h
  | primaryGroup =>
    have hindex : op / 8 ∈ [0, 1, 3, 24, 25, 32, 40] := by
      simp only [Instruction.ofOpcode] at h
      split at h <;> first | (simp; omega) | cases h
    have := installed_group is64BitMode (op / 8) hindex (op % 8) (Nat.mod_lt _ (by decide))
    rw [Nat.div_add_mod] at this
    exact this instruction h

section
variable {is64BitMode : Bool} (op : DecodedALU is64BitMode) (s : State) {l : Location} {i : Nat}
  {x y : BitVec (8 * op.size)}

/-- The destination with the result, and the flags. -/
def written (l : Location) (r : BitVec (8 * op.size)) (flags : ALUFlags) : State :=
  { l.write is64BitMode s.calculateDeferredFlags r with flags }

theorem deferFlags_calculate (l : Location) (r : BitVec (8 * op.size)) (calculate : ALUFlags → ALUFlags) :
    (deferFlags (l.write is64BitMode s r) calculate).calculateDeferredFlags =
      written op s l r (calculate (l.write is64BitMode s r).flags) := by
  unfold written
  rw [← write_calculateDeferredFlags]
  rfl

theorem atLeast4_same {a b : Node} {size : Nat} (ha : a.size = size) (hb : b.size = size) : atLeast4 a b = max 4 size := by
  unfold atLeast4
  rw [ha, hb, Nat.max_self]

theorem atLeast4_max (a b : Node) {size : Nat} (ha : a.size = size) (hb : b.size = max 4 size) :
    atLeast4 a b = max 4 size := by
  unfold atLeast4
  omega

theorem atLeast4_flag (a : Node) (c : Bool) (ha : 0 < a.size) : atLeast4 a (loadFlag c) = max 4 a.size := by
  have : (loadFlag c).size = 1 := rfl
  unfold atLeast4
  omega

theorem loadFlag_low {w : Nat} (c : Bool) : (loadFlag c).value.setWidth w = carry w c := by
  apply BitVec.eq_of_toNat_eq
  cases c <;> simp [loadFlag, carry]

theorem one_holds : Holds (constant (op.size * 8) 1) (1 : BitVec (8 * op.size)) := by
  have hone : (1 : BitVec 64).setWidth (8 * op.size) = 1 := by
    rcases op.isSize with h | h | h | h <;> rw [h] <;> rfl
  rw [constant_eq op.isSize.le, hone]
  exact holds_of op.isSize 1

section
variable (h : IsSource op.size (op.src i)) (hy : operandValue is64BitMode op.toDecodedInst s op.size (op.src i) = y)
include h hy

theorem loadSource_eq :
    loadSource is64BitMode op.toDecodedInst s (op.src i) = some ⟨op.size, y.setWidth 64⟩ := by
  unfold loadSource
  rw [op.getSrcSize_eq, loadSource_source op.isSize.le h, hy]

end

section
variable (hl : location is64BitMode op.toDecodedInst s op.dest = some l) (hx : l.read s op.size = x)
include hl hx

theorem update_eq (value : Node) (func : {n : Nat} → BitVec n → BitVec n → BitVec n) (locked plain : Node → Node)
    (hplain : Computes op.size (plain ⟨op.size, x.setWidth 64⟩) (func x (value.value.setWidth (8 * op.size)))) :
    ∃ result, updateDest is64BitMode op.toDecodedInst s op.size value func locked plain =
        some (result, ⟨op.size, x.setWidth 64⟩,
          l.write is64BitMode s (func x (value.value.setWidth (8 * op.size)))) ∧
      (result = locked ⟨op.size, x.setWidth 64⟩ ∨ result = plain ⟨op.size, x.setWidth 64⟩) := by
  subst hx
  exact updateDest_eq op.getSrcSize_eq op.getDstSize_eq op.isSize op.size_mode op.dest_rm hl value func locked plain
    hplain.low fun _ _ hsize _ => hplain.half hsize

theorem loadDest_eq :
    loadSource is64BitMode op.toDecodedInst s op.dest = some ⟨op.size, x.setWidth 64⟩ := by
  obtain ⟨l', hl', hload⟩ := @loadSource_rm is64BitMode op.toDecodedInst s op.size op.dest op.isSize.le op.dest_rm
  obtain rfl : l = l' := some_inj.1 (hl.symm.trans hl')
  unfold loadSource
  rw [op.getSrcSize_eq, hload, hx]

variable (h : IsSource op.size (op.src i)) (hy : operandValue is64BitMode op.toDecodedInst s op.size (op.src i) = y)
include h hy

theorem adcOp_eq :
    ∃ s', adcOp i is64BitMode op.toDecodedInst s = some s' ∧ s'.calculateDeferredFlags =
      written op s l (x + y + carry _ s.calculateDeferredFlags.flags.cf)
        (addFlags x y s.calculateDeferredFlags.flags.cf) := by
  have hpos := op.isSize.pos
  have hload := loadSource_eq op s.calculateDeferredFlags h hy
  have hxh := holds_of op.isSize x
  have hyh := holds_of op.isSize y
  generalize hcf : s.calculateDeferredFlags.flags.cf = cf
  have hvalue := add_computes op.isSize op.isSize (.inl rfl) (atLeast4_flag _ cf hpos) hyh.carries.low (loadFlag_low cf)
  have hplain := add_computes op.isSize op.isSize hvalue.isSize (atLeast4_max _ _ rfl (atLeast4_flag _ cf hpos))
    hxh.carries.low hvalue.low
  obtain ⟨result, hupdate, hresult⟩ := update_eq op s.calculateDeferredFlags hl hx
    (add ⟨op.size, y.setWidth 64⟩ (loadFlag cf)) (· + ·) (add · (add ⟨op.size, y.setWidth 64⟩ (loadFlag cf)))
    (add · (add ⟨op.size, y.setWidth 64⟩ (loadFlag cf))) (by rw [hvalue.low]; exact hplain)
  rw [or_self] at hresult
  subst hresult
  have hres := masked_holds op.isSize hplain
  rw [← BitVec.add_assoc] at hres
  apply Exists.intro
  apply And.intro
  · simp only [adcOp, hload, hcf, op.getDstSize_eq, bind_eq_bind, bind_some, hupdate]
    rfl
  · rw [hvalue.low, ← BitVec.add_assoc]
    unfold generateFlags_ADC
    rw [deferFlags_calculate, op.getSrcSize_eq, calculcateFlags_ADC_eq rfl hpos hxh hyh hres]
    rfl

theorem sbbOp_eq :
    ∃ s', sbbOp i is64BitMode op.toDecodedInst s = some s' ∧ s'.calculateDeferredFlags =
      written op s l (x - y - carry _ s.calculateDeferredFlags.flags.cf)
        (subFlags x y s.calculateDeferredFlags.flags.cf) := by
  have hpos := op.isSize.pos
  have hload := loadSource_eq op s.calculateDeferredFlags h hy
  have hxh := holds_of op.isSize x
  have hyh := holds_of op.isSize y
  generalize hcf : s.calculateDeferredFlags.flags.cf = cf
  have hvalue := add_computes op.isSize op.isSize (.inl rfl) (atLeast4_flag _ cf hpos) hyh.carries.low (loadFlag_low cf)
  have hplain := sub_computes op.isSize op.isSize hvalue.isSize (atLeast4_max _ _ rfl (atLeast4_flag _ cf hpos))
    hxh.carries.low hvalue.low
  obtain ⟨result, hupdate, hresult⟩ := update_eq op s.calculateDeferredFlags hl hx
    (add ⟨op.size, y.setWidth 64⟩ (loadFlag cf)) (· - ·) (sub · (add ⟨op.size, y.setWidth 64⟩ (loadFlag cf)))
    (sub · (add ⟨op.size, y.setWidth 64⟩ (loadFlag cf))) (by rw [hvalue.low]; exact hplain)
  rw [or_self] at hresult
  subst hresult
  have hres := masked_holds op.isSize hplain
  rw [sub_add_eq_sub_sub] at hres
  apply Exists.intro
  apply And.intro
  · simp only [sbbOp, hload, hcf, op.getDstSize_eq, bind_eq_bind, bind_some, hupdate]
    rfl
  · rw [hvalue.low, sub_add_eq_sub_sub]
    unfold generateFlags_SBB
    rw [deferFlags_calculate, op.getSrcSize_eq, calculcateFlags_SBB_eq rfl hpos hxh hyh hres]
    rfl

theorem aluBody_eq (alu : ALU) :
    ∃ s', aluBody is64BitMode op.toDecodedInst s alu i = some s' ∧ s'.calculateDeferredFlags =
      written op s l (alu.instruction.result x y s.calculateDeferredFlags.flags).1
        (alu.instruction.result x y s.calculateDeferredFlags.flags).2 := by
  have hpos := op.isSize.pos
  have hload := loadSource_eq op s h hy
  have hxh := holds_of op.isSize x
  have hyh := holds_of op.isSize y
  have hnode := @alu_computes op.size _ _ x y op.isSize hxh hyh rfl rfl alu
  obtain ⟨result, hupdate, hresult⟩ := update_eq op s hl hx ⟨op.size, y.setWidth 64⟩ alu.func
    (alu.node · ⟨op.size, y.setWidth 64⟩) (alu.overwritten · ⟨op.size, y.setWidth 64⟩)
    (by rw [hyh.carries.low]; exact (hnode (.inr rfl)).1)
  obtain ⟨hcomputes, hholds⟩ := hnode hresult
  apply Exists.intro
  apply And.intro
  · simp only [aluBody, hload, op.getDstSize_eq, bind_eq_bind, bind_some, hupdate]
    rfl
  · rw [hyh.carries.low]
    have hsrc := op.getSrcSize_eq
    cases alu with
    | ADD =>
      have hflags := calculcateFlags_ADD_eq rfl hpos hxh hyh (masked_holds op.isSize hcomputes) true
      simp only [ALU.generateFlags, generateFlags_ADD, if_true]
      rw [deferFlags_calculate, hsrc]
      exact congrArg (written op s l _) (hflags _)
    | SUB =>
      have hflags := calculcateFlags_SUB_eq rfl hpos hxh hyh (masked_holds op.isSize hcomputes).carries true
      simp only [ALU.generateFlags, generateFlags_SUB, if_true]
      rw [deferFlags_calculate, hsrc]
      exact congrArg (written op s l _) (hflags _)
    | AND | OR | XOR =>
      simp only [ALU.generateFlags, generateFlags_Logical]
      rw [deferFlags_calculate, hsrc]
      exact congrArg (written op s l _) (calculcateFlags_Logical_eq rfl hpos (hholds rfl))

theorem cmpOp_eq :
    ∃ s', cmpOp i is64BitMode op.toDecodedInst s = some s' ∧ s'.calculateDeferredFlags =
      { s.calculateDeferredFlags with flags := subFlags x y false } := by
  have hload := loadSource_eq op s h hy
  have hdest := loadDest_eq op s hl hx
  have hxh := holds_of op.isSize x
  have hyh := holds_of op.isSize y
  have hres := masked_holds op.isSize
    (sub_computes op.isSize op.isSize op.isSize (atLeast4_same rfl rfl) hxh.carries.low hyh.carries.low)
  have hflags := calculcateFlags_SUB_eq rfl op.isSize.pos hxh hyh hres.carries true
  apply Exists.intro
  apply And.intro
  · simp only [cmpOp, hload, hdest, op.getDstSize_eq, bind_eq_bind, bind_some, generateFlags_SUB, if_true,
      op.getSrcSize_eq]
    rfl
  · exact congrArg (fun flags => { s.calculateDeferredFlags with flags }) (hflags _)

theorem testOp_eq :
    ∃ s', testOp i is64BitMode op.toDecodedInst s = some s' ∧ s'.calculateDeferredFlags =
      { s.calculateDeferredFlags with flags := logicFlags (x &&& y) } := by
  have hload := loadSource_eq op s h hy
  have hdest := loadDest_eq op s hl hx
  have hres := (alu_computes op.isSize (holds_of op.isSize x) (holds_of op.isSize y) rfl rfl .AND (.inl rfl)).2 rfl
  have hflags := calculcateFlags_Logical_eq rfl op.isSize.pos hres
  apply Exists.intro
  apply And.intro
  · simp only [testOp, hload, hdest, bind_eq_bind, bind_some, generateFlags_Logical, op.getSrcSize_eq]
    rfl
  · exact congrArg (fun flags => { s.calculateDeferredFlags with flags }) hflags

omit h hy

theorem incOp_eq (hrep : hasRep op.toDecodedInst = false) :
    ∃ s', incOp is64BitMode op.toDecodedInst s = some s' ∧ s'.calculateDeferredFlags =
      written op s l (x + 1) { addFlags x 1 false with cf := s.calculateDeferredFlags.flags.cf } := by
  have hxh := holds_of op.isSize x
  have hone := one_holds op
  have hplain := add_computes op.isSize op.isSize hone.size (atLeast4_same rfl (constant_eq op.isSize.le 1 ▸ rfl))
    hxh.carries.low hone.carries.low
  obtain ⟨result, hupdate, hresult⟩ := update_eq op s hl hx (constant (op.size * 8) 1) (· + ·)
    (add · (constant (op.size * 8) 1)) (add · (constant (op.size * 8) 1)) (by rw [hone.carries.low]; exact hplain)
  rw [or_self] at hresult
  subst hresult
  have hflags := calculcateFlags_ADD_eq rfl op.isSize.pos hxh hone (cut_holds op.isSize hplain) false
  apply Exists.intro
  apply And.intro
  · simp only [incOp, hrep, Bool.false_eq_true, if_false, op.getSrcSize_eq, bind_eq_bind, bind_some, hupdate]
    rfl
  · rw [hone.carries.low]
    unfold generateFlags_ADD
    simp only [Bool.false_eq_true, if_false]
    rw [write_calculateDeferredFlags, deferFlags_calculate, op.getSrcSize_eq, hflags]
    cases l <;> rfl

theorem decOp_eq (hrep : hasRep op.toDecodedInst = false) :
    ∃ s', decOp is64BitMode op.toDecodedInst s = some s' ∧ s'.calculateDeferredFlags =
      written op s l (x - 1) { subFlags x 1 false with cf := s.calculateDeferredFlags.flags.cf } := by
  have hxh := holds_of op.isSize x
  have hone := one_holds op
  have hplain := sub_computes op.isSize op.isSize hone.size (atLeast4_same rfl (constant_eq op.isSize.le 1 ▸ rfl))
    hxh.carries.low hone.carries.low
  obtain ⟨result, hupdate, hresult⟩ := update_eq op s hl hx (constant (op.size * 8) 1) (· - ·)
    (sub · (constant (op.size * 8) 1)) (sub · (constant (op.size * 8) 1)) (by rw [hone.carries.low]; exact hplain)
  rw [or_self] at hresult
  subst hresult
  have hflags := calculcateFlags_SUB_eq rfl op.isSize.pos hxh hone (cut_holds op.isSize hplain).carries false
  apply Exists.intro
  apply And.intro
  · simp only [decOp, hrep, Bool.false_eq_true, if_false, op.getSrcSize_eq, bind_eq_bind, bind_some, hupdate]
    rfl
  · rw [hone.carries.low]
    unfold generateFlags_SUB
    simp only [Bool.false_eq_true, if_false]
    rw [write_calculateDeferredFlags, deferFlags_calculate, op.getSrcSize_eq, hflags]
    cases l <;> rfl

theorem negOp_eq (hhalf : isGPR op.dest = true → is64BitMode = true → op.size = 4 → (-x).msb = false) :
    ∃ s', negOp is64BitMode op.toDecodedInst s = some s' ∧ s'.calculateDeferredFlags =
      written op s l (-x) (subFlags 0 x false) := by
  have hzero : Holds (const 0) (0 : BitVec (8 * op.size)) := by
    refine ⟨isSize_eight, ?_, ?_⟩
    · have := op.isSize.le
      rw [const_size]
      omega
    · exact (BitVec.setWidth_zero _ _).symm
  have hres := negResult_carries op.isSize (x := x)
  have hflags := calculcateFlags_SUB_eq rfl op.isSize.pos hzero (holds_of op.isSize x) hres true
  subst hx
  obtain ⟨result, hupdate, hresult⟩ := updateDest_eq op.getSrcSize_eq op.getDstSize_eq op.isSize op.size_mode op.dest_rm hl
    (const 0) (fun x _ => -x) neg neg (neg_low op.isSize)
    fun hgpr hmode hsize _ => (neg_half hsize).2 (hhalf hgpr hmode hsize)
  rw [or_self] at hresult
  subst hresult
  apply Exists.intro
  apply And.intro
  · simp only [negOp, op.getSrcSize_eq, bind_eq_bind, bind_some, hupdate]
    rfl
  · simp only [generateFlags_SUB, if_true]
    rw [deferFlags_calculate, op.getSrcSize_eq]
    exact congrArg (written op s l _) (hflags _)

end

end

section
variable {is64BitMode : Bool} (op : DecodedALU is64BitMode) (s : State) {l l' : Location} {x y : BitVec (8 * op.size)}

theorem storeSource_eq (hrm : IsRM op.size (op.src 0)) (hl : location is64BitMode op.toDecodedInst s (op.src 0) = some l) :
    storeResultTo is64BitMode op.toDecodedInst s (op.src 0) ⟨op.size, x.setWidth 64⟩ = some (l.write is64BitMode s x) := by
  have hxh := holds_of op.isSize x
  unfold storeResultTo
  rw [op.getDstSize_eq, storeResult_rm op.isSize op.size_mode hrm hl _ ?_, hxh.carries.low]
  intro _ _ hsize _
  exact (setWidth_through x (by omega) (by decide)).symm

theorem xaddOp_eq (hl : location is64BitMode op.toDecodedInst s op.dest = some l) (hx : l.read s op.size = x)
    (hl' : location is64BitMode op.toDecodedInst s (op.src 0) = some l')
    (hy : operandValue is64BitMode op.toDecodedInst s op.size (op.src 0) = y) (hgpr : isGPR (op.src 0) = true)
    (h : IsSource op.size (op.src 0)) :
    ∃ s', xaddOp is64BitMode op.toDecodedInst s = some s' ∧ s'.calculateDeferredFlags =
      { l.write is64BitMode (l'.write is64BitMode s.calculateDeferredFlags x) (x + y) with
        flags := addFlags x y false } := by
  obtain ⟨high, gpr, hsrc⟩ : ∃ high gpr, op.src 0 = .gpr high gpr := by
    cases hsrc : op.src 0 with
    | gpr high gpr => exact ⟨high, gpr, rfl⟩
    | _ =>
      rw [hsrc] at hgpr
      cases hgpr
  have hrm : IsRM op.size (op.src 0) := by
    rw [hsrc] at h ⊢
    exact h
  obtain rfl : Location.reg high gpr = l' := by
    rw [hsrc] at hl'
    exact some_inj.1 hl'
  have hsrcAt : ∀ s', location is64BitMode op.toDecodedInst s' (op.src 0) = some (.reg high gpr) := by
    intro s'
    rw [hsrc]
    rfl
  have hload := loadSource_eq op s h hy
  have hxh := holds_of op.isSize x
  have hyh := holds_of op.isSize y
  have hsum := add_computes op.isSize op.isSize op.isSize (atLeast4_same rfl rfl) hxh.carries.low hyh.carries.low
  have hflags := calculcateFlags_ADD_eq rfl op.isSize.pos hxh hyh (cut_holds op.isSize hsum) true
  cases hdestGPR : isGPR op.dest with
  | true =>
    have hdest := loadDest_eq op s hl hx
    have hstoreSrc := storeSource_eq op s hrm hl' (x := x)
    have hl₂ : location is64BitMode op.toDecodedInst ((Location.reg high gpr).write is64BitMode s x) op.dest = some l := by
      rw [← hl]
      cases hop : op.dest with
      | gpr _ _ => rfl
      | _ =>
        rw [hop] at hdestGPR
        cases hdestGPR
    have hstore : storeResult is64BitMode op.toDecodedInst ((Location.reg high gpr).write is64BitMode s x)
        (add ⟨op.size, x.setWidth 64⟩ ⟨op.size, y.setWidth 64⟩) =
          some (l.write is64BitMode ((Location.reg high gpr).write is64BitMode s x) (x + y)) := by
      unfold storeResult storeResultTo
      rw [op.getDstSize_eq, storeResult_rm op.isSize op.size_mode op.dest_rm hl₂ _ fun _ _ hsize _ => hsum.half hsize,
        hsum.low]
    apply Exists.intro
    apply And.intro
    · simp only [xaddOp, hdestGPR, if_true, hload, hdest, bind_eq_bind, bind_some, op.getSrcSize_eq, hstoreSrc,
        hstore]
      rfl
    · simp only [generateFlags_ADD, if_true]
      rw [deferFlags_calculate, op.getSrcSize_eq, hflags]
      unfold written
      rfl
  | false =>
    obtain ⟨address, haddress, rfl⟩ := location_mem hdestGPR hl
    have hstoreSrc := storeSource_eq op
      ((Location.mem address.value.toNat).write is64BitMode s (x + y)) hrm (hsrcAt _) (x := x)
    have hatomic := @atomicFetch_eq is64BitMode s op.size (· + ·) op.isSize.le ⟨op.size, y.setWidth 64⟩ address
    rw [hx, hyh.carries.low] at hatomic
    apply Exists.intro
    apply And.intro
    · simp only [xaddOp, hdestGPR, Bool.false_eq_true, if_false, hload, haddress, bind_eq_bind, bind_some,
        op.getSrcSize_eq, hatomic, hstoreSrc]
      rfl
    · simp only [generateFlags_ADD, if_true]
      rw [deferFlags_calculate, op.getSrcSize_eq, hflags]
      rfl

end

/-! ## Instructions -/

section
variable {is64BitMode : Bool} (op : DecodedALU is64BitMode) (s : State)

theorem sameState_of_eq {expected s' : State} (h : s' = expected) : op.SameState expected s' := by
  subst h
  unfold DecodedALU.SameState
  rw [ite_self]

theorem exists_location : ∃ l, location is64BitMode op.toDecodedInst s op.dest = some l ∧
    l.read s op.size = op.x s := by
  obtain ⟨l, hl, -⟩ := @loadSource_rm is64BitMode op.toDecodedInst s op.size op.dest op.isSize.le op.dest_rm
  exact ⟨l, hl, (operandValue_rm op.dest_rm hl).symm⟩

section
variable {instruction : Instruction} (hinstruction : op.instruction = instruction)
include hinstruction

theorem src_eq (hsrc : instruction ≠ .inc ∧ instruction ≠ .dec ∧ instruction ≠ .neg) {srcIndex : Nat}
    (hindex : srcIndex = op.table.srcIndex) :
    IsSource op.size (op.src srcIndex) ∧ operandValue is64BitMode op.toDecodedInst s op.size (op.src srcIndex) = op.y s := by
  subst hindex hinstruction
  exact ⟨op.src_isSource hsrc.1 hsrc.2.1 hsrc.2.2, rfl⟩

theorem execute_written {l : Location} (hl : location is64BitMode op.toDecodedInst s op.dest = some l)
    (hxadd : instruction ≠ .xadd) (hwrites : instruction.writesDest = true) :
    op.execute s.calculateDeferredFlags =
      written op s l (instruction.result (op.x s) (op.y s) s.calculateDeferredFlags.flags).1
        (instruction.result (op.x s) (op.y s) s.calculateDeferredFlags.flags).2 := by
  subst hinstruction
  have hl' : location is64BitMode op.toDecodedInst s.calculateDeferredFlags op.dest = some l := hl
  unfold DecodedALU.execute written writeOperand
  dsimp only
  rw [if_neg hxadd, if_pos hwrites, hl']
  rfl

theorem execute_compared (hxadd : instruction ≠ .xadd) (hwrites : instruction.writesDest = false) :
    op.execute s.calculateDeferredFlags =
      { s.calculateDeferredFlags with
        flags := (instruction.result (op.x s) (op.y s) s.calculateDeferredFlags.flags).2 } := by
  subst hinstruction
  unfold DecodedALU.execute
  rw [if_neg hxadd, hwrites]
  rfl

end

theorem execute_xadd (hinstruction : op.instruction = .xadd) {l l' : Location}
    (hl : location is64BitMode op.toDecodedInst s op.dest = some l)
    (hl' : location is64BitMode op.toDecodedInst s (op.src op.table.srcIndex) = some l') :
    op.execute s.calculateDeferredFlags =
      { l.write is64BitMode (l'.write is64BitMode s.calculateDeferredFlags (op.x s)) (op.x s + op.y s) with
        flags := addFlags (op.x s) (op.y s) false } := by
  have hl₂ : location is64BitMode op.toDecodedInst s.calculateDeferredFlags op.dest = some l := hl
  have hl₂' : location is64BitMode op.toDecodedInst s.calculateDeferredFlags (op.src op.table.srcIndex) = some l' := hl'
  unfold DecodedALU.execute writeOperand
  dsimp only
  rw [if_pos hinstruction, if_pos (by rw [hinstruction]; rfl), hinstruction, hl₂, hl₂']
  rfl

theorem msb_neg_iff {size : Nat} (hsize : size = 4) (x : BitVec (8 * size)) :
    (-x).msb = true ↔ 0 < x.toNat ∧ x.toNat ≤ 2 ^ 31 := by
  subst hsize
  rw [BitVec.msb_eq_decide, decide_eq_true_eq, BitVec.toNat_neg]
  rcases Nat.eq_zero_or_pos x.toNat with h | h
  · simp [h]
  · omega

theorem alu_instruction (alu : ALU) :
    (alu.instruction ≠ .inc ∧ alu.instruction ≠ .dec ∧ alu.instruction ≠ .neg) ∧ alu.instruction ≠ .xadd ∧
      alu.instruction.writesDest = true := by
  cases alu <;> decide

theorem aluBody_execute {alu : ALU} (halu : op.instruction = alu.instruction) {srcIndex : Nat}
    (hindex : srcIndex = op.table.srcIndex) :
    ∃ s', aluBody is64BitMode op.toDecodedInst s alu srcIndex = some s' ∧
      s'.calculateDeferredFlags = op.execute s.calculateDeferredFlags := by
  obtain ⟨l, hl, hx⟩ := exists_location op s
  obtain ⟨hsrc, hxadd, hwrites⟩ := alu_instruction alu
  obtain ⟨hs, hy⟩ := src_eq op s halu hsrc hindex
  obtain ⟨s', hrun, hs'⟩ := aluBody_eq op s hl hx hs hy alu
  exact ⟨s', hrun, hs'.trans (execute_written op s halu hl hxadd hwrites).symm⟩

/-- Every handler leaves the state of the instruction that it is installed for. -/
theorem handler_execute (h : ¬ op.NegatesHalf s) (name : HandlerName) (hname : name.instruction op.op = some op.instruction)
    (hindex : ∀ srcIndex ∈ name.srcIndex, srcIndex = op.table.srcIndex) :
    ∃ s', name.handler is64BitMode op.toDecodedInst s = some s' ∧
      s'.calculateDeferredFlags = op.execute s.calculateDeferredFlags := by
  obtain ⟨l, hl, hx⟩ := exists_location op s
  cases name with
  | ALUOp =>
    obtain ⟨alu, halu, hinstruction⟩ := Option.map_eq_some_iff.1 hname
    obtain ⟨s', hrun, hs'⟩ := aluBody_execute op s hinstruction.symm (hindex 0 rfl)
    exact ⟨s', by simp only [HandlerName.handler, aluOp, halu, bind_eq_bind, bind_some, hrun], hs'⟩
  | SecondaryALUOp =>
    obtain ⟨alu, halu, hinstruction⟩ := Option.map_eq_some_iff.1 hname
    obtain ⟨s', hrun, hs'⟩ := aluBody_execute op s hinstruction.symm (hindex 1 rfl)
    exact ⟨s', by simp only [HandlerName.handler, secondaryALUOp, halu, bind_eq_bind, bind_some, hrun], hs'⟩
  | ADCOp srcIndex =>
    have hinstruction := (some_inj.1 hname).symm
    obtain ⟨hs, hy⟩ := src_eq op s hinstruction (by decide) (hindex srcIndex rfl)
    obtain ⟨s', hrun, hs'⟩ := adcOp_eq op s hl hx hs hy
    exact ⟨s', hrun, hs'.trans (execute_written op s hinstruction hl (by decide) rfl).symm⟩
  | SBBOp srcIndex =>
    have hinstruction := (some_inj.1 hname).symm
    obtain ⟨hs, hy⟩ := src_eq op s hinstruction (by decide) (hindex srcIndex rfl)
    obtain ⟨s', hrun, hs'⟩ := sbbOp_eq op s hl hx hs hy
    exact ⟨s', hrun, hs'.trans (execute_written op s hinstruction hl (by decide) rfl).symm⟩
  | CMPOp srcIndex =>
    have hinstruction := (some_inj.1 hname).symm
    obtain ⟨hs, hy⟩ := src_eq op s hinstruction (by decide) (hindex srcIndex rfl)
    obtain ⟨s', hrun, hs'⟩ := cmpOp_eq op s hl hx hs hy
    exact ⟨s', hrun, hs'.trans (execute_compared op s hinstruction (by decide) rfl).symm⟩
  | TESTOp srcIndex =>
    have hinstruction := (some_inj.1 hname).symm
    obtain ⟨hs, hy⟩ := src_eq op s hinstruction (by decide) (hindex srcIndex rfl)
    obtain ⟨s', hrun, hs'⟩ := testOp_eq op s hl hx hs hy
    exact ⟨s', hrun, hs'.trans (execute_compared op s hinstruction (by decide) rfl).symm⟩
  | NEGOp =>
    have hinstruction := (some_inj.1 hname).symm
    have hhalf : isGPR op.dest = true → is64BitMode = true → op.size = 4 → (-(op.x s)).msb = false := by
      intro hgpr hmode hsize
      rw [← Bool.not_eq_true, msb_neg_iff hsize]
      rintro ⟨hpos, hle⟩
      exact h ⟨hinstruction, hmode, hsize, hgpr, hpos, hle⟩
    obtain ⟨s', hrun, hs'⟩ := negOp_eq op s hl hx hhalf
    exact ⟨s', hrun, hs'.trans (execute_written op s hinstruction hl (by decide) rfl).symm⟩
  | INCOp =>
    have hinstruction := (some_inj.1 hname).symm
    obtain ⟨s', hrun, hs'⟩ := incOp_eq op s hl hx (op.noRep (.inl hinstruction))
    exact ⟨s', hrun, hs'.trans (execute_written op s hinstruction hl (by decide) rfl).symm⟩
  | DECOp =>
    have hinstruction := (some_inj.1 hname).symm
    obtain ⟨s', hrun, hs'⟩ := decOp_eq op s hl hx (op.noRep (.inr hinstruction))
    exact ⟨s', hrun, hs'.trans (execute_written op s hinstruction hl (by decide) rfl).symm⟩
  | XADDOp =>
    have hinstruction := (some_inj.1 hname).symm
    have hgpr := op.src_isGPR hinstruction
    have hsrc : 0 = op.table.srcIndex := hindex 0 rfl
    obtain ⟨hs, hy⟩ := src_eq op s hinstruction (by decide) hsrc
    obtain ⟨l', hl'⟩ : ∃ l', location is64BitMode op.toDecodedInst s (op.src op.table.srcIndex) = some l' := by
      cases hop : op.src op.table.srcIndex with
      | gpr _ _ => exact ⟨_, rfl⟩
      | _ =>
        rw [hop] at hgpr
        cases hgpr
    have hexecute := execute_xadd op s hinstruction hl hl'
    rw [← hsrc] at hgpr hl'
    obtain ⟨s', hrun, hs'⟩ := xaddOp_eq op s hl hx hl' hy hgpr hs
    exact ⟨s', hrun, hs'.trans hexecute.symm⟩

theorem handlerOf_eq : ∃ name, handlerOf is64BitMode op.table op.op = some name ∧
    name.instruction op.op = some op.instruction ∧ ∀ srcIndex ∈ name.srcIndex, srcIndex = op.table.srcIndex :=
  installed is64BitMode op.table op.op op.instruction op.ofOpcode_eq

theorem storeResult_half (op : DecodedInst) {high : Bool} {gpr : X86Reg} (hgeneral : isGeneral gpr = true) {src : Node}
    (hsrc : src.size ≠ 8) {size : Nat} (hsize : size = 4) :
    storeResultWithOpSize true op s (.gpr high gpr) src size = some (setGPR s gpr src.value) := by
  subst hsize
  simp only [storeResultWithOpSize, hgeneral, Bool.not_true, Bool.false_eq_true, if_false, hsrc]
  exact congrArg (fun value => some (setGPR s gpr value)) (storeContext_eight src _)

theorem negOp_half (hmode : is64BitMode = true) (hsize : op.size = 4) {high : Bool} {gpr : X86Reg}
    (hdest : op.dest = .gpr high gpr) {s' : State} (hrun : negOp is64BitMode op.toDecodedInst s = some s') :
    s'.cpu.gregs gpr = (neg ⟨op.size, (op.x s).setWidth 64⟩).value := by
  subst hmode
  obtain ⟨l, hl, hx⟩ := exists_location op s
  have hgeneral : isGeneral gpr = true := by
    have hrm := op.dest_rm
    rw [hdest] at hrm
    exact hrm.1
  have hlocked : destIsLockedMem op.toDecodedInst = false := by
    unfold destIsLockedMem
    rw [hdest]
    rfl
  have hload := loadDest_eq op s hl hx
  have hnode : (neg ⟨op.size, (op.x s).setWidth 64⟩).size ≠ 8 := by
    change max 4 op.size ≠ 8
    omega
  have hstore : storeResult true op.toDecodedInst s (neg ⟨op.size, (op.x s).setWidth 64⟩) =
      some (setGPR s gpr (neg ⟨op.size, (op.x s).setWidth 64⟩).value) := by
    unfold storeResult storeResultTo
    rw [op.getDstSize_eq, hdest]
    exact storeResult_half s op.toDecodedInst hgeneral hnode hsize
  simp only [negOp, updateDest, hlocked, Bool.false_eq_true, if_false, hload, hstore, bind_eq_bind,
    bind_some] at hrun
  obtain rfl := some_inj.1 hrun
  exact Function.update_self _ _ _

/-- The sign of the half is in the upper half of the register. -/
theorem negatesHalf_differs (h : op.NegatesHalf s) {s' : State} (hrun : negOp is64BitMode op.toDecodedInst s = some s') :
    ¬ op.SameState (op.execute s.calculateDeferredFlags) s'.calculateDeferredFlags := by
  obtain ⟨hinstruction, rfl, hsize, hgpr, hpos, hle⟩ := h
  obtain ⟨high, gpr, hdest⟩ : ∃ high gpr, op.dest = .gpr high gpr := by
    cases hop : op.dest with
    | gpr high gpr => exact ⟨high, gpr, rfl⟩
    | _ =>
      rw [hop] at hgpr
      cases hgpr
  have hhigh : high = false := by
    have hrm := op.dest_rm
    rw [hdest, hsize] at hrm
    cases high
    · rfl
    · cases hrm.2 rfl
  have hl : location true op.toDecodedInst s op.dest = some (.reg high gpr) := by
    rw [hdest]
    rfl
  intro hsame
  have hexecute := execute_written op s hinstruction hl (by decide) rfl
  have hgregs := congrArg (fun s : State => s.cpu.gregs gpr) (show s'.calculateDeferredFlags = _ from hsame)
  replace hgregs : s'.cpu.gregs gpr = (op.execute s.calculateDeferredFlags).cpu.gregs gpr := hgregs
  have hwritten : (op.execute s.calculateDeferredFlags).cpu.gregs gpr = (-(op.x s)).setWidth 64 := by
    rw [hexecute]
    refine (Function.update_self _ _ _).trans ?_
    unfold writeReg
    rw [hhigh, if_neg (by decide), if_pos ⟨rfl, by omega⟩]
    rfl
  rw [negOp_half op s rfl hsize hdest hrun, hwritten] at hgregs
  have hmsb := (neg_half hsize (x := op.x s)).1 ?_
  · rw [← Bool.not_eq_true, msb_neg_iff hsize] at hmsb
    exact hmsb ⟨hpos, hle⟩
  · rw [hgregs, setWidth_through _ (by omega) (by decide)]

theorem follows_of_not_negatesHalf (h : ¬ op.NegatesHalf s) : op.FollowsX86 s := by
  obtain ⟨name, hname, hinstruction, hindex⟩ := handlerOf_eq op
  obtain ⟨s', hrun, hs'⟩ := handler_execute op s h name hinstruction hindex
  exact ⟨name, s', hname, hrun, sameState_of_eq op hs'⟩

theorem not_follows_of_negatesHalf (h : op.NegatesHalf s) : ¬ op.FollowsX86 s := by
  obtain ⟨name, hname, hinstruction, hindex⟩ := handlerOf_eq op
  rintro ⟨name', s', hname', hrun, hsame⟩
  obtain rfl : name = name' := some_inj.1 (hname.symm.trans hname')
  obtain rfl : name = .NEGOp := by
    rw [h.1] at hinstruction
    cases name with
    | NEGOp => rfl
    | ALUOp | SecondaryALUOp =>
      obtain ⟨alu, -, halu⟩ := Option.map_eq_some_iff.1 hinstruction
      cases alu <;> cases halu
    | _ => cases hinstruction
  exact negatesHalf_differs op s h hrun hsame

/-- The emitted code leaves what the architecture leaves, unless half a register is negated to a negative number in 64-bit
mode. -/
theorem arithmetic_follows_iff : op.FollowsX86 s ↔ ¬ op.NegatesHalf s :=
  ⟨fun hfollows h => not_follows_of_negatesHalf op s h hfollows, follows_of_not_negatesHalf op s⟩

end

def negEAX : DecodedALU true where
  flags := 3#32 <<< 19 ||| 3#32 <<< 22
  pc := 0
  instSize := 2
  entry := 0
  op := ALU.opd 3 1 3
  dest := .gpr false .rax
  src := fun _ => .nothing
  table := .primaryGroup
  instruction := .neg
  size := 4
  ofOpcode_eq := by decide
  getSrcSize_eq := by decide
  getDstSize_eq := by decide
  isSize := isSize_four
  size_mode := mode_four
  dest_rm := eax_rm
  src_isSource := fun _ _ h => absurd rfl h
  src_isGPR := fun h => by cases h
  noRep := fun h => by rcases h with h | h <;> cases h

/-- One in every register. -/
def ones : State where
  cpu := ⟨fun _ => 1, fun _ => 0, fun _ => 0⟩
  flags := ⟨false, false, false, false, false, false⟩
  df := false
  deferred := none
  mem := fun _ => 0

theorem negEAX_differs : ¬ ∀ (is64BitMode : Bool) (op : DecodedALU is64BitMode) (s : State), op.FollowsX86 s := by
  intro h
  exact not_follows_of_negatesHalf negEAX ones ⟨rfl, rfl, rfl, rfl, by decide, by decide⟩ (h true negEAX ones)

end FexEmu.OpcodeDispatcher.Integer
