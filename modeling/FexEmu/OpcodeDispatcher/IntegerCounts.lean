import FexEmu.OpcodeDispatcher.IntegerResults
import FexEmu.OpcodeDispatcher.IntegerShiftsSpec
/-!
# Counts of shifts

What the nodes of counts hold, what is selected by them, and the destinations of shifts with the flags that are deferred.
-/
namespace FexEmu.OpcodeDispatcher.Integer

open Interpreter
open Address (Node constant)
open StringOps (State ALUFlags rflag loadFlag)
open BitVec (toNat_ofNat eq_of_toNat_eq toNat_setWidth_of_le toNat_setWidth)

section
variable {a b t f n m : Node} {c d : Nat}

/-- The condition of a select. -/
def compared (cond : CondClass) (a b : Node) : Bool :=
  if atLeast4 a b = 4 then isConditionTrue (a.value.setWidth 32) (b.value.setWidth 32) cond
  else isConditionTrue a.value b.value cond

theorem select_isSize {cond : CondClass} (ht : IsSize t.size) (hf : IsSize f.size) : IsSize (select cond a b t f).size :=
  .inr (.inr (atLeast4_eq ht hf))

theorem selected_bit (cond : CondClass) (ht : IsSize t.size) (hf : IsSize f.size) {i : Nat} (hi : i < 8 * atLeast4 t f) :
    (select cond a b t f).value.getLsbD i = if compared cond a b then t.value.getLsbD i else f.value.getLsbD i := by
  unfold select compared
  rcases atLeast4_eq ht hf with h | h <;> rw [h] at hi ⊢ <;>
    simp [emit, opSize, opSelect, zext]
  · rw [apply_ite (BitVec.getLsbD · i), @getLsbD_truncated t.value 4 i (by decide) hi,
      @getLsbD_truncated f.value 4 i (by decide) hi]
  · exact apply_ite (BitVec.getLsbD · i) _ _ _

theorem rflag_select (cond : CondClass) (ht : IsSize t.size) (hf : IsSize f.size) :
    rflag (select cond a b t f) = if compared cond a b then rflag t else rflag f := by
  have h := atLeast4_eq ht hf
  exact selected_bit cond ht hf (by omega)

/-! ## Counts -/

/-- A node that holds a small number. -/
structure Counts (n : Node) (c : Nat) : Prop where
  size : IsSize n.size
  value : n.value = BitVec.ofNat 64 c
  lt : c < 128

theorem Counts.toNat (h : Counts n c) : n.value.toNat = c := by
  have := h.lt
  rw [h.value, toNat_ofNat, Nat.mod_eq_of_lt (by omega)]

theorem counts_const (hc : c < 128) : Counts (const (BitVec.ofNat 64 c)) c := ⟨isSize_eight, rfl, hc⟩

theorem counts_constant {size : Nat} (hsize : IsSize size) (hc : c < 128) :
    Counts (constant (size * 8) (BitVec.ofNat 64 c)) c := by
  refine ⟨?_, ?_, hc⟩
  · rw [constant_eq hsize.le]
    exact hsize
  · have hlt : c < 2 ^ (8 * size) := by
      have := Nat.pow_le_pow_right (show 0 < 2 by decide) (show 7 ≤ 8 * size by have := hsize.pos; omega)
      omega
    rw [constant_eq hsize.le]
    apply eq_of_toNat_eq
    have := hsize.le
    rw [toNat_setWidth_of_le (by omega), toNat_setWidth, toNat_ofNat,
      Nat.mod_eq_of_lt (a := c) (by omega), Nat.mod_eq_of_lt hlt]

theorem counts_zero {size : Nat} (hsize : IsSize size) : Counts (constant (size * 8) 0) 0 :=
  counts_constant hsize (by decide)

theorem counts_one {size : Nat} (hsize : IsSize size) : Counts (constant (size * 8) 1) 1 :=
  counts_constant hsize (by decide)

theorem compared_counts (hn : Counts n c) (hm : Counts m d) (cond : CondClass) (p : Bool)
    (hcond : ∀ {w : Nat} (x y : BitVec w), x.toNat = c → y.toNat = d → isConditionTrue x y cond = p) :
    compared cond n m = p := by
  have hc := hn.lt
  have hd := hm.lt
  unfold compared
  split_ifs
  · apply hcond
    · rw [toNat_setWidth, hn.toNat, Nat.mod_eq_of_lt (by omega)]
    · rw [toNat_setWidth, hm.toNat, Nat.mod_eq_of_lt (by omega)]
  · exact hcond _ _ hn.toNat hm.toNat

theorem compared_eq (hn : Counts n c) (hm : Counts m d) : compared .EQ n m = decide (c = d) :=
  compared_counts hn hm _ _ fun x y hx hy => by
    rw [← hx, ← hy]
    exact decide_eq_decide.2 BitVec.toNat_inj.symm

theorem compared_uge (hn : Counts n c) (hm : Counts m d) : compared .UGE n m = decide (d ≤ c) :=
  compared_counts hn hm _ _ fun x y hx hy => by
    rw [← hx, ← hy]
    rfl

theorem compared_ugt (hn : Counts n c) (hm : Counts m d) : compared .UGT n m = decide (d < c) :=
  compared_counts hn hm _ _ fun x y hx hy => by
    rw [← hx, ← hy]
    rfl

theorem isSize_loadFlag (c : Bool) : IsSize (loadFlag c).size := .inl rfl

theorem rflag_loadFlag (c : Bool) : rflag (loadFlag c) = c := by
  cases c <;> rfl

theorem condFlagSet_eq (hn : Counts n c) (hf : IsSize f.size) (old : Bool) :
    condFlagSet n old f = if c = 0 then old else rflag f := by
  unfold condFlagSet
  have hzero : compared .EQ n (const 0) = decide (c = 0) := compared_eq hn (counts_const (by decide))
  rw [rflag_select _ (isSize_loadFlag old) hf, hzero, rflag_loadFlag]
  simp

theorem and_counts {w p : Nat} {x : BitVec w} (hx : Holds n x) (hp : p < 7) (hm : Counts m (2 ^ p - 1)) :
    Counts (and n m) (x.toNat % 2 ^ p) := by
  have hle := hx.le_64
  have hpow : 2 ^ p ≤ 2 ^ 6 := Nat.pow_le_pow_right (by decide) (by omega)
  refine ⟨hx.size.max hm.size, ?_, by omega⟩
  have hvalue : n.value &&& m.value = BitVec.ofNat 64 (x.toNat % 2 ^ p) := by
    apply eq_of_toNat_eq
    rw [BitVec.toNat_and, hm.toNat, hx.value, toNat_setWidth_of_le hle, Nat.and_two_pow_sub_one_eq_mod,
      toNat_ofNat, Nat.mod_eq_of_lt (a := x.toNat % 2 ^ p) (by omega)]
  rw [and_value hx.size hm.size, hvalue]
  apply eq_of_toNat_eq
  have hwidth := (hx.size.max hm.size).pos
  have hwidth' := (hx.size.max hm.size).le
  have hbyte := Nat.pow_le_pow_right (show 0 < 2 by decide) (show 8 ≤ 8 * max n.size m.size by omega)
  rw [toNat_setWidth_of_le (by omega), toNat_setWidth, toNat_ofNat,
    Nat.mod_eq_of_lt (a := x.toNat % 2 ^ p) (by omega), Nat.mod_eq_of_lt (by omega)]

theorem maskCount_counts {size w : Nat} {x : BitVec w} (hx : Holds n x) {k : BitVec 64 → Node}
    (hk : ∀ c < 128, Counts (k (BitVec.ofNat 64 c)) c) :
    Counts (maskCount k (size * 8) n) (x.toNat % if size = 8 then 64 else 32) := by
  unfold maskCount
  by_cases h : size = 8
  · rw [if_pos (by omega), if_pos h]
    exact and_counts hx (show 6 < 7 by decide) (hk 63 (by decide))
  · rw [if_neg (by omega), if_neg h]
    exact and_counts hx (show 5 < 7 by decide) (hk 31 (by decide))

theorem Counts.holds (h : Counts n c) : Holds n (BitVec.ofNat 8 c) := by
  have hpos := h.size.pos
  have hlt := h.lt
  refine ⟨h.size, by omega, ?_⟩
  rw [h.value]
  apply eq_of_toNat_eq
  rw [toNat_setWidth_of_le (by decide), toNat_ofNat, toNat_ofNat, Nat.mod_eq_of_lt (by omega),
    Nat.mod_eq_of_lt (by omega)]

theorem maskCount_one {size : Nat} (h : Counts n 1) {k : BitVec 64 → Node}
    (hk : ∀ c < 128, Counts (k (BitVec.ofNat 64 c)) c) : Counts (maskCount k (size * 8) n) 1 := by
  have hmasked := @maskCount_counts _ size _ _ h.holds _ hk
  have hone : (BitVec.ofNat 8 1).toNat % (if size = 8 then 64 else 32) = 1 := by
    split_ifs <;> rfl
  rwa [hone] at hmasked

theorem sub_counts (hn : Counts n c) (hm : Counts m d) (h : d ≤ c) : Counts (sub n m) (c - d) := by
  have hc := hn.lt
  have hsize := atLeast4_eq hn.size hm.size
  refine ⟨.inr (.inr hsize), ?_, by omega⟩
  rw [sub_value hn.size hm.size]
  apply eq_of_toNat_eq
  have hsub : (n.value - m.value).toNat = c - d := by
    rw [BitVec.toNat_sub_of_le (by rw [BitVec.le_def, hn.toNat, hm.toNat]; exact h), hn.toNat, hm.toNat]
  rcases hsize with h' | h' <;> rw [h', toNat_setWidth, toNat_setWidth, hsub, toNat_ofNat] <;>
    simp only [Nat.reduceMul] <;> omega

variable {k : Nat} (ha : max 4 a.size = k) (hk : k = 4 ∨ k = 8) (hn : Counts n c)
include ha hk hn

theorem lshl_counts (hc : c < 8 * k) (i : Nat) :
    (lshl a n).value.getLsbD i = (decide (i < 8 * k) && (decide (c ≤ i) && a.value.getLsbD (i - c))) := by
  unfold lshl
  rw [ha, opLshl_bit _ _ hk, hn.toNat, Nat.mod_eq_of_lt hc]

theorem lshr_counts (hc : c < 8 * k) (i : Nat) :
    (lshr a n).value.getLsbD i = (decide (c + i < 8 * k) && a.value.getLsbD (c + i)) := by
  unfold lshr
  rw [ha, opLshr_bit _ _ hk, hn.toNat, Nat.mod_eq_of_lt hc]

theorem ror_counts (i : Nat) :
    (ror a n).value.getLsbD i = (decide (i < 8 * k) && a.value.getLsbD ((c + i) % (8 * k))) := by
  unfold ror
  rw [ha, opRor_bit _ _ hk, hn.toNat]

end

/-! ## Operands -/

theorem setWidth_mod {w m : Nat} (v : BitVec 64) (hw : 8 ≤ w) (hm : m = 32 ∨ m = 64) :
    (v.setWidth w).toNat % m = v.toNat % m := by
  have hdvd : 2 ^ 8 ∣ 2 ^ w := Nat.pow_dvd_pow 2 hw
  rw [toNat_setWidth]
  rcases hm with rfl | rfl
  · exact Nat.mod_mod_of_dvd _ (Nat.dvd_trans (by decide) hdvd)
  · exact Nat.mod_mod_of_dvd _ (Nat.dvd_trans (by decide) hdvd)

namespace DecodedShift

section
variable {is64BitMode : Bool} (op : DecodedShift is64BitMode) (s : State)

theorem bitSize : getSrcBitSize op.toDecodedInst = op.size * 8 := by
  rw [getSrcBitSize, op.getSrcSize_eq]

theorem exists_location : ∃ l, location is64BitMode op.toDecodedInst s op.dest = some l ∧ l.read s op.size = op.x s := by
  obtain ⟨l, hl, -⟩ := @loadSource_rm is64BitMode op.toDecodedInst s op.size op.dest op.isSize.le op.dest_rm
  exact ⟨l, hl, (operandValue_rm op.dest_rm hl).symm⟩

theorem loadDest : loadSource is64BitMode op.toDecodedInst s op.dest = some ⟨op.size, (op.x s).setWidth 64⟩ := by
  obtain ⟨l, hl, hx⟩ := op.exists_location s
  obtain ⟨l', hl', hload⟩ := @loadSource_rm is64BitMode op.toDecodedInst s op.size op.dest op.isSize.le op.dest_rm
  obtain rfl : l = l' := Option.some_inj.1 (hl.symm.trans hl')
  unfold loadSource
  rw [op.getSrcSize_eq, hload, hx]

theorem storeDest (src : Node) (hhalf : op.size = 4 → src.size ≠ 8 → src.value = (src.value.setWidth 32).setWidth 64) :
    storeResult is64BitMode op.toDecodedInst s src =
      some (writeOperand is64BitMode op.toDecodedInst op.dest s s (src.value.setWidth (8 * op.size))) := by
  obtain ⟨l, hl, -⟩ := op.exists_location s
  have hstore := @storeResult_rm is64BitMode op.toDecodedInst s op.size op.dest op.isSize op.size_mode op.dest_rm l hl src
    fun _ _ => hhalf
  unfold storeResult storeResultTo writeOperand
  rw [op.getDstSize_eq, hstore, hl]
  rfl

theorem count_eq : op.count s = (if op.countForm = .one then 1 else
    (operandValue is64BitMode op.toDecodedInst s 1 (op.src 1)).toNat) % if op.size = 8 then 64 else 32 := by
  unfold count
  cases op.countForm <;> rfl

theorem count_lt : op.count s < if op.size = 8 then 64 else 32 := by
  rw [count_eq]
  split_ifs <;> exact Nat.mod_lt _ (by decide)

theorem count_one (h : op.countForm = .one) : op.count s = 1 := by
  rw [count_eq, if_pos h]
  split_ifs <;> rfl

theorem mask_or : (if op.size = 8 then 64 else 32) = 32 ∨ (if op.size = 8 then 64 else 32) = 64 := by
  split_ifs
  · right
    rfl
  · left
    rfl

theorem loadCount (h : op.countForm ≠ .one) {k : BitVec 64 → Node} (hk : ∀ c < 128, Counts (k (BitVec.ofNat 64 c)) c) :
    ∃ n, loadSource is64BitMode op.toDecodedInst s (op.src 1) = some n ∧
      Counts (maskCount k (op.size * 8) n) (op.count s) := by
  have hcount := op.count_isIn
  have hpos := op.isSize.pos
  rw [count_eq, if_neg h]
  cases hform : op.countForm with
  | one => exact absurd hform h
  | immediate =>
    rw [hform] at hcount
    obtain ⟨size, value, hsize, hsrc⟩ := hcount
    have hheld := holds_of hsize (value.setWidth (8 * size))
    refine ⟨_, by rw [hsrc]; exact congrArg some (constant_eq hsize.le value), ?_⟩
    have hmasked := @maskCount_counts _ op.size _ _ hheld _ hk
    rw [setWidth_mod _ (by have := hsize.pos; omega) op.mask_or] at hmasked
    rw [hsrc]
    change Counts _ ((value.setWidth 8).toNat % _)
    rwa [setWidth_mod _ (by decide) op.mask_or]
  | cl =>
    rw [hform] at hcount
    have hheld := holds_of op.isSize ((s.cpu.gregs .rcx).setWidth (8 * op.size))
    refine ⟨⟨op.size, ((s.cpu.gregs .rcx).setWidth (8 * op.size)).setWidth 64⟩, ?_, ?_⟩
    · rw [loadSource, op.getSrcSize_eq, hcount]
      rfl
    have hmasked := @maskCount_counts _ op.size _ _ hheld _ hk
    rw [setWidth_mod _ (by omega) op.mask_or] at hmasked
    rw [hcount]
    change Counts _ (((s.cpu.gregs .rcx).setWidth 8).toNat % _)
    rwa [setWidth_mod _ (by decide) op.mask_or]

theorem literalShift_eq (h : op.countForm = .immediate) : literalShift op.toDecodedInst = some (op.count s) := by
  have hcount := op.count_isIn
  have hsize : (if getSrcBitSize op.toDecodedInst = 64 then (0x3F : BitVec 64) else 0x1F) =
      BitVec.ofNat 64 ((if op.size = 8 then 64 else 32) - 1) := by
    rw [bitSize]
    by_cases h8 : op.size = 8
    · rw [if_pos (by omega), if_pos h8]
      rfl
    · rw [if_neg (by omega), if_neg h8]
      rfl
  rw [h] at hcount
  obtain ⟨size, value, -, hsrc⟩ := hcount
  rw [count_eq, if_neg (by rw [h]; decide), literalShift, hsrc, hsize]
  refine congrArg some ?_
  change _ = (value.setWidth 8).toNat % _
  rw [setWidth_mod _ (by decide) op.mask_or]
  split_ifs
  · exact toNat_and_63 value
  · exact toNat_and_31 value

/-! ## Deferred flags -/

variable {op s} {res : BitVec (8 * op.size)}

theorem writeOperand_calculate :
    (writeOperand is64BitMode op.toDecodedInst op.dest s s res).calculateDeferredFlags =
      op.executed s.calculateDeferredFlags res s.calculateDeferredFlags.flags := by
  obtain ⟨l, hl, -⟩ := op.exists_location s
  have hl' : location is64BitMode op.toDecodedInst s.calculateDeferredFlags op.dest = some l := hl
  unfold executed writeOperand
  rw [hl, hl']
  change (l.write is64BitMode s res).calculateDeferredFlags = _
  cases l <;> rfl

theorem deferFlags_writeOperand (calculate : ALUFlags → ALUFlags) :
    (deferFlags (writeOperand is64BitMode op.toDecodedInst op.dest s s res) calculate).calculateDeferredFlags =
      op.executed s.calculateDeferredFlags res (calculate s.flags) := by
  obtain ⟨l, hl, -⟩ := op.exists_location s
  have hl' : location is64BitMode op.toDecodedInst s.calculateDeferredFlags op.dest = some l := hl
  unfold executed writeOperand
  rw [hl, hl']
  cases l <;> rfl

theorem generateFlags_variable_eq (calculate : Nat → ALUFlags → ALUFlags) :
    (generateFlags_variable op.toDecodedInst (writeOperand is64BitMode op.toDecodedInst op.dest s s res)
        calculate).calculateDeferredFlags =
      op.executed s.calculateDeferredFlags res (calculate op.size s.calculateDeferredFlags.flags) := by
  obtain ⟨l, hl, -⟩ := op.exists_location s
  have hl' : location is64BitMode op.toDecodedInst s.calculateDeferredFlags op.dest = some l := hl
  unfold generateFlags_variable
  rw [writeOperand_calculate, op.getSrcSize_eq]
  unfold executed writeOperand
  rw [hl']
  cases l <;> rfl

theorem generateFlags_rotateImmediate_eq (shift : Nat) (calculate : Nat → ALUFlags → ALUFlags) :
    (generateFlags_rotateImmediate op.toDecodedInst (writeOperand is64BitMode op.toDecodedInst op.dest s s res) shift
        calculate).calculateDeferredFlags =
      op.executed s.calculateDeferredFlags res
        (if shift = 0 then s.calculateDeferredFlags.flags else calculate op.size s.calculateDeferredFlags.flags) := by
  unfold generateFlags_rotateImmediate
  split_ifs
  · exact writeOperand_calculate
  · exact generateFlags_variable_eq calculate

/-- Other flags than those that are calculated stay as they were stored. -/
theorem generateFlags_shiftImmediate_eq (shift : Nat) (calculate : Nat → ALUFlags → ALUFlags) :
    (generateFlags_shiftImmediate op.toDecodedInst (writeOperand is64BitMode op.toDecodedInst op.dest s s res) shift
        calculate).calculateDeferredFlags =
      op.executed s.calculateDeferredFlags res
        (if shift = 0 then s.calculateDeferredFlags.flags else calculate op.size s.flags) := by
  unfold generateFlags_shiftImmediate
  rw [op.getSrcSize_eq]
  split_ifs
  · exact writeOperand_calculate
  · exact deferFlags_writeOperand _

end

end DecodedShift

/-! ## Handlers -/

/-- The handler that an instruction has. Bytes have their own for rotates through the carry. -/
def Shift.handler (byte : Bool) : Shift → CountForm → ShiftHandler
  | rol, .immediate => .ROLImmediateOp
  | rol, form => .ROLOp (form = .one)
  | ror, .immediate => .RORImmediateOp
  | ror, form => .ROROp (form = .one)
  | rcl, .immediate => .RCLOp
  | rcl, .one => .RCLOp1Bit
  | rcl, .cl => if byte then .RCLSmallerOp else .RCLOp
  | rcr, .immediate => .RCROp
  | rcr, .one => if byte then .RCROp8x1Bit else .RCROp1Bit
  | rcr, .cl => if byte then .RCRSmallerOp else .RCROp
  | shl, .immediate => .SHLImmediateOp
  | shl, form => .SHLOp (form = .one)
  | shr, .immediate => .SHRImmediateOp
  | shr, form => .SHROp (form = .one)
  | sar, .immediate => .ASHRImmediateOp
  | sar, form => .ASHROp (form = .one)
  | shld, .immediate => .SHLDImmediateOp
  | shld, _ => .SHLDOp
  | shrd, .immediate => .SHRDImmediateOp
  | shrd, _ => .SHRDOp

theorem ofOp_group : ∀ op < 48, ∀ p ∈ Shift.ofOpcode .primaryGroup (128 + op),
    ShiftHandler.ofOp .primaryGroup (128 + op) = some (p.1.handler ((128 + op) / 8 % 2 = 0) p.2) := by
  decide

theorem ofOp_eq {table : OpcodeTable} {op : Nat} {shift : Shift} {form : CountForm}
    (h : Shift.ofOpcode table op = some (shift, form)) :
    ShiftHandler.ofOp table op = some (shift.handler (op / 8 % 2 = 0) form) := by
  cases table with
  | base => cases h
  | secondBase =>
    unfold Shift.ofOpcode at h
    split at h
    case h_6 =>
      cases h
    all_goals first
      | cases h
        rfl
      | contradiction
  | primaryGroup =>
    have hop : 128 ≤ op ∧ op < 176 := by
      unfold Shift.ofOpcode at h
      dsimp only at h
      split_ifs at h <;> omega
    have hgroup := ofOp_group (op - 128) (by omega)
    rw [Nat.add_sub_cancel' hop.1] at hgroup
    exact hgroup _ h

namespace DecodedShift

variable {is64BitMode : Bool} (op : DecodedShift is64BitMode) (s : State)

theorem ofOp_size (h : op.table = .primaryGroup) :
    ShiftHandler.ofOp op.table op.op = some (op.shift.handler (op.size = 1) op.countForm) := by
  have hbyte := op.byte_iff
  rw [ofOp_eq op.ofOpcode_eq]
  simp only [h, true_and] at hbyte
  simp [hbyte]

/-- What a handler leaves tells whether it follows the architecture. -/
theorem follows_iff {name : ShiftHandler} {s' : State} {res : BitVec (8 * op.size)} {flags : ALUFlags}
    (hname : ShiftHandler.ofOp op.table op.op = some name) (hrun : name.handler is64BitMode op.toDecodedInst s = some s')
    (hs' : s'.calculateDeferredFlags = op.executed s.calculateDeferredFlags res flags)
    (hres : op.shift.definesResult (8 * op.size) (op.count s) = true →
      res = (op.shift.result (op.x s) (op.y s) s.calculateDeferredFlags.flags.cf (op.count s)).1) :
    op.FollowsX86 s ↔ op.shift.FlagsMatch (8 * op.size) (op.count s)
      (op.shift.flags (op.x s) (op.y s) (op.count s) s.calculateDeferredFlags.flags) flags := by
  have hflags : s'.calculateDeferredFlags.flags = flags := by
    rw [hs']
    rfl
  constructor
  · rintro ⟨name', t, hname', hrun', res', -, -, hmatch⟩
    obtain rfl : name = name' := Option.some_inj.1 (hname.symm.trans hname')
    obtain rfl : s' = t := Option.some_inj.1 (hrun.symm.trans hrun')
    rwa [hflags] at hmatch
  · intro hmatch
    refine ⟨name, s', hname, hrun, res, ?_, hres, ?_⟩
    · rw [hflags, hs']
    · rwa [hflags]

end DecodedShift

end FexEmu.OpcodeDispatcher.Integer
