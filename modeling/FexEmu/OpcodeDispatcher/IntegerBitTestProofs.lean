import FexEmu.OpcodeDispatcher.IntegerBitTest
import FexEmu.OpcodeDispatcher.IntegerBMIProofs
/-!
# Bit strings follow the architecture

A bit of a register is always the right one. The address of a byte is that of the architecture unless a sum wraps around.
-/
namespace FexEmu.OpcodeDispatcher.Integer

open Interpreter
open Address (Node constant gprSize)
open StringOps (State rflag)
open Frontend.ModRM (DecodedOperand)
open BitVec (eq_of_getLsbD_eq setWidth_eq setWidth_setWidth_of_le toNat_ofNat twoPow)

/-! ## Distances -/

theorem opSbfe_byte {size : Nat} (hpos : 0 < size) (hle : size ≤ 8) (y : BitVec (8 * size)) :
    (opSbfe (size * 8 - 3) 3 (y.setWidth 64)).toInt = y.toInt / 8 := by
  have hshift : opSbfe (size * 8 - 3) 3 (y.setWidth 64) = (opSbfe (size * 8) 0 (y.setWidth 64)).sshiftRight 3 := by
    unfold opSbfe
    rw [show 64 - (size * 8 - 3 + 3) = 64 - (size * 8 + 0) by omega, ← BitVec.sshiftRight_add]
  rw [hshift, opSbfe_zero (by omega) (by omega), BitVec.toInt_sshiftRight,
    setWidth_setWidth_of_le _ (by omega), Nat.mul_comm size 8, setWidth_eq,
    BitVec.toInt_signExtend_of_le (by omega), Int.shiftRight_eq_div_pow]
  rfl

theorem masked_literal {size : Nat} (hsize : size = 2 ∨ size = 4 ∨ size = 8) (value : BitVec 64) :
    constant (size * 8) (value &&& BitVec.ofNat 64 (size * 8 - 1)) =
      ⟨size, (BitVec.ofNat (8 * size) ((value.setWidth (8 * size)).toNat % (8 * size))).setWidth 64⟩ := by
  rw [constant_eq (by omega)]
  congr 2
  apply BitVec.eq_of_toNat_eq
  rw [BitVec.toNat_setWidth, BitVec.toNat_and, toNat_ofNat, toNat_ofNat, BitVec.toNat_setWidth]
  rcases hsize with rfl | rfl | rfl
  · rw [show 2 * 8 - 1 = 2 ^ 4 - 1 by decide, Nat.mod_eq_of_lt (a := 2 ^ 4 - 1) (by decide),
      Nat.and_two_pow_sub_one_eq_mod]
    omega
  · rw [show 4 * 8 - 1 = 2 ^ 5 - 1 by decide, Nat.mod_eq_of_lt (a := 2 ^ 5 - 1) (by decide),
      Nat.and_two_pow_sub_one_eq_mod]
    omega
  · rw [show 8 * 8 - 1 = 2 ^ 6 - 1 by decide, Nat.mod_eq_of_lt (a := 2 ^ 6 - 1) (by decide),
      Nat.and_two_pow_sub_one_eq_mod]
    omega

/-! ## Changes -/

section
variable {n : Node} {k : Nat}

theorem bitMask_eq (hk : Counts n k) (hlt : k < 64) : lshl (const 1) n = ⟨8, twoPow 64 k⟩ := by
  have hvalue : (lshl (const 1) n).value = twoPow 64 k := by
    apply eq_of_getLsbD_eq
    intro i hi
    rw [lshl_counts (k := 8) rfl (.inr rfl) hk (by omega), BitVec.getLsbD_twoPow, const_value,
      show (1 : BitVec 64) = 1#64 from rfl, BitVec.getLsbD_one]
    by_cases h : i = k
    · simp [h, hlt]
    · by_cases hle : k ≤ i
      · simp [show ¬ i - k = 0 by omega, show ¬ k = i by omega]
      · simp [hle, show ¬ k = i by omega]
  rw [← hvalue]
  rfl

theorem setWidth_twoPow {w : Nat} (hw : w ≤ 64) (k : Nat) : (twoPow 64 k).setWidth w = twoPow w k := by
  apply eq_of_getLsbD_eq
  intro i hi
  by_cases h : k = i
  · simp [h, hi, show i < 64 by omega]
  · simp [h]

theorem rflag_lshr {size : Nat} (hsize : IsSize size) (x : BitVec (8 * size)) (hk : Counts n k) (hlt : k < 8 * size) :
    rflag (lshr ⟨size, x.setWidth 64⟩ n) = x.getLsbD k := by
  have hcases : max 4 size = 4 ∨ max 4 size = 8 := by
    rcases hsize with rfl | rfl | rfl | rfl <;> decide
  unfold rflag
  rw [lshr_counts rfl hcases hk (by dsimp only; omega)]
  dsimp only
  rw [BitVec.getLsbD_setWidth, Nat.add_zero, decide_eq_true (by omega), decide_eq_true (by omega)]
  simp

end

/-- A handler changes bits as an instruction does. -/
structure Implements (change : BitChange) (i : BitTest) : Prop where
  plain : ∀ {size : Nat} (x : BitVec (8 * size)) (k : Nat), IsSize size →
    (change.plain ⟨size, x.setWidth 64⟩ ⟨8, twoPow 64 k⟩).value.setWidth (8 * size) = i.change x k
  half : ∀ {size : Nat} (x : BitVec (8 * size)) (k : Nat), size = 4 →
    (change.plain ⟨size, x.setWidth 64⟩ ⟨8, twoPow 64 k⟩).size ≠ 8 →
      (change.plain ⟨size, x.setWidth 64⟩ ⟨8, twoPow 64 k⟩).value =
        ((change.plain ⟨size, x.setWidth 64⟩ ⟨8, twoPow 64 k⟩).value.setWidth 32).setWidth 64
  fetch : ∀ (x : BitVec (8 * 1)) (k : Nat),
    change.fetch x ((change.lockedMask ⟨8, twoPow 64 k⟩).value.setWidth (8 * 1)) = i.change x k

section
variable {size : Nat} (x : BitVec (8 * size)) (k : Nat) (hsize : IsSize size)
include hsize

theorem max_eight : max size 8 = 8 := Nat.max_eq_right hsize.le

theorem implements_andn :
    (andn ⟨size, x.setWidth 64⟩ ⟨8, twoPow 64 k⟩).value.setWidth (8 * size) =
      x &&& ~~~twoPow (8 * size) k := by
  have hle := hsize.le
  have hmax : 8 * size ≤ 8 * max 4 size := by omega
  rw [andn_value hsize]
  rw [setWidth_setWidth_of_le _ (by omega), setWidth_setWidth_of_le _ hmax, BitVec.setWidth_and,
    low_self hsize x, ← setWidth_twoPow (by omega)]
  congr 1
  apply eq_of_getLsbD_eq
  intro i hi
  simp [hi, show i < 64 by omega]

theorem implements_or :
    (or ⟨size, x.setWidth 64⟩ ⟨8, twoPow 64 k⟩).value.setWidth (8 * size) = x ||| twoPow (8 * size) k := by
  have hle := hsize.le
  rw [or_value hsize isSize_eight]
  rw [max_eight hsize, setWidth_eq, setWidth_eq, BitVec.setWidth_or, low_self hsize x,
    setWidth_twoPow (by omega)]

theorem implements_xor :
    (xor ⟨size, x.setWidth 64⟩ ⟨8, twoPow 64 k⟩).value.setWidth (8 * size) = x ^^^ twoPow (8 * size) k := by
  have hle := hsize.le
  rw [xor_value hsize isSize_eight]
  rw [max_eight hsize, setWidth_eq, setWidth_eq, BitVec.setWidth_xor, low_self hsize x,
    setWidth_twoPow (by omega)]

end

theorem implements_btr : Implements ⟨andn, not, fun x y => x &&& y⟩ .btr where
  plain := fun x k hsize => implements_andn x k hsize
  half := fun x k hsize _ => by
    subst hsize
    rw [andn_value isSize_four]
    change ((x.setWidth 64 &&& ~~~twoPow 64 k).setWidth 32).setWidth 64 =
      ((((x.setWidth 64 &&& ~~~twoPow 64 k).setWidth 32).setWidth 64).setWidth 32).setWidth 64
    rw [setWidth_setWidth_of_le _ (show 32 ≤ 64 by decide), setWidth_eq]
  fetch := fun x k => by
    have hnot : (not ⟨8, twoPow 64 k⟩).value = ~~~twoPow 64 k := by
      simp [not, emit, opSize, opNot, zext]
    rw [hnot, BitTest.change, ← setWidth_twoPow (by decide)]
    apply eq_of_getLsbD_eq
    intro i hi
    simp [hi, show i < 64 by omega]

theorem implements_bts : Implements ⟨or, id, fun x y => x ||| y⟩ .bts where
  plain := fun x k hsize => implements_or x k hsize
  half := fun x k hsize h => by
    subst hsize
    exact (h rfl).elim
  fetch := fun x k => by
    change x ||| (twoPow 64 k).setWidth (8 * 1) = _
    rw [setWidth_twoPow (by decide)]
    rfl

theorem implements_btc : Implements ⟨xor, id, fun x y => x ^^^ y⟩ .btc where
  plain := fun x k hsize => implements_xor x k hsize
  half := fun x k hsize h => by
    subst hsize
    exact (h rfl).elim
  fetch := fun x k => by
    change x ^^^ (twoPow 64 k).setWidth (8 * 1) = _
    rw [setWidth_twoPow (by decide)]
    rfl

/-! ## Addresses -/

section
open Address
variable {is64BitMode : Bool} {value : Node}

theorem append_ok (state : CPUState) (flags : BitVec 32) (hok : value.Ok (gprSize is64BitMode)) :
    (appendSegmentOffset is64BitMode state value flags 0 false).Ok (gprSize is64BitMode) := by
  cases is64BitMode with
  | true =>
    have hbase (segment : Segment) : (Address.add value (loadContext 8 (state.segments segment))).Ok (gprSize true) :=
      arithmetic_ok _ (by decide) hok (loadContext_ok _ (.inr (.inr rfl)) le_rfl)
    unfold appendSegmentOffset
    rw [if_pos rfl]
    split_ifs
    · exact hbase .fs
    · exact hbase .gs
    · exact hok
  | false =>
    unfold appendSegmentOffset
    dsimp only
    rw [if_neg Bool.false_ne_true]
    split
    · exact arithmetic_ok _ (by decide) hok (loadContext_ok _ (.inr (.inl rfl)) le_rfl)
    · exact hok

theorem isSize_of_ok {size : Nat} (h : value.Ok size) : IsSize value.size := .inr h.sizes

end

namespace DecodedBitTest

section
variable {is64BitMode : Bool} (op : DecodedBitTest is64BitMode) (s : State)

theorem isSize' : IsSize op.size := .inr op.isSize

theorem dest_memory (h : isGPR op.dest = false) : Address.IsMemory op.dest := by
  rcases op.dest_valid with ⟨hgpr, -⟩ | hmemory
  · rw [h] at hgpr
    cases hgpr
  · exact hmemory

theorem dest_register (h : isGPR op.dest = true) : IsRM op.size op.dest := by
  rcases op.dest_valid with ⟨-, hrm⟩ | hmemory
  · exact hrm
  · cases hdest : op.dest <;> rw [hdest] at h hmemory <;> first | exact hmemory.elim | cases h

theorem exists_address (h : isGPR op.dest = false) :
    ∃ address, loadAddress is64BitMode op.toDecodedInst s op.dest = some address ∧ IsSize address.size ∧
      address.value.toNat = (op.base s + op.segmentBase s) % 2 ^ Address.linearBits is64BitMode := by
  obtain ⟨address, -, haddress, -, hok, -⟩ := Address.offset_value s.cpu op.toDecoded (op.dest_memory h)
  have hload : Address.loadSourceAddress is64BitMode s.cpu op.toDecodedOp op.dest = some address := by
    rw [← haddress]
    cases op.dest <;> rfl
  refine ⟨_, congrArg (Option.map _) hload, isSize_of_ok (append_ok s.cpu op.flags hok), ?_⟩
  rw [base, hload, Option.elim_some]
  exact Address.append_value s.cpu op.toDecoded hok

theorem memoryLocation_eq (h : isGPR op.dest = false) :
    ∃ address, loadAddress is64BitMode op.toDecodedInst s op.dest = some address ∧
      (add address (sbfe (op.size * 8 - 3) 3 ⟨op.size, (op.offset s).setWidth 64⟩)).value.toNat = op.uncutAddress s := by
  obtain ⟨address, hload, hsize, hvalue⟩ := op.exists_address s h
  refine ⟨address, hload, ?_⟩
  have hle := hsize.le
  have hmax : atLeast4 address (sbfe (op.size * 8 - 3) 3 ⟨op.size, (op.offset s).setWidth 64⟩) = 8 := by
    unfold atLeast4
    rw [sbfe_size]
    omega
  have hbyte := opSbfe_byte op.isSize'.pos op.isSize'.le (op.offset s)
  rw [add_value hsize isSize_eight, hmax, setWidth_eq, setWidth_eq, BitVec.toNat_add, uncutAddress, ← hvalue,
    byteOffset, ← hbyte]
  have hnat := BitVec.toInt_eq_toNat_cond (x := opSbfe (op.size * 8 - 3) 3 ((op.offset s).setWidth 64))
  change (address.value.toNat + (opSbfe (op.size * 8 - 3) 3 ((op.offset s).setWidth 64)).toNat) % 2 ^ 64 = _
  rw [hnat]
  split_ifs <;> omega

theorem bits_cases (is64BitMode has67 : Bool) :
    (Address.linearBits is64BitMode = 64 ∧
      (Address.addressBits is64BitMode has67 = 64 ∨ Address.addressBits is64BitMode has67 = 32)) ∨
    (Address.linearBits is64BitMode = 32 ∧
      (Address.addressBits is64BitMode has67 = 32 ∨ Address.addressBits is64BitMode has67 = 16)) := by
  cases is64BitMode <;> cases has67 <;> decide

/-- The two addresses differ where a sum wraps around. -/
theorem uncutAddress_eq_iff (h : isGPR op.dest = false) : op.uncutAddress s = op.bitAddress s ↔ ¬ op.Wraps s := by
  rw [Wraps, and_iff_right h, not_not, uncutAddress, bitAddress]
  rcases bits_cases is64BitMode op.has67 with ⟨hl, ha | ha⟩ | ⟨hl, ha | ha⟩ <;> rw [hl] at * <;> rw [ha] <;> omega

/-! ## Runs -/

theorem bitSize : getDstBitSize op.toDecodedInst = op.size * 8 := by
  rw [getDstBitSize, op.getDstSize_eq]

theorem loadRegister {operand : DecodedOperand} (h : IsRM op.size operand) :
    loadSource is64BitMode op.toDecodedInst s operand =
      some ⟨op.size, (operandValue is64BitMode op.toDecodedInst s op.size operand).setWidth 64⟩ := by
  obtain ⟨l, hl, hload⟩ := @loadSource_rm is64BitMode op.toDecodedInst s op.size operand op.isSize'.le h
  unfold loadSource
  rw [op.getSrcSize_eq, hload, operandValue_rm h hl]

theorem bitSource_eq : bitSource is64BitMode op.toDecodedInst s op.table.srcIndex =
    some (⟨op.size, (op.offset s).setWidth 64⟩, !isGPR (op.src op.table.srcIndex)) := by
  unfold bitSource offset
  rcases op.src_valid with ⟨hgpr, hrm⟩ | ⟨literalSize, value, hsrc⟩
  · have hload := op.loadRegister s hrm
    cases hsrc : op.src op.table.srcIndex with
    | gpr high gpr =>
      rw [hsrc] at hload
      change (loadSource is64BitMode op.toDecodedInst s (.gpr high gpr)).map (·, false) = _
      rw [hload]
      rfl
    | _ => rw [hsrc] at hgpr; cases hgpr
  · rw [hsrc]
    dsimp only
    rw [op.bitSize, masked_literal op.isSize]
    rfl

theorem offset_lt (h : isGPR (op.src op.table.srcIndex) = false) : (op.offset s).toNat < 8 * op.size := by
  unfold offset
  have hpos := op.isSize'.pos
  have hmod := Nat.mod_lt (operandValue is64BitMode op.toDecodedInst s op.size (op.src op.table.srcIndex)).toNat
    (show 0 < 8 * op.size by omega)
  rw [if_neg (by rw [h]; exact Bool.false_ne_true), toNat_ofNat]
  exact (Nat.mod_le _ _).trans_lt hmod

theorem bitSelect_counts : Counts
    (if (!isGPR (op.src op.table.srcIndex)) = true then ⟨op.size, (op.offset s).setWidth 64⟩
      else and ⟨op.size, (op.offset s).setWidth 64⟩ (const (BitVec.ofNat 64 (op.size * 8 - 1))))
    ((op.offset s).toNat % (8 * op.size)) := by
  have hle := op.isSize'.le
  have hx := holds_of op.isSize' (op.offset s)
  by_cases h : isGPR (op.src op.table.srcIndex) = true
  · rw [h, if_neg (by decide)]
    obtain ⟨p, hp, hpow⟩ : ∃ p < 7, op.size * 8 = 2 ^ p := by
      rcases op.isSize with hsize | hsize | hsize <;> rw [hsize]
      exacts [⟨4, by decide, rfl⟩, ⟨5, by decide, rfl⟩, ⟨6, by decide, rfl⟩]
    have hmod : (op.offset s).toNat % (8 * op.size) = (op.offset s).toNat % 2 ^ p :=
      congrArg ((op.offset s).toNat % ·) (by omega)
    rw [hpow, hmod]
    exact and_counts hx hp (counts_const (by omega))
  · rw [Bool.not_eq_true] at h
    have hlt := op.offset_lt s h
    rw [h, if_pos (show (!false) = true from rfl), Nat.mod_eq_of_lt hlt]
    refine ⟨op.isSize', ?_, by omega⟩
    apply BitVec.eq_of_toNat_eq
    rw [BitVec.toNat_setWidth_of_le (by omega), toNat_ofNat, Nat.mod_eq_of_lt (by omega)]

theorem byteSelect_counts : Counts (bfe 3 0 ⟨op.size, (op.offset s).setWidth 64⟩) ((op.offset s).toNat % 8) := by
  have hle := op.isSize'.le
  refine ⟨op.isSize', ?_, by omega⟩
  unfold bfe
  rw [opBfe_zero (by decide)]
  apply BitVec.eq_of_toNat_eq
  rw [BitVec.toNat_setWidth_of_le (by decide), BitVec.toNat_setWidth, BitVec.toNat_setWidth_of_le (by omega),
    toNat_ofNat]
  omega

/-- A handler that only reads is for `BT`. -/
def Matches (change : Option BitChange) (i : BitTest) : Prop :=
  change.elim (i = .bt) fun change => i ≠ .bt ∧ Implements change i

/-- The state that the emitted code leaves. -/
def emitted : State :=
  let k := (op.offset s).toNat
  if isGPR op.dest then
    (location is64BitMode op.toDecodedInst s op.dest).elim s fun l =>
      op.instruction.execute is64BitMode s op.size l (k % (8 * op.size))
  else op.instruction.execute is64BitMode s 1 (.mem (op.uncutAddress s)) (k % 8)

theorem run_register {change : Option BitChange} (hmatches : Matches change op.instruction) (h : isGPR op.dest = true) :
    bitOp change op.table.srcIndex is64BitMode op.toDecodedInst s = some (op.emitted s.calculateDeferredFlags) := by
  have hrm := op.dest_register h
  obtain ⟨l, hl, hload⟩ :=
    @loadSource_rm is64BitMode op.toDecodedInst s.calculateDeferredFlags op.size op.dest op.isSize'.le hrm
  have hdest : loadSource is64BitMode op.toDecodedInst s.calculateDeferredFlags op.dest =
      some ⟨op.size, (l.read s.calculateDeferredFlags op.size).setWidth 64⟩ := by
    unfold loadSource
    rw [op.getSrcSize_eq, hload]
  have hcount := op.bitSelect_counts s.calculateDeferredFlags
  have hpos := op.isSize'.pos
  have hle := op.isSize'.le
  have hlt := Nat.mod_lt (op.offset s.calculateDeferredFlags).toNat (show 0 < 8 * op.size by omega)
  have hcarry := rflag_lshr op.isSize' (l.read s.calculateDeferredFlags op.size) hcount hlt
  unfold bitOp emitted
  simp only [op.bitSource_eq, Option.bind_eq_bind, Option.bind_some, h, if_true, hdest, hl, Option.elim_some, op.bitSize]
  cases change with
  | none =>
    have hbt : op.instruction = .bt := hmatches
    unfold BitTest.execute setCF
    dsimp only
    rw [hcarry, if_pos hbt]
  | some change =>
    obtain ⟨hbt, himplements⟩ := hmatches
    have hmask := bitMask_eq hcount (by omega)
    unfold storeResult storeResultTo
    dsimp only
    rw [hmask, op.getDstSize_eq, storeResult_rm op.isSize' op.size_mode hrm hl _ ?_, himplements.plain _ _ op.isSize']
    · unfold BitTest.execute setCF
      dsimp only
      rw [Option.bind_some, hcarry, if_neg hbt]
      cases l <;> rfl
    · exact fun _ _ hsize => himplements.half _ _ hsize

theorem run_memory {change : Option BitChange} (hmatches : Matches change op.instruction) (h : isGPR op.dest = false) :
    bitOp change op.table.srcIndex is64BitMode op.toDecodedInst s = some (op.emitted s.calculateDeferredFlags) := by
  obtain ⟨address, hload, haddress⟩ := op.memoryLocation_eq s.calculateDeferredFlags h
  have hcount := op.byteSelect_counts s.calculateDeferredFlags
  have hlt := Nat.mod_lt (op.offset s.calculateDeferredFlags).toNat (show 0 < 8 by decide)
  have hmask := bitMask_eq hcount (by omega)
  have hcarry (x : BitVec (8 * 1)) := rflag_lshr (.inl rfl) x hcount hlt
  unfold bitOp emitted
  simp only [op.bitSource_eq, Option.bind_eq_bind, Option.bind_some, h, Bool.false_eq_true, if_false, hload, op.bitSize]
  rw [← haddress]
  cases change with
  | none =>
    have hbt : op.instruction = .bt := hmatches
    unfold BitTest.execute setCF
    dsimp only
    rw [loadMem_eq (by decide), hcarry, if_pos hbt]
  | some change =>
    obtain ⟨hbt, himplements⟩ := hmatches
    unfold BitTest.execute setCF
    dsimp only
    rw [if_neg hbt, hmask]
    split_ifs with hlocked
    · rw [@atomicFetch_eq is64BitMode _ 1 _ (by decide), himplements.fetch]
      rw [hcarry]
      rfl
    · rw [loadMem_eq (by decide), @storeMem_eq is64BitMode, himplements.plain _ _ (.inl rfl), hcarry]
      rfl

end

end DecodedBitTest

/-! ## Instructions -/

def BitTest.handlerName : BitTest → BitHandler
  | bt => .BTOp
  | bts => .BTSOp
  | btr => .BTROp
  | btc => .BTCOp

theorem BitHandler.ofOp_eq {table : BitTable} {op : Nat} {i : BitTest} (h : BitTest.ofOpcode table op = some i) :
    BitHandler.ofOp table op = some (i.handlerName, table.srcIndex) := by
  cases table with
  | secondBase =>
    unfold BitTest.ofOpcode at h
    split at h <;> first | cases h | skip
    all_goals first | rfl | contradiction
  | secondaryExtension =>
    have hgroup : ∀ op < 96, ∀ i ∈ BitTest.ofOpcode .secondaryExtension op,
        BitHandler.ofOp .secondaryExtension op = some (i.handlerName, 1) := by decide
    have hlt : op < 96 := by
      unfold BitTest.ofOpcode at h
      dsimp only at h
      split_ifs at h with hop
      omega
    exact hgroup op hlt i h

theorem handler_matches (i : BitTest) :
    ∃ change, DecodedBitTest.Matches change i ∧ ∀ srcIndex, i.handlerName.handler srcIndex = bitOp change srcIndex := by
  cases i with
  | bt => exact ⟨none, rfl, fun _ => rfl⟩
  | bts => exact ⟨some ⟨or, id, fun x y => x ||| y⟩, ⟨by decide, implements_bts⟩, fun _ => rfl⟩
  | btr => exact ⟨some ⟨andn, not, fun x y => x &&& y⟩, ⟨by decide, implements_btr⟩, fun _ => rfl⟩
  | btc => exact ⟨some ⟨xor, id, fun x y => x ^^^ y⟩, ⟨by decide, implements_btc⟩, fun _ => rfl⟩

section
variable {is64BitMode : Bool} {s : State}

theorem read_byte (s : State) (a : Nat) : Location.read s 1 (.mem a) = s.mem a := by
  unfold Location.read FlatMemory.load
  simp [ByteMemory.ofBytes]

theorem write_byte (s : State) (a : Nat) (v : BitVec (8 * 1)) :
    Location.write is64BitMode s v (.mem a) = { s with mem := Function.update s.mem a v } := by
  have hstore : FlatMemory.store s.mem a (ByteMemory.bytes 1 v.toNat) = Function.update s.mem a v := by
    funext b
    unfold FlatMemory.store
    by_cases h : b = a
    · subst h
      simp [ByteMemory.bytes]
    · rw [Function.update_of_ne h, if_neg]
      simp only [ByteMemory.bytes, List.length_singleton]
      omega
  exact congrArg (fun mem => { s with mem }) hstore

/-- A bit of another byte leaves the same state only if nothing changes. -/
theorem execute_eq_iff (i : BitTest) (u a k : Nat) :
    i.execute is64BitMode s 1 (.mem u) k = i.execute is64BitMode s 1 (.mem a) k ↔ u = a ∨
      (Location.read s 1 (.mem u)).getLsbD k = (Location.read s 1 (.mem a)).getLsbD k ∧
        i.change (Location.read s 1 (.mem u)) k = Location.read s 1 (.mem u) ∧
          i.change (Location.read s 1 (.mem a)) k = Location.read s 1 (.mem a) := by
  constructor
  · intro h
    by_cases hua : u = a
    · exact .inl hua
    · right
      refine ⟨congrArg (fun s => s.flags.cf) h, ?_⟩
      by_cases hbt : i = .bt
      · subst hbt
        exact ⟨rfl, rfl⟩
      · have hmem := congrArg State.mem h
        simp only [BitTest.execute, if_neg hbt, write_byte, read_byte] at hmem ⊢
        constructor
        · have hu := congrFun hmem u
          rwa [Function.update_self, Function.update_of_ne hua] at hu
        · have ha := congrFun hmem a
          rw [Function.update_self, Function.update_of_ne (Ne.symm hua)] at ha
          exact ha.symm
  · rintro (rfl | ⟨hbit, hu, ha⟩)
    · rfl
    · have hstay (b : Nat) (hb : i.change (Location.read s 1 (.mem b)) k = Location.read s 1 (.mem b)) :
          (if i = .bt then s else Location.write is64BitMode s (i.change (Location.read s 1 (.mem b)) k) (.mem b)) = s := by
        rw [hb, write_byte, read_byte, Function.update_eq_self]
        exact ite_self s
      unfold BitTest.execute
      dsimp only
      rw [hstay u hu, hstay a ha, hbit]

end

namespace DecodedBitTest

variable {is64BitMode : Bool} (op : DecodedBitTest is64BitMode) (s : State)

theorem bitOp_run {change : Option BitChange} (hmatches : Matches change op.instruction) :
    bitOp change op.table.srcIndex is64BitMode op.toDecodedInst s = some (op.emitted s.calculateDeferredFlags) := by
  cases h : isGPR op.dest with
  | true => exact op.run_register s hmatches h
  | false => exact op.run_memory s hmatches h

theorem emitted_settled :
    (op.emitted s.calculateDeferredFlags).calculateDeferredFlags = op.emitted s.calculateDeferredFlags := by
  have hexecute (size : Nat) (l : Location) (k : Nat) :
      (op.instruction.execute is64BitMode s.calculateDeferredFlags size l k).calculateDeferredFlags =
        op.instruction.execute is64BitMode s.calculateDeferredFlags size l k := by
    unfold BitTest.execute
    split_ifs
    · rfl
    · cases l <;> rfl
  unfold emitted
  split_ifs
  · cases location is64BitMode op.toDecodedInst s.calculateDeferredFlags op.dest with
    | none => rfl
    | some l => exact hexecute _ _ _
  · exact hexecute _ _ _

theorem follows_iff_emitted :
    op.FollowsX86 s ↔ op.emitted s.calculateDeferredFlags = op.executed s.calculateDeferredFlags := by
  obtain ⟨change, hmatches, hhandler⟩ := handler_matches op.instruction
  have hname := BitHandler.ofOp_eq op.ofOpcode_eq
  have hrun : op.instruction.handlerName.handler op.table.srcIndex is64BitMode op.toDecodedInst s =
      some (op.emitted s.calculateDeferredFlags) := by
    rw [hhandler]
    exact op.bitOp_run s hmatches
  constructor
  · rintro ⟨name, srcIndex, s', hname', hrun', hs'⟩
    obtain ⟨rfl, rfl⟩ := Prod.mk.inj (Option.some_inj.1 (hname.symm.trans hname'))
    obtain rfl := Option.some_inj.1 (hrun.symm.trans hrun')
    rwa [op.emitted_settled] at hs'
  · intro h
    exact ⟨_, _, _, hname, hrun, (op.emitted_settled s).trans h⟩

theorem follows_iff_address : op.FollowsX86 s ↔
    isGPR op.dest = true ∨ op.uncutAddress s = op.bitAddress s ∨ op.Alike s := by
  rw [follows_iff_emitted]
  cases h : isGPR op.dest with
  | true =>
    refine iff_of_true ?_ (.inl rfl)
    unfold emitted executed
    rw [h, if_pos rfl, if_pos rfl]
  | false =>
    rw [or_iff_right Bool.false_ne_true]
    unfold emitted executed
    rw [h, if_neg Bool.false_ne_true, if_neg Bool.false_ne_true]
    exact execute_eq_iff _ _ _ _

/-- The instructions follow the architecture unless a sum wraps around, and else if both bytes show the same. -/
theorem bitTests_follow_iff : op.FollowsX86 s ↔ ¬ op.Wraps s ∨ op.Alike s := by
  rw [follows_iff_address]
  cases h : isGPR op.dest with
  | true =>
    refine iff_of_true (.inl rfl) (.inl fun hwraps => ?_)
    rw [hwraps.1] at h
    cases h
  | false => rw [or_iff_right Bool.false_ne_true, op.uncutAddress_eq_iff s h]

end DecodedBitTest

/-- `btc dword ptr [ebx], ecx`. -/
def btcEBX : DecodedBitTest false where
  flags := 3#32 <<< 19 ||| 3#32 <<< 22
  pc := 0
  instSize := 3
  entry := 0
  op := 0xBB
  dest := .gprDirect .rbx
  src := fun _ => .gpr false .rcx
  has67 := false
  overrides := []
  flags_addressSize := by decide
  flags_segment := fun segment => by cases segment <;> decide
  table := .secondBase
  instruction := .btc
  size := 4
  ofOpcode_eq := rfl
  getSrcSize_eq := by decide
  getDstSize_eq := by decide
  isSize := by decide
  size_mode := by decide
  dest_valid := .inr (show Frontend.ModRM.X86Reg.rbx ≠ .invalid by decide)
  src_valid := .inl ⟨rfl, rfl, by decide⟩
  lock_memory := by decide

/-- Bits from an address close below four gigabytes on. -/
def highBase : State where
  cpu := ⟨fun gpr => if gpr = .rcx then 0x80000 else 0xFFFFFFF0, fun _ => 0, fun _ => 0⟩
  flags := ⟨false, false, false, false, false, false⟩
  df := false
  deferred := none
  mem := fun _ => 0

/-- The byte is taken from above four gigabytes. -/
theorem btcEBX_differs : ¬ ∀ (is64BitMode : Bool) (op : DecodedBitTest is64BitMode) (s : State), op.FollowsX86 s := by
  intro h
  rcases (btcEBX.follows_iff_address highBase).1 (h false btcEBX highBase) with hgpr | haddress | halike
  · cases hgpr
  · exact absurd haddress (by decide)
  · exact absurd halike.2.1 (by decide)

end FexEmu.OpcodeDispatcher.Integer
