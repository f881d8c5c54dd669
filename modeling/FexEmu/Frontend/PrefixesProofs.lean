import FexEmu.Frontend.PrefixRules
/-!
# Prefixes against the rules

The flags that the decoder has behind some prefixes, bit by bit, and the sizes that follow from its markers.
-/
namespace FexEmu.Frontend.Prefixes

open FlatMemory (Byte)
open BitVec (eq_of_getLsbD_eq getLsbD_and getLsbD_or getLsbD_shiftLeft)

/-! ## Bits of the flags -/

variable {bit i index : Nat} {is64BitMode : Bool} {bytes : List Byte} {s : PrefixState} {op : Byte}

theorem getLsbD_flag (h : bit < 32) (i : Nat) : (flag bit).getLsbD i = decide (i = bit) := by
  unfold flag
  by_cases hi : i = bit
  · subst hi
    simp [h]
  · simp only [hi, decide_false]
    simp
    omega

theorem getLsbD_mask (i : Nat) : opAddrMask.getLsbD i = decide (25 ≤ i ∧ i < 29) := by
  have hall : ∀ i < 32, opAddrMask.getLsbD i = decide (25 ≤ i ∧ i < 29) := by decide
  by_cases h : i < 32
  · exact hall i h
  · rw [BitVec.getLsbD_of_ge _ _ (by omega), eq_comm, decide_eq_false_iff_not]
    omega

theorem getLsbD_three (j : Nat) : (3#32).getLsbD j = decide (j < 2) := by
  have hall : ∀ j < 32, (3#32).getLsbD j = decide (j < 2) := by decide
  by_cases h : j < 32
  · exact hall j h
  · rw [BitVec.getLsbD_of_ge _ _ (by omega), eq_comm, decide_eq_false_iff_not]
    omega

theorem and_flag_ne_zero (flags : BitVec 32) (h : bit < 32) : (flags &&& flag bit != 0) = flags.getLsbD bit := by
  have hbit : (flags &&& flag bit).getLsbD bit = flags.getLsbD bit := by
    rw [getLsbD_and, getLsbD_flag h, decide_eq_true rfl, Bool.and_true]
  cases hflags : flags.getLsbD bit with
  | true =>
    rw [bne_iff_ne]
    intro hzero
    rw [hzero, hflags] at hbit
    simp at hbit
  | false =>
    rw [bne_eq_false_iff_eq]
    apply eq_of_getLsbD_eq
    intro i _
    rw [getLsbD_and, getLsbD_flag h]
    by_cases hi : i = bit
    · simp [hi, hflags]
    · simp [hi]

theorem has_eq (s : PrefixState) (h : bit < 32) : s.has bit = s.flags.getLsbD bit := and_flag_ne_zero s.flags h

@[simp] theorem getLsbD_set (s : PrefixState) (h : bit < 32) (i : Nat) :
    (s.set bit).flags.getLsbD i = (s.flags.getLsbD i || decide (i = bit)) := by
  unfold PrefixState.set
  rw [getLsbD_or, getLsbD_flag h]

theorem getLsbD_clear (s : PrefixState) (h : bit < 32) (hi : i ≠ bit) :
    (s.clear bit).flags.getLsbD i = s.flags.getLsbD i := by
  unfold PrefixState.clear
  rw [getLsbD_and, BitVec.getLsbD_not, getLsbD_flag h]
  simp [hi]
  exact fun hbit => BitVec.lt_of_getLsbD hbit

/-! ## The stack of markers -/

theorem getLsbD_getOpAddr (flags : BitVec 32) (h : index < 2) (j : Nat) :
    (getOpAddr flags index).getLsbD j = (decide (j < 2) && flags.getLsbD (25 + index * 2 + j)) := by
  unfold getOpAddr opAddrOff
  rw [getLsbD_and, BitVec.getLsbD_ushiftRight, BitVec.getLsbD_ushiftRight, getLsbD_and, getLsbD_mask,
    getLsbD_three]
  by_cases hj : j < 2
  · have hin : 25 ≤ 25 + (index * 2 + j) ∧ 25 + (index * 2 + j) < 29 := by omega
    simp [hj, hin, Nat.add_assoc]
  · simp [hj]

theorem getOpAddr_congr {flags flags' : BitVec 32} (h : ∀ i, 25 ≤ i → flags.getLsbD i = flags'.getLsbD i)
    (hindex : index < 2) : getOpAddr flags index = getOpAddr flags' index := by
  apply eq_of_getLsbD_eq
  intro j _
  rw [getLsbD_getOpAddr _ hindex, getLsbD_getOpAddr _ hindex, h _ (by omega)]

/-- The flags with another stack, as `PushOpAddr` and `PopOpAddrIf` build them. -/
def restack (flags bottom top : BitVec 32) : BitVec 32 :=
  (flags &&& ~~~opAddrMask) ||| ((top <<< (opAddrOff + 2)) ||| (bottom <<< opAddrOff))

theorem getLsbD_restack_low (flags bottom top : BitVec 32) (h : i < 25) :
    (restack flags bottom top).getLsbD i = flags.getLsbD i := by
  have hin : i < 32 := by omega
  have hmask : ¬ 25 ≤ i := by omega
  have hoff : i < opAddrOff := h
  have hoff' : i < opAddrOff + 2 := by omega
  unfold restack
  rw [getLsbD_or, getLsbD_or, getLsbD_and, BitVec.getLsbD_not, getLsbD_mask,
    getLsbD_shiftLeft, getLsbD_shiftLeft]
  simp [hin, hmask, hoff, hoff']

theorem getLsbD_restack_high (flags bottom top : BitVec 32) (h : 25 ≤ i ∧ i < 29) :
    (restack flags bottom top).getLsbD i = (decide (27 ≤ i) && top.getLsbD (i - 27) || bottom.getLsbD (i - 25)) := by
  have hin : i < 32 := by omega
  have hoff : ¬ i < opAddrOff := by unfold opAddrOff; omega
  unfold restack
  rw [getLsbD_or, getLsbD_or, getLsbD_and, BitVec.getLsbD_not, getLsbD_mask,
    getLsbD_shiftLeft, getLsbD_shiftLeft]
  by_cases htop : 27 ≤ i
  · have hoff' : ¬ i < opAddrOff + 2 := by unfold opAddrOff; omega
    simp [hin, h, hoff, hoff', htop]
    rfl
  · have hoff' : i < opAddrOff + 2 := by unfold opAddrOff; omega
    simp [hin, h, hoff, hoff', htop]
    rfl

/-- A marker takes two bits. -/
def Marker (m : BitVec 32) : Prop := ∀ j, 2 ≤ j → m.getLsbD j = false

theorem getOpAddr_marker (flags : BitVec 32) (h : index < 2) : Marker (getOpAddr flags index) := by
  intro j hj
  rw [getLsbD_getOpAddr _ h, decide_eq_false (by omega), Bool.false_and]

theorem getOpAddr_restack_zero (flags top : BitVec 32) {bottom : BitVec 32} (hbottom : Marker bottom) :
    getOpAddr (restack flags bottom top) 0 = bottom := by
  apply eq_of_getLsbD_eq
  intro j _
  rw [getLsbD_getOpAddr _ (by decide)]
  by_cases hj : j < 2
  · have htop : ¬ 27 ≤ 25 + j := by omega
    rw [getLsbD_restack_high _ _ _ (by omega)]
    simp [hj, htop]
  · rw [hbottom j (by omega), decide_eq_false hj, Bool.false_and]

theorem getOpAddr_restack_one (flags : BitVec 32) {bottom top : BitVec 32} (hbottom : Marker bottom) (htop : Marker top) :
    getOpAddr (restack flags bottom top) 1 = top := by
  apply eq_of_getLsbD_eq
  intro j _
  rw [getLsbD_getOpAddr _ (by decide)]
  by_cases hj : j < 2
  · have hin : 27 ≤ 25 + 1 * 2 + j := by omega
    have hsub : 25 + 1 * 2 + j - 27 = j := by omega
    rw [getLsbD_restack_high _ _ _ (by omega), hbottom _ (by omega), hsub]
    simp [hj, hin]
  · rw [htop j (by omega), decide_eq_false hj, Bool.false_and]

theorem pushOpAddr_eq (flags marker : BitVec 32) : pushOpAddr flags marker = restack flags marker (getOpAddr flags 0) := by
  unfold pushOpAddr restack getOpAddr
  rw [Nat.zero_mul, BitVec.ushiftRight_zero]

theorem popOpAddrIf_eq (flags marker : BitVec 32) :
    popOpAddrIf flags marker = if getOpAddr flags 0 = marker then restack flags (getOpAddr flags 1) 0 else flags := by
  have hshift : ∀ x : BitVec 32, x >>> (opAddrOff + 2) = x >>> opAddrOff >>> (1 * 2) := fun x => by
    rw [BitVec.shiftRight_add]
  have hzero : (0 : BitVec 32) <<< (opAddrOff + 2) = 0#32 := rfl
  unfold popOpAddrIf restack getOpAddr
  rw [Nat.zero_mul, BitVec.ushiftRight_zero, hzero, BitVec.zero_or, hshift, ite_not]

/-! ## Operand sizes of prefixes -/

def mark (is64BitMode : Bool) (op : Byte) : Option OperandSize :=
  if op = 0x66 then some .narrow else if isREXW is64BitMode op then some .wide else none

def OperandSize.marker : OperandSize → BitVec 32
  | default => 0
  | narrow => operandSizeLast
  | wide => wideningSizeLast

/-- The markers of some prefixes, the last one first. -/
def marks (is64BitMode : Bool) (bytes : List Byte) : List OperandSize := (bytes.filterMap (mark is64BitMode)).reverse

def markedSize (is64BitMode : Bool) (bytes : List Byte) (uses66 : Bool) : OperandSize :=
  match marks is64BitMode bytes with
  | .narrow :: marks => if uses66 then marks.headD .default else .narrow
  | size :: _ => size
  | [] => .default

/-- The prefixes that can be a part of an opcode. -/
def isEscape (op : Byte) : Bool := op == 0x66 || op == 0xF2 || op == 0xF3

def lastEscape (bytes : List Byte) : Option Byte := (bytes.filter isEscape).getLast?

/-- The state of the decoder behind some prefixes. -/
structure Behind (is64BitMode : Bool) (bytes : List Byte) (s : PrefixState) : Prop where
  operandSize : s.has operandSizeBit = bytes.contains 0x66
  addressSize : s.has addressSizeBit = bytes.contains 0x67
  repne : s.has repnePrefixBit = bytes.contains 0xF2
  rep : s.has repPrefixBit = bytes.contains 0xF3
  widening : s.has rexWideningBit = bytes.any (isREXW is64BitMode)
  lastEscape : s.lastEscapePrefix = (lastEscape bytes).getD 0
  last : getOpAddr s.flags 0 = ((marks is64BitMode bytes).headD .default).marker
  before : getOpAddr s.flags 1 = ((marks is64BitMode bytes).tail.headD .default).marker

theorem marker_marker (size : OperandSize) : Marker size.marker := by
  intro j hj
  have hall : ∀ j < 32, 2 ≤ j → size.marker.getLsbD j = false := by cases size <;> decide
  by_cases h : j < 32
  · exact hall j h hj
  · exact BitVec.getLsbD_of_ge _ _ (by omega)

theorem behind_init (is64BitMode : Bool) : Behind is64BitMode [] .init where
  operandSize := by decide
  addressSize := by decide
  repne := by decide
  rep := by decide
  widening := rfl
  lastEscape := rfl
  last := rfl
  before := rfl

/-! ## One prefix -/

theorem has_set (s : PrefixState) {bit' : Nat} (h : bit < 32) (h' : bit' < 32) :
    (s.set bit').has bit = (s.has bit || decide (bit = bit')) := by
  rw [has_eq _ h, has_eq _ h, getLsbD_set _ h']

theorem getOpAddr_set (s : PrefixState) (h : bit < 25) (hindex : index < 2) :
    getOpAddr (s.set bit).flags index = getOpAddr s.flags index := by
  apply getOpAddr_congr _ hindex
  intro i hi
  rw [getLsbD_set _ (by omega), decide_eq_false (by omega), Bool.or_false]

def PrefixState.push (s : PrefixState) (marker : BitVec 32) : PrefixState := { s with flags := pushOpAddr s.flags marker }

theorem has_push (s : PrefixState) (marker : BitVec 32) (h : bit < 25) : (s.push marker).has bit = s.has bit := by
  rw [has_eq _ (by omega), has_eq _ (by omega)]
  change (pushOpAddr s.flags marker).getLsbD bit = _
  rw [pushOpAddr_eq, getLsbD_restack_low _ _ _ h]

theorem getOpAddr_push_zero (s : PrefixState) (size : OperandSize) :
    getOpAddr (s.push size.marker).flags 0 = size.marker := by
  change getOpAddr (pushOpAddr _ _) 0 = _
  rw [pushOpAddr_eq, getOpAddr_restack_zero _ _ (marker_marker size)]

theorem getOpAddr_push_one (s : PrefixState) (size : OperandSize) :
    getOpAddr (s.push size.marker).flags 1 = getOpAddr s.flags 0 := by
  change getOpAddr (pushOpAddr _ _) 1 = _
  rw [pushOpAddr_eq, getOpAddr_restack_one _ (marker_marker size) (getOpAddr_marker _ (by decide))]

theorem marks_snoc (is64BitMode : Bool) (bytes : List Byte) (op : Byte) :
    marks is64BitMode (bytes ++ [op]) = (mark is64BitMode op).toList ++ marks is64BitMode bytes := by
  unfold marks
  cases h : mark is64BitMode op <;> simp [h]

theorem contains_snoc (bytes : List Byte) (op op' : Byte) :
    (bytes ++ [op]).contains op' = (bytes.contains op' || op == op') := by
  rw [Bool.eq_iff_iff, Bool.or_eq_true, List.contains_iff_mem, List.contains_iff_mem, List.mem_append, List.mem_singleton,
    beq_iff_eq, eq_comm]

theorem getLast?_filter_snoc (p : Byte → Bool) (bytes : List Byte) (op : Byte) :
    ((bytes ++ [op]).filter p).getLast? = if p op then some op else (bytes.filter p).getLast? := by
  rw [List.filter_append]
  cases h : p op with
  | true => rw [List.filter_cons_of_pos h, List.filter_nil, List.getLast?_concat, if_pos rfl]
  | false => rw [List.filter_cons_of_neg (by simp [h]), List.filter_nil, List.append_nil, if_neg Bool.false_ne_true]

theorem Behind.snoc {s' : PrefixState} (h : Behind is64BitMode bytes s)
    (h66 : s'.has operandSizeBit = (s.has operandSizeBit || op == 0x66))
    (h67 : s'.has addressSizeBit = (s.has addressSizeBit || op == 0x67))
    (hF2 : s'.has repnePrefixBit = (s.has repnePrefixBit || op == 0xF2))
    (hF3 : s'.has repPrefixBit = (s.has repPrefixBit || op == 0xF3))
    (hrex : s'.has rexWideningBit = (s.has rexWideningBit || isREXW is64BitMode op))
    (hescape : s'.lastEscapePrefix = if isEscape op then op else s.lastEscapePrefix)
    (hlast : getOpAddr s'.flags 0 = (mark is64BitMode op).elim (getOpAddr s.flags 0) OperandSize.marker)
    (hbefore : getOpAddr s'.flags 1 =
      (mark is64BitMode op).elim (getOpAddr s.flags 1) fun _ => getOpAddr s.flags 0) :
    Behind is64BitMode (bytes ++ [op]) s' where
  operandSize := by rw [h66, h.operandSize, contains_snoc]
  addressSize := by rw [h67, h.addressSize, contains_snoc]
  repne := by rw [hF2, h.repne, contains_snoc]
  rep := by rw [hF3, h.rep, contains_snoc]
  widening := by
    rw [hrex, h.widening, List.any_append]
    simp
  lastEscape := by
    unfold Prefixes.lastEscape
    rw [hescape, getLast?_filter_snoc, h.lastEscape]
    split <;> rfl
  last := by
    rw [hlast, marks_snoc, h.last]
    cases mark is64BitMode op <;> rfl
  before := by
    rw [hbefore, marks_snoc, h.last, h.before]
    cases mark is64BitMode op <;> rfl

theorem isREX_of_legacy (h : op ∈ legacyPrefixes) : isREX is64BitMode op = false := by
  have hall : ∀ op ∈ legacyPrefixes, isREX is64BitMode op = false := by cases is64BitMode <;> decide
  exact hall op h

theorem isREXW_of_legacy (h : op ∈ legacyPrefixes) : isREXW is64BitMode op = false := by
  unfold isREXW
  rw [isREX_of_legacy h, Bool.false_and]

theorem mark_of_legacy (h : op ∈ legacyPrefixes) (hne : op ≠ 0x66) : mark is64BitMode op = none := by
  unfold mark
  rw [if_neg hne, isREXW_of_legacy h, if_neg Bool.false_ne_true]

/-- The byte sets the bit, and marks nothing else. -/
abbrev Sets (op : Byte) (bit : Nat) : Prop :=
  op ∈ legacyPrefixes ∧ op ≠ 0x66 ∧ bit < 25 ∧ decide (operandSizeBit = bit) = (op == 0x66) ∧
    decide (addressSizeBit = bit) = (op == 0x67) ∧ decide (repnePrefixBit = bit) = (op == 0xF2) ∧
    decide (repPrefixBit = bit) = (op == 0xF3) ∧ rexWideningBit ≠ bit

theorem Behind.set (h : Behind is64BitMode bytes s) (sets : Sets op bit) {escape : Byte}
    (hescape : escape = if isEscape op then op else s.lastEscapePrefix) :
    Behind is64BitMode (bytes ++ [op]) { s.set bit with lastEscapePrefix := escape } := by
  obtain ⟨hop, hne, hbit, h66, h67, hF2, hF3, hW⟩ := sets
  have hmark : mark is64BitMode op = none := mark_of_legacy hop hne
  have hhas : ∀ bit' < 32, PrefixState.has { s.set bit with lastEscapePrefix := escape } bit' =
      (s.has bit' || decide (bit' = bit)) := fun bit' h' => has_set s h' (by omega)
  refine h.snoc ?_ ?_ ?_ ?_ ?_ hescape ?_ ?_
  · rw [hhas _ (by decide), ← h66]
  · rw [hhas _ (by decide), ← h67]
  · rw [hhas _ (by decide), ← hF2]
  · rw [hhas _ (by decide), ← hF3]
  · rw [hhas _ (by decide), isREXW_of_legacy hop, decide_eq_false hW]
  · rw [hmark]
    exact getOpAddr_set s hbit (by decide)
  · rw [hmark]
    exact getOpAddr_set s hbit (by decide)

theorem Behind.ignore (h : Behind is64BitMode bytes s)
    (hop : op = 0x26 ∨ op = 0x2E ∨ op = 0x36 ∨ op = 0x3E) : Behind is64BitMode (bytes ++ [op]) s := by
  have hlegacy : op ∈ legacyPrefixes ∧ op ≠ 0x66 := by rcases hop with rfl | rfl | rfl | rfl <;> decide
  have hrex : isREXW is64BitMode op = false := isREXW_of_legacy hlegacy.1
  have hmark : mark is64BitMode op = none := mark_of_legacy hlegacy.1 hlegacy.2
  apply h.snoc
  case hrex => rw [hrex, Bool.or_false]
  case hlast => rw [hmark]; rfl
  case hbefore => rw [hmark]; rfl
  all_goals rcases hop with rfl | rfl | rfl | rfl <;> simp [isEscape]

theorem behind_operandSize (h : Behind is64BitMode bytes s) : Behind is64BitMode (bytes ++ [0x66])
      { flags := pushOpAddr (s.set operandSizeBit).flags operandSizeLast, lastEscapePrefix := 0x66 } := by
  have hhas : ∀ bit < 25, PrefixState.has ⟨pushOpAddr (s.set operandSizeBit).flags operandSizeLast, 0x66⟩ bit =
      (s.has bit || decide (bit = operandSizeBit)) := fun bit hbit =>
    (has_push (s.set operandSizeBit) operandSizeLast hbit).trans (has_set s (by omega) (by decide))
  have hrex : isREXW is64BitMode 0x66 = false := isREXW_of_legacy (by decide)
  apply h.snoc
  case h66 => exact hhas _ (by decide)
  case h67 => exact hhas _ (by decide)
  case hF2 => exact hhas _ (by decide)
  case hF3 => exact hhas _ (by decide)
  case hrex => rw [hrex]; exact hhas _ (by decide)
  case hescape => rfl
  case hlast => exact getOpAddr_push_zero (s.set operandSizeBit) .narrow
  case hbefore =>
    exact (getOpAddr_push_one (s.set operandSizeBit) .narrow).trans (getOpAddr_set s (by decide) (by decide))

/-- The bits of a REX byte but for its W. -/
def rexBits (s : PrefixState) (op : Byte) : PrefixState :=
  let s := if op.getLsbD 0 then s.set rexXGPRBBit else s
  let s := if op.getLsbD 1 then s.set rexXGPRXBit else s
  if op.getLsbD 2 then s.set rexXGPRRBit else s

theorem has_rexBits (s : PrefixState) (op : Byte) (h : bit < 32) (hrex : bit ∉ [8, 9, 10]) :
    (rexBits s op).has bit = s.has bit := by
  simp only [List.mem_cons, List.not_mem_nil, or_false, not_or] at hrex
  obtain ⟨hB, hX, hR⟩ := hrex
  have hset : ∀ (s : PrefixState) {bit' : Nat}, bit' < 32 → bit ≠ bit' → (s.set bit').has bit = s.has bit := by
    intro s bit' h' hne
    rw [has_set s h h', decide_eq_false hne, Bool.or_false]
  unfold rexBits
  split_ifs <;> simp only [hset _ (by decide : rexXGPRBBit < 32) hB, hset _ (by decide : rexXGPRXBit < 32) hX,
    hset _ (by decide : rexXGPRRBit < 32) hR]

theorem getOpAddr_rexBits (s : PrefixState) (op : Byte) (h : index < 2) :
    getOpAddr (rexBits s op).flags index = getOpAddr s.flags index := by
  unfold rexBits
  split_ifs <;> simp only [getOpAddr_set _ (by decide : rexXGPRBBit < 25) h,
    getOpAddr_set _ (by decide : rexXGPRXBit < 25) h, getOpAddr_set _ (by decide : rexXGPRRBit < 25) h]

theorem ne_of_isREX (h : isREX is64BitMode op = true) {op' : Byte} (hop' : op' ∈ legacyPrefixes) : op ≠ op' := by
  intro heq
  rw [heq, isREX_of_legacy hop'] at h
  exact Bool.false_ne_true h

theorem behind_rexByte (h : Behind is64BitMode bytes s)
    (hop : isREX is64BitMode op = true) : Behind is64BitMode (bytes ++ [op]) (rexByte s op) := by
  have hne : ∀ op' ∈ legacyPrefixes, op ≠ op' := fun op' => ne_of_isREX hop
  have h66 := hne 0x66 (by decide)
  have hescape : isEscape op = false := by
    unfold isEscape
    rw [beq_false_of_ne h66, beq_false_of_ne (hne 0xF2 (by decide)), beq_false_of_ne (hne 0xF3 (by decide))]
    rfl
  have hrexW : isREXW is64BitMode op = op.getLsbD 3 := by
    unfold isREXW
    rw [hop, Bool.true_and]
  have hmark : mark is64BitMode op = if op.getLsbD 3 then some .wide else none := by
    unfold mark
    rw [if_neg h66, hrexW]
  -- the flags of a REX prefix, the marker of its W, and then the bits that nothing here depends on
  have hbits : rexByte s op = rexBits (if op.getLsbD 3 then
      ((s.set rexPrefixBit).set rexWideningBit).push OperandSize.wide.marker else s.set rexPrefixBit) op := by
    unfold rexByte rexBits
    split_ifs <;> rfl
  have hhas : ∀ bit ∈ [operandSizeBit, addressSizeBit, repnePrefixBit, repPrefixBit, rexWideningBit],
      (rexByte s op).has bit = (s.has bit || (decide (bit = rexWideningBit) && op.getLsbD 3)) := by
    intro bit hbit
    have hlt : bit < 25 ∧ bit ∉ [8, 9, 10] ∧ bit ≠ rexPrefixBit := by
      revert bit
      decide
    rw [hbits, has_rexBits _ _ (by omega) hlt.2.1]
    cases op.getLsbD 3 with
    | true =>
      rw [if_pos rfl, has_push _ _ hlt.1, has_set _ (by omega) (by decide), has_set _ (by omega) (by decide),
        decide_eq_false hlt.2.2, Bool.or_false, Bool.and_true]
    | false =>
      rw [if_neg Bool.false_ne_true, has_set _ (by omega) (by decide), decide_eq_false hlt.2.2, Bool.and_false]
  apply h.snoc
  case h66 => rw [hhas _ (by decide), beq_false_of_ne h66]; rfl
  case h67 => rw [hhas _ (by decide), beq_false_of_ne (hne 0x67 (by decide))]; rfl
  case hF2 => rw [hhas _ (by decide), beq_false_of_ne (hne 0xF2 (by decide))]; rfl
  case hF3 => rw [hhas _ (by decide), beq_false_of_ne (hne 0xF3 (by decide))]; rfl
  case hrex => rw [hhas _ (by decide), hrexW]; rfl
  case hescape =>
    rw [hescape, if_neg Bool.false_ne_true]
    unfold rexByte
    split_ifs <;> rfl
  case hlast =>
    rw [hbits, getOpAddr_rexBits _ _ (by decide), hmark]
    split_ifs
    · exact getOpAddr_push_zero _ .wide
    · exact getOpAddr_set s (by decide) (by decide)
  case hbefore =>
    rw [hbits, getOpAddr_rexBits _ _ (by decide), hmark]
    split_ifs
    · rw [getOpAddr_push_one, getOpAddr_set _ (by decide) (by decide), getOpAddr_set _ (by decide) (by decide)]
      rfl
    · exact getOpAddr_set s (by decide) (by decide)

theorem behind_prefixByte {s' : PrefixState} (h : Behind is64BitMode bytes s)
    (hs : prefixByte is64BitMode s op = some s') : Behind is64BitMode (bytes ++ [op]) s' := by
  -- the overrides that 64-bit mode ignores
  have hsegment : ∀ {op : Byte} {bit : Nat}, (op = 0x26 ∧ bit = esPrefixBit) ∨ (op = 0x2E ∧ bit = csPrefixBit) ∨
      (op = 0x36 ∧ bit = ssPrefixBit) ∨ (op = 0x3E ∧ bit = dsPrefixBit) →
      Behind is64BitMode (bytes ++ [op]) (if is64BitMode then s else s.set bit) := by
    intro op bit hop
    split
    · exact h.ignore (hop.imp And.left (Or.imp And.left (Or.imp And.left And.left)))
    · rcases hop with ⟨rfl, rfl⟩ | ⟨rfl, rfl⟩ | ⟨rfl, rfl⟩ | ⟨rfl, rfl⟩ <;>
        exact h.set (by decide) rfl
  unfold prefixByte at hs
  -- the bytes in the order of the source's comparisons
  by_cases h66 : op = 0x66
  · rw [if_pos h66] at hs
    cases hs
    subst h66
    exact behind_operandSize h
  rw [if_neg h66] at hs
  by_cases h67 : op = 0x67
  · rw [if_pos h67] at hs
    cases hs
    subst h67
    exact h.set (by decide) rfl
  rw [if_neg h67] at hs
  by_cases h26 : op = 0x26
  · rw [if_pos h26] at hs
    cases hs
    exact hsegment (.inl ⟨h26, rfl⟩)
  rw [if_neg h26] at hs
  by_cases h2E : op = 0x2E
  · rw [if_pos h2E] at hs
    cases hs
    exact hsegment (.inr (.inl ⟨h2E, rfl⟩))
  rw [if_neg h2E] at hs
  by_cases h36 : op = 0x36
  · rw [if_pos h36] at hs
    cases hs
    exact hsegment (.inr (.inr (.inl ⟨h36, rfl⟩)))
  rw [if_neg h36] at hs
  by_cases h3E : op = 0x3E
  · rw [if_pos h3E] at hs
    cases hs
    exact hsegment (.inr (.inr (.inr ⟨h3E, rfl⟩)))
  rw [if_neg h3E] at hs
  by_cases hF0 : op = 0xF0
  · rw [if_pos hF0] at hs
    cases hs
    subst hF0
    exact h.set (by decide) rfl
  rw [if_neg hF0] at hs
  by_cases hF2 : op = 0xF2
  · rw [if_pos hF2] at hs
    cases hs
    subst hF2
    exact h.set (by decide) rfl
  rw [if_neg hF2] at hs
  by_cases hF3 : op = 0xF3
  · rw [if_pos hF3] at hs
    cases hs
    subst hF3
    exact h.set (by decide) rfl
  rw [if_neg hF3] at hs
  by_cases h64 : op = 0x64
  · rw [if_pos h64] at hs
    cases hs
    subst h64
    exact h.set (by decide) rfl
  rw [if_neg h64] at hs
  by_cases h65 : op = 0x65
  · rw [if_pos h65] at hs
    cases hs
    subst h65
    exact h.set (by decide) rfl
  rw [if_neg h65] at hs
  by_cases hrex : isREX is64BitMode op = true
  · rw [if_pos hrex] at hs
    cases hs
    exact behind_rexByte h hrex
  · rw [if_neg hrex] at hs
    cases hs

/-! ## All prefixes -/

theorem prefixByte_isSome (h : IsPrefix is64BitMode op) (s : PrefixState) :
    ∃ s', prefixByte is64BitMode s op = some s' := by
  rw [← Option.isSome_iff_exists]
  unfold prefixByte
  rcases h with hlegacy | hrex
  · simp only [legacyPrefixes, List.mem_cons, List.not_mem_nil, or_false] at hlegacy
    rcases hlegacy with rfl | rfl | rfl | rfl | rfl | rfl | rfl | rfl | rfl | rfl | rfl <;> rfl
  · have hne : ∀ op' ∈ legacyPrefixes, op ≠ op' := fun op' => ne_of_isREX hrex
    simp only [legacyPrefixes, List.forall_mem_cons] at hne
    obtain ⟨h66, h67, h26, h2E, h36, h3E, hF0, hF2, hF3, h64, h65, -⟩ := hne
    rw [if_neg h66, if_neg h67, if_neg h26, if_neg h2E, if_neg h36, if_neg h3E, if_neg hF0, if_neg hF2, if_neg hF3,
      if_neg h64, if_neg h65, if_pos hrex]
    rfl

theorem prefixByte_eq_none (h : ¬ IsPrefix is64BitMode op) (s : PrefixState) : prefixByte is64BitMode s op = none := by
  obtain ⟨hlegacy, hrex⟩ := not_or.1 h
  have hne : ∀ op' ∈ legacyPrefixes, op ≠ op' := fun op' hop' heq => hlegacy (heq ▸ hop')
  simp only [legacyPrefixes, List.forall_mem_cons] at hne
  obtain ⟨h66, h67, h26, h2E, h36, h3E, hF0, hF2, hF3, h64, h65, -⟩ := hne
  unfold prefixByte
  rw [if_neg h66, if_neg h67, if_neg h26, if_neg h2E, if_neg h36, if_neg h3E, if_neg hF0, if_neg hF2, if_neg hF3,
    if_neg h64, if_neg h65, if_neg hrex]

theorem ne_escape_of_isPrefix (h : IsPrefix is64BitMode op) : op ≠ 0x0F := by
  rintro rfl
  revert h
  cases is64BitMode <;> decide

theorem instruction_append (done : List Byte) (op : Byte) (todo : List Byte) (rest : Nat → Byte) :
    instruction (done ++ op :: todo) rest done.length = op := by
  unfold instruction
  rw [List.getElem?_append_right (le_refl _), Nat.sub_self]
  rfl

theorem instruction_rest (bytes : List Byte) (rest : Nat → Byte) (i : Nat) :
    instruction bytes rest (bytes.length + i) = rest i := by
  unfold instruction
  rw [List.getElem?_eq_none (Nat.le_add_right _ _), Nat.add_sub_cancel_left]
  rfl

theorem decodeInstruction_prefixes (secondBaseOps : Byte → X86InstInfo) (is64BitMode : Bool) (rest : Nat → Byte) (fuel : Nat)
    (todo done : List Byte) (s : PrefixState) (hs : Behind is64BitMode done s)
    (hall : ∀ op ∈ todo, IsPrefix is64BitMode op) (hsize : (done ++ todo).length < maxInstSize) :
    ∃ s', Behind is64BitMode (done ++ todo) s' ∧
      decodeInstruction secondBaseOps is64BitMode (instruction (done ++ todo) rest) (fuel + todo.length) done.length s =
        decodeInstruction secondBaseOps is64BitMode (instruction (done ++ todo) rest) fuel (done ++ todo).length s' := by
  induction todo generalizing done s with
  | nil =>
    rw [List.append_nil]
    exact ⟨s, hs, rfl⟩
  | cons op todo ih =>
    obtain ⟨s', hs'⟩ := prefixByte_isSome (hall op List.mem_cons_self) s
    have hassoc : done ++ op :: todo = (done ++ [op]) ++ todo := by simp
    have hlt : ¬ maxInstSize ≤ done.length := by
      rw [List.length_append] at hsize
      omega
    obtain ⟨s'', hbehind, hrun⟩ := ih (done ++ [op]) s' (behind_prefixByte hs hs')
      (fun op' hop' => hall op' (List.mem_cons_of_mem _ hop')) (hassoc ▸ hsize)
    rw [hassoc]
    refine ⟨s'', hbehind, ?_⟩
    rw [← hrun, ← hassoc, List.length_cons, ← Nat.add_assoc, List.length_append, List.length_singleton]
    rw [decodeInstruction, if_neg hlt]
    rw [instruction_append, if_neg (ne_escape_of_isPrefix (hall op List.mem_cons_self)), hs']

theorem decodeInstruction_eq (secondBaseOps : Byte → X86InstInfo)
    {rest : Nat → Byte} (hall : ∀ op ∈ bytes, IsPrefix is64BitMode op) (hrest : ¬ IsPrefix is64BitMode (rest 0))
    (hsize : bytes.length < maxInstSize) :
    ∃ s, Behind is64BitMode bytes s ∧
      decodeInstruction secondBaseOps is64BitMode (instruction bytes rest) (maxInstSize + 1) 0 .init =
        some (if rest 0 = 0x0F then escapeOp secondBaseOps is64BitMode s (instruction bytes rest) (bytes.length + 1)
          else ⟨.baseOps, (rest 0).toNat, s, bytes.length + 1⟩) := by
  obtain ⟨s, hbehind, hrun⟩ := decodeInstruction_prefixes secondBaseOps is64BitMode rest (maxInstSize + 1 - bytes.length) bytes
    [] .init (behind_init is64BitMode) hall hsize
  have hfuel : maxInstSize + 1 - bytes.length + bytes.length = maxInstSize + 1 := by omega
  have hfuel' : maxInstSize + 1 - bytes.length = (maxInstSize - bytes.length) + 1 := by omega
  rw [List.nil_append, List.length_nil, hfuel, hfuel'] at hrun
  refine ⟨s, hbehind, hrun.trans ?_⟩
  rw [decodeInstruction, if_neg (by omega)]
  dsimp only
  have hop : instruction bytes rest bytes.length = rest 0 := instruction_rest bytes rest 0
  rw [hop, prefixByte_eq_none hrest]
  split_ifs <;> rfl

end FexEmu.Frontend.Prefixes
