import FexEmu.Frontend.PrefixesProofs
/-!
# Prefixes at the opcode

The selected entry and sizes are those of the rules if and only if no prefix is left over that the rules overlook.
-/
namespace FexEmu.Frontend.Prefixes

open FlatMemory (Byte)
open ModRM (modField rmField)

/-! ## Sizes -/

/-- The operand size prefix makes an operand of the flag smaller. -/
def SizeFlag.narrows (size : SizeFlag) : Bool := size = .sizeDef ∨ size = .size64BitDef

/-- `REX.W` makes an operand of the flag larger. -/
def SizeFlag.widens (size : SizeFlag) : Bool := size = .sizeDef ∨ size = .size32Bit

/-- The operand size prefix makes a difference to an instruction. -/
def Narrows (has67 : Bool) (info : X86InstInfo) : Prop :=
  info.dstSize.narrows ∨ info.srcSize.narrows ∨
    (info.displaceSizeDiv2 ∧ (if info.memOffset && has67 then 2 else 1) ≤ info.moreBytes)

/-- `REX.W` makes a difference to an instruction. -/
def Widens (info : X86InstInfo) : Prop :=
  info.dstSize.widens ∨ info.srcSize.widens ∨ (info.displaceSizeMul2 ∧ 0 < info.moreBytes)

/-- Where two operand sizes differ, the instruction has none. -/
def Indifferent (has67 : Bool) (info : X86InstInfo) (size size' : OperandSize) : Prop :=
  ((size = .narrow ↔ size' = .narrow) ∨ ¬ Narrows has67 info) ∧ ((size = .wide ↔ size' = .wide) ∨ ¬ Widens info)

variable {size : OperandSize} {is64BitMode uses66 : Bool} {bytes : List Byte}

theorem SizeFlag.bytes_eq_iff {ext : Bool} {size' : OperandSize} (h : size = .wide → ext = true)
    (h' : size' = .wide → ext = true) (f : SizeFlag) :
    f.bytes ext size = f.bytes ext size' ↔
      ((size = .narrow ↔ size' = .narrow) ∨ ¬ f.narrows) ∧ ((size = .wide ↔ size' = .wide) ∨ ¬ f.widens) := by
  revert h h'
  cases size <;> cases size' <;> cases f <;> cases ext <;> decide

theorem immediateBytes_eq_iff (has67 : Bool) (size size' : OperandSize) (info : X86InstInfo) :
    immediateBytes has67 size info = immediateBytes has67 size' info ↔
      ((size = .narrow ↔ size' = .narrow) ∨
        ¬ (info.displaceSizeDiv2 ∧ (if info.memOffset && has67 then 2 else 1) ≤ info.moreBytes)) ∧
      ((size = .wide ↔ size' = .wide) ∨ ¬ (info.displaceSizeMul2 ∧ 0 < info.moreBytes)) := by
  unfold immediateBytes
  cases info.memOffset && has67 <;> cases info.displaceSizeMul2 <;> cases info.displaceSizeDiv2 <;> cases size <;>
    cases size' <;> simp <;> omega

theorem assignedSizes_eq_iff {has67 : Bool} {size' : OperandSize} (h : size = .wide → is64BitMode = true)
    (h' : size' = .wide → is64BitMode = true) (info : X86InstInfo) :
    assignedSizes is64BitMode has67 size info = assignedSizes is64BitMode has67 size' info ↔
      Indifferent has67 info size size' := by
  have hext : ∀ {x : Bool} {size : OperandSize}, (size = .wide → is64BitMode = true) → size = .wide →
      (x || is64BitMode) = true := fun h hw => by rw [h hw, Bool.or_true]
  unfold assignedSizes
  rw [Sizes.mk.injEq, SizeFlag.bytes_eq_iff (hext h) (hext h'), SizeFlag.bytes_eq_iff (hext h) (hext h'),
    immediateBytes_eq_iff]
  have hdist : ∀ {p a b c : Prop}, (p ∨ ¬ (a ∨ b ∨ c)) ↔ (p ∨ ¬ a) ∧ (p ∨ ¬ b) ∧ (p ∨ ¬ c) := by
    intro p a b c
    rw [not_or, not_or, or_and_left, or_and_left]
  unfold Indifferent Narrows Widens
  rw [hdist, hdist]
  constructor
  · rintro ⟨⟨hdst, hdst'⟩, ⟨hsrc, hsrc'⟩, hbytes, hbytes'⟩
    exact ⟨⟨hdst, hsrc, hbytes⟩, hdst', hsrc', hbytes'⟩
  · rintro ⟨⟨hdst, hsrc, hbytes⟩, hdst', hsrc', hbytes'⟩
    exact ⟨⟨hdst, hdst'⟩, ⟨hsrc, hsrc'⟩, hbytes, hbytes'⟩

theorem normalOpSizes_eq {flags : BitVec 32} (hsize : getOpAddr flags 0 = size.marker)
    (hwide : size = .wide → is64BitMode = true) (info : X86InstInfo) :
    normalOpSizes is64BitMode flags false info =
      assignedSizes is64BitMode (flags &&& flag addressSizeBit != 0) size info := by
  have hoperand : ∀ (x : Bool) (f : SizeFlag), operandSize is64BitMode x (decide (size = .wide)) (decide (size = .narrow)) f =
      f.bytes (x || is64BitMode) size := by
    revert hwide
    cases size <;> cases is64BitMode <;> intro hwide x f <;> cases x <;> cases f <;> simp_all [operandSize, SizeFlag.bytes]
  have hwidening : (size.marker &&& wideningSizeLast != 0) = decide (size = .wide) := by cases size <;> decide
  have hnarrowing : (size.marker &&& operandSizeLast != 0) = decide (size = .narrow) := by cases size <;> decide
  unfold normalOpSizes assignedSizes
  dsimp only
  rw [hsize, hwidening, hnarrowing, Bool.false_and, Bool.or_false, hoperand, hoperand]
  congr 1
  unfold immediateBytes
  cases size <;> simp

/-! ## Entries -/

/-- The opcode is looked up where the rules look it up. -/
def Selects (secondBaseOps : Byte → X86InstInfo) (is64BitMode : Bool) (bytes : List Byte) (rest : Nat → Byte) : Prop :=
  let op := rest 1
  if rest 0 ≠ 0x0F then True
  else if op = 0x0F then True
  else if op = 0x38 then
    ¬ (bytes.contains 0xF2 ∧ bytes.contains 0xF3) ∧
      ¬ (bytes.contains 0x66 ∧ (bytes.contains 0xF3 ∨ (bytes.contains 0xF2 ∧ sized38 (rest 2) = false)))
  else if op = 0x3A then repeatPrefix bytes = none ∧ bytes.any (isREXW is64BitMode) = rexW is64BitMode bytes
  else (secondBaseOps op).noOverlay = true ∨ ¬ (repeatPrefix bytes ≠ none ∧ lastEscape bytes = some 0x66)

theorem repeatPrefix_cases (bytes : List Byte) :
    repeatPrefix bytes = none ∧ bytes.contains 0xF2 = false ∧ bytes.contains 0xF3 = false ∨
      repeatPrefix bytes = some 0xF2 ∧ bytes.contains 0xF2 = true ∨
      repeatPrefix bytes = some 0xF3 ∧ bytes.contains 0xF3 = true := by
  unfold repeatPrefix
  cases h : (bytes.filter fun op => op == 0xF2 || op == 0xF3).getLast? with
  | none =>
    rw [List.getLast?_eq_none_iff, List.filter_eq_nil_iff] at h
    have hnot : ∀ op, (op == 0xF2 || op == 0xF3) = true → bytes.contains op = false := fun op hop =>
      Bool.eq_false_iff.2 fun hmem => h op (List.contains_iff_mem.1 hmem) hop
    exact .inl ⟨rfl, hnot _ (by decide), hnot _ (by decide)⟩
  | some op =>
    obtain ⟨hmem, hop⟩ := List.mem_filter.1 (List.mem_of_getLast? h)
    rw [← List.contains_iff_mem] at hmem
    rw [Bool.or_eq_true, beq_iff_eq, beq_iff_eq] at hop
    rcases hop with rfl | rfl
    · exact .inr (.inl ⟨rfl, hmem⟩)
    · exact .inr (.inr ⟨rfl, hmem⟩)

theorem lastEscape_cases (bytes : List Byte) :
    lastEscape bytes = some 0x66 ∧ bytes.contains 0x66 = true ∨
      lastEscape bytes = repeatPrefix bytes ∧ (repeatPrefix bytes = none → bytes.contains 0x66 = false) := by
  unfold lastEscape repeatPrefix
  induction bytes using List.reverseRecOn with
  | nil => exact .inr ⟨rfl, fun _ => rfl⟩
  | append_singleton bytes op ih =>
    rw [getLast?_filter_snoc, getLast?_filter_snoc, contains_snoc]
    unfold isEscape
    by_cases h66 : op = 0x66
    · subst h66
      exact .inl ⟨rfl, by rw [Bool.or_eq_true]; exact .inr rfl⟩
    · rw [beq_false_of_ne h66, Bool.false_or, Bool.or_false]
      cases hrepeat : op == 0xF2 || op == 0xF3 with
      | true =>
        exact .inr ⟨rfl, fun h => nomatch h⟩
      | false =>
        exact ih

theorem dddNowOperand_eq {s : PrefixState} (h : Behind is64BitMode bytes s) (stream : Nat → Byte) (size : Nat) :
    dddNowOperand is64BitMode s stream size =
      size + 1 + operandBytes (!is64BitMode && bytes.contains 0x67) (stream size) (stream (size + 1)) := by
  unfold dddNowOperand operandBytes
  rw [h.addressSize]
  by_cases hmod : modField (stream size) = 3
  · rw [if_neg (not_not.mpr hmod), if_pos hmod]
  · rw [if_pos hmod, if_neg hmod]
    split_ifs with h16 hrm
    · exact (ModRM.follows16 _ _ hmod false).2
    · have hsib : ∀ d : ModRM.InstDecoder, d.decodedSIB = false → ModRM.sibSize d (rmField (stream size)) = 1 :=
        fun d hd => if_pos ⟨hrm, hd⟩
      rw [ModRM.instructionSize_decodeModRM64 _ hmod, hsib _ rfl, ← Nat.add_assoc]
      rfl
    · have hsib : ∀ d, ModRM.sibSize d (rmField (stream size)) = 0 := fun d => if_neg fun h => hrm h.1
      rw [ModRM.instructionSize_decodeModRM64 _ hmod, hsib, Nat.zero_add]
      rfl

/-- The entry is the one that is selected behind so many prefixes. -/
structure Selected.Is (selected : Selected) (bytes : Nat) (entry : Entry) : Prop where
  table : selected.table = entry.table
  index : selected.index = entry.index
  size : selected.instructionSize = bytes + entry.size

/-- What is selected for the opcode behind the prefixes. -/
def selectedBehind (secondBaseOps : Byte → X86InstInfo) (is64BitMode : Bool) (bytes : List Byte) (rest : Nat → Byte)
    (s : PrefixState) : Selected :=
  if rest 0 = 0x0F then escapeOp secondBaseOps is64BitMode s (instruction bytes rest) (bytes.length + 1)
  else ⟨.baseOps, (rest 0).toNat, s, bytes.length + 1⟩

theorem exists_is_iff {table : OpTable} {index index' size bytes : Nat} {s : PrefixState} :
    (∃ entry, some (⟨table, index, uses66, size⟩ : Entry) = some entry ∧
      (⟨table, index', s, bytes + size⟩ : Selected).Is bytes entry) ↔ index' = index := by
  constructor
  · rintro ⟨entry, hentry, his⟩
    cases hentry
    exact his.index
  · rintro rfl
    exact ⟨_, rfl, rfl, rfl, rfl⟩

section
variable (secondBaseOps : Byte → X86InstInfo) {is64BitMode : Bool} {bytes : List Byte} (rest : Nat → Byte) {s : PrefixState}
  (h : Behind is64BitMode bytes s)
include h

theorem prefix38_eq_iff (op : Byte) : prefix38 s = (group38 bytes op).1 ↔
    ¬ (bytes.contains 0xF2 ∧ bytes.contains 0xF3) ∧
      ¬ (bytes.contains 0x66 ∧ (bytes.contains 0xF3 ∨ (bytes.contains 0xF2 ∧ sized38 op = false))) := by
  unfold prefix38 group38
  rw [h.operandSize, h.repne, h.rep]
  generalize bytes.contains 0x66 = has66
  rcases repeatPrefix_cases bytes with ⟨hrepeat, hF2, hF3⟩ | ⟨hrepeat, hF2⟩ | ⟨hrepeat, hF3⟩
  · rw [hrepeat, hF2, hF3]
    cases has66 <;> simp
  · rw [hrepeat, hF2]
    cases bytes.contains 0xF3 <;> cases has66 <;> cases sized38 op <;> simp
  · rw [hrepeat, hF3]
    cases bytes.contains 0xF2 <;> cases has66 <;> simp

theorem prefix3A_eq_iff (hrepeat : repeatPrefix bytes = none) :
    prefix3A s = (if bytes.contains 0x66 then 1 else 0) + (if rexW is64BitMode bytes then 2 else 0) ↔
      bytes.any (isREXW is64BitMode) = rexW is64BitMode bytes := by
  have h66 : s.lastEscapePrefix = 0x66 ↔ bytes.contains 0x66 = true := by
    rw [h.lastEscape]
    rcases lastEscape_cases bytes with ⟨hlast, hmem⟩ | ⟨hlast, hnone⟩
    · rw [hlast, hmem]
      exact iff_of_true rfl rfl
    · rw [hlast, hrepeat, hnone hrepeat]
      exact iff_of_false (by decide) Bool.false_ne_true
  unfold prefix3A
  rw [h.widening]
  simp only [h66]
  cases bytes.any (isREXW is64BitMode) <;> cases rexW is64BitMode bytes <;> simp

theorem selects_dddNow (hescape : rest 0 = 0x0F) (hop : rest 1 = 0x0F) :
    (∃ entry, assigned secondBaseOps is64BitMode bytes rest = some entry ∧
      (selectedBehind secondBaseOps is64BitMode bytes rest s).Is bytes.length entry) ↔
    Selects secondBaseOps is64BitMode bytes rest := by
  have hbyte : ∀ i, instruction bytes rest (bytes.length + i) = rest i := instruction_rest bytes rest
  unfold selectedBehind assigned Selects escapeOp
  rw [if_pos hescape, if_neg (not_not.mpr hescape), if_neg (not_not.mpr hescape), hbyte, if_pos hop, if_pos hop, if_pos hop,
    dddNowOperand_eq h]
  simp only [Nat.add_assoc, Nat.reduceAdd, hbyte]
  exact iff_of_true ⟨_, rfl, rfl, rfl, rfl⟩ trivial

theorem selects_38 (hescape : rest 0 = 0x0F) (hop : rest 1 = 0x38) :
    (∃ entry, assigned secondBaseOps is64BitMode bytes rest = some entry ∧
      (selectedBehind secondBaseOps is64BitMode bytes rest s).Is bytes.length entry) ↔
    Selects secondBaseOps is64BitMode bytes rest := by
  have hbyte : ∀ i, instruction bytes rest (bytes.length + i) = rest i := instruction_rest bytes rest
  have hne : rest 1 ≠ 0x0F := by rw [hop]; decide
  unfold selectedBehind assigned Selects escapeOp
  rw [if_pos hescape, if_neg (not_not.mpr hescape), if_neg (not_not.mpr hescape), hbyte, if_neg hne, if_neg hne, if_neg hne,
    if_pos hop, if_pos hop, if_pos hop, ← prefix38_eq_iff h]
  simp only [Nat.add_assoc, Nat.reduceAdd, hbyte]
  exact exists_is_iff.trans (by omega)

theorem selects_3A (hescape : rest 0 = 0x0F) (hop : rest 1 = 0x3A) :
    (∃ entry, assigned secondBaseOps is64BitMode bytes rest = some entry ∧
      (selectedBehind secondBaseOps is64BitMode bytes rest s).Is bytes.length entry) ↔
    Selects secondBaseOps is64BitMode bytes rest := by
  have hbyte : ∀ i, instruction bytes rest (bytes.length + i) = rest i := instruction_rest bytes rest
  have hne : rest 1 ≠ 0x0F := by rw [hop]; decide
  have hne' : rest 1 ≠ 0x38 := by rw [hop]; decide
  unfold selectedBehind assigned Selects escapeOp
  rw [if_pos hescape, if_neg (not_not.mpr hescape), if_neg (not_not.mpr hescape), hbyte, if_neg hne, if_neg hne, if_neg hne,
    if_neg hne', if_neg hne', if_neg hne', if_pos hop, if_pos hop, if_pos hop]
  simp only [Nat.add_assoc, Nat.reduceAdd, hbyte]
  by_cases hrepeat : repeatPrefix bytes = none
  · rw [if_pos hrepeat, and_iff_right hrepeat]
    exact exists_is_iff.trans (by rw [← prefix3A_eq_iff h hrepeat]; omega)
  · rw [if_neg hrepeat]
    exact iff_of_false (fun ⟨_, hnone, _⟩ => nomatch hnone) fun hnot => hrepeat hnot.1

theorem selects_twoByte (hescape : rest 0 = 0x0F) (hop : rest 1 ∉ [0x0F, 0x38, 0x3A]) :
    (∃ entry, assigned secondBaseOps is64BitMode bytes rest = some entry ∧
      (selectedBehind secondBaseOps is64BitMode bytes rest s).Is bytes.length entry) ↔
    Selects secondBaseOps is64BitMode bytes rest := by
  have hbyte : ∀ i, instruction bytes rest (bytes.length + i) = rest i := instruction_rest bytes rest
  simp only [List.mem_cons, List.not_mem_nil, or_false, not_or] at hop
  obtain ⟨h0F, h38, h3A⟩ := hop
  have hlast := h.lastEscape
  unfold selectedBehind assigned Selects escapeOp
  rw [if_pos hescape, if_neg (not_not.mpr hescape), if_neg (not_not.mpr hescape), hbyte, if_neg h0F, if_neg h0F, if_neg h0F,
    if_neg h38, if_neg h38, if_neg h38, if_neg h3A, if_neg h3A, if_neg h3A]
  by_cases hoverlay : (secondBaseOps (rest 1)).noOverlay = true
  · rw [if_pos hoverlay, if_pos hoverlay]
    exact iff_of_true ⟨_, rfl, rfl, rfl, rfl⟩ (.inl hoverlay)
  rw [if_neg hoverlay, if_neg hoverlay, or_iff_right hoverlay]
  have hne : ¬ (0x66 : Byte) = 0xF3 ∧ ¬ (0x66 : Byte) = 0xF2 ∧ ¬ (0xF2 : Byte) = 0xF3 := by decide
  have hne' : ¬ (0xF2 : Byte) = 0x66 ∧ ¬ (0xF3 : Byte) = 0x66 ∧ ¬ (0 : Byte) = 0xF3 ∧ ¬ (0 : Byte) = 0xF2 ∧
      ¬ (0 : Byte) = 0x66 := by decide
  rcases lastEscape_cases bytes with ⟨h66, hmem⟩ | ⟨hescapes, hnone⟩
  · -- an operand size prefix comes last, and the decoder does not look at the repeat prefixes before it
    rw [h66, Option.getD_some] at hlast
    rw [hlast, h66, hmem]
    rcases repeatPrefix_cases bytes with ⟨hrepeat, -, -⟩ | ⟨hrepeat, -⟩ | ⟨hrepeat, -⟩
    · simp only [hrepeat, hne, reduceCtorEq, if_false, true_and, ne_eq, not_true_eq_false, false_and, not_false_eq_true,
        iff_true]
      split_ifs
      · exact ⟨_, rfl, rfl, rfl, rfl⟩
      · exact ⟨_, rfl, rfl, rfl, rfl⟩
    all_goals
      simp only [hrepeat, hne, Option.some.injEq, reduceCtorEq, if_true, if_false, ne_eq, not_false_eq_true, true_and,
        not_true_eq_false, iff_false]
      rintro ⟨entry, hentry, his⟩
      cases hentry
      exact absurd his.table (by split_ifs <;> decide)
  · rw [hlast, hescapes]
    rcases repeatPrefix_cases bytes with ⟨hrepeat, -, -⟩ | ⟨hrepeat, -⟩ | ⟨hrepeat, -⟩
    · simp only [hnone hrepeat, hrepeat, Option.getD_none, hne', reduceCtorEq, Bool.false_eq_true, false_and, if_false]
      exact iff_of_true ⟨_, rfl, rfl, rfl, rfl⟩ fun hnot => hnot.1 rfl
    · simp only [hrepeat, Option.getD_some, Option.some.injEq, hne, hne', if_true, if_false]
      exact iff_of_true ⟨_, rfl, rfl, rfl, rfl⟩ fun hnot => hnot.2
    · simp only [hrepeat, Option.getD_some, Option.some.injEq, hne', if_true]
      exact iff_of_true ⟨_, rfl, rfl, rfl, rfl⟩ fun hnot => hnot.2

theorem selects_iff :
    (∃ entry, assigned secondBaseOps is64BitMode bytes rest = some entry ∧
      (selectedBehind secondBaseOps is64BitMode bytes rest s).Is bytes.length entry) ↔
    Selects secondBaseOps is64BitMode bytes rest := by
  by_cases hescape : rest 0 = 0x0F
  · by_cases hop : rest 1 ∈ [0x0F, 0x38, 0x3A]
    · simp only [List.mem_cons, List.not_mem_nil, or_false] at hop
      rcases hop with hop | hop | hop
      · exact selects_dddNow secondBaseOps rest h hescape hop
      · exact selects_38 secondBaseOps rest h hescape hop
      · exact selects_3A secondBaseOps rest h hescape hop
    · exact selects_twoByte secondBaseOps rest h hescape hop
  · unfold selectedBehind assigned Selects
    rw [if_neg hescape, if_pos hescape, if_pos hescape]
    exact iff_of_true ⟨_, rfl, rfl, rfl, rfl⟩ trivial

/-! ## The markers at the opcode -/

theorem markedSize_false : getOpAddr s.flags 0 = (markedSize is64BitMode bytes false).marker := by
  rw [h.last]
  unfold markedSize
  cases marks is64BitMode bytes with
  | nil => rfl
  | cons size _ => cases size <;> rfl

theorem markedSize_true {flags : BitVec 32} (hflags : ∀ index < 2, getOpAddr flags index = getOpAddr s.flags index) :
    getOpAddr (popOpAddrIf flags operandSizeLast) 0 = (markedSize is64BitMode bytes true).marker := by
  have hlast := (hflags 0 (by decide)).trans h.last
  have hbefore := (hflags 1 (by decide)).trans h.before
  rw [popOpAddrIf_eq]
  unfold markedSize
  revert hlast hbefore
  cases marks is64BitMode bytes with
  | nil =>
    intro hlast _
    rw [if_neg (by rw [hlast]; decide)]
    exact hlast
  | cons size sizes =>
    rw [List.headD_cons, List.tail_cons]
    intro hlast hbefore
    cases size with
    | narrow =>
      rw [if_pos (show _ = operandSizeLast from hlast), getOpAddr_restack_zero _ _ (getOpAddr_marker _ (by decide))]
      exact hbefore
    | wide =>
      rw [if_neg (by rw [hlast]; decide)]
      exact hlast
    | default =>
      rw [if_neg (by rw [hlast]; decide)]
      exact hlast

theorem state_selectedBehind :
    getOpAddr (selectedBehind secondBaseOps is64BitMode bytes rest s).state.flags 0 = (markedSize is64BitMode bytes
      (decide ((selectedBehind secondBaseOps is64BitMode bytes rest s).table = .opSizeModOps))).marker ∧
    (selectedBehind secondBaseOps is64BitMode bytes rest s).state.has addressSizeBit = bytes.contains 0x67 := by
  have hstay := And.intro (markedSize_false h) h.addressSize
  have hstack : ∀ bit < 25, ∀ index < 2, getOpAddr (s.clear bit).flags index = getOpAddr s.flags index :=
    fun bit hbit index hindex => getOpAddr_congr (fun i hi => getLsbD_clear s (by omega) (by omega)) hindex
  have haddress : ∀ bit < 25, bit ≠ addressSizeBit → (s.clear bit).flags.getLsbD addressSizeBit = bytes.contains 0x67 := by
    intro bit hbit hne
    rw [getLsbD_clear s (by omega) hne.symm, ← has_eq s (by decide), h.addressSize]
  have hclear : ∀ bit < 25, bit ≠ addressSizeBit →
      getOpAddr (s.clear bit).flags 0 = (markedSize is64BitMode bytes false).marker ∧
        (s.clear bit).has addressSizeBit = bytes.contains 0x67 := fun bit hbit hne =>
    ⟨(hstack bit hbit 0 (by decide)).trans (markedSize_false h), (has_eq _ (by decide)).trans (haddress bit hbit hne)⟩
  unfold selectedBehind
  by_cases hescape : rest 0 = 0x0F
  · unfold escapeOp
    dsimp only
    split_ifs
    · exact hstay
    · exact hstay
    · exact hstay
    · exact hstay
    · exact hclear _ (by decide) (by decide)
    · exact hclear _ (by decide) (by decide)
    · refine ⟨markedSize_true h (hstack _ (by decide)), ?_⟩
      rw [has_eq _ (by decide)]
      rw [popOpAddrIf_eq]
      split_ifs
      · exact (getLsbD_restack_low _ _ _ (by decide)).trans (haddress _ (by decide) (by decide))
      · exact haddress _ (by decide) (by decide)
    · exact hstay
  · rw [if_neg hescape]
    exact hstay

theorem lastEscapePrefix_selectedBehind :
    (selectedBehind secondBaseOps is64BitMode bytes rest s).state.lastEscapePrefix = (lastEscape bytes).getD 0 := by
  rw [← h.lastEscape]
  unfold selectedBehind escapeOp
  dsimp only
  split_ifs <;> rfl

end

/-! ## The decoder against the rules -/

theorem is64BitMode_of_isREXW {op : Byte} (h : isREXW is64BitMode op = true) : is64BitMode = true := by
  unfold isREXW isREX at h
  rw [Bool.and_eq_true, Bool.and_eq_true] at h
  exact h.1.1

theorem is64BitMode_of_markedSize (h : markedSize is64BitMode bytes uses66 = .wide) : is64BitMode = true := by
  have hmem : .wide ∈ marks is64BitMode bytes := by
    unfold markedSize at h
    revert h
    cases marks is64BitMode bytes with
    | nil => exact fun h => nomatch h
    | cons size sizes =>
      cases size with
      | narrow =>
        intro h
        cases uses66 with
        | false => cases h
        | true =>
          cases sizes with
          | nil => cases h
          | cons size' sizes =>
            cases h
            exact List.mem_cons_of_mem _ List.mem_cons_self
      | wide => exact fun _ => List.mem_cons_self
      | default => exact fun h => nomatch h
  unfold marks at hmem
  rw [List.mem_reverse, List.mem_filterMap] at hmem
  obtain ⟨op, -, hop⟩ := hmem
  unfold mark at hop
  split_ifs at hop with h66 hrex
  · cases hop
  · exact is64BitMode_of_isREXW hrex

theorem is64BitMode_of_operandSizeOf (h : operandSizeOf is64BitMode bytes uses66 = .wide) : is64BitMode = true := by
  unfold operandSizeOf at h
  split_ifs at h with hrex
  unfold rexW at hrex
  cases hop : bytes.getLast? with
  | none =>
    rw [hop] at hrex
    cases hrex
  | some op =>
    rw [hop] at hrex
    exact is64BitMode_of_isREXW hrex

/-! ## Rows of the second groups -/

/-- In a second group, an operand size prefix that comes last does not hide a repeat prefix, or the entries of both are the
same. -/
def RowsAgree (entries : Entries) (is64BitMode : Bool) (bytes : List Byte) (rest : Nat → Byte) : Prop :=
  ∀ entry, assigned (fun op => (entries .secondBaseOps op.toNat).toX86InstInfo) is64BitMode bytes rest = some entry →
    repeatPrefix bytes ≠ none → lastEscape bytes = some 0x66 →
    ∀ group, (entries entry.table entry.index).type = .group6ToP group →
      (secondGroupOp entries group.val pf66 (rest entry.size)).entry entries =
        (secondGroupOp entries group.val (assignedRow bytes) (rest entry.size)).entry entries

theorem prefixType_eq (h : repeatPrefix bytes ≠ none → lastEscape bytes ≠ some 0x66) :
    prefixType ((lastEscape bytes).getD 0) = assignedRow bytes := by
  unfold assignedRow
  rcases lastEscape_cases bytes with ⟨h66, hmem⟩ | ⟨hescapes, hnone⟩
  · have hrepeat : repeatPrefix bytes = none := by
      by_contra hrepeat
      exact h hrepeat h66
    rw [h66, hrepeat, hmem]
    rfl
  · rw [hescapes]
    rcases repeatPrefix_cases bytes with ⟨hrepeat, -, -⟩ | ⟨hrepeat, -⟩ | ⟨hrepeat, -⟩
    · rw [hnone hrepeat, hrepeat]
      rfl
    · rw [hrepeat]
      rfl
    · rw [hrepeat]
      rfl

theorem normalOpHeader_bytes (entries : Entries) (table : OpTable) (op row row' : Nat) (modRM : Byte) :
    (normalOpHeader entries table op row modRM).bytes = (normalOpHeader entries table op row' modRM).bytes := by
  unfold normalOpHeader secondGroupOp
  dsimp only
  split
  · rfl
  · split_ifs <;> rfl
  · rfl
  · rfl

/-- Only a second group looks at the row. -/
theorem normalOpHeader_entry_iff (entries : Entries) (table : OpTable) (op row row' : Nat) (modRM : Byte) :
    (normalOpHeader entries table op row modRM).entry entries = (normalOpHeader entries table op row' modRM).entry entries ↔
      ∀ group, (entries table op).type = .group6ToP group →
        (secondGroupOp entries group.val row modRM).entry entries =
          (secondGroupOp entries group.val row' modRM).entry entries := by
  unfold normalOpHeader
  dsimp only
  split
  case h_2 group htype =>
    rw [htype]
    constructor
    · rintro h group' hgroup
      cases hgroup
      exact h
    · exact fun h => h group rfl
  all_goals
    rename_i htype
    refine iff_of_true rfl fun group hgroup => ?_
    simp_all

theorem rows_iff (entries : Entries) (table : OpTable) (op : Nat) (modRM : Byte) :
    (normalOpHeader entries table op (prefixType ((lastEscape bytes).getD 0)) modRM).entry entries =
        (normalOpHeader entries table op (assignedRow bytes) modRM).entry entries ↔
      (repeatPrefix bytes ≠ none → lastEscape bytes = some 0x66 → ∀ group, (entries table op).type = .group6ToP group →
        (secondGroupOp entries group.val pf66 modRM).entry entries =
          (secondGroupOp entries group.val (assignedRow bytes) modRM).entry entries) := by
  by_cases hidden : repeatPrefix bytes ≠ none ∧ lastEscape bytes = some 0x66
  · have hrow : prefixType ((lastEscape bytes).getD 0) = pf66 := by
      rw [hidden.2]
      rfl
    rw [hrow, normalOpHeader_entry_iff, forall_prop_of_true hidden.1, forall_prop_of_true hidden.2]
  · rw [prefixType_eq (not_and.1 hidden)]
    exact iff_of_true rfl fun hrepeat hlast => absurd ⟨hrepeat, hlast⟩ hidden

/-! ## The decoder and the rules -/

/-- The last marker asks for the operand size of the rules, or the instruction has none that the prefixes change. -/
def MarkersAgree (entries : Entries) (is64BitMode : Bool) (bytes : List Byte) (rest : Nat → Byte) : Prop :=
  ∀ entry, assigned (fun op => (entries .secondBaseOps op.toNat).toX86InstInfo) is64BitMode bytes rest = some entry →
    let call := normalOpHeader entries entry.table entry.index (assignedRow bytes) (rest entry.size)
    let uses66 := entry.uses66 || groupUses66 (entries entry.table entry.index).type (assignedRow bytes)
    Indifferent (bytes.contains 0x67) (call.entry entries).toX86InstInfo
      (markedSize is64BitMode bytes (decide (entry.table = .opSizeModOps))) (operandSizeOf is64BitMode bytes uses66)

/-- The decoder follows the rules if and only if the opcode is looked up in their table and a group in their row, and the
last marker is their operand size, where the instruction depends on it. -/
theorem decodeInstruction_resolves_iff (entries : Entries) {is64BitMode : Bool} {bytes : List Byte} {rest : Nat → Byte}
    (hall : ∀ op ∈ bytes, IsPrefix is64BitMode op) (hrest : ¬ IsPrefix is64BitMode (rest 0))
    (hsize : bytes.length < maxInstSize) :
    Resolves entries is64BitMode bytes rest ↔
      Selects (fun op => (entries .secondBaseOps op.toNat).toX86InstInfo) is64BitMode bytes rest ∧
        RowsAgree entries is64BitMode bytes rest ∧ MarkersAgree entries is64BitMode bytes rest := by
  obtain ⟨s, hbehind, hrun⟩ :=
    decodeInstruction_eq (fun op => (entries .secondBaseOps op.toNat).toX86InstInfo) hall hrest hsize
  obtain ⟨hmarker, haddress⟩ :=
    state_selectedBehind (fun op => (entries .secondBaseOps op.toNat).toX86InstInfo) rest hbehind
  have hlast := lastEscapePrefix_selectedBehind (fun op => (entries .secondBaseOps op.toNat).toX86InstInfo) rest hbehind
  have hselects := selects_iff (fun op => (entries .secondBaseOps op.toNat).toX86InstInfo) rest hbehind
  change decodeInstruction _ _ _ _ _ _ = some (selectedBehind _ _ _ _ _) at hrun
  unfold Resolves RowsAgree MarkersAgree
  rw [← hselects]
  generalize selectedBehind (fun op => (entries .secondBaseOps op.toNat).toX86InstInfo) is64BitMode bytes rest s =
    selected at *
  -- the flags hold one size, that of the last marker: equal sizes are a matter of the entry
  have hsizes : ∀ entry : Entry, selected.Is bytes.length entry → ∀ (uses66 : Bool) (info : X86InstInfo),
      (normalOpSizes is64BitMode selected.state.flags false info =
        assignedSizes is64BitMode (bytes.contains 0x67) (operandSizeOf is64BitMode bytes uses66) info ↔
      Indifferent (bytes.contains 0x67) info (markedSize is64BitMode bytes (decide (entry.table = .opSizeModOps)))
        (operandSizeOf is64BitMode bytes uses66)) := by
    intro entry his uses66 info
    rw [his.table] at hmarker
    unfold PrefixState.has at haddress
    rw [normalOpSizes_eq hmarker is64BitMode_of_markedSize, haddress]
    exact assignedSizes_eq_iff is64BitMode_of_markedSize is64BitMode_of_operandSizeOf _
  constructor
  · rintro ⟨selected', entry, hselected, hentry, htable, hindex, hlength, -, hcall, hagree⟩
    cases hrun.symm.trans hselected
    rw [hcall, hsizes entry ⟨htable, hindex, hlength⟩] at hagree
    rw [htable, hindex, hlength, instruction_rest, hlast, rows_iff] at hcall
    refine ⟨⟨entry, hentry, htable, hindex, hlength⟩, ?_, ?_⟩
    · intro entry' hentry'
      cases hentry.symm.trans hentry'
      exact hcall
    · intro entry' hentry'
      cases hentry.symm.trans hentry'
      exact hagree
  · rintro ⟨⟨entry, hentry, his⟩, hrows, hagree⟩
    have hcall := (rows_iff entries entry.table entry.index (rest entry.size)).2 (hrows entry hentry)
    rw [← hlast, ← his.table, ← his.index, ← instruction_rest bytes rest entry.size, ← his.size] at hcall
    refine ⟨selected, entry, hrun, hentry, his.table, his.index, his.size, ?_, ?_, ?_⟩
    · rw [his.table, his.index, his.size, instruction_rest]
      exact normalOpHeader_bytes _ _ _ _ _ _
    · rw [hcall, his.table, his.index, his.size, instruction_rest]
    · rw [hcall, his.table, his.index, his.size, instruction_rest]
      exact (hsizes entry his _ _).2 (hagree entry hentry)

theorem no_moreBytes : 0 ≤ 8 := by decide

/-- The entry of `MOVD` behind `66 0F 6E`. -/
def movd : TableEntry where
  name := "MOVD"
  type := .inst
  dstSize := .size128Bit
  srcSize := .sizeDef
  xmmFlags := true
  modRM := true
  sfModDst := false
  sfHighXMMReg := false
  sfDstGPR := false
  sfSrcGPR := true
  sfMMXDst := false
  sfMMXSrc := false
  srcSext := false
  srcSext64Bit := false
  displaceSizeMul2 := false
  displaceSizeDiv2 := false
  memOffset := false
  noOverlay := false
  noOverlay66 := false
  vex1stSrc := false
  vex2ndSrc := false
  vexDst := false
  moreBytes := 0
  moreBytes_le := no_moreBytes
  oneDest := fun _ => .inl rfl

/-- `0F 6E C0`. -/
def movdBytes (i : Nat) : Byte := [0x0F, 0x6E, 0xC0].getD i 0

theorem decodeInstruction_resolves_movd : Resolves (fun _ _ => movd) true [0x66] movdBytes := by
  refine (decodeInstruction_resolves_iff (fun _ _ => movd) (by decide) (by decide) (by decide)).2 ⟨?_, ?_, ?_⟩
  · exact .inr fun hnot => hnot.1 rfl
  · exact fun _ _ hrepeat => absurd rfl hrepeat
  · intro entry hentry
    cases hentry
    exact ⟨.inl (by decide), .inl (by decide)⟩

/-- With two operand size prefixes, one marker is left, and the source has 16 bits. -/
theorem decodeInstruction_keeps_marker : ¬ Resolves (fun _ _ => movd) true [0x66, 0x66] movdBytes := by
  rintro ⟨selected, entry, hselected, hentry, -, -, -, -, -, hsizes⟩
  cases hselected
  cases hentry
  exact absurd hsizes (by decide)

end FexEmu.Frontend.Prefixes
