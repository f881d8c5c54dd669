import FexEmu.Frontend.InstructionLength
/-!
# What the decoder reads

The limit is looked at before each prefix, and before the opcode byte behind them, only.
-/
namespace FexEmu.Frontend.Instruction

open FlatMemory (Byte)
open ModRM (DecodedOperand rmField regField modField)
open Prefixes

/-! ## Operands -/

theorem decodeModRM16_size (i : ModRM.InstDecoder) {modRM : Byte} (h : modField modRM ≠ 3) (sib : Byte) :
    (ModRM.decodeModRM16 i modRM).2.instructionSize =
      i.instructionSize + (sibBytes true modRM + displacementBytes true modRM sib) := by
  have hlt : modField modRM < 4 := by
    unfold modField
    omega
  unfold ModRM.decodeModRM16 sibBytes displacementBytes ModRM.readData
  obtain h0 | h1 | h2 : modField modRM = 0 ∨ modField modRM = 1 ∨ modField modRM = 2 := by omega
  · by_cases h6 : rmField modRM = 6 <;> simp [h0, h6]
  · simp [h1]
  · simp [h2]

theorem decodeModRM64_size (i : ModRM.InstDecoder) {modRM : Byte} (h : modField modRM ≠ 3) (hsib : i.decodedSIB = false) :
    (ModRM.decodeModRM64 i modRM).2.instructionSize =
      i.instructionSize +
        (sibBytes false modRM + displacementBytes false modRM (i.instStream i.instructionSize)) := by
  have hlt : modField modRM < 4 := by
    unfold modField
    omega
  unfold ModRM.decodeModRM64 sibBytes displacementBytes ModRM.grabSIB ModRM.readByte ModRM.readData
  obtain h0 | h1 | h2 : modField modRM = 0 ∨ modField modRM = 1 ∨ modField modRM = 2 := by omega
  · by_cases h4 : rmField modRM = 4
    · by_cases h5 : rmField (i.instStream i.instructionSize) = 5 <;> simp [h0, h4, h5, hsib]
    · by_cases h5 : rmField modRM = 5 <;> simp [h0, h4, h5]
  · by_cases h4 : rmField modRM = 4 <;> simp [h1, h4, hsib]
  · by_cases h4 : rmField modRM = 4 <;> simp [h2, h4, hsib]

variable {d : Decoder} {info : InstInfo} {s : PrefixState}

theorem decodeModRMDisp_size (is64BitMode : Bool) (h : modField d.modRM ≠ 3) (hsib : d.decodedSIB = false) :
    (decodeModRMDisp is64BitMode d).2.instructionSize =
      d.instructionSize + (sibBytes (has16BitAddressing is64BitMode d.prefixes) d.modRM +
        displacementBytes (has16BitAddressing is64BitMode d.prefixes) d.modRM d.peek) := by
  unfold decodeModRMDisp
  cases hx : has16BitAddressing is64BitMode d.prefixes with
  | true => exact decodeModRM16_size _ h _
  | false => exact decodeModRM64_size _ h hsib

theorem decodeModRMDisp_something (is64BitMode : Bool) (d : Decoder) :
    (decodeModRMDisp is64BitMode d).1 ≠ .nothing := by
  unfold decodeModRMDisp ModRM.decodeModRM16 ModRM.decodeModRM64
  dsimp only
  split
  · simp
  · split
    · simp
    · split
      · split <;> simp
      · simp

/-- What is read of the stream behind a ModRM byte. -/
def memoryBytes (is64BitMode : Bool) (d : Decoder) : Nat :=
  if modField d.modRM = 3 then 0
  else
    sibBytes (has16BitAddressing is64BitMode d.prefixes) d.modRM +
      displacementBytes (has16BitAddressing is64BitMode d.prefixes) d.modRM d.peek

section ModRMOperand

variable (is64BitMode : Bool) {d : Decoder} {info : InstInfo} {gpr nonGPR : RegClass}

/-- The two registers of a ModRM byte exist. -/
def FieldsValid (d : Decoder) (gpr nonGPR : RegClass) : Prop :=
  fieldReg d.prefixes gpr rexXGPRRBit (regField d.modRM) ≠ .invalid ∧
    (modField d.modRM = 3 → fieldReg d.prefixes nonGPR rexXGPRBBit (rmField d.modRM) ≠ .invalid)

theorem modRMOperand_valid (h : FieldsValid d gpr nonGPR) (hsib : d.decodedSIB = false) :
    ∃ a b d', modRMOperand is64BitMode d info gpr nonGPR .nothing = .ok (a, b, d') ∧
      d'.instructionSize = d.instructionSize + memoryBytes is64BitMode d := by
  obtain ⟨hreg, hrm⟩ := h
  unfold modRMOperand memoryBytes
  simp only [if_neg hreg]
  by_cases h3 : modField d.modRM = 3
  · rw [if_pos h3, if_neg (hrm h3), if_pos h3]
    exact ⟨_, _, _, rfl, rfl⟩
  · simp only [if_neg h3, if_true]
    exact ⟨_, _, _, rfl, decodeModRMDisp_size is64BitMode h3 hsib⟩

theorem modRMOperand_decoded (h : FieldsValid d gpr nonGPR) {decoded : DecodedOperand}
    (hd : modField d.modRM ≠ 3 → decoded ≠ .nothing) :
    ∃ a b d', modRMOperand is64BitMode d info gpr nonGPR decoded = .ok (a, b, d') ∧
      d'.instructionSize = d.instructionSize := by
  obtain ⟨hreg, hrm⟩ := h
  unfold modRMOperand
  simp only [if_neg hreg]
  by_cases h3 : modField d.modRM = 3
  · rw [if_pos h3, if_neg (hrm h3)]
    exact ⟨_, _, _, rfl, rfl⟩
  · rw [if_neg h3, if_neg (hd h3)]
    exact ⟨_, _, _, rfl, rfl⟩

theorem modRMOperand_invalid (h : ¬ FieldsValid d gpr nonGPR) (decoded : DecodedOperand) :
    modRMOperand is64BitMode d info gpr nonGPR decoded = .error d.instructionSize := by
  unfold modRMOperand
  by_cases hreg : fieldReg d.prefixes gpr rexXGPRRBit (regField d.modRM) = .invalid
  · simp [if_pos hreg]
  · by_cases h3 : modField d.modRM = 3
    · have hrm : fieldReg d.prefixes nonGPR rexXGPRBBit (rmField d.modRM) = .invalid := by
        by_contra hrm
        exact h ⟨hreg, fun _ => hrm⟩
      simp [if_pos h3, if_pos hrm]
    · exact absurd ⟨hreg, fun h => absurd h h3⟩ h

end ModRMOperand

/-! ## The rest of an entry -/

theorem literalOperand_size (d : Decoder) (info : InstInfo) (sizes : Sizes) (currentSrc : Nat) :
    (literalOperand d info sizes currentSrc).instructionSize = d.instructionSize + sizes.immediate := by
  unfold literalOperand
  by_cases h0 : sizes.immediate = 0
  · simp [h0]
  · simp only [if_neg h0]
    split <;> rfl

theorem lateOperands_size (d : Decoder) (info : InstInfo) (options : DecodedHeader) (currentSrc : Nat) :
    (lateOperands d info options currentSrc).2.instructionSize = d.instructionSize := by
  unfold lateOperands
  cases info.vex2ndSrc <;> cases info.sfSrcRAX <;> cases info.sfSrcRCX <;> cases info.vexDst <;>
    cases info.sfDstRAX || info.sfDstRDX <;> rfl

theorem opcodeOperands_modRM (h : info.modRM = true) (d : Decoder) (sizes : Sizes) (op : Nat) :
    opcodeOperands d info sizes op = d := by
  have hflags : info.sfDstRAX = false ∧ info.sfDstRDX = false ∧ info.sfREXInByte = false := by
    unfold InstInfo.sfDstRAX InstInfo.sfDstRDX InstInfo.sfREXInByte
    rcases info.oneDest h with hx | ⟨h1, h2, h3⟩
    · simp [hx]
    · simp [h1, h2, h3]
  unfold opcodeOperands
  simp [hflags]

theorem opcodeOperands_size (d : Decoder) (info : InstInfo) (sizes : Sizes) (op : Nat) :
    (opcodeOperands d info sizes op).instructionSize = d.instructionSize := by
  unfold opcodeOperands
  cases info.sfREXInByte <;> cases info.sfDstRAX || info.sfDstRDX <;> rfl

/-! ## An entry -/

/-- The instruction is accepted, and has so many bytes. -/
def Accepts (r : Except Nat Decoder) (size : Nat) : Prop := ∃ d, r = .ok d ∧ d.instructionSize = size

theorem not_accepts_error (n size : Nat) : ¬ Accepts (.error n) size := by
  rintro ⟨d, h, -⟩
  cases h

/-- No operand is decoded yet. -/
structure Fresh (stream : Nat → Byte) (s : PrefixState) (d : Decoder) : Prop where
  instStream : d.instStream = stream
  prefixes : d.prefixes = s
  dest : d.dest = .nothing
  src : ∀ i, d.src i = .nothing
  decodedSIB : d.decodedSIB = false

theorem accepts_operands {sizes : Sizes} {options : DecodedHeader} (r : Except Nat (Nat × Decoder)) (size : Nat) :
    Accepts (r.map fun (currentSrc, d) =>
        let (currentSrc, d) := lateOperands d info options currentSrc
        literalOperand d info sizes currentSrc) size ↔
      ∃ currentSrc d, r = .ok (currentSrc, d) ∧ size = d.instructionSize + sizes.immediate := by
  cases r with
  | error n =>
    constructor
    · exact fun h => absurd h (not_accepts_error n size)
    · rintro ⟨c, d, h, -⟩
      cases h
  | ok r =>
    have hsize : ∀ c (d : Decoder),
        (literalOperand (lateOperands d info options c).2 info sizes (lateOperands d info options c).1).instructionSize =
          d.instructionSize + sizes.immediate := by
      intro c d
      rw [literalOperand_size, lateOperands_size]
    constructor
    · rintro ⟨d, h, rfl⟩
      refine ⟨r.1, r.2, rfl, ?_⟩
      cases h
      exact hsize r.1 r.2
    · rintro ⟨c, d, h, rfl⟩
      cases h
      exact ⟨_, rfl, hsize c d⟩

theorem vexSource_same (d : Decoder) (info : InstInfo) (options : DecodedHeader) :
    (vexSource d info options).2.instructionSize = d.instructionSize ∧
      (vexSource d info options).2.instStream = d.instStream ∧
      (vexSource d info options).2.prefixes = d.prefixes ∧ (vexSource d info options).2.modRM = d.modRM ∧
      (vexSource d info options).2.dest = d.dest ∧ (vexSource d info options).2.decodedSIB = d.decodedSIB := by
  unfold vexSource
  split <;> exact ⟨rfl, rfl, rfl, rfl, rfl, rfl⟩

theorem vexSource_src {options : DecodedHeader} (h : ∀ i, d.src i = .nothing) :
    (vexSource d info options).2.src (vexSource d info options).1 = .nothing := by
  unfold vexSource
  split
  · simp [Decoder.setSrc, h 1]
  · exact h 0

theorem modRMOperands_fresh (is64BitMode : Bool) (hm : info.modRM = true)
    (sizes : Sizes) (currentSrc : Nat) (hdest : d.dest = .nothing) (hsrc : d.src currentSrc = .nothing)
    (hsib : d.decodedSIB = false) :
    (registersValid d.prefixes info sizes d.modRM →
      ∃ c d', modRMOperands is64BitMode d info sizes currentSrc = .ok (c, d') ∧
        d'.instructionSize = d.instructionSize + memoryBytes is64BitMode d) ∧
    (¬ registersValid d.prefixes info sizes d.modRM →
      modRMOperands is64BitMode d info sizes currentSrc = .error d.instructionSize) := by
  unfold modRMOperands registersValid
  simp only [hm, Bool.not_true, Bool.false_eq_true, if_false, hdest, hsrc]
  cases info.sfModDst with
  | true =>
    simp only [if_true]
    constructor
    · intro h
      obtain ⟨a, b, d', he, hsize⟩ := @modRMOperand_valid is64BitMode d info _ _ h hsib
      rw [he]
      exact ⟨_, _, rfl, hsize⟩
    · intro h
      rw [@modRMOperand_invalid is64BitMode d info _ _ h]
      rfl
  | false =>
    simp only [Bool.false_eq_true, if_false]
    constructor
    · intro h
      obtain ⟨a, b, d', he, hsize⟩ := @modRMOperand_valid is64BitMode d info _ _ h hsib
      rw [he]
      exact ⟨_, _, rfl, hsize⟩
    · intro h
      rw [@modRMOperand_invalid is64BitMode d info _ _ h]
      rfl

/-- The decoder behind the opcode, with its ModRM byte where it has one. -/
structure Behind (stream : Nat → Byte) (o : Opcode) (start : Nat) (d : Decoder) : Prop extends
    Fresh stream o.prefixes d where
  decodedModRM : d.decodedModRM = o.modRMFirst
  modRM : o.modRMFirst = true → d.modRM = stream o.modRMAt
  modRMAt : o.modRMAt = start + o.bytes
  instructionSize : d.instructionSize = start + o.bytes + if o.modRMFirst then 1 else 0
  operandLast : o.operandFirst = false

/-- The decoder behind the ModRM byte. -/
def withModRM (d : Decoder) : Decoder := if d.decodedModRM then d else d.readModRM

theorem withModRM_fresh {stream : Nat → Byte} {o : Opcode} {start : Nat} (h : Behind stream o start d) :
    Fresh stream o.prefixes (withModRM d) ∧ (withModRM d).modRM = stream o.modRMAt ∧
      (withModRM d).instructionSize = o.modRMAt + 1 := by
  unfold withModRM
  cases hf : o.modRMFirst with
  | true =>
    rw [h.decodedModRM, hf, if_pos rfl]
    refine ⟨h.toFresh, h.modRM hf, ?_⟩
    rw [h.instructionSize, h.modRMAt, hf, if_pos rfl]
  | false =>
    have hsize : d.instructionSize = o.modRMAt := by rw [h.instructionSize, h.modRMAt, hf]; rfl
    rw [h.decodedModRM, hf, if_neg (by simp)]
    refine ⟨⟨h.instStream, h.prefixes, h.dest, h.src, h.decodedSIB⟩, ?_, ?_⟩
    · change d.instStream d.instructionSize = _
      rw [h.instStream, hsize]
    · change d.instructionSize + 1 = _
      rw [hsize]

theorem decodeOperands_plain (is64BitMode : Bool) (d : Decoder) (hm : info.modRM = false)
    (options : DecodedHeader) (op size : Nat) :
    Accepts (decodeOperands is64BitMode d info op options) size ↔
      size = d.instructionSize + (normalOpSizes is64BitMode d.prefixes.flags options.w info.toX86InstInfo).immediate := by
  unfold decodeOperands
  simp only [hm, Bool.false_and, Bool.false_eq_true, if_false]
  rw [accepts_operands]
  unfold modRMOperands
  simp only [hm, Bool.not_false, if_true]
  generalize normalOpSizes _ _ _ _ = sizes
  obtain ⟨hsize, -⟩ := vexSource_same (opcodeOperands d info sizes op) info options
  rw [opcodeOperands_size] at hsize
  constructor
  · rintro ⟨c, d', he, rfl⟩
    cases he
    rw [hsize]
  · rintro rfl
    exact ⟨_, _, rfl, by rw [hsize]⟩

theorem decodeOperands_modRM (is64BitMode : Bool) {stream : Nat → Byte}
    (hm : info.modRM = true) (h : Fresh stream s (withModRM d)) (options : DecodedHeader) (op size : Nat) :
    Accepts (decodeOperands is64BitMode d info op options) size ↔
      registersValid s info (normalOpSizes is64BitMode s.flags options.w info.toX86InstInfo) (withModRM d).modRM ∧
        size = (withModRM d).instructionSize + memoryBytes is64BitMode (withModRM d) +
          (normalOpSizes is64BitMode s.flags options.w info.toX86InstInfo).immediate := by
  unfold decodeOperands
  have hd : (if info.modRM && !d.decodedModRM then d.readModRM else d) = withModRM d := by
    unfold withModRM
    cases d.decodedModRM <;> simp [hm]
  simp only [hd, opcodeOperands_modRM hm]
  rw [accepts_operands, h.prefixes]
  generalize normalOpSizes _ _ _ _ = sizes
  obtain ⟨hsize, hstream, hprefixes, hmodRM, hdest, hsib⟩ := vexSource_same (withModRM d) info options
  obtain ⟨hvalid, hinvalid⟩ := modRMOperands_fresh is64BitMode hm sizes (vexSource (withModRM d) info options).1
    (hdest.trans h.dest) (vexSource_src h.src) (hsib.trans h.decodedSIB)
  rw [hprefixes, hmodRM, h.prefixes] at hvalid hinvalid
  have hmemory : memoryBytes is64BitMode (vexSource (withModRM d) info options).2 =
      memoryBytes is64BitMode (withModRM d) := by
    unfold memoryBytes Decoder.peek
    rw [hmodRM, hprefixes, hstream, hsize]
  rw [hmemory, hsize] at hvalid
  by_cases hv : registersValid s info sizes (withModRM d).modRM
  · obtain ⟨c, d', he, hd'⟩ := hvalid hv
    rw [he]
    constructor
    · rintro ⟨c, d'', he', rfl⟩
      cases he'
      exact ⟨hv, by rw [hd']⟩
    · rintro ⟨-, rfl⟩
      exact ⟨c, d', rfl, by rw [hd']⟩
  · rw [hinvalid hv]
    constructor
    · rintro ⟨c, d', he, -⟩
      cases he
    · exact fun h => absurd h.1 hv

theorem normalOp_accepts (is64BitMode : Bool) {stream : Nat → Byte} {o : Opcode} {start : Nat} {d : Decoder}
    (h : Behind stream o start d) (op size : Nat) :
    Accepts (normalOp is64BitMode d o.info op o.options) size ↔
      o.Valid is64BitMode stream ∧ size = (o.encoding is64BitMode stream start).length := by
  have hop : Behind stream o start { d with op } :=
    ⟨⟨h.instStream, h.prefixes, h.dest, h.src, h.decodedSIB⟩, h.decodedModRM, h.modRM, h.modRMAt, h.instructionSize,
      h.operandLast⟩
  unfold normalOp Opcode.Valid
  cases hr : o.info.isRefused with
  | true => simp [not_accepts_error]
  | false =>
    simp only [Bool.false_eq_true, if_false, true_and]
    unfold Opcode.encoding Encoding.length Opcode.sizes
    rw [h.operandLast]
    generalize { d with op } = d₁ at hop
    cases hm : o.info.modRM with
    | false =>
      rw [decodeOperands_plain is64BitMode d₁ hm, hop.prefixes, hop.instructionSize]
      simp
    | true =>
      obtain ⟨hfresh, hmodRM, hsize⟩ := withModRM_fresh hop
      rw [decodeOperands_modRM is64BitMode hm hfresh, hsize]
      unfold memoryBytes Decoder.peek
      rw [hmodRM, hsize, hfresh.prefixes, hfresh.instStream, hop.modRMAt]
      by_cases h3 : modField (stream (start + o.bytes)) = 3
      · simp [h3]
      · simp [h3, Nat.add_assoc]

/-! ## The opcode -/

section Opcode

variable (tables : Tables) (is64BitMode : Bool) {stream : Nat → Byte} {s : PrefixState} {d : Decoder} {start bytes : Nat}

/-- What is accepted behind an opcode, if there is one. -/
def OpcodeAccepts (stream : Nat → Byte) (o : Option Opcode) (start size : Nat) : Prop :=
  ∃ o', o = some o' ∧ o'.Valid is64BitMode stream ∧ size = (o'.encoding is64BitMode stream start).length

theorem opcodeAccepts_some (o : Opcode) (size : Nat) :
    OpcodeAccepts is64BitMode stream (some o) start size ↔
      o.Valid is64BitMode stream ∧ size = (o.encoding is64BitMode stream start).length := by
  constructor
  · rintro ⟨o', h, hv⟩
    cases h
    exact hv
  · exact fun h => ⟨o, rfl, h⟩

theorem opcodeAccepts_none (size : Nat) : ¬ OpcodeAccepts is64BitMode stream none start size := by
  rintro ⟨o, h, -⟩
  cases h

theorem normalOp_group (h : Fresh stream s d) (hsize : d.instructionSize = start + bytes) (info : InstInfo)
    (options : DecodedHeader) (op size : Nat) :
    Accepts (normalOp is64BitMode d.readModRM info op options) size ↔
      OpcodeAccepts is64BitMode stream (some (groupOpcode info s options start bytes)) start size := by
  rw [opcodeAccepts_some]
  have hmodRM : d.readModRM.modRM = stream (start + bytes) := by
    change d.instStream d.instructionSize = _
    rw [h.instStream, hsize]
  exact @normalOp_accepts is64BitMode stream (groupOpcode info s options start bytes) start d.readModRM
    ⟨⟨h.instStream, h.prefixes, h.dest, h.src, h.decodedSIB⟩, rfl, fun _ => hmodRM, rfl,
      congrArg (· + 1) hsize, rfl⟩ op size

theorem normalOp_entry (h : Fresh stream s d) (hm : d.decodedModRM = false) (hsize : d.instructionSize = start + bytes)
    (info : InstInfo) (options : DecodedHeader) (op size : Nat) :
    Accepts (normalOp is64BitMode d info op options) size ↔
      OpcodeAccepts is64BitMode stream (some ⟨info, s, options, bytes, start + bytes, false, false⟩) start size := by
  rw [opcodeAccepts_some]
  exact @normalOp_accepts is64BitMode stream ⟨info, s, options, bytes, start + bytes, false, false⟩ start d
    ⟨h, hm, fun hx => by simp at hx, rfl, hsize, rfl⟩ op size

theorem vexPrefix_spec (h : Fresh stream s d) (hm : d.decodedModRM = false) (op : Nat) :
    Fresh stream (vexPrefix is64BitMode d op).decoder.prefixes (vexPrefix is64BitMode d op).decoder ∧
      (vexPrefix is64BitMode d op).decoder.decodedModRM = false ∧
      d.instructionSize ≤ (vexPrefix is64BitMode d op).decoder.instructionSize := by
  unfold vexPrefix Decoder.skipBytes
  dsimp only
  repeat' split
  all_goals exact ⟨⟨h.instStream, rfl, h.dest, h.src, h.decodedSIB⟩, hm, by dsimp only; omega⟩

theorem fresh_cursor (n op : Nat) : Fresh stream s { cursor stream s n with op } := ⟨rfl, rfl, rfl, fun _ => rfl, rfl⟩

theorem vexOpcode_accepts (op size : Nat) :
    let vex := vexPrefix is64BitMode { cursor stream s (start + bytes) with op } op
    let d := vex.decoder
    let op' := (vex.mapSelect - 1) <<< 10 ||| vex.pp <<< 8 ||| d.peek.toNat
    Accepts (if vex.mapSelect < 1 ∨ 3 < vex.mapSelect then .error d.instructionSize
      else
        match (tables.vexTableOps op').type with
        | .vexGroup12To17 group =>
          let d := (d.skipBytes 1).readModRM
          let op' := group.val <<< 4 ||| vex.pp <<< 3 ||| regField d.modRM
          normalOp is64BitMode d (tables.vexTableGroupOps op') op' vex.options
        | _ => normalOp is64BitMode (d.skipBytes 1) (tables.vexTableOps op') op' vex.options) size ↔
      OpcodeAccepts is64BitMode stream (vexOpcode tables vex start) start size := by
  intro vex d op'
  obtain ⟨hfresh, hm, hle⟩ := vexPrefix_spec is64BitMode (@fresh_cursor stream s (start + bytes) op)
    rfl op
  have hstart : start ≤ d.instructionSize := Nat.le_trans (Nat.le_add_right _ _) hle
  have hskip : Fresh stream d.prefixes (d.skipBytes 1) :=
    ⟨hfresh.instStream, rfl, hfresh.dest, hfresh.src, hfresh.decodedSIB⟩
  have hsize : (d.skipBytes 1).instructionSize = start + (d.instructionSize + 1 - start) := by
    change d.instructionSize + 1 = _
    omega
  change _ ↔ OpcodeAccepts is64BitMode stream (if vex.mapSelect < 1 ∨ 3 < vex.mapSelect then none else _) start size
  by_cases hmap : vex.mapSelect < 1 ∨ 3 < vex.mapSelect
  · rw [if_pos hmap, if_pos hmap]
    exact iff_of_false (not_accepts_error _ size) (opcodeAccepts_none is64BitMode size)
  · rw [if_neg hmap, if_neg hmap]
    cases (tables.vexTableOps op').type with
    | vexGroup12To17 group => exact normalOp_group is64BitMode hskip hsize _ vex.options _ size
    | _ => exact normalOp_entry is64BitMode hskip hm hsize _ vex.options op' size

theorem normalOpHeader_accepts (info : InstInfo) (op size : Nat) :
    Accepts (normalOpHeader tables is64BitMode (cursor stream s (start + bytes)) info op) size ↔
      OpcodeAccepts is64BitMode stream (entryOpcode tables is64BitMode stream s info op start bytes) start size := by
  have hfresh := @fresh_cursor stream s (start + bytes) op
  unfold normalOpHeader entryOpcode
  cases hr : info.isRefused with
  | true =>
    exact iff_of_false (not_accepts_error _ size) (opcodeAccepts_none is64BitMode size)
  | false =>
    cases info.type with
    | group1To11 group => exact normalOp_group is64BitMode hfresh rfl _ noHeader _ size
    | group6ToP group =>
      change Accepts (if (tables.secondInstGroupOps (group.val <<< 5 ||| prefixType s <<< 3 |||
        regField (stream (start + bytes)))).type = .secondGroupModRM then _ else _) size ↔ _
      dsimp only
      split
      · exact normalOp_group is64BitMode hfresh rfl _ noHeader _ size
      · exact normalOp_group is64BitMode hfresh rfl _ noHeader _ size
    | x87TablePrefix => exact normalOp_group is64BitMode hfresh rfl _ noHeader _ size
    | vexTablePrefix => exact vexOpcode_accepts tables is64BitMode op size
    | groupEVEX =>
      exact @normalOp_entry is64BitMode stream s _ start (bytes + 4) (fresh_cursor _ op) rfl rfl _ noHeader _ size
    | _ => exact normalOp_entry is64BitMode hfresh rfl rfl info noHeader op size

theorem decodeDDDNowOperand_spec (hsib : d.decodedSIB = false) :
    let d' := decodeDDDNowOperand is64BitMode d
    d'.instStream = d.instStream ∧ d'.prefixes = d.prefixes ∧ d'.modRM = d.modRM ∧
      d'.decodedModRM = d.decodedModRM ∧ d'.dest = d.dest ∧ (modField d.modRM ≠ 3 → d'.src 0 ≠ .nothing) ∧
      d'.instructionSize = d.instructionSize + memoryBytes is64BitMode d := by
  intro d'
  by_cases h3 : modField d.modRM = 3
  · have hd : d' = d := if_neg (not_not.2 h3)
    rw [hd]
    unfold memoryBytes
    rw [if_pos h3]
    exact ⟨rfl, rfl, rfl, rfl, rfl, fun h => absurd h3 h, rfl⟩
  · have hd : d' = (decodeModRMDisp is64BitMode d).2.setSrc 0 (decodeModRMDisp is64BitMode d).1 := if_pos h3
    rw [hd]
    unfold memoryBytes
    rw [if_neg h3]
    refine ⟨rfl, rfl, rfl, rfl, rfl, fun _ => ?_, decodeModRMDisp_size is64BitMode h3 hsib⟩
    exact decodeModRMDisp_something is64BitMode d

theorem normalOp_dddNow {info : InstInfo} (hm : info.modRM = true) (hdst : info.sfModDst = false)
    (hvex : info.vex1stSrc = false) (hd : d.decodedModRM = true) (hsrc : modField d.modRM ≠ 3 → d.src 0 ≠ .nothing)
    (op size : Nat) :
    Accepts (decodeOperands is64BitMode d info op noHeader) size ↔
      registersValid d.prefixes info (normalOpSizes is64BitMode d.prefixes.flags false info.toX86InstInfo) d.modRM ∧
        size = d.instructionSize + (normalOpSizes is64BitMode d.prefixes.flags false info.toX86InstInfo).immediate := by
  unfold decodeOperands
  simp only [hd, Bool.not_true, Bool.and_false, Bool.false_eq_true, if_false, opcodeOperands_modRM hm]
  rw [accepts_operands]
  unfold vexSource modRMOperands registersValid
  simp only [hm, hdst, hvex, Bool.not_true, Bool.false_eq_true, if_false]
  generalize hs : normalOpSizes is64BitMode d.prefixes.flags noHeader.w info.toX86InstInfo = sizes
  have hs' : normalOpSizes is64BitMode d.prefixes.flags false info.toX86InstInfo = sizes := hs
  rw [hs']
  by_cases hv : FieldsValid d (destClass info sizes) (srcClass info sizes)
  · obtain ⟨a, b, d', he, hsize⟩ := @modRMOperand_decoded is64BitMode d info _ _ hv _ hsrc
    rw [he]
    constructor
    · rintro ⟨c, d'', he', rfl⟩
      cases he'
      exact ⟨hv, congrArg (· + _) hsize⟩
    · rintro ⟨-, rfl⟩
      exact ⟨_, _, rfl, congrArg (· + _) hsize.symm⟩
  · rw [@modRMOperand_invalid is64BitMode d info _ _ hv]
    constructor
    · rintro ⟨c, d', he', -⟩
      cases he'
    · exact fun h => absurd h.1 hv

theorem accepts_ite {c : Prop} [Decidable c] {a b : Except Nat Decoder} {x y : Option Opcode} {size : Nat}
    (hpos : c → (Accepts a size ↔ OpcodeAccepts is64BitMode stream x start size))
    (hneg : ¬ c → (Accepts b size ↔ OpcodeAccepts is64BitMode stream y start size)) :
    Accepts (if c then a else b) size ↔ OpcodeAccepts is64BitMode stream (if c then x else y) start size := by
  by_cases h : c
  · rw [if_pos h, if_pos h]
    exact hpos h
  · rw [if_neg h, if_neg h]
    exact hneg h

theorem dddNow_accepts (size : Nat) :
    let d := decodeDDDNowOperand is64BitMode (cursor stream s (start + 2)).readModRM
    Accepts (normalOpHeader tables is64BitMode (d.skipBytes 1) (tables.dddNowOps d.peek) d.peek.toNat) size ↔
      OpcodeAccepts is64BitMode stream (dddNowOpcode tables is64BitMode stream s start) start size := by
  intro d
  obtain ⟨hstream, hprefixes, hmodRM, hdecoded, -, hsrc, hsize⟩ :=
    @decodeDDDNowOperand_spec is64BitMode (cursor stream s (start + 2)).readModRM rfl
  have hmem : memoryBytes is64BitMode (cursor stream s (start + 2)).readModRM =
      if modField (stream (start + 2)) = 3 then 0
      else sibBytes (has16BitAddressing is64BitMode s) (stream (start + 2)) +
        displacementBytes (has16BitAddressing is64BitMode s) (stream (start + 2)) (stream (start + 3)) := rfl
  have hpeek : d.peek = stream (start + 3 + memoryBytes is64BitMode (cursor stream s (start + 2)).readModRM) := by
    change d.instStream d.instructionSize = _
    rw [hstream, hsize]
    rfl
  have hopcode : dddNowOpcode tables is64BitMode stream s start =
      if (tables.dddNowOps d.peek).isRefused then none
      else some ⟨tables.dddNowOps d.peek, s, noHeader, 3, start + 2, true, true⟩ := by
    rw [hpeek, hmem]
    rfl
  rw [hopcode]
  unfold normalOpHeader
  rcases tables.isDDDNow d.peek with hu | ⟨hinst, himm, hdst, hvex, -⟩
  · have hr : (tables.dddNowOps d.peek).isRefused = true := by simp [InstInfo.isRefused, hu]
    rw [hr, if_pos rfl, if_pos rfl]
    exact iff_of_false (not_accepts_error _ size) (opcodeAccepts_none is64BitMode size)
  · have hr : (tables.dddNowOps d.peek).isRefused = false := by simp [InstInfo.isRefused, hinst]
    simp only [hr, hinst, Bool.false_eq_true, if_false]
    unfold normalOp
    have hp : d.prefixes = s := hprefixes
    have hm' : d.modRM = stream (start + 2) := hmodRM
    have hs : d.instructionSize = start + 3 + memoryBytes is64BitMode (cursor stream s (start + 2)).readModRM := hsize
    have hbody := @normalOp_dddNow is64BitMode { d.skipBytes 1 with op := d.peek.toNat } _ himm hdst hvex hdecoded
      (fun h3 => hsrc (hmodRM ▸ h3)) d.peek.toNat size
    rw [hr, if_neg (by simp), opcodeAccepts_some]
    refine hbody.trans ?_
    change registersValid d.prefixes _ (normalOpSizes is64BitMode d.prefixes.flags false _) d.modRM ∧
      size = d.instructionSize + 1 + (normalOpSizes is64BitMode d.prefixes.flags false _).immediate ↔ _
    rw [hp, hm', hs, hmem]
    unfold Opcode.Valid Opcode.encoding Encoding.length Opcode.sizes
    by_cases h3 : modField (stream (start + 2)) = 3
    · simp [hr, himm, h3, noHeader]
    · have hnext : start + 2 + 1 = start + 3 := rfl
      simp [hr, himm, h3, noHeader, hnext]
      omega

theorem escapeOp_accepts (size : Nat) :
    Accepts (escapeOp tables is64BitMode (cursor stream s (start + 1))) size ↔
      OpcodeAccepts is64BitMode stream (escapeOpcode tables is64BitMode stream s start) start size := by
  have htable : ∀ info op, Accepts (normalOpHeader tables is64BitMode (cursor stream s (start + 3)) info op) size ↔
      OpcodeAccepts is64BitMode stream (entryOpcode tables is64BitMode stream s info op start 3) start size :=
    fun info op => normalOpHeader_accepts tables is64BitMode info op size
  have hentry : ∀ s info, Accepts (normalOpHeader tables is64BitMode (cursor stream s (start + 2)) info
      (stream (start + 1)).toNat) size ↔ OpcodeAccepts is64BitMode stream
        (entryOpcode tables is64BitMode stream s info (stream (start + 1)).toNat start 2) start size :=
    fun s info => normalOpHeader_accepts tables is64BitMode info _ size
  refine accepts_ite is64BitMode (fun _ => dddNow_accepts tables is64BitMode size) fun _ => ?_
  refine accepts_ite is64BitMode (fun _ => htable _ _) fun _ => ?_
  refine accepts_ite is64BitMode (fun _ => htable _ _) fun _ => ?_
  refine accepts_ite is64BitMode (fun _ => hentry _ _) fun _ => ?_
  refine accepts_ite is64BitMode (fun _ => hentry _ _) fun _ => ?_
  refine accepts_ite is64BitMode (fun _ => hentry _ _) fun _ => ?_
  exact accepts_ite is64BitMode (fun _ => hentry _ _) fun _ => hentry _ _

theorem decodeLoop_opcode (fuel : Nat) (hlt : start < Prefixes.maxInstSize)
    (hs : prefixByte is64BitMode s (stream start) = none)
    (size : Nat) :
    Accepts (decodeLoop tables is64BitMode (fuel + 1) (cursor stream s start)) size ↔
      OpcodeAccepts is64BitMode stream (opcode tables is64BitMode stream s start) start size := by
  unfold decodeLoop opcode
  have hle : ¬ Prefixes.maxInstSize ≤ (cursor stream s start).instructionSize := Nat.not_le.2 hlt
  rw [if_neg hle]
  refine accepts_ite is64BitMode (fun _ => escapeOp_accepts tables is64BitMode size) fun _ => ?_
  split
  · case h_1 s' hs' => cases hs'.symm.trans hs
  · exact normalOpHeader_accepts tables is64BitMode _ _ size

theorem prefixByte_escape : prefixByte is64BitMode s 0x0F = none := by
  unfold prefixByte isREX
  cases is64BitMode <;> simp

theorem decodeLoop_prefix (fuel : Nat) (hlt : start < Prefixes.maxInstSize) {s' : PrefixState}
    (hs : prefixByte is64BitMode s (stream start) = some s') :
    decodeLoop tables is64BitMode (fuel + 1) (cursor stream s start) =
      decodeLoop tables is64BitMode fuel (cursor stream s' (start + 1)) := by
  have hle : ¬ Prefixes.maxInstSize ≤ (cursor stream s start).instructionSize := Nat.not_le.2 hlt
  have hescape : (cursor stream s start).peek ≠ 0x0F := by
    intro h
    have h' : stream start = 0x0F := h
    rw [h', prefixByte_escape] at hs
    cases hs
  rw [decodeLoop, if_neg hle, if_neg hescape]
  split
  · case h_1 s'' hs'' =>
    cases hs''.symm.trans hs
    rfl
  · case h_2 hnone => cases hnone.symm.trans hs

theorem decodeLoop_prefixes {n : Nat} (hn : n ≤ Prefixes.maxInstSize) (hs : prefixesOf is64BitMode stream n = some s)
    (fuel : Nat) :
    decodeLoop tables is64BitMode (fuel + n) (.init stream) = decodeLoop tables is64BitMode fuel (cursor stream s n) := by
  induction n generalizing s fuel with
  | zero =>
    cases hs
    rfl
  | succ n ih =>
    obtain ⟨s₀, hs₀, hs⟩ := Option.bind_eq_some_iff.1 hs
    rw [show fuel + (n + 1) = (fuel + 1) + n by omega, ih (by omega) hs₀ (fuel + 1)]
    exact decodeLoop_prefix tables is64BitMode fuel (by omega) hs

end Opcode

/-! ## The limit -/

variable (tables : Tables) (is64BitMode : Bool) (stream : Nat → Byte)

theorem prefixes_end :
    (∃ n s, n < Prefixes.maxInstSize ∧ prefixesOf is64BitMode stream n = some s ∧
        prefixByte is64BitMode s (stream n) = none) ∨
      ∃ s, prefixesOf is64BitMode stream Prefixes.maxInstSize = some s := by
  have hall : ∀ n ≤ Prefixes.maxInstSize, (∃ m s, m < n ∧ prefixesOf is64BitMode stream m = some s ∧
      prefixByte is64BitMode s (stream m) = none) ∨ ∃ s, prefixesOf is64BitMode stream n = some s := by
    intro n
    induction n with
    | zero => exact fun _ => .inr ⟨_, rfl⟩
    | succ n ih =>
      intro hn
      rcases ih (by omega) with ⟨m, s, hm, h⟩ | ⟨s, hs⟩
      · exact .inl ⟨m, s, by omega, h⟩
      · cases hp : prefixByte is64BitMode s (stream n) with
        | none => exact .inl ⟨n, s, by omega, hs, hp⟩
        | some s' => exact .inr ⟨s', by rw [prefixesOf, hs]; exact hp⟩
  exact hall Prefixes.maxInstSize (Nat.le_refl _)

theorem prefixesOf_mono {m n : Nat} (hmn : m ≤ n) (h : prefixesOf is64BitMode stream n = some s) :
    ∃ s', prefixesOf is64BitMode stream m = some s' := by
  induction n generalizing s with
  | zero => exact ⟨s, by rwa [Nat.le_zero.1 hmn]⟩
  | succ n ih =>
    obtain ⟨s₀, hs₀, -⟩ := Option.bind_eq_some_iff.1 h
    rcases Nat.lt_or_ge n m with hlt | hle
    · exact ⟨s, by rwa [show m = n + 1 by omega]⟩
    · exact ih hle hs₀

theorem prefixesOf_le {m n : Nat} {s' : PrefixState} (hm : prefixesOf is64BitMode stream m = some s)
    (hnone : prefixByte is64BitMode s (stream m) = none) (hn : prefixesOf is64BitMode stream n = some s') : n ≤ m := by
  by_contra hlt
  obtain ⟨s₁, h₁⟩ := prefixesOf_mono is64BitMode stream (show m + 1 ≤ n by omega) hn
  obtain ⟨s₂, h₂, h₃⟩ := Option.bind_eq_some_iff.1 h₁
  rw [hm] at h₂
  cases h₂
  rw [hnone] at h₃
  cases h₃

theorem Encodes.prefixes_eq {e e' : Encoding} (h : Encodes tables is64BitMode stream e)
    (h' : Encodes tables is64BitMode stream e') : e.prefixes = e'.prefixes := by
  obtain ⟨s, o, hs, hnone, -⟩ := h
  obtain ⟨s', o', hs', hnone', -⟩ := h'
  exact le_antisymm (prefixesOf_le is64BitMode stream hs' hnone' hs) (prefixesOf_le is64BitMode stream hs hnone hs')

/-- The decoder accepts exactly the encodings with fewer than fifteen prefixes, and takes all of their bytes. -/
theorem decodeInstruction_accepts (size : Nat) :
    Accepts (decodeInstruction tables is64BitMode stream) size ↔
      ∃ e, Encodes tables is64BitMode stream e ∧ e.prefixes < Prefixes.maxInstSize ∧ size = e.length := by
  unfold decodeInstruction
  rcases prefixes_end is64BitMode stream with ⟨n, s, hn, hs, hnone⟩ | ⟨s, hs⟩
  · have hfuel : Prefixes.maxInstSize + 1 = (Prefixes.maxInstSize - n + 1) + n := by omega
    rw [hfuel, decodeLoop_prefixes tables is64BitMode hn.le hs, decodeLoop_opcode tables is64BitMode _ hn hnone]
    constructor
    · rintro ⟨o, ho, hv, rfl⟩
      exact ⟨o.encoding is64BitMode stream n, ⟨s, o, hs, hnone, ho, hv, rfl⟩, hn, rfl⟩
    · rintro ⟨e, ⟨s', o, hs', hnone', ho, hv, he⟩, hlt, rfl⟩
      have hprefixes : e.prefixes = n :=
        le_antisymm (prefixesOf_le is64BitMode stream hs hnone hs') (prefixesOf_le is64BitMode stream hs' hnone' hs)
      rw [hprefixes] at hs' ho he
      rw [hs] at hs'
      cases hs'
      exact ⟨o, ho, hv, by rw [he]⟩
  · -- fifteen prefixes use up the limit
    rw [Nat.add_comm, decodeLoop_prefixes tables is64BitMode (Nat.le_refl _) hs]
    constructor
    · exact fun h => absurd h (not_accepts_error _ size)
    · rintro ⟨e, ⟨s', o, hs', hnone', -⟩, hlt, -⟩
      have := prefixesOf_le is64BitMode stream hs' hnone' hs
      omega

/-- The limit of fifteen bytes holds for what is accepted, and every longer encoding is rejected, if and only if each longer
encoding of the stream has fifteen prefixes alone. -/
theorem instructionLength_bounded_iff :
    ((∀ d, decodeInstruction tables is64BitMode stream = .ok d → d.instructionSize ≤ Prefixes.maxInstSize) ∧
      ∀ e, Encodes tables is64BitMode stream e → Prefixes.maxInstSize < e.length →
        ∃ n, decodeInstruction tables is64BitMode stream = .error n) ↔
      ∀ e, Encodes tables is64BitMode stream e → Prefixes.maxInstSize < e.length → Prefixes.maxInstSize ≤ e.prefixes := by
  have haccepts := decodeInstruction_accepts tables is64BitMode stream
  constructor
  · rintro ⟨hlimit, -⟩ e he hlong
    by_contra hlt
    obtain ⟨d, hd, hsize⟩ := (haccepts e.length).2 ⟨e, he, Nat.lt_of_not_le hlt, rfl⟩
    have := hlimit d hd
    omega
  · intro hprefixes
    constructor
    · intro d hd
      obtain ⟨e, he, hlt, hsize⟩ := (haccepts d.instructionSize).1 ⟨d, hd, rfl⟩
      by_contra hlong
      have := hprefixes e he (by omega)
      omega
    · intro e he hlong
      cases hd : decodeInstruction tables is64BitMode stream with
      | error n => exact ⟨n, rfl⟩
      | ok d =>
        obtain ⟨e', he', hlt, -⟩ := (haccepts d.instructionSize).1 ⟨d, hd, rfl⟩
        have hmany := hprefixes e he hlong
        rw [Encodes.prefixes_eq tables is64BitMode stream he he'] at hmany
        omega

/-- `add eax, imm32` of the base table. -/
def addRAX : InstInfo where
  dstSize := .sizeDef
  srcSize := .sizeDef
  xmmFlags := false
  sfDstGPR := false
  sfSrcGPR := false
  sfMMXDst := false
  sfMMXSrc := false
  displaceSizeMul2 := false
  displaceSizeDiv2 := true
  memOffset := false
  noOverlay := false
  noOverlay66 := false
  moreBytes := 4
  moreBytes_le := by decide
  type := .inst
  modRM := false
  sfModDst := false
  sfHighXMMReg := true
  srcSext := true
  srcSext64Bit := false
  vex1stSrc := false
  vex2ndSrc := false
  vexDst := false
  oneDest h := by cases h

/-- An empty entry. -/
def unknownInst : InstInfo where
  dstSize := .sizeDef
  srcSize := .sizeDef
  xmmFlags := false
  sfDstGPR := false
  sfSrcGPR := false
  sfMMXDst := false
  sfMMXSrc := false
  displaceSizeMul2 := false
  displaceSizeDiv2 := false
  memOffset := false
  noOverlay := false
  noOverlay66 := false
  moreBytes := 0
  moreBytes_le := by decide
  type := .unknown
  modRM := false
  sfModDst := false
  sfHighXMMReg := false
  srcSext := false
  srcSext64Bit := false
  vex1stSrc := false
  vex2ndSrc := false
  vexDst := false
  oneDest h := by cases h

/-- The tables, of which the entry of 0x05 is enough. -/
def addTables : Tables where
  baseOps op := if op = 0x05 then addRAX else unknownInst
  secondBaseOps _ := unknownInst
  repModOps _ := unknownInst
  repNEModOps _ := unknownInst
  opSizeModOps _ := unknownInst
  dddNowOps _ := unknownInst
  evexTableOps _ := unknownInst
  h0F38TableOps _ := unknownInst
  h0F3ATableOps _ := unknownInst
  primaryInstGroupOps _ := unknownInst
  secondInstGroupOps _ := unknownInst
  secondModRMTableOps _ := unknownInst
  x87Ops _ := unknownInst
  vexTableOps _ := unknownInst
  vexTableGroupOps _ := unknownInst
  isDDDNow _ := .inl rfl

/-- `add eax, imm32` behind eleven FS prefixes: sixteen bytes. -/
def longAdd (i : Nat) : Byte := if i < 11 then 0x64 else if i = 11 then 0x05 else 0

theorem longAdd_accepted :
    ¬ ∀ (tables : Tables) (is64BitMode : Bool) (stream : Nat → Byte),
      (∀ d, decodeInstruction tables is64BitMode stream = .ok d → d.instructionSize ≤ Prefixes.maxInstSize) ∧
        ∀ e, Encodes tables is64BitMode stream e → Prefixes.maxInstSize < e.length →
          ∃ n, decodeInstruction tables is64BitMode stream = .error n := by
  intro h
  have hsize : (decodeInstruction addTables true longAdd).toOption.map Decoder.instructionSize = some 16 := by decide
  obtain ⟨d, hd, hd16⟩ := Option.map_eq_some_iff.1 hsize
  have hok : decodeInstruction addTables true longAdd = .ok d := by
    cases hx : decodeInstruction addTables true longAdd with
    | error n =>
      rw [hx] at hd
      cases hd
    | ok d' =>
      rw [hx] at hd
      cases hd
      rfl
  have := (h addTables true longAdd).1 d hok
  rw [hd16] at this
  exact absurd this (by decide)

end FexEmu.Frontend.Instruction
