import FexEmu.Frontend.ModRM
/-!
# Addressing forms

The decoder builds the forms of the architecture but for the SIB byte without a base, if `REX.B` is set.
-/
namespace FexEmu.Frontend.ModRM

open FlatMemory (Byte)
open X86Reg

/-- An address as the manual's tables give it. -/
structure AddressForm where
  base : Option X86Reg
  index : Option (X86Reg × Nat)
  disp : Int
  ripRelative : Bool
deriving DecidableEq

def validReg (r : X86Reg) : Option X86Reg := if r = invalid then none else some r

/-- What an operand stands for. Outside of 64-bit mode, a `RIPRelative` operand is an absolute address. -/
def formOf (is64BitMode : Bool) : DecodedOperand → Option AddressForm
  | .gprDirect r => some ⟨validReg r, none, 0, false⟩
  | .gprIndirect r displacement => some ⟨validReg r, none, displacement.toInt, false⟩
  | .ripRelative value => some ⟨none, none, value.toInt, is64BitMode⟩
  | .sib index base scale offset => some ⟨validReg base, (validReg index).map (·, scale), offset.toInt, false⟩
  | _ => none

/-- Two forms are the same for addresses of so many bits. -/
structure AddressForm.Same (width : Nat) (form form' : AddressForm) : Prop where
  base : form.base = form'.base
  index : form.index = form'.index
  disp : form.disp ≡ form'.disp [ZMOD 2 ^ width]
  ripRelative : form.ripRelative = form'.ripRelative

/-! ## The tables -/

def register : Nat → X86Reg
  | 0 => rax | 1 => rcx | 2 => rdx | 3 => rbx | 4 => rsp | 5 => rbp | 6 => rsi | 7 => rdi
  | 8 => r8 | 9 => r9 | 10 => r10 | 11 => r11 | 12 => r12 | 13 => r13 | 14 => r14 | 15 => r15
  | _ => invalid

def extend (rex : Bool) (n : Nat) : Nat := (if rex then 8 else 0) + n

def registers16 (mod : Nat) : Nat → Option X86Reg × Option X86Reg
  | 0 => (some rbx, some rsi)
  | 1 => (some rbx, some rdi)
  | 2 => (some rbp, some rsi)
  | 3 => (some rbp, some rdi)
  | 4 => (some rsi, none)
  | 5 => (some rdi, none)
  | 6 => (if mod = 0 then none else some rbp, none)
  | _ => (some rbx, none)

def dispSize16 (mod rm : Nat) : Nat := if mod = 1 then 1 else if mod = 2 then 2 else if rm = 6 then 2 else 0

/-- The displacement is as long as `mod` says, or stands alone. -/
def dispSize64 (mod rm sibBase : Nat) : Nat :=
  if mod = 1 then 1 else if mod = 2 then 4 else if rm = 5 ∨ (rm = 4 ∧ sibBase = 5) then 4 else 0

def signedDisp (stream : Nat → Byte) (offset size : Nat) : Int :=
  (FlatMemory.load stream offset size : Int).bmod (2 ^ (8 * size))

def manual16 (stream : Nat → Byte) (offset mod rm : Nat) : AddressForm where
  base := (registers16 mod rm).1
  index := (registers16 mod rm).2.map (·, 1)
  disp := signedDisp stream offset (dispSize16 mod rm)
  ripRelative := false

def manual64 (stream : Nat → Byte) (offset mod rm : Nat) (sib : Byte) (rexX rexB is64BitMode : Bool) : AddressForm where
  base :=
    if rm = 4 then
      if mod = 0 ∧ rmField sib = 5 then none else some (register (extend rexB (rmField sib)))
    else if mod = 0 ∧ rm = 5 then none else some (register (extend rexB rm))
  index :=
    if rm = 4 ∧ extend rexX (regField sib) ≠ 4 then some (register (extend rexX (regField sib)), 2 ^ modField sib)
    else none
  disp := signedDisp stream offset (dispSize64 mod rm (rmField sib))
  ripRelative := decide (mod = 0 ∧ rm = 5) && is64BitMode

/-- The SIB byte of the instruction, and how many bytes it still takes. -/
def sibByte (d : InstDecoder) : Byte := if d.decodedSIB then d.sib else d.instStream d.instructionSize

def sibSize (d : InstDecoder) (rm : Nat) : Nat := if rm = 4 ∧ d.decodedSIB = false then 1 else 0

/-- The operand is what the tables say, and the bytes that they give it are taken. -/
def FollowsTables (is64BitMode has16BitAddressing : Bool) (d : InstDecoder) (modRM : Byte) : Prop :=
  let mod := modField modRM
  let rm := rmField modRM
  if has16BitAddressing then
    let (operand, d') := decodeModRM16 d modRM
    (∃ form, formOf is64BitMode operand = some form ∧ form.Same 16 (manual16 d.instStream d.instructionSize mod rm)) ∧
      d'.instructionSize = d.instructionSize + dispSize16 mod rm
  else
    let (operand, d') := decodeModRM64 d modRM
    let offset := d.instructionSize + sibSize d rm
    (∃ form, formOf is64BitMode operand = some form ∧
      form.Same 64 (manual64 d.instStream offset mod rm (sibByte d) d.rexX d.rexB is64BitMode)) ∧
      d'.instructionSize = offset + dispSize64 mod rm (rmField (sibByte d))

/-! ## Registers and displacements -/

theorem mapModRMToReg_eq {rex bits invalidOffset : Nat} (hrex : rex ≤ 1) (hbits : bits < 8) :
    mapModRMToReg rex bits false false false false invalidOffset =
      if rex * 8 + bits = invalidOffset then invalid else register (rex * 8 + bits) := by
  have htable : ∀ n < 16, gprIndexes.getD n invalid = register n := by decide
  unfold mapModRMToReg
  simp only [Bool.false_eq_true, if_false, Bool.false_and]
  split_ifs
  · rfl
  · exact htable _ (by omega)

theorem extend_eq (rex : Bool) (n : Nat) : (if rex then 1 else 0) * 8 + n = extend rex n := by
  cases rex <;> simp [extend]

theorem register_ne_invalid {n : Nat} (h : n < 16) : register n ≠ invalid := by
  have hall : ∀ n < 16, register n ≠ invalid := by decide
  exact hall n h

theorem validReg_register {n : Nat} (h : n < 16) : validReg (register n) = some (register n) :=
  if_neg (register_ne_invalid h)

theorem rmField_lt (hex : Byte) : rmField hex < 8 := Nat.mod_lt _ (by decide)

theorem regField_lt (hex : Byte) : regField hex < 8 := Nat.mod_lt _ (by decide)

theorem modField_lt (hex : Byte) : modField hex < 4 := Nat.div_lt_of_lt_mul hex.isLt

theorem toInt_readData (d : InstDecoder) :
    ((readData d 4).1.setWidth 32).toInt = signedDisp d.instStream d.instructionSize 4 := by
  unfold readData signedDisp
  rw [BitVec.setWidth_ofNat_of_le (by decide), BitVec.toInt_ofNat']

theorem toInt_fromInt8 (d : InstDecoder) :
    (fromInt8 (readData d 1).1).toInt = signedDisp d.instStream d.instructionSize 1 := by
  unfold fromInt8 readData signedDisp
  rw [BitVec.toInt_signExtend_of_le (by decide), BitVec.setWidth_ofNat_of_le (by decide), BitVec.toInt_ofNat']

theorem toInt_readData_two (d : InstDecoder) :
    ((readData d 2).1.setWidth 32).toInt ≡ signedDisp d.instStream d.instructionSize 2 [ZMOD 2 ^ 16] := by
  unfold readData signedDisp
  rw [BitVec.setWidth_ofNat_of_le (by decide), BitVec.toInt_ofNat']
  have hbmod : ∀ (x : Int) (n : Nat), x.bmod n ≡ x [ZMOD n] := fun x n => Int.bmod_emod
  have hwide := (hbmod (FlatMemory.load d.instStream d.instructionSize 2) (2 ^ 32)).of_dvd (by decide : (2 : Int) ^ 16 ∣ _)
  exact hwide.trans (hbmod _ (2 ^ 16)).symm

theorem displacement_spec (d : InstDecoder) {size : Nat} (h : size = 0 ∨ size = 1 ∨ size = 2 ∨ size = 4) :
    ∃ literal : BitVec 32,
      (if size = 0 then (0, d)
        else
          let (literal, d) := readData d size
          (if size = 1 then fromInt8 literal else literal.setWidth 32, d)) =
        (literal, { d with instructionSize := d.instructionSize + size }) ∧
      (size ≠ 2 → literal.toInt = signedDisp d.instStream d.instructionSize size) ∧
      literal.toInt ≡ signedDisp d.instStream d.instructionSize size [ZMOD 2 ^ 16] := by
  rcases h with rfl | rfl | rfl | rfl
  · exact ⟨0, rfl, fun _ => rfl, Int.ModEq.refl 0⟩
  · exact ⟨fromInt8 (readData d 1).1, rfl, fun _ => toInt_fromInt8 d, by rw [toInt_fromInt8]⟩
  · exact ⟨_, rfl, fun hne => absurd rfl hne, toInt_readData_two d⟩
  · exact ⟨(readData d 4).1.setWidth 32, rfl, fun _ => toInt_readData d, by rw [toInt_readData]⟩

/-! ## The forms of 16 bits -/

theorem lookup16_eq : ∀ mod < 3, ∀ rm < 8,
    validReg (lookup16.getD (mod * 8 + rm) (invalid, invalid)).1 = (registers16 mod rm).1 ∧
      validReg (lookup16.getD (mod * 8 + rm) (invalid, invalid)).2 = (registers16 mod rm).2 := by decide

theorem displacementSize16_eq {mod : Nat} (hmod : mod < 3) (rm : Nat) :
    (if (mod = 0 ∧ rm = 6) ∨ mod = 2 then 2 else if mod = 1 then 1 else 0) = dispSize16 mod rm := by
  unfold dispSize16
  split_ifs <;> omega

theorem follows16 (d : InstDecoder) (modRM : Byte) (hmod : modField modRM ≠ 3) (is64BitMode : Bool) :
    FollowsTables is64BitMode true d modRM := by
  have hlt : modField modRM < 3 := by
    have := modField_lt modRM
    omega
  obtain ⟨hbase, hindex⟩ := lookup16_eq _ hlt _ (rmField_lt modRM)
  have hsize : dispSize16 (modField modRM) (rmField modRM) = 0 ∨ dispSize16 (modField modRM) (rmField modRM) = 1 ∨
      dispSize16 (modField modRM) (rmField modRM) = 2 ∨ dispSize16 (modField modRM) (rmField modRM) = 4 := by
    unfold dispSize16
    split_ifs <;> decide
  obtain ⟨literal, hread, -, hliteral⟩ := displacement_spec d hsize
  unfold FollowsTables decodeModRM16
  dsimp only
  rw [if_pos rfl, displacementSize16_eq hlt, hread]
  refine ⟨⟨_, rfl, ?_, ?_, hliteral, rfl⟩, rfl⟩
  · exact hbase
  · rw [hindex]
    rfl

/-! ## The forms of 32 and 64 bits -/

theorem grabSIB_eq (d : InstDecoder) : (grabSIB d).1 = sibByte d ∧
    (grabSIB d).2.instStream = d.instStream ∧ (grabSIB d).2.rexX = d.rexX ∧
    (grabSIB d).2.instructionSize = d.instructionSize + sibSize d 4 := by
  unfold grabSIB sibByte sibSize readByte
  cases d.decodedSIB with
  | true => exact ⟨rfl, rfl, rfl, rfl⟩
  | false => exact ⟨rfl, rfl, rfl, rfl⟩

theorem extend_lt (rex : Bool) {n : Nat} (h : n < 8) : extend rex n < 16 := by
  unfold extend
  split <;> omega

theorem follows64_noSIB (d : InstDecoder) (modRM : Byte) (hmod : modField modRM ≠ 3) (hrm : rmField modRM ≠ 4)
    (is64BitMode : Bool) : FollowsTables is64BitMode false d modRM := by
  have hsib : sibSize d (rmField modRM) = 0 := if_neg fun h => hrm h.1
  have hreg : mapModRMToReg (if d.rexB then 1 else 0) (rmField modRM) false false false false 16 =
      register (extend d.rexB (rmField modRM)) := by
    rw [mapModRMToReg_eq (by split <;> decide) (rmField_lt modRM), extend_eq, if_neg]
    exact (extend_lt _ (rmField_lt modRM)).ne
  have hvalid := validReg_register (extend_lt d.rexB (rmField_lt modRM))
  unfold FollowsTables decodeModRM64
  dsimp only
  rw [if_neg Bool.false_ne_true, hsib, if_neg fun h => hrm h.2, hreg]
  by_cases hzero : modField modRM = 0
  · rw [if_pos hzero]
    by_cases hrip : rmField modRM = 5
    · have hsize : dispSize64 (modField modRM) (rmField modRM) (rmField (sibByte d)) = 4 := by
        rw [hzero, hrip]
        rfl
      rw [if_pos hrip, hsize]
      refine ⟨⟨_, rfl, ?_, ?_, ?_, ?_⟩, rfl⟩
      · simp [manual64, hzero, hrip]
      · simp [manual64, hrm]
      · simp only [manual64, hsize, toInt_readData]
        exact Int.ModEq.refl _
      · simp [manual64, hzero, hrip]
    · have hsize : dispSize64 (modField modRM) (rmField modRM) (rmField (sibByte d)) = 0 := by
        simp [dispSize64, hzero, hrip, hrm]
      rw [if_neg hrip, hsize]
      refine ⟨⟨_, rfl, ?_, ?_, ?_, ?_⟩, rfl⟩
      · simp [manual64, hvalid, hrm, hrip]
      · simp [manual64, hrm]
      · simp only [manual64, hsize]
        exact Int.ModEq.refl _
      · simp [manual64, hrip]
  · have hsize : (if modField modRM = 1 then 1 else 4) =
        dispSize64 (modField modRM) (rmField modRM) (rmField (sibByte d)) := by
      have hlt := modField_lt modRM
      unfold dispSize64
      split_ifs <;> omega
    have hread : (if (if modField modRM = 1 then 1 else 4) = 1 then
        fromInt8 (readData d (if modField modRM = 1 then 1 else 4)).1
        else (readData d (if modField modRM = 1 then 1 else 4)).1.setWidth 32).toInt =
        signedDisp d.instStream d.instructionSize (if modField modRM = 1 then 1 else 4) := by
      by_cases hone : modField modRM = 1
      · simp [hone, toInt_fromInt8]
      · simp only [hone, if_false]
        exact toInt_readData d
    rw [if_neg hzero]
    refine ⟨⟨_, rfl, ?_, ?_, ?_, ?_⟩, ?_⟩
    · simp [manual64, hvalid, hrm, hzero]
    · simp [manual64, hrm]
    · rw [hread, hsize]
      exact Int.ModEq.refl _
    · simp [manual64, hzero]
    · rw [← hsize]
      rfl

/-- The SIB byte names no base, but the decoder takes `REX.B` for a part of it. -/
def BaseSlips (d : InstDecoder) (modRM : Byte) : Prop :=
  modField modRM = 0 ∧ rmField modRM = 4 ∧ rmField (sibByte d) = 5 ∧ d.rexB = true

instance (d : InstDecoder) (modRM : Byte) : Decidable (BaseSlips d modRM) :=
  inferInstanceAs (Decidable (_ ∧ _ ∧ _ ∧ _))

theorem sibIndex_eq (rexX : Bool) (sib : Byte) :
    validReg (mapModRMToReg (if rexX then 1 else 0) (regField sib) false false false false 4) =
      if extend rexX (regField sib) ≠ 4 then some (register (extend rexX (regField sib))) else none := by
  rw [mapModRMToReg_eq (by split <;> decide) (regField_lt sib), extend_eq]
  by_cases hnone : extend rexX (regField sib) = 4
  · rw [if_pos hnone, if_neg (not_not.mpr hnone)]
    rfl
  · rw [if_neg hnone, if_pos hnone]
    exact validReg_register (extend_lt _ (regField_lt sib))

theorem sibBase_eq (rexB : Bool) (mod : Nat) (sib : Byte) :
    validReg (mapModRMToReg (if rexB then 1 else 0) (rmField sib) false false false false (if mod = 0 then 5 else 16)) =
      if mod = 0 ∧ extend rexB (rmField sib) = 5 then none else some (register (extend rexB (rmField sib))) := by
  have hlt := extend_lt rexB (rmField_lt sib)
  rw [mapModRMToReg_eq (by split <;> decide) (rmField_lt sib), extend_eq]
  by_cases hzero : mod = 0
  · rw [if_pos hzero]
    by_cases hnone : extend rexB (rmField sib) = 5
    · rw [if_pos hnone, if_pos ⟨hzero, hnone⟩]
      rfl
    · rw [if_neg hnone, if_neg fun h => hnone h.2]
      exact validReg_register hlt
  · rw [if_neg hzero, if_neg hlt.ne, if_neg fun h => hzero h.1]
    exact validReg_register hlt

theorem sibBase_iff (rexB : Bool) (mod : Nat) (sib : Byte) :
    (if mod = 0 ∧ extend rexB (rmField sib) = 5 then none else some (register (extend rexB (rmField sib)))) =
      (if mod = 0 ∧ rmField sib = 5 then none else some (register (extend rexB (rmField sib)))) ↔
    ¬ (mod = 0 ∧ rmField sib = 5 ∧ rexB = true) := by
  cases rexB with
  | false =>
    have hsame : extend false (rmField sib) = rmField sib := Nat.zero_add _
    rw [hsame]
    exact iff_of_true rfl fun h => absurd h.2.2 Bool.false_ne_true
  | true =>
    have hne : extend true (rmField sib) ≠ 5 := by
      unfold extend
      rw [if_pos rfl]
      omega
    rw [if_neg fun h => hne h.2]
    by_cases hnone : mod = 0 ∧ rmField sib = 5
    · rw [if_pos hnone]
      exact iff_of_false (fun h => by cases h) (not_not.mpr ⟨hnone.1, hnone.2, rfl⟩)
    · rw [if_neg hnone]
      exact iff_of_true rfl fun h => hnone ⟨h.1, h.2.1⟩

theorem displacementSize64_eq {mod : Nat} (hlt : mod < 4) (hmod : mod ≠ 3) (rm sibBase : Nat) :
    (if mod = 0 ∧ rm = 4 ∧ sibBase = 5 then 4
      else if mod = 1 then 1 else if mod = 2 then 4 else if mod = 0 ∧ rm = 5 then 4 else 0) =
      dispSize64 mod rm sibBase := by
  unfold dispSize64
  split_ifs <;> omega

theorem follows64_SIB (d : InstDecoder) (modRM : Byte) (hmod : modField modRM ≠ 3) (hrm : rmField modRM = 4)
    (is64BitMode : Bool) : FollowsTables is64BitMode false d modRM ↔ ¬ BaseSlips d modRM := by
  obtain ⟨hsib, hstream, hrexX, hoffset⟩ := grabSIB_eq d
  have hsize := displacementSize64_eq (modField_lt modRM) hmod (rmField modRM) (rmField (sibByte d))
  have hsizes : dispSize64 (modField modRM) (rmField modRM) (rmField (sibByte d)) = 0 ∨
      dispSize64 (modField modRM) (rmField modRM) (rmField (sibByte d)) = 1 ∨
      dispSize64 (modField modRM) (rmField modRM) (rmField (sibByte d)) = 2 ∨
      dispSize64 (modField modRM) (rmField modRM) (rmField (sibByte d)) = 4 := by
    unfold dispSize64
    split_ifs <;> decide
  have hne : dispSize64 (modField modRM) (rmField modRM) (rmField (sibByte d)) ≠ 2 := by
    unfold dispSize64
    split_ifs <;> decide
  obtain ⟨literal, hread, hliteral, -⟩ := displacement_spec (grabSIB d).2 hsizes
  have hindex := sibIndex_eq d.rexX (sibByte d)
  have hbase := sibBase_eq d.rexB (modField modRM) (sibByte d)
  have hiff := sibBase_iff d.rexB (modField modRM) (sibByte d)
  have hliteral := hliteral hne
  rw [hstream, hoffset] at hliteral
  unfold FollowsTables decodeModRM64
  dsimp only
  rw [if_neg Bool.false_ne_true, if_pos ⟨hmod, hrm⟩, hsib, hsize, hread, hrexX]
  have hmanual : (manual64 d.instStream (d.instructionSize + sibSize d (rmField modRM)) (modField modRM) (rmField modRM)
      (sibByte d) d.rexX d.rexB is64BitMode).base = if modField modRM = 0 ∧ rmField (sibByte d) = 5 then none
        else some (register (extend d.rexB (rmField (sibByte d)))) := if_pos hrm
  constructor
  · rintro ⟨⟨form, hform, hsame⟩, -⟩ ⟨hzero, -, hfive, hrex⟩
    cases hform
    exact hiff.1 (hbase.symm.trans (hsame.base.trans hmanual)) ⟨hzero, hfive, hrex⟩
  · intro hnot
    refine ⟨⟨_, rfl, ?_, ?_, ?_, ?_⟩, ?_⟩
    · exact hbase.trans ((hiff.2 fun h => hnot ⟨h.1, hrm, h.2⟩).trans hmanual.symm)
    · rw [hindex]
      by_cases hnone : extend d.rexX (regField (sibByte d)) = 4
      · simp [manual64, hnone]
      · simp [manual64, hrm, hnone]
    · rw [hliteral, ← hrm]
      exact Int.ModEq.refl _
    · simp [manual64, hrm]
    · rw [hoffset, hrm]

theorem instructionSize_readOffset (d : InstDecoder) (size : Nat) :
    (if size = 0 then ((0 : BitVec 32), d)
      else
        let (literal, d) := readData d size
        (if size = 1 then fromInt8 literal else literal.setWidth 32, d)).2.instructionSize = d.instructionSize + size := by
  by_cases h : size = 0
  · rw [if_pos h, h]
    rfl
  · rw [if_neg h]
    rfl

theorem instructionSize_decodeModRM64 (d : InstDecoder) {modRM : Byte} (hmod : modField modRM ≠ 3) :
    (decodeModRM64 d modRM).2.instructionSize = d.instructionSize + sibSize d (rmField modRM) +
      dispSize64 (modField modRM) (rmField modRM) (rmField (sibByte d)) := by
  by_cases hrm : rmField modRM = 4
  · obtain ⟨hsib, -, -, hoffset⟩ := grabSIB_eq d
    unfold decodeModRM64
    dsimp only
    rw [if_pos ⟨hmod, hrm⟩, hsib, displacementSize64_eq (modField_lt modRM) hmod, instructionSize_readOffset, hoffset, hrm]
  · exact (follows64_noSIB d modRM hmod hrm true).2

/-- The decoder follows the tables if and only if the SIB byte does not leave out the base with `REX.B` set. -/
theorem decodeModRM_follows_iff (d : InstDecoder) (modRM : Byte) (hmod : modField modRM ≠ 3)
    (is64BitMode has16BitAddressing : Bool) :
    FollowsTables is64BitMode has16BitAddressing d modRM ↔ ¬ (has16BitAddressing = false ∧ BaseSlips d modRM) := by
  cases has16BitAddressing with
  | true => exact iff_of_true (follows16 d modRM hmod is64BitMode) fun h => absurd h.1 (by decide)
  | false =>
    by_cases hrm : rmField modRM = 4
    · rw [follows64_SIB d modRM hmod hrm is64BitMode]
      exact not_congr (and_iff_right rfl).symm
    · exact iff_of_true (follows64_noSIB d modRM hmod hrm is64BitMode) fun h => hrm h.2.2.1

def afterBytes (bytes : List Byte) (read : Nat) (rexB : Bool) : InstDecoder :=
  ⟨fun i => bytes.getD i 0, read, rexB, false, 0, false⟩

/-- `mov eax, [rbp - 8]`. -/
theorem decodeModRM_follows_local : FollowsTables true false (afterBytes [0x8B, 0x45, 0xF8] 2 false) 0x45 :=
  (decodeModRM_follows_iff (afterBytes [0x8B, 0x45, 0xF8] 2 false) 0x45 (by decide) true false).2 (by decide)

/-- `mov eax, [0x1000]` with `REX.B`: the decoder adds `r13`. -/
theorem decodeModRM_adds_base :
    ¬ FollowsTables true false (afterBytes [0x41, 0x8B, 0x04, 0x25, 0x00, 0x10, 0x00, 0x00] 3 true) 0x04 := by
  rintro ⟨⟨form, hform, hsame⟩, -⟩
  cases hform
  exact absurd hsame.base (by decide)

end FexEmu.Frontend.ModRM
