import FexEmu.Arm64.PatchedAccess
import FexEmu.Arm64.UnalignedAtomicsRuns
/-!
# A patched access equals the emulated one

The two differ in the offset that they find in the instruction: the rebuilt word keeps six bits of the nine.
-/
namespace FexEmu.Arm64.Patched

open ByteMemory Unaligned
open BitVec (eq_of_getLsbD_eq getLsbD_extractLsb' getLsbD_setWidth)
open Function (update_of_ne update_self)
open Option (bind_some map_none map_some)

/-! ## Instruction words -/

section Words
variable {w n : Nat}

/-- A field of an instruction word. -/
def field (x : BitVec w) (n : Nat) : BitVec 32 := x.setWidth 32 <<< n

theorem getLsbD_field (x : BitVec w) (n k : Nat) (hk : k < 32) :
    (field x n).getLsbD k = (decide (n ≤ k) && x.getLsbD (k - n)) := by
  rw [field, BitVec.getLsbD_shiftLeft, getLsbD_setWidth]
  by_cases h : n ≤ k
  · simp [h, hk, Nat.not_lt.mpr h, show k - n < 32 by omega]
  · simp [h, Nat.lt_of_not_le h]

theorem extract_field (x : BitVec w) (h : n + w ≤ 32) : (field x n).extractLsb' n w = x := by
  apply eq_of_getLsbD_eq
  intro i hi
  rw [getLsbD_extractLsb', getLsbD_field x n _ (by omega)]
  simp [hi]

theorem extract_field_apart (x : BitVec w) (m v : Nat) (h : m + v ≤ 32) (hap : n + w ≤ m ∨ m + v ≤ n) :
    (field x n).extractLsb' m v = 0 := by
  apply eq_of_getLsbD_eq
  intro i hi
  rw [getLsbD_extractLsb', getLsbD_field x n _ (by omega)]
  rcases hap with hap | hap
  · simp [BitVec.getLsbD_of_ge x (m + i - n) (by omega)]
  · simp [show ¬ n ≤ m + i by omega]

theorem field_and (x : BitVec w) (mask : BitVec 32) (h : mask.extractLsb' n w = 0) :
    field x n &&& mask = 0 := by
  apply eq_of_getLsbD_eq
  intro i hi
  rw [BitVec.getLsbD_and, getLsbD_field x n i hi]
  by_cases hin : n ≤ i ∧ i - n < w
  · have hbit : (mask.extractLsb' n w).getLsbD (i - n) = false := by simp [h]
    rw [getLsbD_extractLsb', Nat.add_sub_cancel' hin.1] at hbit
    simp only [hin.2, decide_true, Bool.true_and] at hbit
    simp [hbit]
  · rw [not_and_or] at hin
    rcases hin with hin | hin
    · simp [hin]
    · simp [BitVec.getLsbD_of_ge x (i - n) (by omega)]

theorem extract_or (x y : BitVec 32) (m v : Nat) : (x ||| y).extractLsb' m v = x.extractLsb' m v ||| y.extractLsb' m v := by
  apply eq_of_getLsbD_eq
  intro i hi
  simp [hi]

theorem shift_mask (x : BitVec 32) (n w : Nat) :
    (x >>> n) &&& BitVec.ofNat 32 (2 ^ w - 1) = (x.extractLsb' n w).setWidth 32 := by
  apply eq_of_getLsbD_eq
  intro i hi
  rw [BitVec.getLsbD_and, BitVec.getLsbD_ushiftRight, BitVec.getLsbD_ofNat, Nat.testBit_two_pow_sub_one,
    getLsbD_setWidth, getLsbD_extractLsb']
  simp [hi, Bool.and_comm]

end Words

/-- An instruction word from its opcode and its fields. -/
def fields (opcode : BitVec 32) (size : BitVec 2) (imm9 : BitVec 9) (rn rt : BitVec 5) : BitVec 32 :=
  opcode ||| field size 30 ||| field imm9 12 ||| field rn 5 ||| field rt 0

section Fields
variable (opcode : BitVec 32) (size : BitVec 2) (imm9 : BitVec 9) (rn rt : BitVec 5)

theorem fields_and (mask : BitVec 32) (hs : mask.extractLsb' 30 2 = 0) (hi : imm9 = 0 ∨ mask.extractLsb' 12 9 = 0)
    (hn : mask.extractLsb' 5 5 = 0) (ht : mask.extractLsb' 0 5 = 0) :
    fields opcode size imm9 rn rt &&& mask = opcode &&& mask := by
  have himm : field imm9 12 &&& mask = 0 := by
    rcases hi with rfl | hi
    · simp [field]
    · exact field_and _ _ hi
  simp only [fields, BitVec.and_or_distrib_right, field_and size mask hs, himm,
    field_and rn mask hn, field_and rt mask ht]
  simp

theorem extract_size (h : opcode.extractLsb' 30 2 = 0) : (fields opcode size imm9 rn rt).extractLsb' 30 2 = size := by
  simp only [fields, extract_or, h, extract_field size (n := 30) (by decide),
    extract_field_apart imm9 (n := 12) 30 2 (by decide) (by decide),
    extract_field_apart rn (n := 5) 30 2 (by decide) (by decide),
    extract_field_apart rt (n := 0) 30 2 (by decide) (by decide)]
  simp

theorem extract_imm9 (h : opcode.extractLsb' 12 9 = 0) : (fields opcode size imm9 rn rt).extractLsb' 12 9 = imm9 := by
  simp only [fields, extract_or, h, extract_field imm9 (n := 12) (by decide),
    extract_field_apart size (n := 30) 12 9 (by decide) (by decide),
    extract_field_apart rn (n := 5) 12 9 (by decide) (by decide),
    extract_field_apart rt (n := 0) 12 9 (by decide) (by decide)]
  simp

theorem extract_rn (h : opcode.extractLsb' 5 5 = 0) : (fields opcode size imm9 rn rt).extractLsb' 5 5 = rn := by
  simp only [fields, extract_or, h, extract_field rn (n := 5) (by decide),
    extract_field_apart size (n := 30) 5 5 (by decide) (by decide),
    extract_field_apart imm9 (n := 12) 5 5 (by decide) (by decide),
    extract_field_apart rt (n := 0) 5 5 (by decide) (by decide)]
  simp

theorem extract_rt (h : opcode.extractLsb' 0 5 = 0) : (fields opcode size imm9 rn rt).extractLsb' 0 5 = rt := by
  simp only [fields, extract_or, h, extract_field rt (n := 0) (by decide),
    extract_field_apart size (n := 30) 0 5 (by decide) (by decide),
    extract_field_apart imm9 (n := 12) 0 5 (by decide) (by decide),
    extract_field_apart rn (n := 5) 0 5 (by decide) (by decide)]
  simp

theorem extract_opc : (fields opcode size imm9 rn rt).extractLsb' 22 2 = opcode.extractLsb' 22 2 := by
  simp only [fields, extract_or, extract_field_apart size (n := 30) 22 2 (by decide) (by decide),
    extract_field_apart imm9 (n := 12) 22 2 (by decide) (by decide),
    extract_field_apart rn (n := 5) 22 2 (by decide) (by decide),
    extract_field_apart rt (n := 0) 22 2 (by decide) (by decide)]
  simp

theorem extract_rm : (fields opcode size 0 rn rt).extractLsb' 16 5 = opcode.extractLsb' 16 5 := by
  simp only [fields, extract_or, extract_field_apart size (n := 30) 16 5 (by decide) (by decide),
    extract_field_apart rn (n := 5) 16 5 (by decide) (by decide),
    extract_field_apart rt (n := 0) 16 5 (by decide) (by decide)]
  simp [field]

end Fields

/-! ## The instructions that are left behind -/

section Exec
variable {h : Host} {size : BitVec 2} {imm9 : BitVec 9} {rn rt : BitVec 5}

theorem exec_hint (hc : h.code h.pc = NOP ∨ h.code h.pc = DMB) : h.exec = some { h with pc := h.pc + 4 } := by
  unfold Host.exec
  simp [hc]

theorem fields_ne (opcode : BitVec 32) (size : BitVec 2) (imm9 : BitVec 9) (rn rt : BitVec 5)
    (ho : opcode &&& 0x3F000000 = 0x38000000) :
    ¬ (fields opcode size imm9 rn rt = NOP ∨ fields opcode size imm9 rn rt = DMB) := by
  have hclass := fields_and opcode size imm9 rn rt 0x3F000000 (by decide) (.inr (by decide)) (by decide) (by decide)
  rw [ho] at hclass
  rintro (h | h)
  · rw [h] at hclass
    exact absurd hclass (by decide)
  · rw [h] at hclass
    exact absurd hclass (by decide)

theorem exec_register (load : Bool)
    (hc : h.code h.pc = fields (if load then 0x387F6800 else 0x383F6800) size 0 rn rt) :
    h.exec = some { h.transfer size load rt (h.regs rn.toNat) with pc := h.pc + 4 } := by
  have hne := fields_ne (if load then 0x387F6800 else 0x383F6800) size 0 rn rt (by cases load <;> decide)
  have hmask : h.code h.pc &&& 0x3F20FC00 = 0x38206800 := by
    rw [hc, fields_and _ _ _ _ _ _ (by decide) (.inl rfl) (by decide) (by decide)]
    cases load <;> decide
  rw [← hc] at hne
  unfold Host.exec
  simp only [hne, hmask, if_true, if_false]
  rw [hc, extract_opc, extract_rm, extract_size _ _ _ _ _ (by cases load <;> decide),
    extract_rn _ _ _ _ _ (by cases load <;> decide), extract_rt _ _ _ _ _ (by cases load <;> decide)]
  cases load
  · simp [Host.transfer, operand]
  · simp [Host.transfer, operand]

theorem exec_unscaled (load : Bool)
    (hc : h.code h.pc = fields (if load then 0x38400000 else 0x38000000) size imm9 rn rt) :
    h.exec = some { h.transfer size load rt (h.regs rn.toNat + imm9.signExtend 64) with pc := h.pc + 4 } := by
  have hne := fields_ne (if load then 0x38400000 else 0x38000000) size imm9 rn rt (by cases load <;> decide)
  have hmask : h.code h.pc &&& 0x3F200C00 = 0x38000000 := by
    rw [hc, fields_and _ _ _ _ _ _ (by decide) (.inr (by decide)) (by decide) (by decide)]
    cases load <;> decide
  have hother : ¬ h.code h.pc &&& 0x3F20FC00 = 0x38206800 := by
    -- bit 21 is clear
    intro heq
    have hbit := congrArg (· &&& 0x00200000#32) heq
    simp only [BitVec.and_assoc] at hbit
    rw [hc, fields_and _ _ _ _ _ _ (by decide) (.inr (by decide)) (by decide) (by decide)] at hbit
    cases load
    · exact absurd hbit (by decide)
    · exact absurd hbit (by decide)
  rw [← hc] at hne
  unfold Host.exec
  simp only [hne, hmask, hother, if_true, if_false]
  rw [hc, extract_opc, extract_imm9 _ _ _ _ _ (by cases load <;> decide),
    extract_size _ _ _ _ _ (by cases load <;> decide), extract_rn _ _ _ _ _ (by cases load <;> decide),
    extract_rt _ _ _ _ _ (by cases load <;> decide)]
  cases load
  · simp [Host.transfer]
  · simp [Host.transfer]

end Exec

/-! ## The emitted words -/

section Emitted
variable (a : TSOAccess)

theorem word_eq : a.word = fields a.family.opcode a.size a.offset a.addrReg a.dataReg := by
  simp [TSOAccess.word, fields, field]

theorem shift_and (x : BitVec 32) : (x &&& 0xC0000000) >>> 30 = (x.extractLsb' 30 2).setWidth 32 := by
  rw [BitVec.ushiftRight_and_distrib, ← shift_mask]
  congr 1

theorem word_size : a.word.extractLsb' 30 2 = a.size := by
  rw [word_eq]
  exact extract_size _ _ _ _ _ (by cases a.family <;> decide)

theorem word_addrReg : a.word.extractLsb' 5 5 = a.addrReg := by
  rw [word_eq]
  exact extract_rn _ _ _ _ _ (by cases a.family <;> decide)

theorem word_dataReg : a.word.extractLsb' 0 5 = a.dataReg := by
  rw [word_eq]
  exact extract_rt _ _ _ _ _ (by cases a.family <;> decide)

theorem rebuild_word (opcode : BitVec 32) : rebuild a.word opcode = fields opcode a.size 0 a.addrReg a.dataReg := by
  have hrn : (a.word >>> 5) &&& 0x1F = a.addrReg.setWidth 32 := by
    rw [← word_addrReg a]
    exact shift_mask a.word 5 5
  have hrt : a.word &&& 0x1F = a.dataReg.setWidth 32 := by
    rw [← word_dataReg a]
    simpa using shift_mask a.word 0 5
  simp only [rebuild, shift_and, word_size, hrn, hrt, fields, field]
  simp

theorem kept_offset (hu : a.family.unscaled = true) (opcode : BitVec 32) :
    rebuild a.word opcode ||| (a.word &&& (0b111111111#32 <<< 9)) =
      fields opcode a.size (a.imm9 &&& 0x3F) a.addrReg a.dataReg := by
  have hop : a.family.opcode &&& (0b111111111#32 <<< 9) = 0 := by
    cases hf : a.family <;> rw [hf] at hu <;> first | rfl | cases hu
  have himm : ∀ i : BitVec 9, field i 12 &&& (0b111111111#32 <<< 9) = field (i &&& 0x3F) 12 := by decide
  have hrn : ∀ r : BitVec 5, field r 5 ||| (field r 5 &&& (0b111111111#32 <<< 9)) = field r 5 := by decide
  have hkept : a.word &&& (0b111111111#32 <<< 9) =
      field (a.imm9 &&& 0x3F) 12 ||| (field a.addrReg 5 &&& (0b111111111#32 <<< 9)) := by
    rw [word_eq, fields, TSOAccess.offset, if_pos hu]
    simp only [BitVec.and_or_distrib_right, hop, himm, field_and a.size (n := 30) (0b111111111#32 <<< 9) (by decide),
      field_and a.dataReg (n := 0) (0b111111111#32 <<< 9) (by decide)]
    simp
  have hzero : field (0 : BitVec 9) 12 = 0 := rfl
  rw [rebuild_word, hkept, fields, fields, hzero]
  conv_rhs => rw [← hrn a.addrReg]
  generalize field a.size 30 = s
  generalize field a.addrReg 5 = n
  ac_rfl

theorem decoded_offset (hu : a.family.unscaled = true) :
    ((a.word <<< 11).sshiftRight 23).signExtend 64 = a.imm9.signExtend 64 := by
  have himm : a.word.extractLsb' 12 9 = a.imm9 := by
    rw [word_eq, TSOAccess.offset, if_pos hu]
    apply extract_imm9
    cases hf : a.family <;> rw [hf] at hu <;> first | rfl | cases hu
  have hsigned : (a.word <<< 11).sshiftRight 23 = (a.word.extractLsb' 12 9).signExtend 32 := by
    apply eq_of_getLsbD_eq
    intro i hi
    rw [BitVec.getLsbD_sshiftRight, BitVec.getLsbD_signExtend, BitVec.msb_eq_getLsbD_last, BitVec.msb_eq_getLsbD_last]
    by_cases h9 : i < 9
    · simp [h9, hi, show 23 + i < 32 by omega, show ¬ 32 ≤ i by omega, show ¬ 23 + i < 11 by omega,
        show 23 + i - 11 = 12 + i by omega]
      exact (BitVec.getLsbD_eq_getElem (by omega)).symm
    · simp [h9, hi, show ¬ 23 + i < 32 by omega, show ¬ 32 ≤ i by omega]
  rw [hsigned, himm]
  apply BitVec.eq_of_toInt_eq
  rw [BitVec.toInt_signExtend_of_le (by decide), BitVec.toInt_signExtend_of_le (by decide),
    BitVec.toInt_signExtend_of_le (by decide)]

theorem word_scaled_mask (hu : a.family.unscaled = false) : a.word &&& 0x3FFFFC00 = a.family.opcode := by
  rw [word_eq, TSOAccess.offset, if_neg (by simp [hu]),
    fields_and _ _ _ _ _ _ (by decide) (.inl rfl) (by decide) (by decide)]
  cases a.family <;> rfl

theorem word_unscaled_mask (hu : a.family.unscaled = true) : a.word &&& RCPC2_MASK = a.family.opcode := by
  rw [word_eq, fields_and _ _ _ _ _ _ (by decide) (.inr (by decide)) (by decide) (by decide)]
  cases hf : a.family <;> rw [hf] at hu <;> first | rfl | cases hu

theorem word_unscaled_ne (hu : a.family.unscaled = true) (c : BitVec 32) (hc : c &&& 0x3F000000 ≠ 0x19000000) :
    a.word &&& 0x3FFFFC00 ≠ c := by
  intro heq
  have hclass : a.word &&& 0x3F000000 = 0x19000000 := by
    rw [word_eq, fields_and _ _ _ _ _ _ (by decide) (.inr (by decide)) (by decide) (by decide)]
    cases hf : a.family <;> rw [hf] at hu <;> first | rfl | cases hu
  apply hc
  rw [← hclass, ← heq, BitVec.and_assoc]
  rfl

end Emitted

/-! ## The handler at an emitted access -/

section Handler
variable (a : TSOAccess) {h : Host} (fuel : Nat)

/-- The offset that is left behind: the lower six bits. -/
def keptOffset : BitVec 64 := (a.offset &&& 0x3F).signExtend 64

/-- The instruction that replaces the access. -/
def replacement : BitVec 32 :=
  if a.family.unscaled then
    fields (if a.family.load then 0x38400000 else 0x38000000) a.size (a.imm9 &&& 0x3F) a.addrReg a.dataReg
  else fields (if a.family.load then 0x387F6800 else 0x383F6800) a.size 0 a.addrReg a.dataReg

theorem handler_patches (hc : h.code h.pc = a.word) :
    handleSIGBUS fuel false .BUS_ADRALN h = some (backpatch h (replacement a)) := by
  unfold handleSIGBUS replacement
  rw [hc]
  cases hu : a.family.unscaled with
  | true =>
    have h1 := word_unscaled_ne a hu 0x08DFFC00 (by decide)
    have h2 := word_unscaled_ne a hu 0x38BFC000 (by decide)
    have h3 := word_unscaled_ne a hu 0x089FFC00 (by decide)
    simp only [h1, h2, h3, word_unscaled_mask a hu, kept_offset a hu, or_self, if_false]
    cases hf : a.family <;> rw [hf] at hu <;> first | rfl | cases hu
  | false =>
    simp only [word_scaled_mask a hu, rebuild_word]
    cases hf : a.family <;> rw [hf] at hu <;> first | rfl | cases hu

theorem handler_emulates (hc : h.code h.pc = a.word) :
    handleSIGBUS fuel true .BUS_ADRALN h =
      if a.family.load then emulateLoad .BUS_ADRALN h (a.offset.signExtend 64)
      else emulateStore fuel .BUS_ADRALN h (a.offset.signExtend 64) := by
  unfold handleSIGBUS TSOAccess.offset
  rw [hc]
  cases hu : a.family.unscaled with
  | true =>
    have h1 := word_unscaled_ne a hu 0x08DFFC00 (by decide)
    have h2 := word_unscaled_ne a hu 0x38BFC000 (by decide)
    have h3 := word_unscaled_ne a hu 0x089FFC00 (by decide)
    simp only [h1, h2, h3, word_unscaled_mask a hu, decoded_offset a hu, or_self, if_false]
    cases hf : a.family <;> rw [hf] at hu <;> first | rfl | cases hu
  | false =>
    simp only [word_scaled_mask a hu]
    cases hf : a.family <;> rw [hf] at hu <;> first | rfl | cases hu

theorem exec_replacement (hc : h.code h.pc = replacement a) :
    h.exec = some { h.transfer a.size a.family.load a.dataReg (h.regs a.addrReg.toNat + keptOffset a) with
      pc := h.pc + 4 } := by
  unfold replacement at hc
  unfold keptOffset TSOAccess.offset
  cases hu : a.family.unscaled with
  | true =>
    rw [hu] at hc
    exact exec_unscaled _ hc
  | false =>
    rw [hu] at hc
    rw [exec_register _ hc]
    simp

end Handler

/-! ## Words and their halves -/

section Halves
variable (m : Memory) (a : BitVec 64) {half width : Nat}

theorem read_halves (h8 : half % 8 = 0) (hw : width = half + half) :
    (read m (a + BitVec.ofNat 64 (half / 8)) half ++ read m a half).setWidth width = read m a width := by
  apply eq_of_getLsbD_eq
  intro i hi
  rw [getLsbD_setWidth, BitVec.getLsbD_append, getLsbD_read i hi]
  by_cases hl : i < half
  · simp only [hi, hl, decide_true, if_true, Bool.true_and]
    exact getLsbD_read i hl
  · have hdiv : half / 8 + (i - half) / 8 = i / 8 := by omega
    have hmod : (i - half) % 8 = i % 8 := by omega
    simp only [hi, hl, decide_true, if_false, Bool.true_and]
    rw [getLsbD_read (i - half) (by omega), hmod, BitVec.add_assoc, ← BitVec.ofNat_add, hdiv]

theorem read_upper (h8 : half % 8 = 0) (hw : width = half + half) :
    (read m a width >>> half).setWidth half = read m (a + BitVec.ofNat 64 (half / 8)) half := by
  apply eq_of_getLsbD_eq
  intro i hi
  have hdiv : half / 8 + i / 8 = (half + i) / 8 := by omega
  have hmod : i % 8 = (half + i) % 8 := by omega
  rw [getLsbD_setWidth, BitVec.getLsbD_ushiftRight, getLsbD_read _ (by omega), getLsbD_read i hi, BitVec.add_assoc,
    ← BitVec.ofNat_add, hdiv, hmod]
  simp [hi]

theorem write_halves (h8 : half % 8 = 0) (h0 : half < 2 ^ 16) (hw : width = half + half) (x : BitVec width) :
    write (write m (a + BitVec.ofNat 64 (half / 8)) ((x >>> half).setWidth half)) a (x.setWidth half) = write m a x := by
  funext b
  have hsub : (b - (a + BitVec.ofNat 64 (half / 8))).toNat = (2 ^ 64 - half / 8 + (b - a).toNat) % 2 ^ 64 := by
    rw [← sub_sub, BitVec.toNat_sub, BitVec.toNat_ofNat, Nat.mod_eq_of_lt (show half / 8 < 2 ^ 64 by omega)]
  have hlt := (b - a).isLt
  rw [write_apply, write_apply, write_apply, hsub]
  generalize (b - a).toNat = d at hlt ⊢
  by_cases hl : 8 * d < half
  · rw [if_pos hl, if_pos (by omega)]
    apply eq_of_getLsbD_eq
    intro k hk
    simp [show 8 * d + k < half by omega]
  · rw [if_neg hl]
    by_cases hu : 8 * d < width
    · have hd : (2 ^ 64 - half / 8 + d) % 2 ^ 64 = d - half / 8 := by omega
      rw [hd, if_pos (by omega), if_pos hu]
      apply eq_of_getLsbD_eq
      intro k hk
      have hpos : half + (8 * (d - half / 8) + k) = 8 * d + k := by omega
      simp only [getLsbD_extractLsb', getLsbD_setWidth, BitVec.getLsbD_ushiftRight, hpos]
      simp [show 8 * (d - half / 8) + k < half by omega]
    · rw [if_neg (by omega), if_neg hu]

end Halves

/-! ## Loads -/

section Loads
variable (mem : Memory) (addr : BitVec 64)

theorem loadWord_eq {width n k : Nat} (hk : k < 64) (hn : n % 8 = 0) (hw : width ≤ 128) (hw8 : width % 8 = 0)
    (hin : addr.toNat % 2 ^ k * 8 + n ≤ width) :
    loadWord mem width n addr (BitVec.ofNat 64 (2 ^ k - 1)) = read mem addr n := by
  obtain ⟨hcov, haddr⟩ := covers_of_low hk (r := false) (e := 0) (d := 0) (f := srcFunction) (g := srcFunction) addr hn hw
    hw8 hin
  have hread := CasLoop.extract_read hcov mem
  rw [CasLoop.accessed, haddr] at hread
  exact hread

theorem loadHalves_eq {half n k : Nat} (hk : k < 64) (hn : n % 8 = 0) (hw : half ≤ 64) (h8 : half % 8 = 0)
    (hin : addr.toNat % 2 ^ k * 8 + n ≤ half + half) :
    loadHalves mem half n addr (BitVec.ofNat 64 (2 ^ k - 1)) = read mem addr n := by
  have hword := read_halves mem (addr &&& ~~~BitVec.ofNat 64 (2 ^ k - 1)) h8 rfl
  rw [BitVec.setWidth_eq] at hword
  rw [← loadWord_eq mem addr hk hn (show half + half ≤ 128 by omega) (by omega) hin, loadHalves, loadWord, hword]

theorem doLoad16_eq : doLoad16 mem addr = read mem addr 16 := by
  have h15 := and_low_eq_iff addr 4 15 (by decide) (by decide)
  have h7 := and_low_eq_iff addr 3 7 (by decide) (by decide)
  have h3 := and_low_eq_iff addr 2 3 (by decide) (by decide)
  unfold doLoad16
  split
  · exact loadHalves_eq mem addr (k := 0) (by decide) (by decide) (by decide) (by decide) (by omega)
  · case isFalse hn15 =>
    have hne15 := h15.not.mp hn15
    split
    · exact loadWord_eq mem addr (k := 4) (by decide) (by decide) (by decide) (by decide) (by omega)
    · case isFalse hn7 =>
      split
      · case isTrue hc =>
        exact loadWord_eq mem addr (k := 2) (by decide) (by decide) (by decide) (by decide) (by omega)
      · case isFalse hn3 =>
        have := h3.not.mp hn3
        exact loadWord_eq mem addr (k := 2) (by decide) (by decide) (by decide) (by decide) (by omega)

theorem doLoad32_eq : doLoad32 mem addr = read mem addr 32 := by
  have h12 := and_low_lt_iff addr 4 12 (by decide) (by decide)
  have h5 := and_low_ge_iff addr 3 5 (by decide) (by decide)
  unfold doLoad32
  split
  · exact loadHalves_eq mem addr (k := 2) (by decide) (by decide) (by decide) (by decide) (by omega)
  · case isFalse hn12 =>
    have := h12.not.mp hn12
    split
    · exact loadWord_eq mem addr (k := 4) (by decide) (by decide) (by decide) (by decide) (by omega)
    · case isFalse hn5 =>
      have := h5.not.mp hn5
      exact loadWord_eq mem addr (k := 3) (by decide) (by decide) (by decide) (by decide) (by omega)

theorem doLoad64_eq : doLoad64 mem addr = read mem addr 64 := by
  have h8 := and_low_lt_iff addr 4 8 (by decide) (by decide)
  unfold doLoad64
  split
  · exact loadHalves_eq mem addr (k := 3) (by decide) (by decide) (by decide) (by decide) (by omega)
  · case isFalse hn8 =>
    have := h8.not.mp hn8
    exact loadWord_eq mem addr (k := 4) (by decide) (by decide) (by decide) (by decide) (by omega)

end Loads

/-! ## Stores -/

section Stores
variable {c : CasLoop} (mem : Memory) (regs : Regs)

/-- A loop that expects what is there and wants its argument. -/
structure Stores (c : CasLoop) : Prop where
  covers : c.Covers
  expected : ∀ word, c.expected word = c.extract word
  desired : ∀ word, c.desired word = c.desiredSrc

theorem Stores.tmpExpected (h : Stores c) (word : BitVec c.width) : c.tmpExpected word = word := by
  rw [CasLoop.tmpExpected, h.expected, CasLoop.merge_extract]

theorem Stores.tmpDesired (h : Stores c) (word : BitVec c.width) : c.tmpDesired word = c.merge word c.desiredSrc := by
  rw [CasLoop.tmpDesired_eq, h.desired]

theorem alone_stores (h : Stores c) :
    (alone 2 (World.initial (.toNone c) mem regs)).map (fun w => (w.mem, w.regs)) =
      some (write mem c.address c.desiredSrc, regs) := by
  have hwrite : write mem c.addr (c.tmpDesired (read mem c.addr c.width)) = write mem c.address c.desiredSrc := by
    rw [h.tmpDesired, CasLoop.write_merge h.covers]
  simp [alone, World.initial, World.access, Task.toNone, h.tmpExpected, hwrite]

theorem storeCAS_found {w : Nat} (val : BitVec w) (addr : BitVec 64) :
    storeCAS mem (read mem addr w) val addr = (true, read mem addr w, write mem addr val) := by
  simp [storeCAS]

theorem halvesPass_stores (h : Stores c) (half : Nat) (h8 : half % 8 = 0) (hh : 0 < half) (hw : c.width = half + half) :
    halvesPass c half mem = (write mem c.address c.desiredSrc, some (c.expected (read mem c.addr c.width))) := by
  have hle := h.covers.width
  have happart : Apart (c.addr + BitVec.ofNat 64 (half / 8)) ((half + 7) / 8) c.addr ((half + 7) / 8) := by
    have hup : (c.addr + BitVec.ofNat 64 (half / 8) - c.addr).toNat = half / 8 := add_ofNat_sub _ (by omega)
    have hdown : (c.addr - (c.addr + BitVec.ofNat 64 (half / 8))).toNat = 2 ^ 64 - half / 8 := by
      rw [← neg_sub, BitVec.toNat_neg, hup]
      omega
    exact ⟨by omega, by omega⟩
  have hlower (x : BitVec half) : read (write mem (c.addr + BitVec.ofNat 64 (half / 8)) x) c.addr half =
      (read mem c.addr c.width).setWidth half := by
    rw [read_write_apart x happart (by omega), read_lower _ _ (by omega)]
  have hupper := read_upper mem c.addr h8 hw
  have hwrite := write_halves mem c.addr h8 (by omega) hw (c.tmpDesired (read mem c.addr c.width))
  unfold halvesPass
  simp only [read_halves mem c.addr h8 hw, h.tmpExpected, if_true, hupper, storeCAS_found]
  rw [← hlower (((c.tmpDesired (read mem c.addr c.width)) >>> half).setWidth half), storeCAS_found]
  simp only [hwrite]
  rw [h.tmpDesired, CasLoop.write_merge h.covers]

theorem halvesRun_stores (h : Stores c) (half : Nat) (h8 : half % 8 = 0) (hh : 0 < half) (hw : c.width = half + half) :
    halvesRun c half 2 mem = some (write mem c.address c.desiredSrc) := by
  rw [halvesRun, halvesPass_stores mem h half h8 hh hw]

end Stores

section Handlers
variable {instr : BitVec 32} (offset : BitVec 64) (mem : Memory) (regs : Regs)

/-- The accessed bytes have one of the three sizes. -/
def HasSize (instr : BitVec 32) : Prop := Unaligned.sizeOf instr ∈ [2, 4, 8]

theorem handleAtomicLoad_eq (hs : HasSize instr) :
    handleAtomicLoad .BUS_ADRALN instr offset mem regs =
      some (if reg instr 0 ≠ 31 then
        setReg regs (reg instr 0) ((read mem (regs (reg instr 5) + offset) (8 * Unaligned.sizeOf instr)).setWidth 64)
        else regs) := by
  simp only [HasSize, List.mem_cons, List.not_mem_nil, or_false] at hs
  rw [handleAtomicLoad, if_neg (by simp)]
  generalize Unaligned.sizeOf instr = size at hs ⊢
  rcases hs with rfl | rfl | rfl
  · simp [doLoad16_eq]
  · simp [doLoad32_eq]
  · simp only [doLoad64_eq]
    rw [BitVec.setWidth_eq]

/-- The templates with the functions of `HandleAtomicStore`. -/
theorem stores_of_covers {width n alignment : Nat} {base : BitVec 64} {r : Bool} {e d : BitVec n}
    (h : (⟨width, n, base, alignment, r, e, d, srcFunction, argFunction⟩ : CasLoop).Covers) :
    Stores ⟨width, n, base, alignment, r, e, d, srcFunction, argFunction⟩ :=
  ⟨h, fun _ => rfl, fun _ => rfl⟩

theorem storeAlone_eq (hs : HasSize instr) :
    storeAlone 2 .BUS_ADRALN instr offset mem regs =
      some (write mem (regs (reg instr 5) + offset) ((regs (reg instr 0)).setWidth (8 * Unaligned.sizeOf instr)), regs) := by
  simp only [HasSize, List.mem_cons, List.not_mem_nil, or_false] at hs
  generalize haddr : regs (reg instr 5) + offset = addr
  generalize hdata : regs (reg instr 0) = data
  rw [storeAlone, handleAtomicStore, handleAtomicStoreHalves, if_neg (by simp), if_neg (by simp)]
  generalize Unaligned.sizeOf instr = size at hs ⊢
  simp only [haddr, hdata]
  rcases hs with rfl | rfl | rfl
  · have h15 := and_low_eq_iff addr 4 15 (by decide) (by decide)
    by_cases hcross : addr &&& 0b1111#64 = 15#64
    · have hcov : (⟨16, 16, addr, 0, false, 0, data.setWidth 16, srcFunction, argFunction⟩ : CasLoop).Covers :=
        ⟨Nat.le_refl 16, show 16 ≤ 128 by decide, show 16 % 8 = 0 by decide, show 16 % 8 = 0 by decide⟩
      simp only [doCAS16, doCAS16Halves, hcross, if_true, map_none]
      rw [halvesRun_stores mem (stores_of_covers hcov) 8 (by decide) (by decide) rfl]
      simp [CasLoop.address]
    · have := h15.not.mp hcross
      obtain ⟨width, base, al, heq, hfits, hal⟩ := doCAS16_spec false addr (data.setWidth 16) 0 srcFunction argFunction
        (by omega)
      simp only [heq, map_some]
      rw [alone_stores mem regs (stores_of_covers hfits.covers), hal]
  · have h12 := and_low_lt_iff addr 4 12 (by decide) (by decide)
    by_cases hcross : addr &&& 0b1111#64 > 12#64
    · obtain ⟨hcov, hal⟩ := @covers_of_low 32 64 2 (by decide) false 0 (data.setWidth 32)
        srcFunction argFunction addr (by decide) (by decide) (by decide) (by omega)
      have hrun := halvesRun_stores mem (stores_of_covers hcov) 32 (by decide) (by decide) rfl
      rw [hal] at hrun
      simp only [doCAS32, doCAS32Halves, hcross, if_true, map_none]
      exact congrArg (Option.map fun mem => (mem, regs)) hrun
    · have := h12.not.mp hcross
      obtain ⟨width, base, al, heq, hfits, hal⟩ := doCAS32_spec false addr (data.setWidth 32) 0 srcFunction argFunction
        (by omega)
      simp only [heq, map_some]
      rw [alone_stores mem regs (stores_of_covers hfits.covers), hal]
  · have h8 := and_low_lt_iff addr 4 8 (by decide) (by decide)
    by_cases hcross : addr &&& 0b1111#64 > 8#64
    · obtain ⟨hcov, hal⟩ := @covers_of_low 64 128 3 (by decide) false 0 data
        srcFunction argFunction addr (by decide) (by decide) (by decide) (by omega)
      have hrun := halvesRun_stores mem (stores_of_covers hcov) 64 (by decide) (by decide) rfl
      rw [hal] at hrun
      simp only [doCAS64, doCAS64Halves, hcross, if_true, map_none, BitVec.setWidth_eq]
      exact congrArg (Option.map fun mem => (mem, regs)) hrun
    · have := h8.not.mp hcross
      obtain ⟨base, al, heq, hfits, hal⟩ := doCAS64_spec false addr data 0 srcFunction argFunction (by omega)
      simp only [heq, map_some]
      rw [alone_stores mem regs (stores_of_covers hfits.covers), hal]
      simp

/-! More fuel does not change a run that ends. -/

theorem alone_mono {t : Task} {fuel : Nat} : ∀ {fuel' : Nat} {w w' : World t}, fuel ≤ fuel' → alone fuel w = some w' →
    alone fuel' w = some w' := by
  induction fuel with
  | zero =>
    intro fuel' w w' _ h
    unfold alone at h ⊢
    cases hpc : w.pc with
    | returned r => cases fuel' <;> simpa [hpc] using h
    | load => simp [hpc] at h
    | exchange word => simp [hpc] at h
  | succ fuel ih =>
    intro fuel' w w' hle h
    obtain ⟨k, rfl⟩ : ∃ k, fuel' = k + 1 := ⟨fuel' - 1, by omega⟩
    unfold alone at h ⊢
    cases hpc : w.pc with
    | returned r => simpa [hpc] using h
    | load =>
      simp only [hpc] at h ⊢
      exact ih (by omega) h
    | exchange word =>
      simp only [hpc] at h ⊢
      exact ih (by omega) h

theorem halvesRun_mono {c : CasLoop} {half fuel : Nat} : ∀ {fuel' : Nat} {m m' : Memory}, fuel ≤ fuel' →
    halvesRun c half fuel m = some m' → halvesRun c half fuel' m = some m' := by
  induction fuel with
  | zero =>
    intro fuel' m m' _ h
    cases h
  | succ fuel ih =>
    intro fuel' m m' hle h
    obtain ⟨k, rfl⟩ : ∃ k, fuel' = k + 1 := ⟨fuel' - 1, by omega⟩
    unfold halvesRun at h ⊢
    rcases hpass : halvesPass c half m with ⟨m1, _ | r⟩
    · simp only [hpass] at h ⊢
      exact ih (by omega) h
    · simpa [hpass] using h

theorem storeAlone_mono {code : SiCode} {offset : BitVec 64} {mem : Memory} {regs : Regs} {fuel fuel' : Nat}
    (hle : fuel ≤ fuel') {r : Memory × Regs} (h : storeAlone fuel code instr offset mem regs = some r) :
    storeAlone fuel' code instr offset mem regs = some r := by
  unfold storeAlone at h ⊢
  cases ht : handleAtomicStore code instr offset regs with
  | some t =>
    simp only [ht, Option.map_eq_some_iff] at h ⊢
    obtain ⟨w, hw, hr⟩ := h
    exact ⟨w, alone_mono hle hw, hr⟩
  | none =>
    cases hl : handleAtomicStoreHalves code instr offset regs with
    | some l =>
      simp only [ht, hl, Option.map_eq_some_iff] at h ⊢
      obtain ⟨m, hm, hr⟩ := h
      exact ⟨m, halvesRun_mono hle hm, hr⟩
    | none => simp [ht, hl] at h

end Handlers

/-! ## Both runs -/

section Runs
variable (a : TSOAccess) {h : Host}

/-- The address that the emulation finds. -/
def address (regs : Regs) : BitVec 64 := regs a.addrReg.toNat + a.offset.signExtend 64

/-- The address that is left behind. -/
def keptAddress (regs : Regs) : BitVec 64 := regs a.addrReg.toNat + keptOffset a

theorem emit_access (code : BitVec 64 → BitVec 32) (pc : BitVec 64) : a.emit code pc pc = a.word := by
  have hne : pc ≠ pc + 4 := by
    intro h
    simp at h
  rw [TSOAccess.emit, update_of_ne hne, update_self]

theorem emit_behind (code : BitVec 64 → BitVec 32) (pc : BitVec 64) : a.emit code pc (pc + 4) = NOP := by
  rw [TSOAccess.emit, update_self]

@[simp] theorem transfer_code (size : BitVec 2) (load : Bool) (rt : BitVec 5) (addr : BitVec 64) :
    (h.transfer size load rt addr).code = h.code := by
  cases load <;> rfl

theorem backpatch_code (instr : BitVec 32) :
    (backpatch h instr).code (h.pc - 4) = DMB ∧ (backpatch h instr).code h.pc = instr ∧
      (backpatch h instr).code (h.pc + 4) = DMB := by
  have h1 : h.pc - 4 ≠ h.pc := by
    intro heq
    simp at heq
  have h2 : h.pc - 4 ≠ h.pc + 4 := by
    bv_omega
  have h3 : h.pc ≠ h.pc + 4 := by
    intro heq
    simp at heq
  refine ⟨?_, ?_, ?_⟩
  · dsimp only [backpatch]
    rw [update_of_ne h2, update_of_ne h1, update_self]
  · dsimp only [backpatch]
    rw [update_of_ne h3, update_self]
  · dsimp only [backpatch]
    rw [update_self]

theorem patchedRun_eq (hc : h.code h.pc = a.word) :
    ∃ p, patchedRun h = some p ∧ p.pc = h.pc + 4 + 4 ∧
      p.regs = (h.transfer a.size a.family.load a.dataReg (keptAddress a h.regs)).regs ∧
      p.mem = (h.transfer a.size a.family.load a.dataReg (keptAddress a h.regs)).mem := by
  obtain ⟨hbefore, hat, hbehind⟩ := backpatch_code (h := h) (replacement a)
  have h1 : (backpatch h (replacement a)).exec = some { backpatch h (replacement a) with pc := h.pc } := by
    rw [exec_hint (.inr hbefore)]
    simp [backpatch]
  have h2 := exec_replacement a (h := { backpatch h (replacement a) with pc := h.pc }) hat
  rw [patchedRun, handler_patches a 0 hc, bind_some, h1, bind_some, h2, bind_some, exec_hint]
  · refine ⟨_, rfl, rfl, ?_, ?_⟩
    · cases a.family.load <;> rfl
    · cases a.family.load <;> rfl
  · right
    rw [transfer_code]
    exact hbehind

theorem reg_word : reg a.word 5 = a.addrReg.toNat ∧ reg a.word 0 = a.dataReg.toNat := by
  have hrn : (a.word >>> 5) &&& 0b11111 = a.addrReg.setWidth 32 := by
    rw [← word_addrReg a]
    exact shift_mask a.word 5 5
  have hrt : (a.word >>> 0) &&& 0b11111 = a.dataReg.setWidth 32 := by
    rw [← word_dataReg a]
    exact shift_mask a.word 0 5
  rw [reg, reg, hrn, hrt, BitVec.toNat_setWidth_of_le (by decide), BitVec.toNat_setWidth_of_le (by decide)]
  exact ⟨rfl, rfl⟩

theorem sizeOf_word : Unaligned.sizeOf a.word = 2 ^ a.size.toNat := by
  have htop : a.word >>> 30 = (a.word.extractLsb' 30 2).setWidth 32 := by
    apply eq_of_getLsbD_eq
    intro i hi
    by_cases h2 : i < 2
    · simp [hi, h2]
    · simp [h2, BitVec.getLsbD_of_ge a.word (30 + i) (by omega)]
  rw [Unaligned.sizeOf, htop, word_size, BitVec.toNat_setWidth_of_le (by decide)]

theorem hasSize_word : HasSize a.word := by
  have hsizes : ∀ s : BitVec 2, s ≠ 0 → 2 ^ s.toNat ∈ [2, 4, 8] := by decide
  rw [HasSize, sizeOf_word]
  exact hsizes a.size a.size_ne

theorem emulatedRun_eq (hc : h.code h.pc = a.word) (hn : h.code (h.pc + 4) = NOP) :
    ∃ e, emulatedRun 2 h = some e ∧ e.pc = h.pc + 4 + 4 ∧
      e.regs = (h.transfer a.size a.family.load a.dataReg (address a h.regs)).regs ∧
      e.mem = (h.transfer a.size a.family.load a.dataReg (address a h.regs)).mem := by
  obtain ⟨hrn, hrt⟩ := reg_word a
  have hne : a.dataReg.toNat ≠ 31 := by
    intro heq
    exact a.dataReg_ne (BitVec.eq_of_toNat_eq heq)
  have hdata : a.dataReg ≠ 31#5 := a.dataReg_ne
  rw [emulatedRun, handler_emulates a 2 hc]
  cases hl : a.family.load with
  | true =>
    rw [if_pos rfl, emulateLoad, hc, handleAtomicLoad_eq _ _ _ (hasSize_word a), map_some, bind_some,
      exec_hint (.inl hn), hrn, hrt, if_pos hne, sizeOf_word]
    refine ⟨_, rfl, rfl, ?_, rfl⟩
    simp [Host.transfer, hdata, address]
  | false =>
    rw [if_neg (by simp), emulateStore, hc, storeAlone_eq _ _ _ (hasSize_word a), map_some, bind_some,
      exec_hint (.inl hn), hrn, hrt, sizeOf_word]
    refine ⟨_, rfl, rfl, rfl, ?_⟩
    simp [Host.transfer, operand, hdata, address]

theorem emulatedRun_mono (hc : h.code h.pc = a.word) {fuel fuel' : Nat} (hle : fuel ≤ fuel') {e : Host}
    (hrun : emulatedRun fuel h = some e) : emulatedRun fuel' h = some e := by
  rw [emulatedRun, handler_emulates a _ hc] at hrun ⊢
  cases hl : a.family.load with
  | true =>
    rw [hl, if_pos rfl] at hrun
    exact hrun
  | false =>
    rw [hl, if_neg (by simp), emulateStore, Option.bind_map, Option.bind_eq_some_iff] at hrun
    obtain ⟨r, hr, hexec⟩ := hrun
    rw [if_neg (by simp), emulateStore, storeAlone_mono hle hr]
    exact hexec

theorem emulatedRun_unique (hc : h.code h.pc = a.word) {fuel fuel' : Nat} {e e' : Host}
    (h1 : emulatedRun fuel h = some e) (h2 : emulatedRun fuel' h = some e') : e = e' := by
  have hm := emulatedRun_mono a hc (Nat.le_max_left fuel fuel') h1
  rw [emulatedRun_mono a hc (Nat.le_max_right fuel fuel') h2] at hm
  exact (Option.some.inj hm).symm

end Runs

/-! ## When they are the same -/

section Same
variable (a : TSOAccess) (code : BitVec 64 → BitVec 32) (pc : BitVec 64) (regs : Regs) (mem : Memory)

theorem sameResult_iff : SameResult (a.faulting code pc regs mem) ↔
    ((a.faulting code pc regs mem).transfer a.size a.family.load a.dataReg (keptAddress a regs)).regs =
        ((a.faulting code pc regs mem).transfer a.size a.family.load a.dataReg (address a regs)).regs ∧
      ((a.faulting code pc regs mem).transfer a.size a.family.load a.dataReg (keptAddress a regs)).mem =
        ((a.faulting code pc regs mem).transfer a.size a.family.load a.dataReg (address a regs)).mem := by
  have hc : (a.faulting code pc regs mem).code (a.faulting code pc regs mem).pc = a.word := emit_access a code pc
  have hn : (a.faulting code pc regs mem).code ((a.faulting code pc regs mem).pc + 4) = NOP := emit_behind a code pc
  obtain ⟨p, hp, hppc, hpregs, hpmem⟩ := patchedRun_eq a hc
  obtain ⟨e, he, hepc, heregs, hemem⟩ := emulatedRun_eq a hc hn
  constructor
  · rintro ⟨fuel, p', e', hp', he', -, hregs, hmem⟩
    rw [hp, Option.some.injEq] at hp'
    subst hp'
    rw [← emulatedRun_unique a hc he he', hpregs, heregs] at hregs
    rw [← emulatedRun_unique a hc he he', hpmem, hemem] at hmem
    exact ⟨hregs, hmem⟩
  · rintro ⟨hregs, hmem⟩
    exact ⟨2, p, e, hp, he, by rw [hppc, hepc], by rw [hpregs, heregs]; exact hregs, by rw [hpmem, hemem]; exact hmem⟩

theorem keptOffset_eq_iff : keptOffset a = a.offset.signExtend 64 ↔ 0 ≤ a.offset.toInt ∧ a.offset.toInt < 64 := by
  have hall : ∀ o : BitVec 9, (o &&& 0x3F).signExtend 64 = o.signExtend 64 ↔ 0 ≤ o.toInt ∧ o.toInt < 64 := by decide
  exact hall a.offset

theorem offsets_apart (h : ¬ (0 ≤ a.offset.toInt ∧ a.offset.toInt < 64)) :
    64 ≤ (address a regs - keptAddress a regs).toNat := by
  have hall : ∀ o : BitVec 9, ¬ (0 ≤ o.toInt ∧ o.toInt < 64) →
      64 ≤ (o.signExtend 64 - (o &&& 0x3F).signExtend 64).toNat := by decide
  rw [address, keptAddress, add_sub_add_left_eq_sub]
  exact hall a.offset h

def mark (addr : BitVec 64) : Memory := fun b => if b = addr then 1 else 0

/-- A load finds the mark, and one of another address does not. -/
theorem load_differs (hl : a.family.load = true) (h : keptAddress a regs ≠ address a regs) :
    ¬ SameResult (a.faulting code pc regs (mark (address a regs))) := by
  rw [sameResult_iff, hl]
  rintro ⟨hregs, -⟩
  have hr := congrFun hregs a.dataReg.toNat
  simp only [Host.transfer, if_true, setReg, TSOAccess.faulting] at hr
  rw [if_neg a.dataReg_ne, if_neg a.dataReg_ne, update_self, update_self] at hr
  have hpos : 0 < 8 * 2 ^ a.size.toNat := Nat.mul_pos (by decide) (Nat.two_pow_pos _)
  have hbit := congrArg (·.getLsbD 0) hr
  simp only [getLsbD_setWidth, getLsbD_read 0 hpos] at hbit
  simp [mark, h] at hbit

/-- A store changes a byte that one to another address leaves. -/
theorem store_differs (hl : a.family.load = false) (h : 64 ≤ (address a regs - keptAddress a regs).toNat) :
    ¬ SameResult (a.faulting code pc regs fun _ => ~~~((regs a.dataReg.toNat).setWidth 8)) := by
  rw [sameResult_iff, hl]
  rintro ⟨-, hmem⟩
  have hm := congrFun hmem (address a regs)
  have hsize : 2 ^ a.size.toNat ≤ 8 := by
    have hall : ∀ s : BitVec 2, 2 ^ s.toNat ≤ 8 := by decide
    exact hall a.size
  simp only [Host.transfer, Bool.false_eq_true, if_false, TSOAccess.faulting, operand] at hm
  rw [if_neg a.dataReg_ne, write_of_le _ (by omega), write_apply, if_pos (by simp)] at hm
  have hbit := congrArg (·.getLsbD 0) hm
  simp at hbit

/-- The patched code and the emulation agree for every memory exactly if the offset fits into the six bits that are kept. -/
theorem patched_same_iff : (∀ mem, SameResult (a.faulting code pc regs mem)) ↔
    (a.family.unscaled = true → 0 ≤ a.imm9.toInt ∧ a.imm9.toInt < 64) := by
  have hoff : (a.family.unscaled = true → 0 ≤ a.imm9.toInt ∧ a.imm9.toInt < 64) ↔
      0 ≤ a.offset.toInt ∧ a.offset.toInt < 64 := by
    cases hu : a.family.unscaled <;> simp [TSOAccess.offset, hu]
  rw [hoff]
  constructor
  · intro hsame
    by_contra h
    have hap := offsets_apart a regs h
    cases hl : a.family.load with
    | true =>
      refine load_differs a code pc regs hl ?_ (hsame _)
      intro heq
      rw [heq, sub_self] at hap
      exact absurd hap (by decide)
    | false => exact store_differs a code pc regs hl hap (hsame _)
  · intro h mem
    rw [sameResult_iff, keptAddress, (keptOffset_eq_iff a).mpr h]
    exact ⟨rfl, rfl⟩

end Same

/-- A load of 8 bytes below its base register, as for a value on the stack. -/
def negativeLoad : TSOAccess := ⟨.LDAPUR, 3, 0, 1, 0x1F8, by decide, by decide⟩

theorem negativeLoad_differs : negativeLoad.imm9.toInt = -8 ∧
    ¬ SameResult (negativeLoad.faulting (fun _ => NOP) 0x400000 (fun _ => 0x1009) (mark 0x1001)) :=
  ⟨by decide, load_differs negativeLoad (fun _ => NOP) 0x400000 (fun _ => 0x1009) rfl (by decide)⟩

end FexEmu.Arm64.Patched
