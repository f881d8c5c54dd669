import FexEmu.Frontend.PrefixesProofs
import FexEmu.OpcodeDispatcher.Address
/-!
# Effective addresses

What the dispatcher emits is the address of the architecture if the bits that it does not cut off and the segment base that
it adds make up for the base of the segment.
-/
namespace FexEmu.OpcodeDispatcher.Address

open Frontend.ModRM (X86Reg DecodedOperand AddressForm formOf validReg)
open Frontend.Prefixes (flag addressSizeBit fsPrefixBit gsPrefixBit)
open BitVec (toNat_setWidth allOnes toNat_ushiftRight toNat_ofNat toNat_add getLsbD_and)

/-! ## The architecture -/

/-- The bits of an address, and of a linear address. -/
def addressBits (is64BitMode has67 : Bool) : Nat :=
  if is64BitMode then (if has67 then 32 else 64) else if has67 then 16 else 32

def linearBits (is64BitMode : Bool) : Nat := if is64BitMode then 64 else 32

/-- The sum of a form, for an instruction that `next` comes behind. -/
def formSum (gregs : X86Reg → BitVec 64) (next : Int) (form : AddressForm) : Int :=
  form.base.elim 0 (fun base => (gregs base).toNat) +
    form.index.elim 0 (fun (index, scale) => (gregs index).toNat * scale) + form.disp +
    if form.ripRelative then next else 0

/-- In 64-bit mode, the other segment prefixes are ignored. -/
def inEffect (is64BitMode : Bool) (segment : Segment) : Bool := !is64BitMode || segment = .fs || segment = .gs

/-- The last override counts. Without one it is the stack segment for the stack registers, with base zero in 64-bit mode. -/
def segmentOf (is64BitMode : Bool) (overrides : List Segment) (form : AddressForm) : Option Segment :=
  match (overrides.filter (inEffect is64BitMode)).getLast? with
  | some segment => some segment
  | none =>
    if is64BitMode then none
    else if form.base = some .rsp ∨ form.base = some .rbp then some .ss
    else some .ds

def segmentBase (is64BitMode : Bool) (state : CPUState) (segment : Segment) : Nat :=
  if is64BitMode then (state.segments segment).toNat
  else (state.gdt ((state.segments segment).setWidth 16 >>> 3).toNat).toNat

def operandBase (is64BitMode : Bool) (state : CPUState) (overrides : List Segment) (form : AddressForm) : Nat :=
  (segmentOf is64BitMode overrides form).elim 0 (segmentBase is64BitMode state)

/-- The flags are what the decoder makes of a 67 prefix and of the segment overrides, the last of which counts. -/
structure Decoded (is64BitMode : Bool) extends DecodedOp where
  has67 : Bool
  overrides : List Segment
  flags_addressSize : (flags &&& flag addressSizeBit ≠ 0) ↔ has67 = true
  flags_segment : ∀ segment, (flags &&& flag segment.bit ≠ 0) ↔
    segment ∈ overrides.filter (inEffect is64BitMode)

def Decoded.next {is64BitMode : Bool} (op : Decoded is64BitMode) : Int := op.pc.toNat + op.instSize

def linearAddress {is64BitMode : Bool} (state : CPUState) (op : Decoded is64BitMode) (form : AddressForm) : Nat :=
  ((formSum state.gregs op.next form % 2 ^ addressBits is64BitMode op.has67).toNat +
    operandBase is64BitMode state op.overrides form) % 2 ^ linearBits is64BitMode

/-- The operand loads from and stores to the address that the architecture gives it. -/
def FollowsX86 {is64BitMode : Bool} (state : CPUState) (op : Decoded is64BitMode) (operand : DecodedOperand) : Prop :=
  loadSource is64BitMode state op.toDecodedOp operand op.flags = storeResult is64BitMode state op.toDecodedOp operand ∧
    ∃ address form, storeResult is64BitMode state op.toDecodedOp operand = some address ∧
      formOf is64BitMode operand = some form ∧ address.value.toNat = linearAddress state op form

/-- The bits above the address size that stay in an offset. -/
def leftOver {is64BitMode : Bool} (state : CPUState) (op : Decoded is64BitMode) : DecodedOperand → Nat
  | .gprIndirect gpr displacement =>
    let bits := addressBits is64BitMode op.has67
    let sum := (((state.gregs gpr).toNat : Int) % 2 ^ bits + displacement.toInt) % 2 ^ linearBits is64BitMode
    sum.toNat / 2 ^ bits * 2 ^ bits
  | .ripRelative value =>
    let bits := addressBits is64BitMode op.has67
    let sum := (value.toInt + if is64BitMode then op.next else 0) % 2 ^ linearBits is64BitMode
    sum.toNat / 2 ^ bits * 2 ^ bits
  | _ => 0

/-- The base of the segment that the flags name: `FS` before `GS`, or the only one. -/
def appendedBase (is64BitMode : Bool) (state : CPUState) (overrides : List Segment) : Nat :=
  let overrides := overrides.filter (inEffect is64BitMode)
  if is64BitMode then
    if .fs ∈ overrides then segmentBase true state .fs
    else if .gs ∈ overrides then segmentBase true state .gs
    else 0
  else
    match overrides.dedup with
    | [segment] => segmentBase false state segment
    | _ => 0

/-! ## Values of nodes -/

/-- A node holds a number, as far as so many low bits tell. -/
def Node.Means (n : Node) (bits : Nat) (x : Int) : Prop := (n.value.toNat : Int) ≡ x [ZMOD 2 ^ bits]

/-- A node of a size that a general register has, and not larger than its bytes. -/
structure Node.Ok (size : Nat) (n : Node) : Prop where
  sizes : n.size = 2 ∨ n.size = 4 ∨ n.size = 8
  le : n.size ≤ size
  fits : n.value.toNat < 2 ^ (8 * n.size)

variable {n src1 src2 value : Node} {bits size : Nat} {x : Int} {segment : Segment} {is64BitMode : Bool}

theorem Node.Means.mono {bits' : Nat} (h : n.Means bits' x) (hle : bits ≤ bits') :
    n.Means bits x := Int.ModEq.of_dvd (pow_dvd_pow 2 hle) h

theorem toNat_modEq_toInt {w : Nat} (c : BitVec w) : (c.toNat : Int) ≡ c.toInt [ZMOD 2 ^ w] := by
  have h : c.toInt ≡ c.toNat [ZMOD (2 ^ w : Nat)] := by
    rw [BitVec.toInt_eq_toNat_bmod]
    exact Int.bmod_emod
  exact_mod_cast h.symm

theorem loadContext_toNat (h : size ≤ 8) (member : BitVec 64) :
    (loadContext size member).value.toNat = member.toNat % 2 ^ (8 * size) := by
  unfold loadContext
  rw [toNat_setWidth, toNat_setWidth, Nat.mod_eq_of_lt (b := 2 ^ 64)]
  exact (Nat.mod_lt _ (by positivity)).trans_le (Nat.pow_le_pow_right (by decide) (by omega))

theorem loadContext_means (size : Nat) (member : BitVec 64) (h : size ≤ 8) :
    (loadContext size member).Means (8 * size) member.toNat := by
  unfold Node.Means
  rw [loadContext_toNat h]
  push_cast
  exact Int.mod_modEq _ _

theorem loadContext_ok {size' : Nat} (member : BitVec 64) (h : size = 2 ∨ size = 4 ∨ size = 8)
    (hle : size ≤ size') : (loadContext size member).Ok size' where
  sizes := h
  le := hle
  fits := by
    rw [loadContext_toNat (by omega)]
    exact Nat.mod_lt _ (by positivity)

theorem toNat_and_mask (c : BitVec 64) {width : Nat} (h : width ≤ 64) :
    (c &&& (allOnes 64 >>> (64 - width))).toNat = c.toNat % 2 ^ width := by
  have hmask : (allOnes 64 >>> (64 - width)).toNat = 2 ^ width - 1 := by
    have hpow : 2 ^ 64 = 2 ^ width * 2 ^ (64 - width) := by rw [← pow_add, Nat.add_sub_of_le h]
    have hpos : 0 < 2 ^ (64 - width) := by positivity
    rw [toNat_ushiftRight, BitVec.toNat_allOnes, Nat.shiftRight_eq_div_pow, hpow]
    have hpos' : 0 < 2 ^ width := by positivity
    apply Nat.div_eq_of_lt_le
    · rw [Nat.sub_mul, one_mul]
      omega
    · rw [Nat.sub_add_cancel hpos']
      omega
  rw [BitVec.toNat_and, hmask, Nat.and_two_pow_sub_one_eq_mod]

theorem constant_means (c : BitVec 64) (h : size ≤ 8) : (constant (size * 8) c).Means (8 * size) c.toInt := by
  unfold Node.Means constant
  rw [toNat_and_mask _ (by omega), Nat.mul_comm]
  push_cast
  refine (Int.mod_modEq _ _).trans ?_
  exact (toNat_modEq_toInt c).of_dvd (pow_dvd_pow 2 (by omega))

theorem constant_ok (c : BitVec 64) (h : size = 4 ∨ size = 8) : (constant (size * 8) c).Ok size where
  sizes := by
    unfold constant
    dsimp only
    omega
  le := by
    unfold constant
    dsimp only
    omega
  fits := by
    unfold constant
    rw [toNat_and_mask _ (by omega), Nat.mul_div_cancel _ (by decide), Nat.mul_comm]
    exact Nat.mod_lt _ (by positivity)

theorem arithmetic_means {f : BitVec 64 → BitVec 64 → BitVec 64}
    (h : ((f src1.value src2.value).toNat : Int) ≡ x [ZMOD 2 ^ bits])
    (hbits : bits ≤ 8 * max 4 (max src1.size src2.size)) : (arithmetic f src1 src2).Means bits x := by
  unfold Node.Means arithmetic
  dsimp only
  split_ifs with hsize
  · rw [hsize] at hbits
    rw [toNat_setWidth, toNat_setWidth, Nat.mod_eq_of_lt (b := 2 ^ 64) (by omega)]
    refine Int.ModEq.trans ?_ h
    push_cast
    exact (Int.mod_modEq _ _).of_dvd (pow_dvd_pow 2 hbits)
  · exact h

theorem arithmetic_ok (f : BitVec 64 → BitVec 64 → BitVec 64) (hsize : 4 ≤ size)
    (h1 : src1.Ok size) (h2 : src2.Ok size) : (arithmetic f src1 src2).Ok size where
  sizes := by
    have h1 := h1.sizes
    have h2 := h2.sizes
    unfold arithmetic
    dsimp only
    omega
  le := by
    have h1 := h1.le
    have h2 := h2.le
    unfold arithmetic
    dsimp only
    omega
  fits := by
    have h1 := h1.sizes
    have h2 := h2.sizes
    have hmax : max 4 (max src1.size src2.size) = 4 ∨ max 4 (max src1.size src2.size) = 8 := by omega
    unfold arithmetic
    dsimp only
    rcases hmax with hmax | hmax
    · rw [hmax, if_pos rfl, toNat_setWidth, toNat_setWidth]
      omega
    · rw [hmax, if_neg (by decide)]
      exact BitVec.isLt _

theorem add_means {y : Int} (h1 : src1.Means bits x) (h2 : src2.Means bits y)
    (hbits : bits ≤ 8 * max 4 (max src1.size src2.size)) (hle : bits ≤ 64) : (add src1 src2).Means bits (x + y) := by
  apply arithmetic_means _ hbits
  exact ((Int.mod_modEq _ _).of_dvd (pow_dvd_pow 2 hle)).trans (h1.add h2)

theorem mul_means {y : Int} (h1 : src1.Means bits x) (h2 : src2.Means bits y)
    (hbits : bits ≤ 8 * max 4 (max src1.size src2.size)) (hle : bits ≤ 64) : (mul src1 src2).Means bits (x * y) := by
  apply arithmetic_means _ hbits
  exact ((Int.mod_modEq _ _).of_dvd (pow_dvd_pow 2 hle)).trans (h1.mul h2)

theorem Node.Means.toNat_mod (h : n.Means bits x) : n.value.toNat % 2 ^ bits = (x % 2 ^ bits).toNat := by
  have hmod : ((n.value.toNat % 2 ^ bits : Nat) : Int) = x % 2 ^ bits := by
    exact h
  rw [← hmod, Int.toNat_natCast]

theorem Node.Means.eq (h : n.Means bits x) (hlt : n.value.toNat < 2 ^ bits) : n.value.toNat = (x % 2 ^ bits).toNat := by
  rw [← h.toNat_mod, Nat.mod_eq_of_lt hlt]

/-! ## Offsets -/

section
variable {is64BitMode : Bool} (state : CPUState) (op : Decoded is64BitMode)

theorem addrSize_eq : addrSize is64BitMode op.toDecodedOp =
    if op.has67 then gprSize is64BitMode / 2 else gprSize is64BitMode := by
  unfold addrSize
  simp only [op.flags_addressSize]

theorem gprSize_cases (is64BitMode : Bool) : gprSize is64BitMode = 4 ∨ gprSize is64BitMode = 8 := by
  cases is64BitMode <;> decide

theorem linearBits_eq (is64BitMode : Bool) : linearBits is64BitMode = 8 * gprSize is64BitMode := by
  cases is64BitMode <;> rfl

theorem addressBits_eq : addressBits is64BitMode op.has67 = 8 * addrSize is64BitMode op.toDecodedOp := by
  rw [addrSize_eq]
  cases is64BitMode <;> cases op.has67 <;> rfl

theorem addrSize_cases : (addrSize is64BitMode op.toDecodedOp = 2 ∨ addrSize is64BitMode op.toDecodedOp = 4 ∨
    addrSize is64BitMode op.toDecodedOp = 8) ∧ addrSize is64BitMode op.toDecodedOp ≤ gprSize is64BitMode := by
  rw [addrSize_eq]
  cases is64BitMode <;> cases op.has67 <;> decide

theorem register_ok (gpr : X86Reg) :
    (loadContext (addrSize is64BitMode op.toDecodedOp) (state.gregs gpr)).Ok (gprSize is64BitMode) :=
  loadContext_ok _ (addrSize_cases op).1 (addrSize_cases op).2

theorem register_means (gpr : X86Reg) :
    (loadContext (addrSize is64BitMode op.toDecodedOp) (state.gregs gpr)).Means (addressBits is64BitMode op.has67)
      (state.gregs gpr).toNat := by
  have hcases := addrSize_cases op
  rw [addressBits_eq]
  exact loadContext_means _ _ (by omega)

theorem disp_ok (c : BitVec 64) : (constant (gprSize is64BitMode * 8) c).Ok (gprSize is64BitMode) :=
  constant_ok c (gprSize_cases is64BitMode)

theorem disp_means (c : BitVec 64) :
    (constant (gprSize is64BitMode * 8) c).Means (linearBits is64BitMode) c.toInt := by
  have hcases := gprSize_cases is64BitMode
  rw [linearBits_eq]
  exact constant_means c (by omega)

theorem addressBits_le (is64BitMode has67 : Bool) : addressBits is64BitMode has67 ≤ linearBits is64BitMode := by
  cases is64BitMode <;> cases has67 <;> decide

variable {x : Int}

theorem add_disp {node : Node} {c : BitVec 64} {bits : Nat} (hok : node.Ok (gprSize is64BitMode))
    (hmeans : node.Means bits x) (hbits : bits ≤ linearBits is64BitMode) :
    (add node (constant (gprSize is64BitMode * 8) c)).Ok (gprSize is64BitMode) ∧
      (add node (constant (gprSize is64BitMode * 8) c)).Means bits (x + c.toInt) := by
  have hcases := gprSize_cases is64BitMode
  have hsize : (constant (gprSize is64BitMode * 8) c).size = gprSize is64BitMode := by
    unfold constant
    dsimp only
    omega
  rw [linearBits_eq] at hbits
  refine ⟨arithmetic_ok _ (by omega) hok (disp_ok c), ?_⟩
  apply add_means hmeans ((disp_means c).mono (by rw [linearBits_eq]; exact hbits))
  · omega
  · omega

theorem add_register {node : Node} (gpr : X86Reg) (hok : node.Ok (gprSize is64BitMode))
    (hmeans : node.Means (addressBits is64BitMode op.has67) x) :
    (add node (loadContext (addrSize is64BitMode op.toDecodedOp) (state.gregs gpr))).Ok (gprSize is64BitMode) ∧
      (add node (loadContext (addrSize is64BitMode op.toDecodedOp) (state.gregs gpr))).Means
        (addressBits is64BitMode op.has67) (x + (state.gregs gpr).toNat) := by
  have hcases := gprSize_cases is64BitMode
  have haddr := addrSize_cases op
  refine ⟨arithmetic_ok _ (by omega) hok (register_ok state op gpr), ?_⟩
  apply add_means hmeans (register_means state op gpr)
  · rw [addressBits_eq]
    change _ ≤ 8 * max 4 (max node.size (addrSize is64BitMode op.toDecodedOp))
    omega
  · rw [addressBits_eq]
    omega

theorem scaled_register (gpr : X86Reg) (scale : Nat) :
    let tmp := loadContext (addrSize is64BitMode op.toDecodedOp) (state.gregs gpr)
    let tmp := if scale ≠ 1 then mul tmp (constant (gprSize is64BitMode * 8) (BitVec.ofNat 64 scale)) else tmp
    tmp.Ok (gprSize is64BitMode) ∧ tmp.Means (addressBits is64BitMode op.has67) ((state.gregs gpr).toNat * scale) := by
  have hcases := gprSize_cases is64BitMode
  have haddr := addrSize_cases op
  have hok := register_ok state op gpr
  have hmeans := register_means state op gpr
  have hbits := addressBits_le is64BitMode op.has67
  have hscale : (constant (gprSize is64BitMode * 8) (BitVec.ofNat 64 scale)).Means (addressBits is64BitMode op.has67)
      scale := by
    refine ((disp_means _).mono hbits).trans ?_
    have h64 : (BitVec.ofNat 64 scale).toInt ≡ scale [ZMOD 2 ^ 64] := by
      refine (toNat_modEq_toInt _).symm.trans ?_
      rw [toNat_ofNat]
      push_cast
      exact Int.mod_modEq _ _
    exact h64.of_dvd (pow_dvd_pow 2 (by rw [addressBits_eq]; omega))
  split_ifs with hone
  · refine ⟨arithmetic_ok _ (by omega) hok (disp_ok _), ?_⟩
    apply mul_means hmeans hscale
    · rw [addressBits_eq]
      change _ ≤ 8 * max 4 (max (addrSize is64BitMode op.toDecodedOp) _)
      omega
    · rw [addressBits_eq]
      omega
  · have hone : scale = 1 := not_not.1 hone
    subst hone
    rw [Nat.cast_one, mul_one]
    exact ⟨hok, hmeans⟩

/-- What a sum has been made of so far; without a node, it is zero. -/
def HoldsSum (size bits : Nat) (tmp : Option Node) (x : Int) : Prop :=
  match tmp with
  | some node => node.Ok size ∧ node.Means bits x
  | none => x = 0

theorem index_holds (index : X86Reg) (scale : Nat) :
    HoldsSum (gprSize is64BitMode) (addressBits is64BitMode op.has67)
      (if index ≠ .invalid then
        let tmp := loadContext (addrSize is64BitMode op.toDecodedOp) (state.gregs index)
        some (if scale ≠ 1 then mul tmp (constant (gprSize is64BitMode * 8) (BitVec.ofNat 64 scale)) else tmp)
      else none)
      ((validReg index).elim 0 fun index => (state.gregs index).toNat * scale) := by
  by_cases hinvalid : index = .invalid
  · rw [if_neg (not_not.2 hinvalid), validReg, if_pos hinvalid]
    rfl
  · rw [if_pos hinvalid, validReg, if_neg hinvalid]
    exact scaled_register state op index scale

theorem base_holds {tmp : Option Node} (base : X86Reg) :
    HoldsSum (gprSize is64BitMode) (addressBits is64BitMode op.has67) tmp x →
    HoldsSum (gprSize is64BitMode) (addressBits is64BitMode op.has67)
      (if base ≠ .invalid then
        let gpr := loadContext (addrSize is64BitMode op.toDecodedOp) (state.gregs base)
        match tmp with
        | some tmp => some (add tmp gpr)
        | none => some gpr
      else tmp)
      (x + (validReg base).elim 0 fun base => (state.gregs base).toNat) := by
  intro h
  by_cases hinvalid : base = .invalid
  · rw [if_neg (not_not.2 hinvalid), validReg, if_pos hinvalid, Option.elim_none, Nat.cast_zero, add_zero]
    exact h
  · rw [if_pos hinvalid, validReg, if_neg hinvalid, Option.elim_some]
    cases tmp with
    | some tmp => exact add_register state op base h.1 h.2
    | none =>
      rw [show x = 0 from h, zero_add]
      exact ⟨register_ok state op base, register_means state op base⟩

theorem offset_holds {tmp : Option Node} (offset : BitVec 32) :
    HoldsSum (gprSize is64BitMode) (addressBits is64BitMode op.has67) tmp x →
    HoldsSum (gprSize is64BitMode) (addressBits is64BitMode op.has67)
      (some (if offset ≠ 0 then
        match tmp with
        | some tmp => add tmp (constant (gprSize is64BitMode * 8) (offset.signExtend 64))
        | none => constant (gprSize is64BitMode * 8) (offset.signExtend 64)
      else
        match tmp with
        | some tmp => tmp
        | none => constant (gprSize is64BitMode * 8) 0))
      (x + offset.toInt) := by
  have hbits := addressBits_le is64BitMode op.has67
  have hdisp : (offset.signExtend 64).toInt = offset.toInt := BitVec.toInt_signExtend_of_le (by decide)
  intro h
  by_cases hzero : offset = 0
  · rw [if_neg (not_not.2 hzero), hzero, show (0 : BitVec 32).toInt = 0 from rfl, add_zero]
    cases tmp with
    | some tmp => exact h
    | none =>
      rw [show x = 0 from h]
      exact ⟨disp_ok _, (disp_means 0).mono hbits⟩
  · rw [if_pos hzero, ← hdisp]
    cases tmp with
    | some tmp => exact add_disp h.1 h.2 hbits
    | none =>
      rw [show x = 0 from h, zero_add]
      exact ⟨disp_ok _, (disp_means _).mono hbits⟩

theorem cut_value {src : Node} (hok : src.Ok (gprSize is64BitMode))
    (hmeans : src.Means (addressBits is64BitMode op.has67) x) :
    (if addrSize is64BitMode op.toDecodedOp < gprSize is64BitMode then
      bfe (addrSize is64BitMode op.toDecodedOp) (addrSize is64BitMode op.toDecodedOp * 8) src else src).Ok
        (gprSize is64BitMode) ∧
    (if addrSize is64BitMode op.toDecodedOp < gprSize is64BitMode then
      bfe (addrSize is64BitMode op.toDecodedOp) (addrSize is64BitMode op.toDecodedOp * 8) src else src).value.toNat =
        (x % 2 ^ addressBits is64BitMode op.has67).toNat := by
  have haddr := addrSize_cases op
  split_ifs with hlt
  · have hvalue : (bfe (addrSize is64BitMode op.toDecodedOp) (addrSize is64BitMode op.toDecodedOp * 8) src).value.toNat =
        src.value.toNat % 2 ^ (8 * addrSize is64BitMode op.toDecodedOp) := by
      unfold bfe
      rw [toNat_and_mask _ (by omega), Nat.mul_comm]
    have hfits : (bfe (addrSize is64BitMode op.toDecodedOp) (addrSize is64BitMode op.toDecodedOp * 8) src).value.toNat <
        2 ^ (8 * addrSize is64BitMode op.toDecodedOp) := by
      rw [hvalue]
      exact Nat.mod_lt _ (by positivity)
    refine ⟨⟨haddr.1, haddr.2, hfits⟩, ?_⟩
    rw [addressBits_eq] at hmeans ⊢
    refine Node.Means.eq ?_ hfits
    unfold Node.Means
    rw [hvalue]
    exact (Int.mod_modEq _ _).trans hmeans
  · have hsize : addrSize is64BitMode op.toDecodedOp = gprSize is64BitMode := by omega
    refine ⟨hok, hmeans.eq ?_⟩
    rw [addressBits_eq, hsize]
    exact hok.fits.trans_le (Nat.pow_le_pow_right (by decide) (Nat.mul_le_mul_left 8 hok.le))

theorem sib_value (index base : X86Reg) (scale : Nat) (offset : BitVec 32) :
    ∃ address form, storeResultAddress is64BitMode state op.toDecodedOp (.sib index base scale offset) = some address ∧
      formOf is64BitMode (.sib index base scale offset) = some form ∧ address.Ok (gprSize is64BitMode) ∧
      address.value.toNat = (formSum state.gregs op.next form % 2 ^ addressBits is64BitMode op.has67).toNat := by
  have hsum := offset_holds op offset (base_holds state op base (index_holds state op index scale))
  refine ⟨_, _, rfl, rfl, (cut_value op hsum.1 hsum.2).1, (cut_value op hsum.1 hsum.2).2.trans ?_⟩
  unfold formSum
  cases validReg base <;> cases validReg index <;> simp [add_comm]

theorem direct_value (gpr : X86Reg) :
    ∃ address, storeResultAddress is64BitMode state op.toDecodedOp (.gprDirect gpr) = some address ∧
      address.Ok (gprSize is64BitMode) ∧
      address.value.toNat = ((state.gregs gpr).toNat % 2 ^ addressBits is64BitMode op.has67 : Int).toNat := by
  refine ⟨_, rfl, register_ok state op gpr, (register_means state op gpr).eq ?_⟩
  rw [addressBits_eq]
  exact (register_ok state op gpr).fits

theorem Node.Means.split {n : Node} {y : Int} (hok : n.Ok (gprSize is64BitMode)) (h : n.Means (linearBits is64BitMode) x)
    (hsame : x ≡ y [ZMOD 2 ^ addressBits is64BitMode op.has67]) :
    n.value.toNat = (y % 2 ^ addressBits is64BitMode op.has67).toNat +
      (x % 2 ^ linearBits is64BitMode).toNat / 2 ^ addressBits is64BitMode op.has67 *
        2 ^ addressBits is64BitMode op.has67 := by
  have hfits : n.value.toNat < 2 ^ linearBits is64BitMode := by
    rw [linearBits_eq]
    exact hok.fits.trans_le (Nat.pow_le_pow_right (by decide) (Nat.mul_le_mul_left 8 hok.le))
  have hlow : n.value.toNat % 2 ^ addressBits is64BitMode op.has67 = (y % 2 ^ addressBits is64BitMode op.has67).toNat := by
    have hmod : ((n.value.toNat : Int) % 2 ^ addressBits is64BitMode op.has67) = y % 2 ^ addressBits is64BitMode op.has67 :=
      (h.mono (addressBits_le is64BitMode op.has67)).trans hsame
    rw [← hmod]
    exact_mod_cast (Int.toNat_natCast _).symm
  rw [← h.eq hfits, ← hlow, Nat.mod_add_div']

theorem indirect_value (gpr : X86Reg) (displacement : BitVec 32) :
    ∃ address, storeResultAddress is64BitMode state op.toDecodedOp (.gprIndirect gpr displacement) = some address ∧
      address.Ok (gprSize is64BitMode) ∧
      address.value.toNat = (((state.gregs gpr).toNat + displacement.toInt : Int) %
        2 ^ addressBits is64BitMode op.has67).toNat + leftOver state op (.gprIndirect gpr displacement) := by
  have hok := register_ok state op gpr
  have hdisp : (displacement.signExtend 64).toInt = displacement.toInt := BitVec.toInt_signExtend_of_le (by decide)
  have hmeans : (loadContext (addrSize is64BitMode op.toDecodedOp) (state.gregs gpr)).Means (linearBits is64BitMode)
      (((state.gregs gpr).toNat : Int) % 2 ^ addressBits is64BitMode op.has67) := by
    have hvalue : (((state.gregs gpr).toNat : Int) % 2 ^ addressBits is64BitMode op.has67) =
        (loadContext (addrSize is64BitMode op.toDecodedOp) (state.gregs gpr)).value.toNat := by
      have heq := (register_means state op gpr).eq (by rw [addressBits_eq]; exact hok.fits)
      rw [heq, Int.toNat_of_nonneg (Int.emod_nonneg _ (by positivity))]
    rw [hvalue]
    exact Int.ModEq.refl _
  obtain ⟨hok', hsum⟩ := add_disp (c := displacement.signExtend 64) hok hmeans le_rfl
  rw [hdisp] at hsum
  exact ⟨_, rfl, hok', hsum.split op hok' ((Int.mod_modEq _ _).add_right _)⟩

theorem getRelocatedPC_means (op : Decoded true) (offset : BitVec 64) :
    (getRelocatedPC true op.toDecodedOp offset).Means 64 (offset.toInt + op.next) := by
  have hvalue : (getRelocatedPC true op.toDecodedOp offset).value = op.pc + BitVec.ofNat 64 op.instSize + offset :=
    add_sub_cancel op.entry (op.pc + BitVec.ofNat 64 op.instSize + offset)
  unfold Node.Means Decoded.next
  rw [hvalue, toNat_add, toNat_add, toNat_ofNat]
  push_cast
  rw [add_comm offset.toInt]
  refine (Int.mod_modEq _ _).trans ?_
  refine Int.ModEq.add ?_ (toNat_modEq_toInt offset)
  exact (Int.mod_modEq _ _).trans ((Int.ModEq.refl _).add (Int.mod_modEq _ _))

theorem ripRelative_value (value : BitVec 32) :
    ∃ address, storeResultAddress is64BitMode state op.toDecodedOp (.ripRelative value) = some address ∧
      address.Ok (gprSize is64BitMode) ∧
      address.value.toNat = ((value.toInt + if is64BitMode then op.next else 0) %
        2 ^ addressBits is64BitMode op.has67).toNat + leftOver state op (.ripRelative value) := by
  cases is64BitMode with
  | true =>
    have hok : (getRelocatedPC true op.toDecodedOp (value.signExtend 64)).Ok 8 :=
      ⟨.inr (.inr rfl), le_rfl, BitVec.isLt _⟩
    have hmeans := getRelocatedPC_means op (value.signExtend 64)
    rw [BitVec.toInt_signExtend_of_le (by decide)] at hmeans
    exact ⟨_, rfl, hok, Node.Means.split op hok hmeans (Int.ModEq.refl _)⟩
  | false =>
    have hok : (constant (gprSize false * 8) (value.setWidth 64)).Ok (gprSize false) := disp_ok (value.setWidth 64)
    have hmeans : (constant (gprSize false * 8) (value.setWidth 64)).Means (linearBits false) (value.toInt + 0) := by
      rw [add_zero]
      apply Int.ModEq.trans (disp_means (value.setWidth 64))
      refine Int.ModEq.trans ?_ (toNat_modEq_toInt value)
      have h64 := ((toNat_modEq_toInt (value.setWidth 64)).of_dvd (by decide : (2 : Int) ^ 32 ∣ 2 ^ 64)).symm
      exact h64
    exact ⟨_, rfl, hok, Node.Means.split op hok hmeans (Int.ModEq.refl _)⟩

/-- An operand in memory, as the decoder builds it. -/
def IsMemory : DecodedOperand → Prop
  | .gprDirect gpr => gpr ≠ .invalid
  | .gprIndirect gpr _ => gpr ≠ .invalid
  | .ripRelative _ => True
  | .sib _ _ _ _ => True
  | _ => False

theorem offset_value {operand : DecodedOperand} (h : IsMemory operand) :
    ∃ address form, storeResultAddress is64BitMode state op.toDecodedOp operand = some address ∧
      formOf is64BitMode operand = some form ∧ address.Ok (gprSize is64BitMode) ∧
      address.value.toNat = (formSum state.gregs op.next form % 2 ^ addressBits is64BitMode op.has67).toNat +
        leftOver state op operand := by
  cases operand with
  | gprDirect gpr =>
    obtain ⟨address, haddress, hok, hvalue⟩ := direct_value state op gpr
    refine ⟨address, _, haddress, rfl, hok, hvalue.trans ?_⟩
    unfold formSum validReg
    rw [if_neg h]
    simp [leftOver]
  | gprIndirect gpr displacement =>
    obtain ⟨address, haddress, hok, hvalue⟩ := indirect_value state op gpr displacement
    refine ⟨address, _, haddress, rfl, hok, hvalue.trans ?_⟩
    unfold formSum validReg
    rw [if_neg h]
    simp
  | ripRelative value =>
    obtain ⟨address, haddress, hok, hvalue⟩ := ripRelative_value state op value
    refine ⟨address, _, haddress, rfl, hok, hvalue.trans ?_⟩
    unfold formSum
    simp
  | sib index base scale offset =>
    obtain ⟨address, form, haddress, hform, hok, hvalue⟩ := sib_value state op index base scale offset
    exact ⟨address, form, haddress, hform, hok, hvalue⟩
  | nothing => exact h.elim
  | gpr _ _ => exact h.elim
  | literal _ _ => exact h.elim

end

/-! ## Segments -/

theorem add_base (hsize : size = 4 ∨ size = 8) (hok : value.Ok size) (base : BitVec 64) :
    (add value (loadContext size base)).value.toNat = (value.value.toNat + base.toNat) % 2 ^ (8 * size) := by
  have hcases : size = 2 ∨ size = 4 ∨ size = 8 := .inr hsize
  have hbase := loadContext_ok base hcases le_rfl
  have hsum := arithmetic_ok (· + ·) (by omega) hok hbase
  have hmeans : (add value (loadContext size base)).Means (8 * size) (value.value.toNat + base.toNat : Nat) := by
    apply add_means (Int.ModEq.refl _) (loadContext_means size base (by omega))
    · change _ ≤ 8 * max 4 (max value.size size)
      omega
    · omega
  have hvalue := hmeans.eq (hsum.fits.trans_le (Nat.pow_le_pow_right (by decide) (Nat.mul_le_mul_left 8 hsum.le)))
  rw [hvalue]
  exact_mod_cast Int.toNat_natCast _

theorem segmentOfFlag_eq_some {flags : BitVec 32} : segmentOfFlag flags = some segment ↔ flags = flag segment.bit := by
  constructor
  · intro h
    unfold segmentOfFlag at h
    split_ifs at h with hes hcs hss hds hfs hgs <;> cases h <;> assumption
  · rintro rfl
    cases segment <;> rfl

theorem bit_bounds (segment : Segment) : 11 ≤ segment.bit ∧ segment.bit < 17 := by cases segment <;> decide

theorem bit_injective {segment' : Segment} (h : segment.bit = segment'.bit) : segment = segment' := by
  revert h
  cases segment <;> cases segment' <;> decide

theorem exists_bit {i : Nat} (h : 11 ≤ i ∧ i < 17) : ∃ segment : Segment, segment.bit = i := by
  have hcases : i = 11 ∨ i = 12 ∨ i = 13 ∨ i = 14 ∨ i = 15 ∨ i = 16 := by omega
  rcases hcases with rfl | rfl | rfl | rfl | rfl | rfl
  · exact ⟨.es, rfl⟩
  · exact ⟨.cs, rfl⟩
  · exact ⟨.ss, rfl⟩
  · exact ⟨.ds, rfl⟩
  · exact ⟨.fs, rfl⟩
  · exact ⟨.gs, rfl⟩

theorem getLsbD_segments (i : Nat) : flagSegments.getLsbD i = decide (11 ≤ i ∧ i < 17) := by
  have hall : ∀ i < 32, flagSegments.getLsbD i = decide (11 ≤ i ∧ i < 17) := by decide
  by_cases h : i < 32
  · exact hall i h
  · rw [BitVec.getLsbD_of_ge _ _ (by omega), eq_comm, decide_eq_false_iff_not]
    omega

theorem flag_ne_zero_iff {flags : BitVec 32} {bit : Nat} (h : bit < 32) :
    (flags &&& flag bit ≠ 0) ↔ flags.getLsbD bit = true := by
  rw [← Frontend.Prefixes.and_flag_ne_zero flags h, bne_iff_ne]

theorem segments_eq_flag_iff {flags : BitVec 32} : flags &&& flagSegments = flag segment.bit ↔
      ∀ segment' : Segment, (flags &&& flag segment'.bit ≠ 0) ↔ segment' = segment := by
  have hlt : ∀ segment : Segment, segment.bit < 32 := fun segment => by
    have := bit_bounds segment
    omega
  constructor
  · intro h segment'
    rw [flag_ne_zero_iff (hlt segment')]
    have hbit := congrArg (·.getLsbD segment'.bit) h
    simp only [getLsbD_and, getLsbD_segments, decide_eq_true (bit_bounds segment'), Bool.and_true,
      Frontend.Prefixes.getLsbD_flag (hlt segment)] at hbit
    rw [hbit, decide_eq_true_iff]
    exact ⟨bit_injective, fun h => h ▸ rfl⟩
  · intro h
    apply BitVec.eq_of_getLsbD_eq
    intro i _
    rw [getLsbD_and, getLsbD_segments, Frontend.Prefixes.getLsbD_flag (hlt segment)]
    by_cases hi : 11 ≤ i ∧ i < 17
    · obtain ⟨segment', rfl⟩ := exists_bit hi
      rw [decide_eq_true hi, Bool.and_true, Bool.eq_iff_iff, decide_eq_true_iff, ← flag_ne_zero_iff (hlt segment'), h]
      exact ⟨fun h => h ▸ rfl, bit_injective⟩
    · have hne : i ≠ segment.bit := fun heq => hi (heq ▸ bit_bounds segment)
      rw [decide_eq_false hi, decide_eq_false hne, Bool.and_false]

theorem dedup_eq_singleton_iff {α : Type} [DecidableEq α] {l : List α} {a : α} :
    l.dedup = [a] ↔ ∀ x, x ∈ l ↔ x = a := by
  constructor
  · intro h x
    rw [← List.mem_dedup, h, List.mem_singleton]
  · intro h
    have hperm : l.dedup.Perm [a] := (List.perm_ext_iff_of_nodup (List.nodup_dedup l) (List.nodup_singleton a)).2
      fun x => by rw [List.mem_dedup, List.mem_singleton, h]
    exact List.perm_singleton.1 hperm

theorem segmentOfFlag_segments (op : Decoded false) :
    segmentOfFlag (op.flags &&& flagSegments) =
      match (op.overrides.filter (inEffect false)).dedup with
      | [segment] => some segment
      | _ => none := by
  have hiff : ∀ segment, segmentOfFlag (op.flags &&& flagSegments) = some segment ↔
      (op.overrides.filter (inEffect false)).dedup = [segment] := by
    intro segment
    rw [segmentOfFlag_eq_some, segments_eq_flag_iff, dedup_eq_singleton_iff]
    simp only [op.flags_segment]
  split
  · next segment h => exact (hiff segment).2 h
  · next h =>
    rw [Option.eq_none_iff_forall_ne_some]
    exact fun segment hsegment => h segment ((hiff segment).1 hsegment)

theorem Node.Ok.value_mod (hok : value.Ok (gprSize is64BitMode)) :
    value.value.toNat % 2 ^ linearBits is64BitMode = value.value.toNat := by
  apply Nat.mod_eq_of_lt
  rw [linearBits_eq]
  exact hok.fits.trans_le (Nat.pow_le_pow_right (by decide) (Nat.mul_le_mul_left 8 hok.le))

theorem add_segment (hok : value.Ok 4) (state : CPUState) (segment : Segment) : (add value (loadContext 4
      ((state.gdt (lshr (loadContext 2 (state.segments segment)) 3).value.toNat).setWidth 64))).value.toNat =
      (value.value.toNat + segmentBase false state segment) % 2 ^ linearBits false := by
  have hindex : (lshr (loadContext 2 (state.segments segment)) 3).value.toNat =
      ((state.segments segment).setWidth 16 >>> 3).toNat := by
    unfold lshr loadContext
    rw [toNat_ushiftRight, toNat_ushiftRight, BitVec.toNat_setWidth_of_le (by decide)]
  refine (add_base (.inl rfl) hok _).trans ?_
  rfl

theorem append_value (state : CPUState) (op : Decoded is64BitMode) (hok : value.Ok (gprSize is64BitMode)) :
    (appendSegmentOffset is64BitMode state value op.flags 0 false).value.toNat =
      (value.value.toNat + appendedBase is64BitMode state op.overrides) % 2 ^ linearBits is64BitMode := by
  cases is64BitMode with
  | true =>
    have hfs : (op.flags &&& flag fsPrefixBit ≠ 0) ↔ .fs ∈ op.overrides.filter (inEffect true) := op.flags_segment .fs
    have hgs : (op.flags &&& flag gsPrefixBit ≠ 0) ↔ .gs ∈ op.overrides.filter (inEffect true) := op.flags_segment .gs
    unfold appendSegmentOffset appendedBase
    rw [if_pos rfl, if_pos rfl]
    by_cases hf : .fs ∈ op.overrides.filter (inEffect true)
    · rw [if_pos (hfs.2 hf), if_pos hf]
      exact add_base (.inr rfl) hok _
    · rw [if_neg fun h => hf (hfs.1 h), if_neg hf]
      by_cases hg : .gs ∈ op.overrides.filter (inEffect true)
      · rw [if_pos (hgs.2 hg), if_pos hg]
        exact add_base (.inr rfl) hok _
      · rw [if_neg fun h => hg (hgs.1 h), if_neg hg]
        exact hok.value_mod.symm
  | false =>
    have hgiven : segmentOfFlag (if op.flags &&& flagSegments = 0 ∨ false = true then 0 else op.flags &&& flagSegments) =
        segmentOfFlag (op.flags &&& flagSegments) := by
      by_cases hzero : op.flags &&& flagSegments = 0
      · rw [if_pos (.inl hzero), hzero]
      · rw [if_neg fun h => h.elim hzero Bool.false_ne_true]
    unfold appendSegmentOffset appendedBase
    dsimp only
    rw [if_neg Bool.false_ne_true, if_neg Bool.false_ne_true, hgiven, segmentOfFlag_segments op]
    generalize (op.overrides.filter (inEffect false)).dedup = given
    rcases given with _ | ⟨segment, _ | ⟨_, _⟩⟩
    · exact hok.value_mod.symm
    · exact add_segment hok state segment
    · exact hok.value_mod.symm

/-! ## The two functions -/

theorem operandBase_lt (state : CPUState) (overrides : List Segment) (form : AddressForm) :
    operandBase is64BitMode state overrides form < 2 ^ linearBits is64BitMode := by
  unfold operandBase
  cases segmentOf is64BitMode overrides form with
  | none => exact Nat.two_pow_pos _
  | some segment =>
    cases is64BitMode with
    | true => exact BitVec.isLt _
    | false => exact BitVec.isLt _

theorem loadSource_eq_storeResult (is64BitMode : Bool) (state : CPUState) (op : DecodedOp) (operand : DecodedOperand) :
    loadSource is64BitMode state op operand op.flags = storeResult is64BitMode state op operand := by
  have haddress : loadSourceAddress is64BitMode state op operand = storeResultAddress is64BitMode state op operand := by
    cases operand <;> rfl
  unfold loadSource storeResult
  rw [haddress]

/-- The base that the operand has makes up for what the emitted code leaves over. -/
def MakesUp {is64BitMode : Bool} (state : CPUState) (op : Decoded is64BitMode) (operand : DecodedOperand) : Prop :=
  ∃ form, formOf is64BitMode operand = some form ∧ operandBase is64BitMode state op.overrides form =
    (appendedBase is64BitMode state op.overrides + leftOver state op operand) % 2 ^ linearBits is64BitMode

/-- Both functions use the address of the architecture if and only if no bits above the address size are left over and the
segment base is the right one, or one makes up for the other. -/
theorem effectiveAddress_follows_iff {is64BitMode : Bool} (state : CPUState) (op : Decoded is64BitMode)
    {operand : DecodedOperand} (h : IsMemory operand) : FollowsX86 state op operand ↔ MakesUp state op operand := by
  obtain ⟨address, form, haddress, hform, hok, hvalue⟩ := offset_value state op h
  have hstore : storeResult is64BitMode state op.toDecodedOp operand =
      some (appendSegmentOffset is64BitMode state address op.flags 0 false) := by
    unfold storeResult
    rw [haddress]
    rfl
  have hbase : operandBase is64BitMode state op.overrides form < 2 ^ linearBits is64BitMode :=
    operandBase_lt state op.overrides form
  have hiff : (appendSegmentOffset is64BitMode state address op.flags 0 false).value.toNat = linearAddress state op form ↔
      operandBase is64BitMode state op.overrides form =
        (appendedBase is64BitMode state op.overrides + leftOver state op operand) % 2 ^ linearBits is64BitMode := by
    rw [append_value state op hok, hvalue, Nat.add_assoc, Nat.add_comm (leftOver state op operand)]
    unfold linearAddress
    constructor
    · intro hsum
      have hcancel := Nat.ModEq.add_left_cancel' _ hsum
      rw [← Nat.mod_eq_of_lt hbase]
      exact hcancel.symm
    · intro hmakes
      rw [hmakes, Nat.add_mod_mod]
  constructor
  · rintro ⟨-, address', form', hstore', hform', hlinear⟩
    cases hstore.symm.trans hstore'
    cases hform.symm.trans hform'
    exact ⟨form, hform, hiff.1 hlinear⟩
  · rintro ⟨form', hform', hmakes⟩
    cases hform.symm.trans hform'
    exact ⟨loadSource_eq_storeResult _ _ _ _, _, form, hstore, hform, hiff.2 hmakes⟩

/-- An instruction without prefixes. -/
def plainOp : Decoded true where
  flags := 0
  pc := 0x401000
  instSize := 3
  entry := 0x401000
  has67 := false
  overrides := []
  flags_addressSize := by decide
  flags_segment := fun segment => by cases segment <;> decide

/-- All registers hold the same. -/
def uniform (value : BitVec 64) : CPUState := ⟨fun _ => value, fun _ => 0, fun _ => 0⟩

/-- `mov eax, [rbx + 8]`. -/
theorem effectiveAddress_follows_plain : FollowsX86 (uniform 0xFFFFFFFF) plainOp (.gprIndirect .rbx 8) := by
  have hmemory : IsMemory (.gprIndirect .rbx 8) := fun h => nomatch h
  exact (effectiveAddress_follows_iff (uniform 0xFFFFFFFF) plainOp hmemory).2 ⟨_, rfl, by decide⟩

/-- With an address size prefix. -/
def narrowOp : Decoded true where
  flags := flag addressSizeBit
  pc := 0x401000
  instSize := 4
  entry := 0x401000
  has67 := true
  overrides := []
  flags_addressSize := by decide
  flags_segment := fun segment => by cases segment <;> decide

/-- `mov eax, [ebx + 8]` does not wrap around. -/
theorem effectiveAddress_exceeds : ¬ FollowsX86 (uniform 0xFFFFFFFF) narrowOp (.gprIndirect .rbx 8) := by
  rintro ⟨-, address, form, haddress, hform, hlinear⟩
  cases haddress
  cases hform
  exact absurd hlinear (by decide)

end FexEmu.OpcodeDispatcher.Address
