import FexEmu.OpcodeDispatcher.EffectiveAddress
import FexEmu.OpcodeDispatcher.Nodes
/-!
# Operands of integer instructions

`LoadSource_WithOpSize` and `StoreResult_WithOpSize`, the atomic ops, and where an operand is for the architecture.
-/
namespace FexEmu.OpcodeDispatcher.Integer

open ByteMemory (bytes)
open Address (Node constant loadContext gprSize)
open StringOps (State storeContext)
open Frontend.ModRM (X86Reg DecodedOperand)
open Frontend.Prefixes (flag lockBit)

/-- The members of `DecodedInst` that the handlers read. -/
structure DecodedInst extends Address.DecodedOp where
  op : Nat
  dest : DecodedOperand
  src : Nat → DecodedOperand

def isGeneral : X86Reg → Bool
  | .xmm _ | .mm _ | .invalid => false
  | _ => true

def isGPR : DecodedOperand → Bool
  | .gpr _ _ => true
  | _ => false

def hasLock (op : DecodedInst) : Bool := op.flags &&& flag lockBit ≠ 0

def destIsLockedMem (op : DecodedInst) : Bool := !isGPR op.dest && hasLock op

def getDstSize (op : DecodedInst) : Nat := StringOps.getDstSize op.toDecodedOp

def getSrcSize (op : DecodedInst) : Nat := StringOps.getSrcSize op.toDecodedOp

/-! ## The two functions -/

section
variable (is64BitMode : Bool) (op : DecodedInst) (s : State)

/-- `_LoadContext` of a general register, from its second byte on for high bits. -/
def loadGPR (size : Nat) (highBits : Bool) (greg : BitVec 64) : Node :=
  loadContext size (if highBits then greg >>> 8 else greg)

/-- `_StoreContext` of a general register, from its second byte on for high bits. -/
def storeGPR (size : Nat) (highBits : Bool) (value : Node) (greg : BitVec 64) : BitVec 64 :=
  if highBits then storeContext (size + 1) ⟨value.size, (value.value <<< 8) ||| (greg.setWidth 8).setWidth 64⟩ greg
  else storeContext size value greg

def loadSourceWithOpSize (operand : DecodedOperand) (opSize : Nat) : Option Node :=
  match operand with
  | .literal size value => some (constant (size * 8) value)
  | .gpr highBits gpr => if isGeneral gpr then some (loadGPR opSize highBits (s.cpu.gregs gpr)) else none
  | operand => (Address.loadSource is64BitMode s.cpu op.toDecodedOp operand op.flags).map (s.loadMem opSize)

def loadSource (operand : DecodedOperand) : Option Node :=
  loadSourceWithOpSize is64BitMode op s operand (getSrcSize op)

/-- `LoadSource` without the data, and the segment. -/
def loadAddress (operand : DecodedOperand) : Option Node :=
  Address.loadSource is64BitMode s.cpu op.toDecodedOp operand op.flags

def setGPR (gpr : X86Reg) (value : BitVec 64) : State :=
  { s with cpu := { s.cpu with gregs := Function.update s.cpu.gregs gpr value } }

/-- A node of eight bytes is cut to the low half, and those of other sizes are taken for zero above. -/
def storeResultWithOpSize (operand : DecodedOperand) (src : Node) (opSize : Nat) : Option State :=
  match operand with
  | .gpr highBits gpr =>
    if !isGeneral gpr then none
    else if gprSize is64BitMode = 8 ∧ opSize = 4 then
      let value := if src.size = 8 then bfeSized 4 32 0 src else src
      some (setGPR s gpr (storeContext (gprSize is64BitMode) value (s.cpu.gregs gpr)))
    else some (setGPR s gpr (storeGPR (min (gprSize is64BitMode) opSize) highBits src (s.cpu.gregs gpr)))
  | operand =>
    (Address.storeResult is64BitMode s.cpu op.toDecodedOp operand).map fun memStoreDst => s.storeMem opSize memStoreDst src

def storeResultTo (operand : DecodedOperand) (src : Node) : Option State :=
  storeResultWithOpSize is64BitMode op s operand src (getDstSize op)

def storeResult (src : Node) : Option State := storeResultTo is64BitMode op s op.dest src

end

/-- An atomic op: the value that was there, and the state behind it. -/
def atomicFetch (func : {n : Nat} → BitVec n → BitVec n → BitVec n) (s : State) (size : Nat) (value addr : Node) :
    Node × State :=
  let before := s.loadMem size addr
  (before, s.storeMem size addr
    ⟨size, (func (before.value.setWidth (8 * size)) (value.value.setWidth (8 * size))).setWidth 64⟩)

/-! ## The architecture -/

/-- Where an operand is. -/
inductive Location
  | reg (high : Bool) (gpr : X86Reg)
  | mem (address : Nat)
deriving DecidableEq, Repr

def readReg (size : Nat) (high : Bool) (reg : BitVec 64) : BitVec (8 * size) :=
  (if high then reg >>> 8 else reg).setWidth (8 * size)

def writeReg (is64BitMode : Bool) {size : Nat} (high : Bool) (value : BitVec (8 * size)) (reg : BitVec 64) : BitVec 64 :=
  if high then (reg >>> 16 <<< 16) ||| (value.setWidth 64 <<< 8) ||| (reg.setWidth 8).setWidth 64
  else if is64BitMode ∧ 4 ≤ size then value.setWidth 64
  else (reg >>> (8 * size) <<< (8 * size)) ||| value.setWidth 64

def Location.read (s : State) (size : Nat) : Location → BitVec (8 * size)
  | .reg high gpr => readReg size high (s.cpu.gregs gpr)
  | .mem address => BitVec.ofNat (8 * size) (FlatMemory.load s.mem address size)

def Location.write (is64BitMode : Bool) (s : State) {size : Nat} (value : BitVec (8 * size)) : Location → State
  | .reg high gpr => setGPR s gpr (writeReg is64BitMode high value (s.cpu.gregs gpr))
  | .mem address => { s with mem := FlatMemory.store s.mem address (bytes size value.toNat) }

def location (is64BitMode : Bool) (op : DecodedInst) (s : State) : DecodedOperand → Option Location
  | .gpr highBits gpr => some (.reg highBits gpr)
  | operand => (loadAddress is64BitMode op s operand).map fun address => .mem address.value.toNat

def operandValue (is64BitMode : Bool) (op : DecodedInst) (s : State) (size : Nat) : DecodedOperand → BitVec (8 * size)
  | .literal _ value => value.setWidth (8 * size)
  | operand => (location is64BitMode op s operand).elim 0 (Location.read s size)

/-- A register or memory operand. Only bytes are in the high bits. -/
def IsRM (size : Nat) : DecodedOperand → Prop
  | .gpr highBits gpr => isGeneral gpr = true ∧ (highBits = true → size = 1)
  | .gprDirect _ | .gprIndirect _ _ | .ripRelative _ | .sib _ _ _ _ => True
  | _ => False

/-- A literal has the size of the operation, since the frontend extends it. -/
def IsSource (size : Nat) : DecodedOperand → Prop
  | .literal literalSize _ => literalSize = size
  | operand => IsRM size operand

theorem mode_four : 4 = 8 → true = true := fun _ => rfl

theorem eax_rm : IsRM 4 (.gpr false .rax) := ⟨rfl, by decide⟩

theorem ecx_rm : IsRM 4 (.gpr false .rcx) := ⟨rfl, by decide⟩

theorem eax_gpr : isGPR (.gpr false .rax) = true ∧ IsRM 4 (.gpr false .rax) := ⟨rfl, eax_rm⟩

/-! ## What is read and written -/

section
variable {is64BitMode : Bool} {op : DecodedInst} {s : State} {size : Nat} {operand : DecodedOperand}

theorem loadMem_eq (hsize : size ≤ 8) (address : Node) :
    s.loadMem size address = ⟨size, (Location.read s size (.mem address.value.toNat)).setWidth 64⟩ := by
  unfold State.loadMem Location.read
  congr 1
  apply BitVec.eq_of_toNat_eq
  have hlt := FlatMemory.load_lt s.mem address.value.toNat size
  rw [← Nat.pow_mul] at hlt
  have hle : 2 ^ (8 * size) ≤ 2 ^ 64 := Nat.pow_le_pow_right (by decide) (by omega)
  rw [BitVec.toNat_setWidth, BitVec.toNat_ofNat, BitVec.toNat_ofNat, Nat.mod_eq_of_lt hlt]

theorem loadSource_rm (hsize : size ≤ 8) (h : IsRM size operand) :
    ∃ l, location is64BitMode op s operand = some l ∧
      loadSourceWithOpSize is64BitMode op s operand size = some ⟨size, (l.read s size).setWidth 64⟩ := by
  cases operand with
  | nothing | literal _ _ => cases h
  | gpr high gpr => exact ⟨_, rfl, if_pos h.1⟩
  | gprDirect _ | gprIndirect _ _ | sib _ _ _ _ => exact ⟨_, rfl, congrArg some (loadMem_eq hsize _)⟩
  | ripRelative _ => cases is64BitMode <;> exact ⟨_, rfl, congrArg some (loadMem_eq hsize _)⟩

theorem location_mem {l : Location} (h : isGPR operand = false) (hl : location is64BitMode op s operand = some l) :
    ∃ address, loadAddress is64BitMode op s operand = some address ∧ .mem address.value.toNat = l := by
  cases operand with
  | gpr _ _ => cases h
  | _ => exact Option.map_eq_some_iff.1 hl

theorem operandValue_rm {l : Location} (h : IsRM size operand) (hl : location is64BitMode op s operand = some l) :
    operandValue is64BitMode op s size operand = l.read s size := by
  cases operand with
  | literal _ _ => cases h
  | _ => simp [operandValue, hl]

theorem constant_eq (hsize : size ≤ 8) (c : BitVec 64) :
    constant (size * 8) c = ⟨size, (c.setWidth (8 * size)).setWidth 64⟩ := by
  have hmask := Address.toNat_and_mask c (show size * 8 ≤ 64 by omega)
  unfold constant
  rw [Nat.mul_div_cancel _ (by decide)]
  congr 1
  apply BitVec.eq_of_toNat_eq
  rw [hmask, BitVec.toNat_setWidth_of_le (by omega), BitVec.toNat_setWidth, Nat.mul_comm]

theorem loadSource_source (hsize : size ≤ 8) (h : IsSource size operand) :
    loadSourceWithOpSize is64BitMode op s operand size =
      some ⟨size, (operandValue is64BitMode op s size operand).setWidth 64⟩ := by
  have hrm : IsRM size operand → loadSourceWithOpSize is64BitMode op s operand size =
      some ⟨size, (operandValue is64BitMode op s size operand).setWidth 64⟩ := by
    intro h
    obtain ⟨l, hl, hload⟩ := @loadSource_rm is64BitMode op s size operand hsize h
    rw [hload, operandValue_rm h hl]
  cases operand with
  | literal literalSize value =>
    obtain rfl : literalSize = size := h
    exact congrArg some (constant_eq hsize value)
  | _ => exact hrm h

theorem storeContext_eight (value : Node) (member : BitVec 64) : storeContext 8 value member = value.value := by
  unfold storeContext
  simp

theorem storeGPR_high (value : Node) (greg : BitVec 64) :
    storeGPR 1 true value greg = writeReg is64BitMode true (value.value.setWidth (8 * 1)) greg := by
  unfold storeGPR writeReg storeContext
  apply BitVec.eq_of_getLsbD_eq
  intro i hi
  rcases Nat.lt_or_ge i 8 with h | h
  · simp [h, hi, show i < 16 by omega]
  · rcases Nat.lt_or_ge i 16 with h' | h'
    · simp [hi, h', show ¬ i < 8 by omega, show i - 8 < 8 by omega]
    · simp [hi, show ¬ i < 16 by omega, show ¬ i < 8 by omega, show ¬ i - 8 < 8 by omega, show 16 + (i - 16) = i by omega]

theorem bytes_mod (n v : Nat) : bytes n (v % 2 ^ (8 * n)) = bytes n v := by
  have hlength : (bytes n v).length = n := ByteMemory.bytes_length n v
  have hbytes := FlatMemory.bytes_ofBytes (bytes n v)
  rwa [hlength, FlatMemory.ofBytes_bytes_mod, ← Nat.pow_mul] at hbytes

theorem storeMem_eq (address src : Node) :
    s.storeMem size address src =
      Location.write is64BitMode s (src.value.setWidth (8 * size)) (.mem address.value.toNat) := by
  unfold State.storeMem Location.write
  rw [BitVec.toNat_setWidth, bytes_mod]

theorem storeResult_rm (hsize : IsSize size) (hmode : size = 8 → is64BitMode = true) (h : IsRM size operand) {l : Location}
    (hl : location is64BitMode op s operand = some l) (src : Node)
    (habove : isGPR operand = true → is64BitMode = true → size = 4 → src.size ≠ 8 →
      src.value = (src.value.setWidth 32).setWidth 64) :
    storeResultWithOpSize is64BitMode op s operand src size =
      some (l.write is64BitMode s (src.value.setWidth (8 * size))) := by
  have hmem : ∀ address, .mem address.value.toNat = l →
      some (s.storeMem size address src) = some (l.write is64BitMode s (src.value.setWidth (8 * size))) := by
    rintro address rfl
    rw [storeMem_eq]
  cases operand with
  | nothing | literal _ _ => cases h
  | gpr high gpr =>
    obtain ⟨hgeneral, hhigh⟩ := h
    obtain rfl : Location.reg high gpr = l := Option.some_inj.1 hl
    unfold storeResultWithOpSize Location.write
    simp only [hgeneral, Bool.not_true, Bool.false_eq_true, if_false]
    by_cases hhalf : gprSize is64BitMode = 8 ∧ size = 4
    · obtain ⟨hgpr, rfl⟩ := hhalf
      obtain rfl : is64BitMode = true := by
        cases is64BitMode
        · cases hgpr
        · rfl
      obtain rfl : high = false := by
        cases high
        · rfl
        · cases hhigh rfl
      rw [if_pos ⟨hgpr, rfl⟩, hgpr, storeContext_eight]
      have hvalue : (if src.size = 8 then bfeSized 4 32 0 src else src).value = (src.value.setWidth 32).setWidth 64 := by
        split_ifs with hnode
        · exact Interpreter.opBfe_32 src.value
        · exact habove rfl rfl rfl hnode
      rw [hvalue]
      rfl
    · rw [if_neg hhalf]
      have hmin : min (gprSize is64BitMode) size = size := by
        cases is64BitMode with
        | true => exact Nat.min_eq_right hsize.le
        | false =>
          rcases hsize with rfl | rfl | rfl | rfl <;> first | rfl | cases hmode rfl
      rw [hmin]
      cases high with
      | true =>
        obtain rfl := hhigh rfl
        rw [@storeGPR_high is64BitMode]
      | false =>
        have hwrite : storeGPR size false src (s.cpu.gregs gpr) =
            writeReg is64BitMode false (src.value.setWidth (8 * size)) (s.cpu.gregs gpr) := by
          unfold storeGPR writeReg
          simp only [Bool.false_eq_true, if_false]
          split_ifs with hwide
          · obtain ⟨rfl, hwide⟩ := hwide
            obtain rfl : size = 8 := by
              rcases hsize with rfl | rfl | rfl | rfl
              · omega
              · omega
              · cases hhalf ⟨rfl, rfl⟩
              · rfl
            rw [storeContext_eight]
            simp
          · rfl
        rw [hwrite]
  | gprDirect _ | gprIndirect _ _ | sib _ _ _ _ => exact hmem _ (Option.some_inj.1 hl)
  | ripRelative _ => cases is64BitMode <;> exact hmem _ (Option.some_inj.1 hl)

theorem atomicFetch_eq (func : {n : Nat} → BitVec n → BitVec n → BitVec n) (hsize : size ≤ 8) (value address : Node) :
    atomicFetch func s size value address =
      (⟨size, (Location.read s size (.mem address.value.toNat)).setWidth 64⟩,
        Location.write is64BitMode s
          (func (Location.read s size (.mem address.value.toNat)) (value.value.setWidth (8 * size)))
          (.mem address.value.toNat)) := by
  have hwidth : 8 * size ≤ 64 := by omega
  unfold atomicFetch
  simp [loadMem_eq hsize, @storeMem_eq is64BitMode, BitVec.setWidth_setWidth_of_le _ hwidth]

theorem write_calculateDeferredFlags (l : Location) (value : BitVec (8 * size)) :
    (l.write is64BitMode s value).calculateDeferredFlags = l.write is64BitMode s.calculateDeferredFlags value := by
  cases l <;> rfl

end

end FexEmu.OpcodeDispatcher.Integer
