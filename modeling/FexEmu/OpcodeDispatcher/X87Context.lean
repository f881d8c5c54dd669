import FexEmu.OpcodeDispatcher.Nodes
import FexEmu.OpcodeDispatcher.X87
/-!
# The x87 members of the context

The handlers of x87 that load an integer or save and restore the whole state, node by node, with what the interpreter
computes for them.
-/
namespace FexEmu.OpcodeDispatcher.X87Context

open ByteMemory Interpreter
open Address (Node constant)
open Integer
open X87 (X87Tag IntData)

/-- The vector registers are units of 16 bytes: two for a register with AVX, and one without. `loadedFCW` is the backend's
control word. -/
structure Context where
  FCW : BitVec 16
  loadedFCW : BitVec 16
  FTW : BitVec 16
  /-- `flags[X87FLAG_TOP_LOC]`. -/
  top : BitVec 8
  C0 : BitVec 8
  C1 : BitVec 8
  C2 : BitVec 8
  C3 : BitVec 8
  mm : Nat → BitVec 128
  xmm : Nat → BitVec 128

/-- The guest's state: what the handlers change. -/
structure State where
  ctx : Context
  mem : Memory

def byteNode (x : BitVec 8) : Node := ⟨1, x.setWidth 64⟩

def wordNode (x : BitVec 16) : Node := ⟨2, x.setWidth 64⟩

def findMSB (a : Node) : Node := emit a.size fun size => some (opFindMSB size a.value)

def elementMask (elementSize idx : Nat) : BitVec 128 :=
  (BitVec.allOnes (8 * elementSize)).setWidth 128 <<< (8 * elementSize * idx)

def vCastFromGPR (elementSize : Nat) (src : Node) : BitVec 128 := (src.value.setWidth (8 * elementSize)).setWidth 128

def vExtractElement (elementSize : Nat) (src : BitVec 128) (idx : Nat) : BitVec 128 :=
  ((src >>> (8 * elementSize * idx)).setWidth (8 * elementSize)).setWidth 128

def vInsElement (elementSize destIdx srcIdx : Nat) (dest src : BitVec 128) : BitVec 128 :=
  (dest &&& ~~~elementMask elementSize destIdx) |||
    (vExtractElement elementSize src srcIdx <<< (8 * elementSize * destIdx))

def vInsGPR (elementSize destIdx : Nat) (dest : BitVec 128) (src : Node) : BitVec 128 :=
  (dest &&& ~~~elementMask elementSize destIdx) ||| (vCastFromGPR elementSize src <<< (8 * elementSize * destIdx))

section Eight
variable (x y : BitVec 64)

theorem sub_eight : sub ⟨8, x⟩ ⟨8, y⟩ = ⟨8, x - y⟩ := rfl

theorem and_eight : Integer.and ⟨8, x⟩ ⟨8, y⟩ = ⟨8, x &&& y⟩ := by
  simp [Integer.and, emit, opSize, opAnd, doOp]

theorem or_eight : Integer.or ⟨8, x⟩ ⟨8, y⟩ = ⟨8, x ||| y⟩ := by
  simp [Integer.or, emit, opSize, opOr, doOp]

theorem lshl_eight : lshl ⟨8, x⟩ ⟨8, y⟩ = ⟨8, x <<< (y.toNat % 64)⟩ := by
  rw [← toNat_and_63]
  rfl

theorem findMSB_eight : findMSB ⟨8, x⟩ = ⟨8, BitVec.ofInt 64 (64 - x.clz.toNat - 1)⟩ := by
  simp [findMSB, emit, opSize, opFindMSB]

theorem select_eight (cond : CondClass) (a b t f : BitVec 64) :
    select cond ⟨8, a⟩ ⟨8, b⟩ ⟨8, t⟩ ⟨8, f⟩ = ⟨8, if isConditionTrue a b cond then t else f⟩ := by
  simp [select, emit, atLeast4, opSize, opSelect]

end Eight

/-! ## Elements -/

section Elements
variable (elementSize destIdx srcIdx : Nat) (dest src : BitVec 128) {i : Nat}

theorem getLsbD_elementMask (hi : i < 128) : (elementMask elementSize destIdx).getLsbD i =
    decide (8 * elementSize * destIdx ≤ i ∧ i < 8 * elementSize * destIdx + 8 * elementSize) := by
  rw [elementMask, BitVec.getLsbD_shiftLeft, BitVec.getLsbD_setWidth, BitVec.getLsbD_allOnes]
  by_cases h : 8 * elementSize * destIdx ≤ i
  · have hd : i - 8 * elementSize * destIdx < 128 := by omega
    simp [h, hi, hd, show ¬ i < 8 * elementSize * destIdx by omega]
    omega
  · simp [h, show i < 8 * elementSize * destIdx by omega]

theorem getLsbD_vInsElement (hi : i < 128) : (vInsElement elementSize destIdx srcIdx dest src).getLsbD i =
    if 8 * elementSize * destIdx ≤ i ∧ i < 8 * elementSize * destIdx + 8 * elementSize then
      src.getLsbD (8 * elementSize * srcIdx + (i - 8 * elementSize * destIdx))
    else dest.getLsbD i := by
  rw [vInsElement, BitVec.getLsbD_or, BitVec.getLsbD_and, BitVec.getLsbD_not, getLsbD_elementMask _ _ hi,
    BitVec.getLsbD_shiftLeft, vExtractElement, BitVec.getLsbD_setWidth, BitVec.getLsbD_setWidth, BitVec.getLsbD_ushiftRight]
  generalize 8 * elementSize * destIdx = low
  split
  · case isTrue h =>
    have hd : i - low < 8 * elementSize := by omega
    simp [h, hi, hd, show ¬ i < low by omega, show i - low < 128 by omega]
  · case isFalse h =>
    by_cases hlow : i < low
    · simp [hi, hlow]
    · simp [hi, show ¬ i < low + 8 * elementSize by omega, show ¬ i - low < 8 * elementSize by omega]

end Elements

/-! ## Accesses -/

/-- `_StoreMem` of a general register. -/
def storeGPR (mem : Memory) (size : Nat) (addr value : Node) : Memory :=
  write mem addr.value (value.value.setWidth (8 * size))

/-- `_StoreMem` of a vector register. -/
def storeFPR (mem : Memory) (size : Nat) (addr : Node) (value : BitVec 128) : Memory :=
  write mem addr.value (value.setWidth (8 * size))

def loadGPR (mem : Memory) (size : Nat) (addr : Node) : Node := ⟨size, (read mem addr.value (8 * size)).setWidth 64⟩

def loadFPR (mem : Memory) (size : Nat) (addr : Node) : BitVec 128 := (read mem addr.value (8 * size)).setWidth 128

namespace Context
variable (c : Context)

def getX87Top : Node := byteNode c.top

def setX87Top (value : Node) : Context := { c with top := value.value.setWidth 8 }

def setX87TopTag (value : Node) (tag : X87Tag) : Context :=
  let mask := const 0b11
  let topOffset := lshl value (const 1)
  let mask := lshl mask topOffset
  let newFTW := andn (wordNode c.FTW) mask
  let newFTW := if tag ≠ .valid then or newFTW (lshl (const (tag.bits.setWidth 64)) topOffset) else newFTW
  { c with FTW := newFTW.value.setWidth 16 }

/-- `_LoadContextIndexed` of a register of x87. -/
def loadMM (index : Node) : BitVec 128 := c.mm index.value.toNat

def storeMM (index : Node) (value : BitVec 128) : Context := { c with mm := Function.update c.mm index.value.toNat value }

/-- `_F80LoadFCW` and the store of the control word. -/
def setFCW (value : Node) : Context := { c with FCW := value.value.setWidth 16, loadedFCW := value.value.setWidth 16 }

/-- `SetRFLAG` of the four condition bits. -/
def setConditions (c0 c1 c2 c3 : Node) : Context :=
  { c with
    C0 := (bfe 1 0 c0).value.setWidth 8
    C1 := (bfe 1 0 c1).value.setWidth 8
    C2 := (bfe 1 0 c2).value.setWidth 8
    C3 := (bfe 1 0 c3).value.setWidth 8 }

/-- The status word from `TOP` and the condition bits. -/
def statusWord (top : Node) : Node :=
  let fsw := const 0
  let fsw := or fsw (lshl top (const 11))
  let fsw := or fsw (lshl (byteNode c.C0) (const 8))
  let fsw := or fsw (lshl (byteNode c.C1) (const 9))
  let fsw := or fsw (lshl (byteNode c.C2) (const 10))
  or fsw (lshl (byteNode c.C3) (const 14))

def loadStatusWord (newFSW : Node) : Context :=
  (c.setX87Top (bfe 3 11 newFSW)).setConditions (bfe 1 8 newFSW) (bfe 1 9 newFSW) (bfe 1 10 newFSW) (bfe 1 14 newFSW)

end Context

/-! ## The handlers -/

/-- The bytes of an integer as `LoadSource` gives them. -/
def intSource : IntData → Node
  | .i16 bits => ⟨2, bits.setWidth 64⟩
  | .i32 bits => ⟨4, bits.setWidth 64⟩
  | .i64 bits => ⟨8, bits⟩

def FILD (c : Context) (src : IntData) : Context :=
  let origTop := c.getX87Top
  let top := and (sub origTop (const 1)) (const 7)
  let c := c.setX87TopTag top .valid
  let c := c.setX87Top top
  let data := intSource src
  let readWidth := data.size
  let zero := const 0
  let data := if readWidth ≠ 8 then sbfe (readWidth * 8) 0 data else data
  let sign := select .SLT data zero (const 0x8000) zero
  let absolute := select .SLT data zero (sub zero data) data
  let shift := sub (const 63) (findMSB absolute)
  let shifted := lshl absolute shift
  let adjustedExponent := sub (const (0x3fff + 63)) shift
  let zeroedExponent := select .EQ absolute zero zero adjustedExponent
  let upper := or sign zeroedExponent
  let converted := vCastFromGPR 8 shifted
  let converted := vInsElement 8 1 0 converted (vCastFromGPR 8 upper)
  c.storeMM top converted

def FNINIT (c : Context) : Context :=
  let c := c.setFCW (constant 16 0x037F)
  let c := c.setX87Top (const 0)
  let c := c.setConditions (const 0) (const 0) (const 0) (const 0)
  { c with FTW := (const 0xFFFF).value.setWidth 16 }

/-- A round of the loop over the registers: the place and the register go on. -/
structure Cursor where
  location : Node
  top : Node

def Cursor.next (k : Cursor) : Cursor := ⟨add k.location (const 10), and (add k.top (const 1)) (const 7)⟩

/-- The first `n` registers, each as sixteen bytes of which the next one overwrites six. -/
def saveRegisters (c : Context) : Nat → Cursor → Memory → Memory
  | 0, _, mem => mem
  | n + 1, k, mem => saveRegisters c n k.next (storeFPR mem 16 k.location (c.loadMM k.top))

/-- The cursor after `n` rounds. -/
def Cursor.advance : Nat → Cursor → Cursor
  | 0, k => k
  | n + 1, k => Cursor.advance n k.next

def X87FNSAVE (s : State) (size : Nat) (mem : Node) : State :=
  let c := s.ctx
  let top := c.getX87Top
  let m := storeGPR s.mem size mem (wordNode c.FCW)
  let m := storeGPR m size (add mem (const (BitVec.ofNat 64 (size * 1)))) (c.statusWord top)
  let zeroConst := const 0
  let m := storeGPR m size (add mem (const (BitVec.ofNat 64 (size * 2)))) (wordNode c.FTW)
  let m := storeGPR m size (add mem (const (BitVec.ofNat 64 (size * 3)))) zeroConst
  let m := storeGPR m size (add mem (const (BitVec.ofNat 64 (size * 4)))) zeroConst
  let m := storeGPR m size (add mem (const (BitVec.ofNat 64 (size * 5)))) zeroConst
  let m := storeGPR m size (add mem (const (BitVec.ofNat 64 (size * 6)))) zeroConst
  let k : Cursor := ⟨add mem (const (BitVec.ofNat 64 (size * 7))), top⟩
  let m := saveRegisters c 7 k m
  let k := k.advance 7
  -- the last register is written as its two parts
  let data := c.loadMM k.top
  let m := storeFPR m 8 k.location data
  let m := storeFPR m 2 (add k.location (const 8)) (vExtractElement 2 data 4)
  ⟨FNINIT c, m⟩

/-- The first `n` registers, without the bytes behind each. -/
def restoreRegisters (mask : BitVec 128) (mem : Memory) : Nat → Cursor → Context → Context
  | 0, _, c => c
  | n + 1, k, c => restoreRegisters mask mem n k.next (c.storeMM k.top (loadFPR mem 16 k.location &&& mask))

def X87FRSTOR (s : State) (size : Nat) (mem : Node) : State :=
  let c := s.ctx.setFCW (loadGPR s.mem 2 mem)
  let newFSW := loadGPR s.mem size (add mem (const (BitVec.ofNat 64 (size * 1))))
  let top := bfe 3 11 newFSW
  let c := c.loadStatusWord newFSW
  let newFTW := loadGPR s.mem size (add mem (const (BitVec.ofNat 64 (size * 2))))
  let c := { c with FTW := newFTW.value.setWidth 16 }
  let k : Cursor := ⟨add mem (const (BitVec.ofNat 64 (size * 7))), top⟩
  let low := const 0xFFFFFFFFFFFFFFFF
  let high := const 0xFFFF
  let mask := vInsGPR 8 1 (vCastFromGPR 8 low) high
  let c := restoreRegisters mask s.mem 7 k c
  let k := k.advance 7
  let reg := loadFPR s.mem 8 k.location
  let regHigh := loadFPR s.mem 2 (add k.location (const 8))
  ⟨c.storeMM k.top (vInsElement 2 4 0 reg regHigh), s.mem⟩

/-- The unit of a vector register, `GetXMMOffset`. -/
def xmmUnit (supportsAVX : Bool) (i : Nat) : Nat := if supportsAVX then 2 * i else i

def saveVectors (mem : Node) (offset : Nat) (reg : Nat → BitVec 128) : Nat → Nat → Memory → Memory
  | 0, _, m => m
  | n + 1, i, m =>
    saveVectors mem offset reg n (i + 1) (storeFPR m 16 (add mem (const (BitVec.ofNat 64 (i * 16 + offset)))) (reg i))

def FXSaveOp (is64BitMode supportsAVX : Bool) (s : State) (mem : Node) : State :=
  let c := s.ctx
  let m := storeGPR s.mem 2 mem (wordNode c.FCW)
  let m := storeGPR m 2 (add mem (const 2)) (c.statusWord c.getX87Top)
  let m := storeGPR m 2 (add mem (const 4)) (wordNode c.FTW)
  let m := saveVectors mem 32 c.mm 8 0 m
  let numRegs := if is64BitMode then 16 else 8
  let m := saveVectors mem 160 (fun i => c.xmm (xmmUnit supportsAVX i)) numRegs 0 m
  ⟨c, m⟩

def restoreVectors (mem : Node) (offset : Nat) (unit : Nat → Nat) (m : Memory) :
    Nat → Nat → (Nat → BitVec 128) → Nat → BitVec 128
  | 0, _, regs => regs
  | n + 1, i, regs =>
    restoreVectors mem offset unit m n (i + 1)
      (Function.update regs (unit i) (loadFPR m 16 (add mem (const (BitVec.ofNat 64 (i * 16 + offset))))))

def FXRStoreOp (is64BitMode supportsAVX : Bool) (s : State) (mem : Node) : State :=
  let c := s.ctx.setFCW (loadGPR s.mem 2 mem)
  let c := c.loadStatusWord (loadGPR s.mem 2 (add mem (const 2)))
  let c := { c with FTW := (loadGPR s.mem 2 (add mem (const 4))).value.setWidth 16 }
  let c := { c with mm := restoreVectors mem 32 id s.mem 8 0 c.mm }
  let numRegs := if is64BitMode then 16 else 8
  ⟨{ c with xmm := restoreVectors mem 160 (xmmUnit supportsAVX) s.mem numRegs 0 c.xmm }, s.mem⟩

end FexEmu.OpcodeDispatcher.X87Context
