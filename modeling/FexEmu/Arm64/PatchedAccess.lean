import FexEmu.Arm64.UnalignedAtomics
/-!
# Patched accesses

`HandleSIGBUS` emulates an acquiring load or a releasing store, or patches it to an access without ordering between barriers.
-/
namespace FexEmu.Arm64.Patched

open ByteMemory Unaligned
open Function (update)

/-! ## Loads -/

section Loads
variable (mem : Memory)

/-- A load of the word of `width` bits around the address. -/
def loadWord (width n : Nat) (addr alignmentMask : BitVec 64) : BitVec n :=
  let alignment := addr &&& alignmentMask
  let addr := addr &&& ~~~alignmentMask
  ((read mem addr width) >>> (alignment.toNat * 8)).setWidth n

def loadHalves (half n : Nat) (addr alignmentMask : BitVec 64) : BitVec n :=
  let alignment := addr &&& alignmentMask
  let addr := addr &&& ~~~alignmentMask
  let addrUpper := addr + BitVec.ofNat 64 (half / 8)
  let actualUpper := read mem addrUpper half
  let actualLower := read mem addr half
  ((actualUpper ++ actualLower) >>> (alignment.toNat * 8)).setWidth n

def doLoad16 (addr : BitVec 64) : BitVec 16 :=
  if addr &&& 0b1111#64 = 15#64 then loadHalves mem 8 16 addr 0#64
  else if addr &&& 0b111#64 = 7#64 then loadWord mem 128 16 addr 0b1111#64
  else if addr &&& 0b11#64 = 3#64 then loadWord mem 64 16 addr 0b11#64
  else loadWord mem 32 16 addr 0b11#64

def doLoad32 (addr : BitVec 64) : BitVec 32 :=
  if addr &&& 0b1111#64 > 12#64 then loadHalves mem 32 32 addr 0b11#64
  else if addr &&& 0b111#64 ≥ 5#64 then loadWord mem 128 32 addr 0b1111#64
  else loadWord mem 64 32 addr 0b111#64

def doLoad64 (addr : BitVec 64) : BitVec 64 :=
  if addr &&& 0b1111#64 > 8#64 then loadHalves mem 64 64 addr 0b111#64
  else loadWord mem 128 64 addr 0b1111#64

end Loads

def handleAtomicLoad (code : SiCode) (instr : BitVec 32) (offset : BitVec 64) (mem : Memory) (regs : Regs) : Option Regs :=
  if code ≠ .BUS_ADRALN then none
  else
    let resultReg := reg instr 0
    let addr := regs (reg instr 5) + offset
    let set (res : BitVec 64) := if resultReg ≠ 31 then setReg regs resultReg res else regs
    match Unaligned.sizeOf instr with
    | 2 => some (set ((doLoad16 mem addr).setWidth 64))
    | 4 => some (set ((doLoad32 mem addr).setWidth 64))
    | 8 => some (set (doLoad64 mem addr))
    | _ => none

/-! ## Stores -/

/-- The end of a loop on one word, within `fuel` accesses. -/
def alone {t : Task} : Nat → World t → Option (World t)
  | 0, w =>
    match w.pc with
    | .returned _ => some w
    | _ => none
  | fuel + 1, w =>
    match w.pc with
    | .returned _ => some w
    | _ => alone fuel w.access

/-- `StoreCAS8`, `StoreCAS32` and `StoreCAS64`: whether the value is stored, the value that was found and the memory. -/
def storeCAS {w : Nat} (mem : Memory) (expected val : BitVec w) (addr : BitVec 64) : Bool × BitVec w × Memory :=
  let found := read mem addr w
  if found = expected then (true, expected, write mem addr val) else (false, found, mem)

def failedHalves (c : CasLoop) (tear : Bool) (tmpExpected tmpDesired : BitVec c.width) : Option (BitVec c.size) :=
  if (tmpExpected &&& ~~~c.mask) ^^^ (tmpDesired &&& ~~~c.mask) ≠ 0 then none
  else if c.retry && !tear then none
  else some (((tmpExpected &&& c.mask) >>> c.shift).setWidth c.size)

def halvesPass (c : CasLoop) (half : Nat) (mem : Memory) : Memory × Option (BitVec c.size) :=
  let addrUpper := c.addr + BitVec.ofNat 64 (half / 8)
  let tmpActual := (read mem addrUpper half ++ read mem c.addr half).setWidth c.width
  let tmpExpected := c.tmpExpected tmpActual
  let tmpDesired := c.tmpDesired tmpActual
  let lower (x : BitVec c.width) := x.setWidth half
  let upper (x : BitVec c.width) := (x >>> half).setWidth half
  if tmpExpected = tmpActual then
    match storeCAS mem (upper tmpExpected) (upper tmpDesired) addrUpper with
    | (true, foundUpper, mem) =>
      match storeCAS mem (lower tmpExpected) (lower tmpDesired) c.addr with
      | (true, _, mem) => (mem, some (c.expected tmpActual))
      | (false, foundLower, mem) => (mem, failedHalves c true ((foundUpper ++ foundLower).setWidth c.width) tmpDesired)
    | (false, foundUpper, mem) =>
      (mem, failedHalves c false ((foundUpper ++ lower tmpExpected).setWidth c.width) tmpDesired)
  else (mem, failedHalves c false tmpActual tmpDesired)

/-- The memory at the end of such a loop, within `fuel` passes. -/
def halvesRun (c : CasLoop) (half : Nat) : Nat → Memory → Option Memory
  | 0, _ => none
  | fuel + 1, mem =>
    match halvesPass c half mem with
    | (mem, some _) => some mem
    | (mem, none) => halvesRun c half fuel mem

/-- A loop on two halves, and how many bits a half has. -/
structure HalvesLoop where
  half : Nat
  loop : CasLoop

section Templates
variable (retry : Bool)

/-- `DoCAS16` when the access crosses a 16-byte boundary. -/
def doCAS16Halves (desiredSrc expectedSrc : BitVec 16) (addr : BitVec 64) (expectedFunction desiredFunction : CASFn 16) :
    Option HalvesLoop :=
  if addr &&& 0b1111#64 = 15#64 then
    some ⟨8, 16, 16, addr, 0, retry, expectedSrc, desiredSrc, expectedFunction, desiredFunction⟩
  else none

def doCAS32Halves (desiredSrc expectedSrc : BitVec 32) (addr : BitVec 64) (expectedFunction desiredFunction : CASFn 32) :
    Option HalvesLoop :=
  if addr &&& 0b1111#64 > 12#64 then
    some ⟨32, 64, 32, addr &&& ~~~0b11#64, (addr &&& 0b11#64).toNat, retry, expectedSrc, desiredSrc, expectedFunction,
      desiredFunction⟩
  else none

def doCAS64Halves (desiredSrc expectedSrc : BitVec 64) (addr : BitVec 64) (expectedFunction desiredFunction : CASFn 64) :
    Option HalvesLoop :=
  if addr &&& 0b1111#64 > 8#64 then
    some ⟨64, 128, 64, addr &&& ~~~0b111#64, (addr &&& 0b111#64).toNat, retry, expectedSrc, desiredSrc, expectedFunction,
      desiredFunction⟩
  else none

end Templates

/-- `HandleAtomicStore` when the access crosses a 16-byte boundary. -/
def handleAtomicStoreHalves (code : SiCode) (instr : BitVec 32) (offset : BitVec 64) (regs : Regs) : Option HalvesLoop :=
  if code ≠ .BUS_ADRALN then none
  else
    let data := regs (reg instr 0)
    let addr := regs (reg instr 5) + offset
    let doRetry := false
    match Unaligned.sizeOf instr with
    | 2 => doCAS16Halves doRetry (data.setWidth 16) 0 addr srcFunction argFunction
    | 4 => doCAS32Halves doRetry (data.setWidth 32) 0 addr srcFunction argFunction
    | 8 => doCAS64Halves doRetry data 0 addr srcFunction argFunction
    | _ => none

/-- `HandleAtomicStore` while no other thread writes: the memory and the registers after it, within `fuel` passes. -/
def storeAlone (fuel : Nat) (code : SiCode) (instr : BitVec 32) (offset : BitVec 64) (mem : Memory) (regs : Regs) :
    Option (Memory × Regs) :=
  match handleAtomicStore code instr offset regs with
  | some t => (alone fuel (World.initial t mem regs)).map fun w => (w.mem, w.regs)
  | none =>
    match handleAtomicStoreHalves code instr offset regs with
    | some l => (halvesRun l.loop l.half fuel mem).map fun mem => (mem, regs)
    | none => none

/-! ## The host -/

/-- The host as the patched code sees it. -/
structure Host where
  code : BitVec 64 → BitVec 32
  pc : BitVec 64
  regs : Regs
  mem : Memory

def NOP : BitVec 32 := 0xD503201F

def DMB : BitVec 32 := 0b11010101000000110011000010111111 ||| 0b101100000000

def operand (regs : Regs) (r : BitVec 5) : BitVec 64 := if r = 31 then 0 else regs r.toNat

/-- An access of the host to `2 ^ size` bytes, a load or a store. Register 31 as the target is the zero register. -/
def Host.transfer (h : Host) (size : BitVec 2) (load : Bool) (rt : BitVec 5) (addr : BitVec 64) : Host :=
  let bits := 8 * 2 ^ size.toNat
  if load then
    let data := (read h.mem addr bits).setWidth 64
    { h with regs := if rt = 31 then h.regs else setReg h.regs rt.toNat data }
  else { h with mem := write h.mem addr ((operand h.regs rt).setWidth bits) }

/-- One of the instructions that are left behind: hints, barriers, and loads and stores with a register or an unscaled
offset. -/
def Host.exec (h : Host) : Option Host :=
  let instr := h.code h.pc
  let next (h : Host) : Host := { h with pc := h.pc + 4 }
  let size := instr.extractLsb' 30 2
  let opc := instr.extractLsb' 22 2
  let rm := instr.extractLsb' 16 5
  let imm9 := instr.extractLsb' 12 9
  let base := h.regs (instr.extractLsb' 5 5).toNat
  let rt := instr.extractLsb' 0 5
  if instr = NOP ∨ instr = DMB then some (next h)
  else if instr &&& 0x3F20FC00 = 0x38206800 then
    -- option is LSL, and S is clear
    if opc = 1 then some (next (h.transfer size true rt (base + operand h.regs rm)))
    else if opc = 0 then some (next (h.transfer size false rt (base + operand h.regs rm)))
    else none
  else if instr &&& 0x3F200C00 = 0x38000000 then
    if opc = 1 then some (next (h.transfer size true rt (base + imm9.signExtend 64)))
    else if opc = 0 then some (next (h.transfer size false rt (base + imm9.signExtend 64)))
    else none
  else none

/-! ## The handler -/

def RCPC2_MASK : BitVec 32 := 0x3FE00C00

def LDAPUR_INST : BitVec 32 := 0x19400000

def STLUR_INST : BitVec 32 := 0x19000000

section Handler
variable (fuel : Nat) (paranoidTSO : Bool) (code : SiCode) (h : Host)

def emulateLoad (offset : BitVec 64) : Option Host :=
  (handleAtomicLoad code (h.code h.pc) offset h.mem h.regs).map fun regs => { h with regs := regs, pc := h.pc + 4 }

def emulateStore (offset : BitVec 64) : Option Host :=
  (storeAlone fuel code (h.code h.pc) offset h.mem h.regs).map fun (mem, regs) =>
    { h with mem := mem, regs := regs, pc := h.pc + 4 }

def backpatch (instr : BitVec 32) : Host :=
  let code := update h.code (h.pc - 4) DMB
  let code := update code h.pc instr
  let code := update code (h.pc + 4) DMB
  { h with code := code, pc := h.pc - 4 }

/-- An instruction with the size and the registers of the one that faulted. -/
def rebuild (instr opcode : BitVec 32) : BitVec 32 :=
  let size := (instr &&& 0xC0000000) >>> 30
  let addrReg := (instr >>> 5) &&& 0x1F
  let dataReg := instr &&& 0x1F
  opcode ||| (size <<< 30) ||| (addrReg <<< 5) ||| dataReg

/-- `HandleSIGBUS` at an acquiring load or a releasing store; the other instructions are left out. -/
def handleSIGBUS : Option Host :=
  let instr := h.code h.pc
  let offset := ((instr <<< 11).sshiftRight 23).signExtend 64
  if instr &&& 0x3FFFFC00 = 0x08DFFC00 ∨ instr &&& 0x3FFFFC00 = 0x38BFC000 then -- LDAR*, LDAPR*
    if paranoidTSO then emulateLoad code h 0
    else some (backpatch h (rebuild instr 0b00111000011111110110100000000000))
  else if instr &&& 0x3FFFFC00 = 0x089FFC00 then -- STLR*
    if paranoidTSO then emulateStore fuel code h 0
    else some (backpatch h (rebuild instr 0b00111000001111110110100000000000))
  else if instr &&& RCPC2_MASK = LDAPUR_INST then -- LDAPUR*
    if paranoidTSO then emulateLoad code h offset
    else some (backpatch h (rebuild instr 0b00111000010000000000000000000000 ||| (instr &&& (0b111111111#32 <<< 9))))
  else if instr &&& RCPC2_MASK = STLUR_INST then -- STLUR*
    if paranoidTSO then emulateStore fuel code h offset
    else some (backpatch h (rebuild instr 0b00111000000000000000000000000000 ||| (instr &&& (0b111111111#32 <<< 9))))
  else none

end Handler

/-! ## What the JIT emits -/

/-- The accesses of `LoadMemTSO` and `StoreMemTSO`. -/
inductive Family
  | LDAR
  | LDAPR
  | STLR
  | LDAPUR
  | STLUR
deriving DecidableEq

namespace Family

def opcode : Family → BitVec 32
  | LDAR => 0x08DFFC00
  | LDAPR => 0x38BFC000
  | STLR => 0x089FFC00
  | LDAPUR => LDAPUR_INST
  | STLUR => STLUR_INST

def load : Family → Bool
  | LDAR | LDAPR | LDAPUR => true
  | STLR | STLUR => false

def unscaled : Family → Bool
  | LDAPUR | STLUR => true
  | _ => false

end Family

/-- An access as it is emitted: never of one byte, and never of the zero register, which `GetReg` does not give. -/
structure TSOAccess where
  family : Family
  size : BitVec 2
  dataReg : BitVec 5
  addrReg : BitVec 5
  imm9 : BitVec 9
  size_ne : size ≠ 0
  dataReg_ne : dataReg ≠ 31

namespace TSOAccess
variable (a : TSOAccess)

def offset : BitVec 9 := if a.family.unscaled then a.imm9 else 0

def word : BitVec 32 :=
  a.family.opcode ||| (a.size.setWidth 32 <<< 30) ||| (a.offset.setWidth 32 <<< 12) ||| (a.addrReg.setWidth 32 <<< 5) |||
    a.dataReg.setWidth 32

def emit (code : BitVec 64 → BitVec 32) (pc : BitVec 64) : BitVec 64 → BitVec 32 :=
  update (update (update code (pc - 4) NOP) pc a.word) (pc + 4) NOP

def faulting (code : BitVec 64 → BitVec 32) (pc : BitVec 64) (regs : Regs) (mem : Memory) : Host :=
  ⟨a.emit code pc, pc, regs, mem⟩

end TSOAccess

/-- The code that is left behind without `ParanoidTSO`, run to its end. -/
def patchedRun (h : Host) : Option Host :=
  ((handleSIGBUS 0 false .BUS_ADRALN h).bind Host.exec).bind Host.exec |>.bind Host.exec

def emulatedRun (fuel : Nat) (h : Host) : Option Host := (handleSIGBUS fuel true .BUS_ADRALN h).bind Host.exec

/-- Both end behind the access with the same registers and the same memory. -/
def SameResult (h : Host) : Prop :=
  ∃ fuel p e, patchedRun h = some p ∧ emulatedRun fuel h = some e ∧ p.pc = e.pc ∧ p.regs = e.regs ∧ p.mem = e.mem

end FexEmu.Arm64.Patched
