import FexEmu.Arm64.Machine
/-!
# Arm64Emitter

The common emitter functions. Code is emitted at a cursor: the constants that are loaded relative to the program
counter depend on it.
-/
namespace FexEmu.Arm64

def Emit := BitVec 64 → List Instr

namespace Emit

def code (c : List Instr) : Emit := fun _ => c

def append (e e' : Emit) : Emit := fun pc => e pc ++ e' (pc + BitVec.ofNat 64 (4 * (e pc).length))

instance : Append Emit := ⟨append⟩

def exec (env : Env) (e : Emit) (s : State) : State := run env (e s.pc) s

end Emit

abbrev STATE : XReg := 28

def SRA64 : List XReg := [4, 5, 6, 7, 8, 9, 10, 11, 12, 18, 17, 16, 15, 14, 13, 29]

def RA64 : List XReg := [20, 21, 22, 23, 24, 25, 26, 27, 19]

def SRAFPR : List VReg := [16, 17, 18, 19, 20, 21, 22, 23, 24, 25, 26, 27, 28, 29, 30, 31]

def RAFPR : List VReg := [4, 5, 6, 7, 8, 9, 10, 11, 12, 13, 14, 15]

def callerGPRMask : BitVec 32 := 0b00111111111111111111#32

def callerFPRMask : BitVec 32 := BitVec.allOnes 32

/-- Offsets in `CpuStateFrame`. -/
def offsetRip : BitVec 64 := 0#64
def offsetGreg (i : Nat) : BitVec 64 := BitVec.ofNat 64 (8 + 8 * i)
def offsetXmmAVX (i : Nat) : BitVec 64 := BitVec.ofNat 64 (160 + 32 * i)
def offsetXmmSSE (i : Nat) : BitVec 64 := BitVec.ofNat 64 (160 + 16 * i)
def offsetReturningStackLocation : BitVec 64 := 984#64
def offsetInSyscallInfo : BitVec 64 := 992#64
def offsetSignalHandlerRefCounter : BitVec 64 := 1000#64

def REG_RAX : Nat := 0
def REG_RBX : Nat := 1
def REG_RSI : Nat := 4
def REG_RSP : Nat := 7

def statePtr (offset : BitVec 64) : MemOperand := ⟨.x STATE, offset, .offset⟩

def segment (constant : BitVec 64) (i : Nat) : BitVec 16 := constant.extractLsb' (16 * i) 16

def isInt (bits : Nat) (x : BitVec 64) : Bool := -(2 ^ (bits - 1)) ≤ x.toInt && x.toInt < 2 ^ (bits - 1)

def moves (r : XReg) (constant : BitVec 64) : List Instr :=
  .movz r (segment constant 0) 0 ::
    ([1, 2, 3].filter (fun i => segment constant i ≠ 0)).map fun i => .movk r (segment constant i) (16 * i)

def constantCode (pc : BitVec 64) (r : XReg) (constant : BitVec 64) : List Instr :=
  let requiredMoveSegments := ([0, 1, 2, 3].filter (fun i => segment constant i ≠ 0)).length
  let alignedOffset := constant - (pc &&& ~~~0xFFF#64)
  if requiredMoveSegments > 1 ∧ isInt 32 alignedOffset then
    if alignedOffset &&& 0xFFF#64 = 0 then [.adrp r (alignedOffset.sshiftRight 12)]
    else if isInt 21 (constant - pc) then [.adr r (constant - pc)]
    else [.adrp r (alignedOffset.sshiftRight 12), .addImm (.x r) (.x r) (constant &&& 0xFFF#64)]
  else moves r constant

/-- For an `X` register. -/
def loadConstant (r : XReg) (constant : BitVec 64) (NOPPad : Bool) : Emit := fun pc =>
  if ~~~constant >>> 16 = 0 then .movn r (segment (~~~constant) 0) :: (if NOPPad then [.nop, .nop, .nop] else [])
  else
    let code := constantCode pc r constant
    code ++ if NOPPad then List.replicate (4 - code.length) .nop else []

def calleeSaved : List (XReg × XReg) := [(19, 20), (21, 22), (23, 24), (25, 26), (27, 28), (29, 30)]

def pushCalleeSavedRegisters : List Instr :=
  calleeSaved.map (fun (r, r') => .stp r r' ⟨.sp, -16#64, .preIndex⟩) ++
    [.subImm .sp .sp 64#64, .addImm (.x 19) .sp 0#64,
      .st4D 8 9 10 11 ⟨.x 19, 32#64, .postIndex⟩, .st4D 12 13 14 15 ⟨.x 19, 32#64, .postIndex⟩]

def popCalleeSavedRegisters : List Instr :=
  [.ld4D 12 13 14 15 ⟨.sp, 32#64, .postIndex⟩, .ld4D 8 9 10 11 ⟨.sp, 32#64, .postIndex⟩] ++
    calleeSaved.reverse.map fun (r, r') => .ldp r r' ⟨.sp, 16#64, .postIndex⟩

/-! ## Static registers -/

/-- The features of the host and the configuration that the emitter looks at. -/
structure Config where
  staticRegisterAllocation : Bool
  supportsAVX : Bool
deriving DecidableEq, Repr

/-- A pair of registers goes to memory or comes from it as far as the mask has them. -/
def maskedPairs {R : Type} (inMask : R → Bool) (pair : R → R → Nat → Instr) (single : R → Nat → Instr) :
    List R → Nat → List Instr
  | r :: r' :: rest, i =>
    (if inMask r && inMask r' then [pair r r' i]
      else if inMask r then [single r i]
      else if inMask r' then [single r' (i + 1)]
      else []) ++ maskedPairs inMask pair single rest (i + 2)
  | _, _ => []

def maskedSingles {R : Type} (inMask : R → Bool) (single : R → Nat → Instr) : List R → Nat → List Instr
  | r :: rest, i => (if inMask r then [single r i] else []) ++ maskedSingles inMask single rest (i + 1)
  | [], _ => []

def spillStaticRegs (cfg : Config) (FPRs : Bool) (GPRSpillMask FPRSpillMask : BitVec 32) : List Instr :=
  if cfg.staticRegisterAllocation then
    maskedPairs (fun r : XReg => GPRSpillMask.getLsbD r) (fun r r' i => .stp r r' (statePtr (offsetGreg i)))
      (fun r i => .str r (statePtr (offsetGreg i))) SRA64 0 ++
    if FPRs then
      if cfg.supportsAVX then
        maskedSingles (fun r : VReg => FPRSpillMask.getLsbD r) (fun r i => .strQ r (statePtr (offsetXmmAVX i))) SRAFPR 0
      else
        maskedPairs (fun r : VReg => FPRSpillMask.getLsbD r) (fun r r' i => .stpQ r r' (statePtr (offsetXmmSSE i)))
          (fun r i => .strQ r (statePtr (offsetXmmSSE i))) SRAFPR 0
    else []
  else []

def fillStaticRegs (cfg : Config) (FPRs : Bool) (GPRFillMask FPRFillMask : BitVec 32) : List Instr :=
  if cfg.staticRegisterAllocation then
    maskedPairs (fun r : XReg => GPRFillMask.getLsbD r) (fun r r' i => .ldp r r' (statePtr (offsetGreg i)))
      (fun r i => .ldr r (statePtr (offsetGreg i))) SRA64 0 ++
    if FPRs then
      if cfg.supportsAVX then
        maskedSingles (fun r : VReg => FPRFillMask.getLsbD r) (fun r i => .ldrQ r (statePtr (offsetXmmAVX i))) SRAFPR 0
      else
        maskedPairs (fun r : VReg => FPRFillMask.getLsbD r) (fun r r' i => .ldpQ r r' (statePtr (offsetXmmSSE i)))
          (fun r i => .ldrQ r (statePtr (offsetXmmSSE i))) SRAFPR 0
    else []
  else []

def allRegs : BitVec 32 := BitVec.allOnes 32

/-- `AlignUp((RA64.size() + 1) * 8 + RAFPR.size() * 16, 16)`. -/
def dynamicRegsSize : BitVec 64 := 272#64

def spAt (offset : Nat) : MemOperand := ⟨.sp, BitVec.ofNat 64 offset, .offset⟩

def pushDynamicRegsAndLR : List Instr :=
  .subImm .sp .sp dynamicRegsSize ::
    (RAFPR.zipIdx.map fun (r, i) => .strQ r (spAt (16 * i))) ++ [.str lr (spAt (16 * RAFPR.length))]

def popDynamicRegsAndLR : List Instr :=
  (RAFPR.zipIdx.map fun (r, i) => .ldrQ r (spAt (16 * i))) ++
    [.ldr lr (spAt (16 * RAFPR.length)), .addImm .sp .sp dynamicRegsSize]

def isImmAddSub (imm : Nat) : Bool := imm < 4096 || (imm / 4096 < 4096 && imm % 4096 == 0)

def resetStack (spillSlots : Nat) : Emit :=
  if spillSlots = 0 then .code []
  else if isImmAddSub (spillSlots * 16) then .code [.addImm .sp .sp (BitVec.ofNat 64 (spillSlots * 16))]
  else loadConstant 0 (BitVec.ofNat 64 (spillSlots * 16)) false ++ .code [.addReg .sp .sp 0]

end FexEmu.Arm64
