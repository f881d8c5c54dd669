import FexEmu.Arm64.Emitter
/-!
# Ops that call out of the JIT

The emitters of the ops that call the host or the kernel: what stands before the call, the call, and what stands after.
-/
namespace FexEmu.Arm64

/-- What `GetReg` returns. -/
abbrev GPR := { r : XReg // r ∈ RA64 ++ SRA64 }

/-- What `GetSrc` and `GetDst` return. -/
abbrev FPR := { r : VReg // r ∈ RAFPR ++ SRAFPR }

def RA64Pair : List (XReg × XReg) := [(20, 21), (22, 23), (24, 25), (26, 27)]

/-- What `GetSrcPair` returns. -/
abbrev GPRPair := { p : XReg × XReg // p ∈ RA64Pair }

def offsetThreadRemoveCodeEntry : BitVec 64 := 1048#64
def offsetCPUIDObj : BitVec 64 := 1056#64
def offsetCPUIDFunction : BitVec 64 := 1064#64
def offsetSyscallHandlerObj : BitVec 64 := 1072#64
def offsetSyscallHandlerFunc : BitVec 64 := 1080#64

def OPINDEX_MAX : Nat := 49

def offsetFallbackHandler (index : Fin OPINDEX_MAX) : BitVec 64 := BitVec.ofNat 64 (1096 + 8 * index)

def frameSize : Nat := 1488

abbrev SyscallFlags := BitVec 8

def SyscallFlags.NOSYNCSTATEONENTRY : SyscallFlags := 2#8
def SyscallFlags.NORETURN : SyscallFlags := 4#8

def SyscallFlags.noSync (flags : SyscallFlags) : Bool := flags &&& NOSYNCSTATEONENTRY == NOSYNCSTATEONENTRY

def SyscallFlags.noReturn (flags : SyscallFlags) : Bool := flags &&& NORETURN == NORETURN

/-- The code of an op, around its call. -/
structure CallCode where
  before : Emit
  call : Instr
  after : Emit

namespace CallCode

def emit (c : CallCode) : Emit := c.before ++ .code [c.call] ++ c.after

def atCall (env : Env) (c : CallCode) (s : State) : State := c.before.exec env s

def returned (env : Env) (c : CallCode) (s : State) : State := c.call.exec env (c.atCall env s)

def final (env : Env) (c : CallCode) (s : State) : State := c.after.exec env (c.returned env s)

end CallCode

/-! ## Syscalls -/

def MAX_ARGS : Nat := 7

/-- `AlignUp(MAX_ARGS * 8, 16)`. -/
def syscallArgsSize : Nat := 64

/-- An argument that is not invalid goes into its place in `SyscallArguments`. -/
def storeArg (args : Fin MAX_ARGS → Option GPR) (i : Fin MAX_ARGS) : List Instr :=
  match args i with
  | none => []
  | some r => [.str r (spAt (8 * i))]

def storeArgs (args : Fin MAX_ARGS → Option GPR) : List Instr := (List.finRange MAX_ARGS).flatMap (storeArg args)

def opSyscall (cfg : Config) (flags : SyscallFlags) (args : Fin MAX_ARGS → Option GPR) (dst : GPR) : CallCode where
  before := .code (pushDynamicRegsAndLR ++
    (if !flags.noSync then spillStaticRegs cfg true allRegs allRegs
      -- the registers that the caller saves have to be spilled still
      else spillStaticRegs cfg true callerGPRMask callerFPRMask) ++
    [.subImm .sp .sp (BitVec.ofNat 64 syscallArgsSize)] ++ storeArgs args ++
    [.ldr 0 (statePtr offsetSyscallHandlerObj), .ldr 3 (statePtr offsetSyscallHandlerFunc), .mov 1 STATE,
      .addImm (.x 2) .sp 0#64])
  call := .blr 3
  after := .code ([.addImm .sp .sp (BitVec.ofNat 64 syscallArgsSize)] ++
    (if !flags.noSync && !flags.noReturn then fillStaticRegs cfg true allRegs allRegs
      else fillStaticRegs cfg true callerGPRMask callerFPRMask) ++
    popDynamicRegsAndLR ++ if flags.noReturn then [] else [.mov dst 0])

def regArgs : List XReg := [0, 1, 2, 3, 4, 5]

/-- The guest register in one of the registers that the arguments and the syscall number go to. -/
def intersecting (r : XReg) : Option Nat :=
  if r = 8 then some REG_RSI
  else if r = 4 then some REG_RAX
  else if r = 5 then some REG_RBX
  else none

/-- The arguments of an inline syscall up to the first that is invalid. The ones behind it are invalid too. -/
abbrev InlineArgs := { args : List GPR // args.length ≤ 6 }

def moveArg (is64BitMode : Bool) (d r : XReg) : Instr := if is64BitMode then .mov d r else .movW d r

/-- An argument that intersects comes from where it was spilled to. -/
def loadArg (is64BitMode : Bool) (d r : XReg) : Instr :=
  match intersecting r with
  | some i => if is64BitMode then .ldr d (statePtr (offsetGreg i)) else .ldrW d (statePtr (offsetGreg i))
  | none => moveArg is64BitMode d r

def inlineArgs (is64BitMode : Bool) (args : List GPR) : List Instr :=
  if args.any (fun r => (intersecting r).isSome) then
    -- the first loop has only the arguments that intersect, and nothing in the 32-bit mode
    (if is64BitMode then
      ((regArgs.zip args).filter fun p => (intersecting p.2).isSome).map fun p => loadArg true p.1 p.2
    else []) ++
    (regArgs.zip args).map fun p => loadArg is64BitMode p.1 p.2
  else (regArgs.zip args).map fun p => moveArg is64BitMode p.1 p.2

/-- The mask of the registers to spill is overridden to all of them. -/
def opInlineSyscall (cfg : Config) (is64BitMode : Bool) (flags : SyscallFlags) (args : InlineArgs)
    (hostSyscallNumber : BitVec 64) (dst : GPR) : CallCode where
  before := .code (spillStaticRegs cfg false allRegs allRegs) ++ loadConstant 0 (allRegs.setWidth 64 &&& 0xFFFF#64) false ++
    .code ([.str 0 (statePtr offsetInSyscallInfo)] ++ inlineArgs is64BitMode args) ++
    loadConstant 8 hostSyscallNumber false
  call := .svc
  after := .code (if flags.noReturn then []
    else fillStaticRegs cfg false allRegs allRegs ++ [.strXzr (statePtr offsetInSyscallInfo), moveArg is64BitMode dst 0])

def SYS_getcpu : BitVec 64 := 168#64

def opProcessorID (cfg : Config) (dst : GPR) : CallCode where
  before := .code (spillStaticRegs cfg false (1#32 <<< 8) allRegs) ++
    loadConstant 0 ((1#32 <<< 8).setWidth 64 &&& 0xFFFF#64) false ++
    .code [.str 0 (statePtr offsetInSyscallInfo), .subImm .sp .sp 16#64] ++ loadConstant 8 SYS_getcpu false ++
    .code [.addImm (.x 0) .sp 0#64, .addImm (.x 1) .sp 4#64]
  call := .svc
  after := .code ([.ldpW 0 1 ⟨.sp, 0#64, .offset⟩, .subImm .sp .sp 16#64] ++ fillStaticRegs cfg false (1#32 <<< 8) allRegs ++
    [.strXzr (statePtr offsetInSyscallInfo), .orrLsl dst 0 1 12])

/-- The thunk handler has looked `thunkFn` up. -/
def opThunk (cfg : Config) (argPtr : GPR) (thunkFn : BitVec 64) : CallCode where
  before := .code (spillStaticRegs cfg true allRegs allRegs ++ pushDynamicRegsAndLR ++ [.mov 0 argPtr]) ++
    loadConstant 2 thunkFn false
  call := .blr 2
  after := .code (popDynamicRegsAndLR ++ fillStaticRegs cfg true allRegs allRegs)

def opThreadRemoveCodeEntry (cfg : Config) (entry : BitVec 64) : CallCode where
  before := .code (pushDynamicRegsAndLR ++ [.mov 0 STATE]) ++ loadConstant 1 entry false ++
    .code ([.ldr 2 (statePtr offsetThreadRemoveCodeEntry)] ++ spillStaticRegs cfg true allRegs allRegs)
  call := .blr 2
  after := .code (fillStaticRegs cfg true allRegs allRegs ++ popDynamicRegsAndLR)

def opCPUID (cfg : Config) (function leaf : GPR) (dst : GPRPair) : CallCode where
  before := .code (pushDynamicRegsAndLR ++
    [.ldr 0 (statePtr offsetCPUIDObj), .ldr 3 (statePtr offsetCPUIDFunction), .mov 1 function, .mov 2 leaf] ++
    spillStaticRegs cfg true allRegs allRegs)
  call := .blr 3
  after := .code (fillStaticRegs cfg true allRegs allRegs ++ popDynamicRegsAndLR ++ [.mov dst.1.1 0, .mov dst.1.2 1])

/-! ## Fallbacks -/

/-- The ABIs of the fallback handlers, with the registers of the operands and of the result. -/
inductive FallbackABI
  | VOID_U16 (src : GPR)
  | F80_F32 (src dst : FPR)
  | F80_F64 (src dst : FPR)
  | F80_I16 (src : GPR) (dst : FPR)
  | F80_I32 (src : GPR) (dst : FPR)
  | F32_F80 (src dst : FPR)
  | F64_F80 (src dst : FPR)
  | F64_F64 (src dst : FPR)
  | F64_F64_F64 (src src' dst : FPR)
  | I16_F80 (src : FPR) (dst : GPR)
  | I32_F80 (src : FPR) (dst : GPR)
  | I64_F80 (src : FPR) (dst : GPR)
  | I64_F80_F80 (src src' : FPR) (dst : GPR)
  | F80_F80 (src dst : FPR)
  | F80_F80_F80 (src src' dst : FPR)

def f80Operand (low high : XReg) (src : FPR) : List Instr := [.umovD low src 0, .umovH high src 4]

def f80Result (dst : FPR) : List Instr := [.eorV dst dst dst, .insD dst 0 0, .insH dst 4 1]

namespace FallbackABI

def arguments : FallbackABI → List Instr
  | VOID_U16 src => [.uxth 0 src]
  | F80_F32 src _ => [.movS 0 src]
  | F80_F64 src _ => [.movD 0 src]
  | F80_I16 src _ => [.uxth 0 src]
  | F80_I32 src _ => [.movW 0 src]
  | F32_F80 src _ => f80Operand 0 1 src
  | F64_F80 src _ => f80Operand 0 1 src
  | F64_F64 src _ => [.movD 0 src]
  | F64_F64_F64 src src' _ => [.movD 0 src, .movD 1 src']
  | I16_F80 src _ => f80Operand 0 1 src
  | I32_F80 src _ => f80Operand 0 1 src
  | I64_F80 src _ => f80Operand 0 1 src
  | I64_F80_F80 src src' _ => f80Operand 0 1 src ++ f80Operand 2 3 src'
  | F80_F80 src _ => f80Operand 0 1 src
  | F80_F80_F80 src src' _ => f80Operand 0 1 src ++ f80Operand 2 3 src'

def pointer : FallbackABI → XReg
  | VOID_U16 _ => 1
  | F80_F32 _ _ => 0
  | F80_F64 _ _ => 0
  | F80_I16 _ _ => 1
  | F80_I32 _ _ => 1
  | F32_F80 _ _ => 2
  | F64_F80 _ _ => 2
  | F64_F64 _ _ => 0
  | F64_F64_F64 _ _ _ => 0
  | I16_F80 _ _ => 2
  | I32_F80 _ _ => 2
  | I64_F80 _ _ => 2
  | I64_F80_F80 _ _ _ => 4
  | F80_F80 _ _ => 2
  | F80_F80_F80 _ _ _ => 4

def result : FallbackABI → List Instr
  | VOID_U16 _ => []
  | F80_F32 _ dst => f80Result dst
  | F80_F64 _ dst => f80Result dst
  | F80_I16 _ dst => f80Result dst
  | F80_I32 _ dst => f80Result dst
  | F32_F80 _ dst => [.movS dst 0]
  | F64_F80 _ dst => [.movD dst 0]
  | F64_F64 _ dst => [.movD dst 0]
  | F64_F64_F64 _ _ dst => [.movD dst 0]
  | I16_F80 _ dst => [.uxth dst 0]
  | I32_F80 _ dst => [.movW dst 0]
  | I64_F80 _ dst => [.mov dst 0]
  | I64_F80_F80 _ _ dst => [.mov dst 0]
  | F80_F80 _ dst => f80Result dst
  | F80_F80_F80 _ _ dst => f80Result dst

end FallbackABI

def opUnhandled (cfg : Config) (abi : FallbackABI) (handlerIndex : Fin OPINDEX_MAX) : CallCode where
  before := .code (spillStaticRegs cfg true allRegs allRegs ++ pushDynamicRegsAndLR ++ abi.arguments ++
    [.ldr abi.pointer (statePtr (offsetFallbackHandler handlerIndex))])
  call := .blr abi.pointer
  after := .code (popDynamicRegsAndLR ++ fillStaticRegs cfg true allRegs allRegs ++ abi.result)

/-- The ops that leave the emitted code. -/
inductive CallOp
  | syscall (flags : SyscallFlags) (args : Fin MAX_ARGS → Option GPR) (dst : GPR)
  | inlineSyscall (is64BitMode : Bool) (flags : SyscallFlags) (args : InlineArgs) (hostSyscallNumber : BitVec 64) (dst : GPR)
  | thunk (argPtr : GPR) (thunkFn : BitVec 64)
  | cpuid (function leaf : GPR) (dst : GPRPair)
  | processorID (dst : GPR)
  | threadRemoveCodeEntry (entry : BitVec 64)
  | unhandled (abi : FallbackABI) (handlerIndex : Fin OPINDEX_MAX)

def CallOp.code (cfg : Config) : CallOp → CallCode
  | .syscall flags args dst => opSyscall cfg flags args dst
  | .inlineSyscall is64BitMode flags args hostSyscallNumber dst =>
    opInlineSyscall cfg is64BitMode flags args hostSyscallNumber dst
  | .thunk argPtr thunkFn => opThunk cfg argPtr thunkFn
  | .cpuid function leaf dst => opCPUID cfg function leaf dst
  | .processorID dst => opProcessorID cfg dst
  | .threadRemoveCodeEntry entry => opThreadRemoveCodeEntry cfg entry
  | .unhandled abi handlerIndex => opUnhandled cfg abi handlerIndex

end FexEmu.Arm64
