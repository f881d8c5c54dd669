import Mathlib.Tactic
/-!
# Signal frames

`StoreThreadState`, `HandleGuestSignal` and `RestoreThreadState` with the context backup of an Arm64 host.
-/
namespace FexEmu.SignalFrame
open Function (update)

scoped instance ne_zero_16 : NeZero 16 := ⟨by decide⟩
scoped instance ne_zero_31 : NeZero 31 := ⟨by decide⟩
scoped instance ne_zero_48 : NeZero 48 := ⟨by decide⟩

/-! ## State -/

/-- `CPUState`. The vector registers are 512 bytes, here in 16s. Each flag byte is a bit, and `TOP` has 3. -/
structure CPUState where
  rip : BitVec 64
  gregs : Fin 16 → BitVec 64
  es : BitVec 16
  cs : BitVec 16
  ss : BitVec 16
  ds : BitVec 16
  gs : BitVec 64
  fs : BitVec 64
  xmm : Fin 32 → BitVec 128
  flags : Fin 48 → Bool
  top : BitVec 3
  mm : Fin 8 → BitVec 128
  gdt : Fin 32 → BitVec 32
  FCW : BitVec 16
  FTW : BitVec 16

def REG_RDX : Fin 16 := 3
def REG_RSI : Fin 16 := 4
def REG_RDI : Fin 16 := 5
def REG_RSP : Fin 16 := 7

def X87FLAG_C0_LOC : Fin 48 := 40
def X87FLAG_C1_LOC : Fin 48 := 41
def X87FLAG_C2_LOC : Fin 48 := 42
def X87FLAG_C3_LOC : Fin 48 := 46

/-- The low part of a vector register in the layout of AVX, and its high part. -/
def avxLow (i : Fin 16) : Fin 32 := ⟨2 * i, by omega⟩

def avxHigh (i : Fin 16) : Fin 32 := ⟨2 * i + 1, by omega⟩

def sse (i : Fin 16) : Fin 32 := ⟨i, by omega⟩

/-- `sve` are the high parts of the vector registers, in a record of their own that nobody here copies. -/
structure Host where
  regs : Fin 31 → BitVec 64
  sp : BitVec 64
  pc : BitVec 64
  pstate : BitVec 64
  fpsr : BitVec 32
  fpcr : BitVec 32
  fprs : Fin 32 → BitVec 128
  sve : Fin 32 → BitVec 128
  sigmask : BitVec 64

def STATE : Fin 31 := 28

/-- `SRA64` and `SRAFPR` -/
def sra64 : Fin 16 → Fin 31 := ![4, 5, 6, 7, 8, 9, 10, 11, 12, 18, 17, 16, 15, 14, 13, 29]

def sraFPR (i : Fin 16) : Fin 32 := ⟨16 + i, by omega⟩

/-- The record of a fault that the translated code raised itself. -/
structure SynchronousFaultData where
  faultToTopAndGeneratedException : Bool
  signal : BitVec 8
  trapNo : BitVec 32
  errCode : BitVec 32

/-- `ContextBackup`: what the return from the handler restores. -/
structure ContextBackup where
  host : Host
  signal : BitVec 32
  is32Bit : Bool
  inJIT : Bool
  originalRIP : BitVec 64
  fpStateLocation : BitVec 64
  uContextLocation : BitVec 64
  sigInfoLocation : BitVec 64
  faultToTopAndGeneratedException : Bool
  guestState : CPUState

/-! ## The guest's frame -/

/-- The registers of `mcontext_t`, and the pointer to the float state. -/
structure UContext64 where
  gregs : Fin 23 → BitVec 64
  fpregs : BitVec 64

/-- The fields of the 64-bit floating-point frame that are stored. -/
structure XState64 where
  fcw : BitVec 16
  fsw : BitVec 16
  ftw : BitVec 16
  st : Fin 8 → BitVec 128
  xmm : Fin 16 → BitVec 128
  ymmh : Fin 16 → BitVec 128

/-- The fields of the 32-bit context that are stored. -/
structure UContext32 where
  gregs : Fin 19 → BitVec 32
  fpregs : BitVec 32

/-- `xmm` goes on into the padding behind the 8 registers. -/
structure XState32 where
  fcw : BitVec 32
  fsw : BitVec 32
  ftw : BitVec 32
  st : Fin 8 → BitVec 80
  xmm : Fin 19 → BitVec 128
  ymmh : Fin 16 → BitVec 128

/-- The guest's memory, by what is stored at an address. -/
structure GuestMemory where
  ucontext64 : BitVec 64 → UContext64
  xstate64 : BitVec 64 → XState64
  ucontext32 : BitVec 64 → UContext32
  xstate32 : BitVec 64 → XState32

def FEX_REG64_RIP : Fin 23 := 16
def FEX_REG64_EFL : Fin 23 := 17
def FEX_REG64_CSGSFS : Fin 23 := 18
def FEX_REG64_ERR : Fin 23 := 19
def FEX_REG64_TRAPNO : Fin 23 := 20
def FEX_REG64_OLDMASK : Fin 23 := 21
def FEX_REG64_CR2 : Fin 23 := 22

/-- `FEX_REG_x` for `REG_x`. -/
def contextReg64 : Fin 16 → Fin 23 := ![13, 11, 14, 12, 9, 8, 10, 15, 0, 1, 2, 3, 4, 5, 6, 7]

/-- The registers of `COPY_REG`, in its order. -/
def copyRegs64 : List (Fin 16) := [8, 9, 10, 11, 12, 13, 14, 15, 5, 4, 6, 1, 3, 0, 2, 7]

def FEX_REG32_GS : Fin 19 := 0
def FEX_REG32_FS : Fin 19 := 1
def FEX_REG32_ES : Fin 19 := 2
def FEX_REG32_DS : Fin 19 := 3
def FEX_REG32_TRAPNO : Fin 19 := 12
def FEX_REG32_ERR : Fin 19 := 13
def FEX_REG32_EIP : Fin 19 := 14
def FEX_REG32_CS : Fin 19 := 15
def FEX_REG32_EFL : Fin 19 := 16
def FEX_REG32_UESP : Fin 19 := 17
def FEX_REG32_SS : Fin 19 := 18

def contextReg32 : Fin 16 → Fin 19 := ![11, 8, 10, 9, 5, 4, 6, 7, 0, 0, 0, 0, 0, 0, 0, 0]

def copyRegs32 : List (Fin 16) := [5, 4, 6, 1, 3, 0, 2, 7]

/-! ## The machine -/

/-- `statePtr` is the address of the frame. `spilled` are the static registers that the code at an address has in the frame
only. -/
structure Config where
  is64BitMode : Bool
  enableAVX : Bool
  supportsAVX : Bool
  staticRegisterAllocation : Bool
  isAddressInCodeBuffer : BitVec 64 → Bool
  spilled : BitVec 64 → Fin 16 → Bool
  loopTop : BitVec 64
  statePtr : BitVec 64
  signalReturn : BitVec 64
  avx_enabled : supportsAVX → enableAVX
  loopTop_notInCode : isAddressInCodeBuffer loopTop = false

/-- `contexts` are the backups on the host's stack. The stack pointer, or `SignalFrames`, is that of the first one. -/
structure Machine where
  state : CPUState
  inSyscallInfo : BitVec 64
  signalHandlerRefCounter : Nat
  fault : SynchronousFaultData
  host : Host
  contexts : List ContextBackup
  memory : GuestMemory

/-- What `HandleGuestSignal` is told, with the action and the stack of the guest. -/
structure Signal where
  number : BitVec 32
  siCode : BitVec 32
  handler : BitVec 64
  siginfo : Bool
  onStack : Bool
  ssDisable : Bool
  ssSp : BitVec 64
  ssSize : BitVec 64

/-! ## Storing -/

/-- To the top of the dispatcher, with the state of the guest's thread. -/
def atLoopTop (cfg : Config) (host : Host) : Host :=
  { host with pc := cfg.loopTop, regs := update host.regs STATE cfg.statePtr }

/-- `sizeof(ArmContextBackup)` -/
def contextBackupSize : BitVec 64 := 1840

/-- `BackupContext` and the rest of `StoreThreadState`. -/
def storeThreadState (s : Machine) (signal : BitVec 32) : ContextBackup :=
  { host := s.host
    signal := signal
    is32Bit := false
    inJIT := false
    originalRIP := 0
    fpStateLocation := 0
    uContextLocation := 0
    sigInfoLocation := 0
    faultToTopAndGeneratedException := s.fault.faultToTopAndGeneratedException
    guestState := s.state }

def popcount16 (x : BitVec 64) : Nat := (List.range 16).countP fun i => x.getLsbD i

def ignoreMask (inSyscallInfo : BitVec 64) : BitVec 64 :=
  if inSyscallInfo ≠ 0 then
    if 4 ≤ popcount16 inSyscallInfo then 0 else inSyscallInfo &&& 0xFFFF
  else 0

def spillXmm (supportsAVX : Bool) (xmm : Fin 32 → BitVec 128) (fprs : Fin 32 → BitVec 128) : Fin 32 → BitVec 128 :=
  (List.finRange 16).foldl (fun x i => update x (if supportsAVX then avxLow i else sse i) (fprs (sraFPR i))) xmm

def spillSRA (cfg : Config) (state : CPUState) (host : Host) (ignore : BitVec 64) : CPUState :=
  { state with
    gregs := fun i => if ignore.getLsbD (sra64 i) then state.gregs i else host.regs (sra64 i)
    xmm := spillXmm cfg.supportsAVX state.xmm host.fprs }

def inRegisters (cfg : Config) (host : Host) : Bool := cfg.staticRegisterAllocation && cfg.isAddressInCodeBuffer host.pc

def spilledState (cfg : Config) (s : Machine) : CPUState :=
  if inRegisters cfg s.host then spillSRA cfg s.state s.host (ignoreMask s.inSyscallInfo) else s.state

def SIGSEGV : BitVec 32 := 11
def SEGV_MAPERR : BitVec 32 := 1
def SEGV_ACCERR : BitVec 32 := 2
def X86_TRAPNO_PF : BitVec 32 := 14
def X86_PF_USER : BitVec 32 := 4

def isPageFault (sig : Signal) : Bool := sig.number = SIGSEGV && (sig.siCode = SEGV_MAPERR || sig.siCode = SEGV_ACCERR)

def convertSignalToTrapNo (sig : Signal) : BitVec 32 := if isPageFault sig then X86_TRAPNO_PF else sig.number

def convertSignalToError (sig : Signal) : BitVec 32 := if isPageFault sig then X86_PF_USER else 0

/-- `fpstate->fsw` -/
def fswOf (w : Nat) (state : CPUState) : BitVec w :=
  (state.top.setWidth w <<< 11) ||| ((BitVec.ofBool (state.flags X87FLAG_C0_LOC)).setWidth w <<< 8) |||
    ((BitVec.ofBool (state.flags X87FLAG_C1_LOC)).setWidth w <<< 9) |||
    ((BitVec.ofBool (state.flags X87FLAG_C2_LOC)).setWidth w <<< 10) |||
    ((BitVec.ofBool (state.flags X87FLAG_C3_LOC)).setWidth w <<< 14)

/-- The alternate stack, unless the guest is on it, and the red zone of 64-bit code. -/
def newGuestSP (cfg : Config) (sig : Signal) (oldGuestSP : BitVec 64) : BitVec 64 :=
  let altStackEnd := sig.ssSp + sig.ssSize
  let sp := if sig.onStack && !sig.ssDisable && !(sig.ssSp ≤ oldGuestSP && oldGuestSP ≤ altStackEnd) then altStackEnd else oldGuestSP
  if cfg.is64BitMode then sp - 128 else sp

def alignDown (a n : BitVec 64) : BitVec 64 := a &&& ~~~(n - 1)

/-- Where the parts of a frame are. -/
structure Locations where
  fpState : BitVec 64
  uContext : BitVec 64
  sigInfo : BitVec 64

def locations (cfg : Config) (sp : BitVec 64) : Locations :=
  if cfg.is64BitMode then
    let fpState := sp - (if cfg.enableAVX then 832 else 512)
    let uContext := fpState - 424
    ⟨fpState, uContext, alignDown (uContext - 128) 8⟩
  else
    let fpState := sp - (if cfg.enableAVX then 944 else 624)
    let uContext := fpState - 236
    ⟨fpState, uContext, uContext - 128⟩

/-- The registers of a 64-bit `ucontext_t`. -/
def saveGregs64 (s : Machine) (sig : Signal) (state : CPUState) (old : Fin 23 → BitVec 64) : Fin 23 → BitVec 64 :=
  let fault := s.fault.faultToTopAndGeneratedException
  let g := update old FEX_REG64_RIP state.rip
  let g := update g FEX_REG64_EFL 0
  let g := update g FEX_REG64_CSGSFS 0
  let g := update g FEX_REG64_TRAPNO ((if fault then s.fault.trapNo else convertSignalToTrapNo sig).setWidth 64)
  let g := update g FEX_REG64_ERR ((if fault then s.fault.errCode else convertSignalToError sig).setWidth 64)
  let g := update g FEX_REG64_OLDMASK 0
  let g := update g FEX_REG64_CR2 0
  copyRegs64.foldl (fun g r => update g (contextReg64 r) (state.gregs r)) g

def saveXState64 (cfg : Config) (state : CPUState) (old : XState64) : XState64 :=
  { fcw := state.FCW
    fsw := fswOf 16 state
    ftw := state.FTW
    st := state.mm
    xmm := fun i => if cfg.enableAVX then state.xmm (avxLow i) else state.xmm (sse i)
    ymmh := fun i => if cfg.enableAVX then state.xmm (avxHigh i) else old.ymmh i }

def saveGregs32 (s : Machine) (sig : Signal) (state : CPUState) (old : Fin 19 → BitVec 32) : Fin 19 → BitVec 32 :=
  let fault := s.fault.faultToTopAndGeneratedException
  let g := update old FEX_REG32_GS (state.gs.setWidth 32)
  let g := update g FEX_REG32_FS (state.fs.setWidth 32)
  let g := update g FEX_REG32_ES (state.es.setWidth 32)
  let g := update g FEX_REG32_DS (state.ds.setWidth 32)
  let g := update g FEX_REG32_TRAPNO (if fault then s.fault.trapNo else convertSignalToTrapNo sig)
  let g := update g FEX_REG32_ERR (if fault then s.fault.errCode else convertSignalToError sig)
  let g := update g FEX_REG32_EIP (state.rip.setWidth 32)
  let g := update g FEX_REG32_CS (state.cs.setWidth 32)
  let g := update g FEX_REG32_EFL 0
  let g := update g FEX_REG32_UESP 0
  let g := update g FEX_REG32_SS (state.ss.setWidth 32)
  copyRegs32.foldl (fun g r => update g (contextReg32 r) ((state.gregs r).setWidth 32)) g

def padded (i : Fin 16) : Fin 19 := ⟨i, by omega⟩

def saveXState32 (cfg : Config) (state : CPUState) (old : XState32) : XState32 :=
  { fcw := state.FCW.setWidth 32
    fsw := fswOf 32 state
    ftw := state.FTW.setWidth 32
    st := fun i => (state.mm i).setWidth 80
    xmm := (List.finRange 16).foldl
      (fun x i => update x (padded i) (if cfg.enableAVX then state.xmm (avxLow i) else state.xmm (sse i))) old.xmm
    ymmh := fun i => if cfg.enableAVX then state.xmm (avxHigh i) else old.ymmh i }

def saveFrame (cfg : Config) (s : Machine) (sig : Signal) (state : CPUState) (loc : Locations) : GuestMemory :=
  let m := s.memory
  if cfg.is64BitMode then
    { m with
      ucontext64 := update m.ucontext64 loc.uContext
        ⟨saveGregs64 s sig state (m.ucontext64 loc.uContext).gregs, loc.fpState⟩
      xstate64 := update m.xstate64 loc.fpState (saveXState64 cfg state (m.xstate64 loc.fpState)) }
  else
    { m with
      ucontext32 := update m.ucontext32 loc.uContext
        ⟨saveGregs32 s sig state (m.ucontext32 loc.uContext).gregs, loc.fpState.setWidth 32⟩
      xstate32 := update m.xstate32 loc.fpState (saveXState32 cfg state (m.xstate32 loc.fpState)) }

def handlerState (cfg : Config) (s : Machine) (sig : Signal) (state : CPUState) (loc : Locations) (sp : BitVec 64) : CPUState :=
  let number := if sig.siginfo && s.fault.faultToTopAndGeneratedException then s.fault.signal.setWidth 32 else sig.number
  let args := if sig.siginfo && cfg.is64BitMode then
    update (update state.gregs REG_RSI loc.sigInfo) REG_RDX loc.uContext else state.gregs
  -- 32-bit code has its arguments on the stack
  let sp := if cfg.is64BitMode then (if sig.siginfo then loc.sigInfo else sp) - 8
    else (if sig.siginfo then loc.sigInfo - 12 else sp - 4) - 4
  let args := if cfg.is64BitMode then update args REG_RDI (number.setWidth 64) else args
  { state with
    rip := sig.handler
    gregs := update args REG_RSP sp
    xmm := fun _ => 0
    mm := fun _ => 0
    FCW := 0x37F
    FTW := 0xFFFF }

def handleGuestSignal (cfg : Config) (s : Machine) (sig : Signal) : Machine :=
  let state := spilledState cfg s
  -- the stack pointer is read before the static registers are spilled
  let sp := newGuestSP cfg sig (s.state.gregs REG_RSP)
  let loc := locations cfg sp
  let context := { storeThreadState s sig.number with inJIT := inRegisters cfg s.host, originalRIP := state.rip }
  let context := if sig.siginfo then
    { context with
      is32Bit := !cfg.is64BitMode
      fpStateLocation := loc.fpState
      uContextLocation := loc.uContext
      sigInfoLocation := loc.sigInfo } else context
  { s with
    state := handlerState cfg s sig state loc sp
    signalHandlerRefCounter := s.signalHandlerRefCounter + 1
    fault := { s.fault with faultToTopAndGeneratedException := false }
    host := { atLoopTop cfg s.host with sp := alignDown (s.host.sp - contextBackupSize) 16 }
    contexts := context :: s.contexts
    memory := if sig.siginfo then saveFrame cfg s sig state loc else s.memory }

/-! ## Restoring -/

def restoreContext (host backup : Host) : Host := { backup with sve := host.sve }

/-- The flags of `EFLAGS` and of `FSW`. -/
def restoreFlags {w : Nat} (old : Fin 48 → Bool) (eflags : BitVec 32) (fsw : BitVec w) : Fin 48 → Bool :=
  let f := fun i : Fin 48 => if i.val < 32 then eflags.getLsbD i else old i
  let f := update f 1 true
  let f := update f 9 true
  let f := update f X87FLAG_C0_LOC (fsw.getLsbD 8)
  let f := update f X87FLAG_C1_LOC (fsw.getLsbD 9)
  let f := update f X87FLAG_C2_LOC (fsw.getLsbD 10)
  update f X87FLAG_C3_LOC (fsw.getLsbD 14)

def restoreState64 (cfg : Config) (state : CPUState) (uctx : UContext64) (x : XState64) : CPUState :=
  { state with
    rip := uctx.gregs FEX_REG64_RIP
    flags := restoreFlags state.flags ((uctx.gregs FEX_REG64_EFL).setWidth 32) x.fsw
    top := x.fsw.extractLsb' 11 3
    gregs := copyRegs64.foldl (fun g r => update g r (uctx.gregs (contextReg64 r))) state.gregs
    mm := x.st
    xmm := if cfg.enableAVX then
        (List.finRange 16).foldl (fun y i => update (update y (avxLow i) (x.xmm i)) (avxHigh i) (x.ymmh i))
          state.xmm
      else (List.finRange 16).foldl (fun y i => update y (sse i) (x.xmm i)) state.xmm
    FCW := x.fcw
    FTW := x.ftw }

def restoreState32 (cfg : Config) (state : CPUState) (uctx : UContext32) (x : XState32) : CPUState :=
  { state with
    rip := (uctx.gregs FEX_REG32_EIP).setWidth 64
    flags := restoreFlags state.flags (uctx.gregs FEX_REG32_EFL) x.fsw
    top := x.fsw.extractLsb' 11 3
    cs := (uctx.gregs FEX_REG32_CS).setWidth 16
    ds := (uctx.gregs FEX_REG32_DS).setWidth 16
    es := (uctx.gregs FEX_REG32_ES).setWidth 16
    fs := (uctx.gregs FEX_REG32_FS).setWidth 64
    gs := (uctx.gregs FEX_REG32_GS).setWidth 64
    ss := (uctx.gregs FEX_REG32_SS).setWidth 16
    gregs := copyRegs32.foldl (fun g r => update g r ((uctx.gregs (contextReg32 r)).setWidth 64)) state.gregs
    mm := fun i => (state.mm i).extractLsb' 80 48 ++ x.st i
    xmm := if cfg.enableAVX then state.xmm
      else (List.finRange 16).foldl (fun y i => update y (sse i) (x.xmm (padded i))) state.xmm
    FCW := x.fcw.setWidth 16
    FTW := x.ftw.setWidth 16 }

/-- What the copies of `restoreState32` do to the frame. -/
def restoreMemory32 (cfg : Config) (state : CPUState) (x : XState32) : XState32 :=
  if cfg.enableAVX then
    { x with
      xmm := (List.finRange 16).foldl (fun y i => update y (padded i) (state.xmm (avxLow i))) x.xmm
      ymmh := fun i => state.xmm (avxHigh i) }
  else x

def restoreThreadState (cfg : Config) (s : Machine) : Option Machine :=
  match s.contexts with
  | [] => none
  | context :: rest =>
    let t := { s with state := context.guestState, host := restoreContext s.host context.host, contexts := rest }
    some <|
      if context.uContextLocation ≠ 0 then
        if !context.is32Bit then
          let uctx := s.memory.ucontext64 context.uContextLocation
          if context.originalRIP ≠ uctx.gregs FEX_REG64_RIP ∨ context.faultToTopAndGeneratedException then
            { t with
              host := atLoopTop cfg t.host
              state := restoreState64 cfg t.state uctx (s.memory.xstate64 uctx.fpregs) }
          else t
        else
          let uctx := s.memory.ucontext32 context.uContextLocation
          if context.originalRIP ≠ (uctx.gregs FEX_REG32_EIP).setWidth 64 ∨ context.faultToTopAndGeneratedException then
            let x := s.memory.xstate32 (uctx.fpregs.setWidth 64)
            { t with
              host := atLoopTop cfg t.host
              state := restoreState32 cfg t.state uctx x
              memory := { s.memory with
                xstate32 := update s.memory.xstate32 (uctx.fpregs.setWidth 64) (restoreMemory32 cfg t.state x) } }
          else t
      else t

/-- Between a signal and its return: guest code that leaves the backups alone, and signals with their returns. -/
inductive Handles (cfg : Config) : Machine → Machine → Prop
  | refl (s : Machine) : Handles cfg s s
  | code {s t u : Machine} (h : Handles cfg s t) (hcontexts : u.contexts = t.contexts) : Handles cfg s u
  | signal {s t u v : Machine} (h : Handles cfg s t) (sig : Signal)
    (hnested : Handles cfg (handleGuestSignal cfg t sig) u) (hreturn : restoreThreadState cfg u = some v) :
    Handles cfg s v

/-! ## The guest's state -/

/-- The registers as the guest sees them. -/
structure Guest where
  rip : BitVec 64
  gprs : Fin 16 → BitVec 64
  segments : BitVec 16 × BitVec 16 × BitVec 16 × BitVec 16
  gs : BitVec 64
  fs : BitVec 64
  low : Fin 16 → BitVec 128
  high : Fin 16 → BitVec 128
  flags : Fin 48 → Bool
  top : BitVec 3
  mm : Fin 8 → BitVec 128
  gdt : Fin 32 → BitVec 32
  FCW : BitVec 16
  FTW : BitVec 16

/-- In 32-bit mode there are the low halves of the first 8 registers. -/
def narrow (cfg : Config) (x : BitVec 64) : BitVec 64 := if cfg.is64BitMode then x else (x.setWidth 32).setWidth 64

def visible (cfg : Config) (i : Fin 16) : Bool := cfg.is64BitMode || i.val < 8

def gprOf (cfg : Config) (s : Machine) (i : Fin 16) : BitVec 64 :=
  if inRegisters cfg s.host && !cfg.spilled s.host.pc i then s.host.regs (sra64 i) else s.state.gregs i

def lowOf (cfg : Config) (s : Machine) (i : Fin 16) : BitVec 128 :=
  if inRegisters cfg s.host then s.host.fprs (sraFPR i) else s.state.xmm (if cfg.supportsAVX then avxLow i else sse i)

def highOf (cfg : Config) (s : Machine) (i : Fin 16) : BitVec 128 :=
  if inRegisters cfg s.host then s.host.sve (sraFPR i) else s.state.xmm (avxHigh i)

def guest (cfg : Config) (s : Machine) : Guest :=
  { rip := narrow cfg s.state.rip
    gprs := fun i => if visible cfg i then narrow cfg (gprOf cfg s i) else 0
    segments := (s.state.es, s.state.cs, s.state.ss, s.state.ds)
    gs := narrow cfg s.state.gs
    fs := narrow cfg s.state.fs
    low := fun i => if visible cfg i then lowOf cfg s i else 0
    high := fun i => if cfg.supportsAVX && visible cfg i then highOf cfg s i else 0
    flags := s.state.flags
    top := s.state.top
    mm := s.state.mm
    gdt := s.state.gdt
    FCW := s.state.FCW
    FTW := s.state.FTW }

/-! ## The statement -/

def locationsOf (cfg : Config) (s : Machine) (sig : Signal) : Locations :=
  locations cfg (newGuestSP cfg sig (s.state.gregs REG_RSP))

/-- The frame is in the guest's memory, below 4 GiB in 32-bit mode. -/
structure Placed (cfg : Config) (loc : Locations) : Prop where
  uContext : loc.uContext ≠ 0
  fpState : cfg.is64BitMode = false → loc.fpState.toNat < 2 ^ 32

/-- The handler has left the frame as it was, but for the instruction pointer. -/
def Kept (cfg : Config) (loc : Locations) (m m' : GuestMemory) (rip : BitVec 64) : Prop :=
  if cfg.is64BitMode then
    m'.ucontext64 loc.uContext =
        { m.ucontext64 loc.uContext with gregs := update (m.ucontext64 loc.uContext).gregs FEX_REG64_RIP rip } ∧
      m'.xstate64 loc.fpState = m.xstate64 loc.fpState
  else
    m'.ucontext32 loc.uContext =
        { m.ucontext32 loc.uContext with
          gregs := update (m.ucontext32 loc.uContext).gregs FEX_REG32_EIP (rip.setWidth 32) } ∧
      m'.xstate32 loc.fpState = m.xstate32 loc.fpState

/-- The return of the signal leaves the saved instruction pointer and the rest as it was. -/
def RoundTrips (cfg : Config) (s t : Machine) (rip : BitVec 64) : Prop :=
  ∃ u, restoreThreadState cfg t = some u ∧ guest cfg u = { guest cfg s with rip := narrow cfg rip }

/-- The instruction pointer was changed, or the signal is a fault: the state comes from the frame. -/
def FromFrame (cfg : Config) (s : Machine) (rip : BitVec 64) : Prop :=
  s.state.rip ≠ narrow cfg rip ∨ s.fault.faultToTopAndGeneratedException = true

instance (cfg : Config) (s : Machine) (rip : BitVec 64) : Decidable (FromFrame cfg s rip) := inferInstanceAs (Decidable (_ ∨ _))

/-- The state comes from the frame: `EFLAGS` is what 0 is restored to, and what the code has not in the frame is spilled or
the same. -/
structure FrameExact (cfg : Config) (s : Machine) : Prop where
  eflags : ∀ i : Fin 48, i.val < 32 → s.state.flags i = (i = 1 || i = 9)
  gprs : inRegisters cfg s.host → ∀ i, visible cfg i → (ignoreMask s.inSyscallInfo).getLsbD (sra64 i) ≠ cfg.spilled s.host.pc i →
    narrow cfg (s.state.gregs i) = narrow cfg (s.host.regs (sra64 i))
  high : inRegisters cfg s.host → cfg.supportsAVX → ∀ i, visible cfg i → s.state.xmm (avxHigh i) = s.host.sve (sraFPR i)
  low : inRegisters cfg s.host → cfg.is64BitMode = false → cfg.enableAVX → ∀ i, visible cfg i →
    s.state.xmm (if cfg.supportsAVX then avxLow i else sse i) = s.host.fprs (sraFPR i)

/-- The state comes from the backup: the high parts of the host's vector registers, which are not in it, are the same. -/
def BackupExact (cfg : Config) (s t : Machine) : Prop :=
  inRegisters cfg s.host → cfg.supportsAVX → ∀ i, visible cfg i → t.host.sve (sraFPR i) = s.host.sve (sraFPR i)

/-- Every part that the return restores has its value from before the signal. -/
def Meets (cfg : Config) (s t : Machine) (rip : BitVec 64) : Prop :=
  if FromFrame cfg s rip then FrameExact cfg s else BackupExact cfg s t

end FexEmu.SignalFrame
