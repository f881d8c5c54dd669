import FexEmu.Arm64.CallOps
import FexEmu.Arm64.SavedRegisters
/-!
# What an op that calls out preserves

The statement for all ops, with the arguments on the way in and the result on the way out.
-/
namespace FexEmu.Arm64

open ByteMemory

variable {env : Env} {cfg : Config}

/-! ## The statement -/

/-- A function that was called in `t` and came back in `u` keeps `x19` to `x29`, the stack pointer and its caller's stack,
but for `args` bytes that it has a pointer to. -/
structure AAPCS64 (args : Nat) (t u : State) : Prop where
  gprs : ∀ r : XReg, 19 ≤ r → r ≤ 29 → u.x r = t.x r
  sp : u.sp = t.sp
  stack : Agree u.mem t.mem (t.sp + BitVec.ofNat 64 args) dynamicRegsSize.toNat

/-- The kernel changes `x0` and memory. -/
structure KernelABI (t u : State) : Prop where
  gprs : ∀ r : XReg, r ≠ 0 → u.x r = t.x r
  sp : u.sp = t.sp
  vectors : u.v = t.v

/-- What the call pushes does not meet the frame. -/
def StackApart (s : State) : Prop := Apart (s.x STATE) frameSize (s.sp - 336#64) 336

def framePointer (s : State) (offset : BitVec 64) : BitVec 64 := read s.mem (s.x STATE + offset) 64

/-- The registers hold an 80-bit value. -/
def HoldsF80 (t : State) (low high : XReg) (value : BitVec 128) : Prop :=
  t.x low = lane value 64 0 ∧ t.x high = (lane value 16 4).setWidth 64

def FallbackABI.Received (s t : State) : FallbackABI → Prop
  | VOID_U16 src => t.x 0 = ((s.x src).setWidth 16).setWidth 64
  | F80_F32 src _ => (t.v 0).setWidth 32 = (s.v src).setWidth 32
  | F80_F64 src _ => lowD (t.v 0) = lowD (s.v src)
  | F80_I16 src _ => t.x 0 = ((s.x src).setWidth 16).setWidth 64
  | F80_I32 src _ => t.x 0 = (lowW (s.x src)).setWidth 64
  | F32_F80 src _ => HoldsF80 t 0 1 (s.v src)
  | F64_F80 src _ => HoldsF80 t 0 1 (s.v src)
  | F64_F64 src _ => lowD (t.v 0) = lowD (s.v src)
  | F64_F64_F64 src src' _ => lowD (t.v 0) = lowD (s.v src) ∧ lowD (t.v 1) = lowD (s.v src')
  | I16_F80 src _ => HoldsF80 t 0 1 (s.v src)
  | I32_F80 src _ => HoldsF80 t 0 1 (s.v src)
  | I64_F80 src _ => HoldsF80 t 0 1 (s.v src)
  | I64_F80_F80 src src' _ => HoldsF80 t 0 1 (s.v src) ∧ HoldsF80 t 2 3 (s.v src')
  | F80_F80 src _ => HoldsF80 t 0 1 (s.v src)
  | F80_F80_F80 src src' _ => HoldsF80 t 0 1 (s.v src) ∧ HoldsF80 t 2 3 (s.v src')

def FallbackABI.dstGPRs : FallbackABI → List XReg
  | I16_F80 _ dst | I32_F80 _ dst | I64_F80 _ dst | I64_F80_F80 _ _ dst => [dst]
  | _ => []

def FallbackABI.dstFPRs : FallbackABI → List VReg
  | F80_F32 _ dst | F80_F64 _ dst | F80_I16 _ dst | F80_I32 _ dst | F32_F80 _ dst | F64_F80 _ dst | F64_F64 _ dst
  | F64_F64_F64 _ _ dst | F80_F80 _ dst | F80_F80_F80 _ _ dst => [dst]
  | _ => []

def inlineArg (is64BitMode : Bool) (s : State) (r : XReg) : BitVec 64 :=
  if is64BitMode then s.x r else (lowW (s.x r)).setWidth 64

namespace CallOp

def dstGPRs : CallOp → List XReg
  | syscall _ _ dst => [dst]
  | inlineSyscall _ _ _ _ dst => [dst]
  | thunk _ _ => []
  | cpuid _ _ dst => [dst.1.1, dst.1.2]
  | processorID dst => [dst]
  | threadRemoveCodeEntry _ => []
  | unhandled abi _ => abi.dstGPRs

def dstFPRs : CallOp → List VReg
  | unhandled abi _ => abi.dstFPRs
  | _ => []

/-- Whether the general registers of the guest are synchronised with the frame. -/
def syncsGPRs : CallOp → Bool
  | syscall flags _ _ => !flags.noSync
  | processorID _ => false
  | _ => true

def syncsFPRs : CallOp → Bool
  | syscall flags _ _ => !flags.noSync
  | inlineSyscall _ _ _ _ _ => false
  | processorID _ => false
  | _ => true

def Returns : CallOp → Prop
  | syscall flags _ _ => flags.noReturn = false
  | inlineSyscall _ flags _ _ _ => flags.noReturn = false
  | _ => True

/-- What the callee finds in `t`, for the values that the operands had in `s`. -/
def Received (s t : State) : CallOp → Prop
  | syscall _ args _ => t.x 0 = framePointer s offsetSyscallHandlerObj ∧ t.x 1 = s.x STATE ∧
      ∀ i r, args i = some r → read t.mem (t.x 2 + BitVec.ofNat 64 (8 * i)) 64 = s.x r
  | inlineSyscall is64BitMode _ args hostSyscallNumber _ => t.x 8 = hostSyscallNumber ∧
      ∀ p ∈ regArgs.zip args.1, t.x p.1 = inlineArg is64BitMode s p.2
  | thunk argPtr thunkFn => t.x 2 = thunkFn ∧ t.x 0 = s.x argPtr
  | cpuid function leaf _ => t.x 0 = framePointer s offsetCPUIDObj ∧ t.x 1 = s.x function ∧ t.x 2 = s.x leaf
  | processorID _ => t.x 8 = SYS_getcpu ∧ t.x 0 = t.sp ∧ t.x 1 = t.sp + 4#64
  | threadRemoveCodeEntry entry => t.x 0 = s.x STATE ∧ t.x 1 = entry
  | unhandled abi handlerIndex => t.x abi.pointer = framePointer s (offsetFallbackHandler handlerIndex) ∧ abi.Received s t

/-- The callee keeps to its calling convention. -/
def CalleeObeys (cfg : Config) (env : Env) (s : State) (op : CallOp) : Prop :=
  let t := (op.code cfg).atCall env s
  let u := (op.code cfg).returned env s
  match op with
  | syscall _ _ _ => AAPCS64 syscallArgsSize t u
  | inlineSyscall _ _ _ _ _ => KernelABI t u
  | processorID _ => KernelABI t u
  | _ => AAPCS64 0 t u

end CallOp

/-- The op calls its callee with its operands, and changes nothing that it does not have to. -/
structure Preserves (cfg : Config) (op : CallOp) (env : Env) (s : State) : Prop where
  ra64 : ∀ r ∈ RA64, r ∉ op.dstGPRs → ((op.code cfg).final env s).x r = s.x r
  rafpr : ∀ r ∈ RAFPR, r ∉ op.dstFPRs → ((op.code cfg).final env s).v r = s.v r
  sra64 : ∀ i (hi : i < SRA64.length), SRA64[i] ∉ op.dstGPRs → ((op.code cfg).final env s).x SRA64[i] =
    if op.syncsGPRs then read ((op.code cfg).returned env s).mem (s.x STATE + offsetGreg i) 64 else s.x SRA64[i]
  srafpr : ∀ i (hi : i < SRAFPR.length), SRAFPR[i] ∉ op.dstFPRs → ((op.code cfg).final env s).v SRAFPR[i] =
    if op.syncsFPRs then read ((op.code cfg).returned env s).mem (s.x STATE + offsetXmm cfg i) 128 else s.v SRAFPR[i]
  sp : ((op.code cfg).final env s).sp = s.sp
  lr : ((op.code cfg).final env s).x lr = s.x lr
  received : op.Received s ((op.code cfg).atCall env s)

/-- The callee of a syscall leaves the guest registers that were spilled as they are, and `x18`, which was not. -/
structure KeepsState (cfg : Config) (dst : GPR) (s t u : State) : Prop where
  x18 : (18 : XReg) ≠ dst → u.x 18 = t.x 18
  gprs : ∀ i (hi : i < SRA64.length), callerGPRMask.getLsbD SRA64[i] → SRA64[i] ≠ dst →
    read u.mem (s.x STATE + offsetGreg i) 64 = read t.mem (s.x STATE + offsetGreg i) 64
  fprs : ∀ i < SRAFPR.length,
    read u.mem (s.x STATE + offsetXmm cfg i) 128 = read t.mem (s.x STATE + offsetXmm cfg i) 128

/-- The calls that lose nothing: ProcessorID never, a syscall without sync only when its callee keeps the state. -/
def CallOp.Meets (cfg : Config) (env : Env) (s : State) (op : CallOp) : Prop :=
  match op with
  | processorID _ => False
  | syscall flags _ dst => flags.noSync = true →
      KeepsState cfg dst s ((op.code cfg).atCall env s) ((op.code cfg).returned env s)
  | _ => True

/-! ## Areas -/

section Areas
variable {s : State} (h : StackApart s)
include h

theorem StackApart.parts {o d : BitVec 64} {n k : Nat} (ho : o.toNat + n ≤ frameSize) (hd : k ≤ d.toNat) (hd' : d.toNat ≤ 336)
    (hn : 0 < n) (hk : 0 < k) : Apart (s.x STATE + o) n (s.sp - d) k := by
  refine Apart.inside h ?_ ?_ hn hk
  · rw [add_sub_cancel_left]
    exact ho
  · have : s.sp - d - (s.sp - 336#64) = 336#64 - d := by ring
    bv_omega

theorem StackApart.guestRegs : Apart (s.x STATE) guestRegsSize (s.sp - dynamicRegsSize) dynamicRegsSize.toNat := by
  have := h.parts (o := 0#64) (d := dynamicRegsSize) (n := guestRegsSize) (k := dynamicRegsSize.toNat) (by decide) (by decide)
    (by decide) (by decide) (by decide)
  rwa [BitVec.add_zero] at this

end Areas

/-- The pointers of the frame lie behind the registers of the guest. -/
def pointersSize : Nat := frameSize - guestRegsSize

/-- The pointers behind the guest's registers are unchanged. -/
def SamePointers (s : State) (m : Memory) : Prop :=
  Agree m s.mem (s.x STATE + BitVec.ofNat 64 guestRegsSize) pointersSize

theorem SamePointers.read {s : State} {m : Memory} (h : SamePointers s m) {offset : BitVec 64}
    (ho : guestRegsSize ≤ offset.toNat) (ho' : offset.toNat + 8 ≤ frameSize) :
    read m (s.x STATE + offset) 64 = framePointer s offset := by
  refine read_of_agree (h.mono ?_ (by decide)) (by decide)
  rw [add_sub_add_left_eq_sub]
  simp only [guestRegsSize, pointersSize, frameSize] at ho ho' ⊢
  bv_omega

theorem pointers_apart {frame : BitVec 64} :
    Apart frame guestRegsSize (frame + BitVec.ofNat 64 guestRegsSize) pointersSize := by
  have := (@apart_offset frame guestRegsSize pointersSize 0#64 (BitVec.ofNat 64 guestRegsSize)).mpr
    ⟨by decide, by decide⟩
  rwa [BitVec.add_zero] at this

/-! ## The way in -/

/-- Dynamic registers are pushed, and `x19` to `x29` are as before. -/
structure Ready (s t : State) (depth : Nat) : Prop where
  sp : t.sp = s.sp - dynamicRegsSize - BitVec.ofNat 64 depth
  gprs : ∀ r : XReg, 19 ≤ r → r ≤ 29 → t.x r = s.x r
  pushed : Pushed s t.mem

theorem Ready.returned {s t u : State} {depth : Nat} (h : Ready s t depth) (hc : AAPCS64 depth t u) :
    Ready s u depth := by
  refine ⟨hc.sp.trans h.sp, fun r h1 h2 => (hc.gprs r h1 h2).trans (h.gprs r h1 h2), h.pushed.congr ?_⟩
  have hbase : t.sp + BitVec.ofNat 64 depth = s.sp - dynamicRegsSize := by
    rw [h.sp]
    ring
  have := hc.stack
  rwa [hbase] at this

theorem spill_pushed {s t : State} (hsra : cfg.staticRegisterAllocation = true) (happ : StackApart s)
    (hframe : t.x STATE = s.x STATE) (hpushed : Pushed s t.mem) (mask : BitVec 32) :
    ∃ pc m, run env (spillStaticRegs cfg true mask allRegs) t = { t with mem := m, pc := pc } ∧ Pushed s m ∧
      Spilled cfg true mask t m ∧ (SamePointers s t.mem → SamePointers s m) := by
  obtain ⟨pc, m, hrun, hspilled, hkeeps⟩ := @spillStaticRegs_saves env cfg hsra true mask t
  rw [hframe] at hkeeps
  refine ⟨pc, m, hrun, hpushed.congr (hkeeps _ _ happ.guestRegs (by decide)), hspilled, fun hptr => ?_⟩
  exact (hkeeps _ _ pointers_apart (by decide)).trans hptr

theorem push_pushed {s t : State} (happ : StackApart s) (ht : ∃ m pc, t = { s with mem := m, pc := pc })
    (hptr : SamePointers s t.mem) :
    ∃ pc m, run env pushDynamicRegsAndLR t = { s with sp := s.sp - dynamicRegsSize, mem := m, pc := pc } ∧ Pushed s m ∧
      SamePointers s m := by
  obtain ⟨m₀, pc₀, rfl⟩ := ht
  obtain ⟨pc, m, hrun, hpushed, hkeeps⟩ := @pushDynamicRegsAndLR_spec env { s with mem := m₀, pc := pc₀ }
  refine ⟨pc, m, hrun, ⟨hpushed.rafpr, hpushed.lr⟩, Agree.trans (hkeeps _ _ ?_ (by decide)) hptr⟩
  exact (happ.parts (by decide) (by decide) (by decide) (by decide) (by decide)).symm

theorem samePointers_refl (s : State) : SamePointers s s.mem := fun _ _ => rfl

theorem spill_push_spec {s : State} (hsra : cfg.staticRegisterAllocation = true) (happ : StackApart s) :
    ∃ pc m, run env (spillStaticRegs cfg true allRegs allRegs ++ pushDynamicRegsAndLR) s =
      { s with sp := s.sp - dynamicRegsSize, mem := m, pc := pc } ∧ Pushed s m ∧ SamePointers s m := by
  obtain ⟨pc, m, hrun, -, hkeeps⟩ := @spillStaticRegs_saves env cfg hsra true allRegs s
  rw [run_append, hrun]
  exact push_pushed happ ⟨m, pc, rfl⟩ (hkeeps _ _ pointers_apart (by decide))

/-! ## The way out -/

/-- Only the registers of the result change. -/
structure Changes (dx : List XReg) (dv : List VReg) (t t' : State) : Prop where
  sp : t'.sp = t.sp
  x : ∀ r, r ∉ dx → t'.x r = t.x r
  v : ∀ r, r ∉ dv → t'.v r = t.v r

theorem gpr_ne_lr : ∀ r ∈ RA64 ++ SRA64, r ≠ lr := by decide

theorem preserves_iff {op : CallOp} {s u t : State} {mask : BitVec 32} {depth : Nat}
    (hu : (op.code cfg).returned env s = u) (hready : Ready s u depth) (hrefilled : Refilled cfg mask s u t)
    (hresult : Changes op.dstGPRs op.dstFPRs t ((op.code cfg).final env s)) (hlr : lr ∉ op.dstGPRs)
    (hreceived : op.Received s ((op.code cfg).atCall env s)) :
    Preserves cfg op env s ↔
      (∀ i (hi : i < SRA64.length), SRA64[i] ∉ op.dstGPRs →
        (if mask.getLsbD SRA64[i] then read u.mem (s.x STATE + offsetGreg i) 64 else u.x SRA64[i]) =
          if op.syncsGPRs then read u.mem (s.x STATE + offsetGreg i) 64 else s.x SRA64[i]) ∧
      ∀ i (hi : i < SRAFPR.length), SRAFPR[i] ∉ op.dstFPRs → read u.mem (s.x STATE + offsetXmm cfg i) 128 =
        if op.syncsFPRs then read u.mem (s.x STATE + offsetXmm cfg i) 128 else s.v SRAFPR[i] := by
  have hframe : u.x STATE = s.x STATE := hready.gprs STATE (by decide) (by decide)
  have hgprs : ∀ i (hi : i < SRA64.length), SRA64[i] ∉ op.dstGPRs → ((op.code cfg).final env s).x SRA64[i] =
      if mask.getLsbD SRA64[i] then read u.mem (s.x STATE + offsetGreg i) 64 else u.x SRA64[i] := by
    intro i hi hnot
    rw [hresult.x _ hnot, hrefilled.sra64 i hi, hframe]
  have hfprs : ∀ i (hi : i < SRAFPR.length), SRAFPR[i] ∉ op.dstFPRs →
      ((op.code cfg).final env s).v SRAFPR[i] = read u.mem (s.x STATE + offsetXmm cfg i) 128 := by
    intro i hi hnot
    rw [hresult.v _ hnot, hrefilled.srafpr i hi, hframe]
  constructor
  · intro h
    refine ⟨fun i hi hnot => ?_, fun i hi hnot => ?_⟩
    · refine (hgprs i hi hnot).symm.trans ?_
      rw [h.sra64 i hi hnot, hu]
    · refine (hfprs i hi hnot).symm.trans ?_
      rw [h.srafpr i hi hnot, hu]
  · rintro ⟨h1, h2⟩
    refine ⟨fun r hr hnot => ?_, fun r hr hnot => ?_, fun i hi hnot => ?_, fun i hi hnot => ?_, ?_, ?_, hreceived⟩
    · have hra : ∀ r ∈ RA64, r ∉ SRA64 ∧ r ≠ lr ∧ 19 ≤ r ∧ r ≤ 29 := by decide
      obtain ⟨hsra, hne, h19, h29⟩ := hra r hr
      rw [hresult.x r hnot, hrefilled.others r hsra hne, hready.gprs r h19 h29]
    · rw [hresult.v r hnot, hrefilled.rafpr r hr]
    · rw [hgprs i hi hnot, h1 i hi hnot, hu]
    · rw [hfprs i hi hnot, h2 i hi hnot, hu]
    · rw [hresult.sp, hrefilled.sp]
    · rw [hresult.x _ hlr, hrefilled.lr]

theorem preserves_of_sync {op : CallOp} {s u t : State} {depth : Nat} (hu : (op.code cfg).returned env s = u)
    (hready : Ready s u depth) (hrefilled : Refilled cfg allRegs s u t)
    (hresult : Changes op.dstGPRs op.dstFPRs t ((op.code cfg).final env s)) (hlr : lr ∉ op.dstGPRs)
    (hreceived : op.Received s ((op.code cfg).atCall env s)) (hx : op.syncsGPRs = true) (hv : op.syncsFPRs = true) :
    Preserves cfg op env s := by
  have hall : ∀ r : XReg, allRegs.getLsbD r = true := by decide
  rw [preserves_iff hu hready hrefilled hresult hlr hreceived]
  refine ⟨fun i hi _ => ?_, fun i hi _ => ?_⟩
  · rw [if_pos (hall _), if_pos hx]
  · rw [if_pos hv]

end FexEmu.Arm64
