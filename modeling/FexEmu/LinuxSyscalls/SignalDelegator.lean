import FexEmu.Data.ByteMemory
import Mathlib.Tactic
/-!
# Signal actions

The actions that the guest sets and the ones that the host has for them. The kernel takes every action.
-/
namespace FexEmu.LinuxSyscalls.Signals

open ByteMemory

/-! ## Actions -/

/-- `handler` is `SIG_DFL`, `SIG_IGN` or the address of a function. -/
structure GuestSigAction where
  handler : BitVec 64
  saFlags : BitVec 64
  restorer : BitVec 64
  saMask : BitVec 64
deriving DecidableEq, Repr

def SIG_DFL : BitVec 64 := 0
def SIG_IGN : BitVec 64 := 1

namespace GuestSigAction

def load (m : Memory) (p : BitVec 64) : GuestSigAction :=
  ⟨read m p 64, read m (p + 8) 64, read m (p + 16) 64, read m (p + 24) 64⟩

def store (action : GuestSigAction) (m : Memory) (p : BitVec 64) : Memory :=
  write (write (write (write m p action.handler) (p + 8) action.saFlags) (p + 16) action.restorer) (p + 24) action.saMask

end GuestSigAction

/-- What the host has: `SignalHandlerThunk` where it is not ignored or left at its default. -/
inductive HostHandler
  | SIG_DFL
  | SIG_IGN
  | SignalHandlerThunk
deriving DecidableEq, Repr

/-- `kernel_sigaction`. -/
structure KernelSigAction where
  handler : HostHandler
  saFlags : BitVec 64
  saMask : BitVec 64
deriving DecidableEq, Repr

def SA_NOCLDSTOP : BitVec 64 := 0x1
def SA_NOCLDWAIT : BitVec 64 := 0x2
def SA_SIGINFO : BitVec 64 := 0x4
def SA_RESTORER : BitVec 64 := 0x04000000
def SA_ONSTACK : BitVec 64 := 0x08000000
def SA_RESTART : BitVec 64 := 0x10000000
def SA_NODEFER : BitVec 64 := 0x40000000

def guestFlags : BitVec 64 := SA_NOCLDSTOP ||| SA_NOCLDWAIT ||| SA_NODEFER ||| SA_RESTART

def MAX_SIGNALS : Nat := 64
def SIGKILL : Fin 65 := 9
def SIGSTOP : Fin 65 := 19
def EINVAL : Int := 22

/-- The fields of `SignalHandler` that mirroring uses. -/
structure SignalHandler where
  installed : Bool
  required : Bool
  hostAction : KernelSigAction
  guestAction : GuestSigAction

/-- `HostHandlers` by signal. There is no signal 0. -/
structure SignalDelegator where
  hostHandlers : Fin 65 → SignalHandler

namespace SignalDelegator

def initial : SignalDelegator where
  hostHandlers signal :=
    ⟨signal = 0 ∨ signal = SIGKILL ∨ signal = SIGSTOP, false, ⟨.SIG_DFL, 0, 0⟩, ⟨SIG_DFL, 0, 0, 0⟩⟩

def modify (d : SignalDelegator) (signal : Fin 65) (f : SignalHandler → SignalHandler) : SignalDelegator where
  hostHandlers := Function.update d.hostHandlers signal (f (d.hostHandlers signal))

/-! ## Thunks -/

def checkAndAddFlags (hostFlags guestFlags flags : BitVec 64) : BitVec 64 :=
  if (hostFlags ^^^ guestFlags) &&& flags ≠ 0 then (hostFlags &&& ~~~flags) ||| (guestFlags &&& flags) else hostFlags

/-- The loop over the signals. Bit `i` is signal `i + 1`. -/
def updateMask (required : Fin 65 → Bool) (guestMask hostMask : BitVec 64) : BitVec 64 :=
  (List.finRange 64).foldl (fun mask (i : Fin 64) =>
    if required i.succ then mask &&& ~~~(1#64 <<< i.val)
    else if guestMask.getLsbD i then mask ||| 1#64 <<< i.val
    else mask) hostMask

/-- The action that `UpdateHostThunk` gives to the kernel. -/
def updatedAction (isX86Host : Bool) (d : SignalDelegator) (signal : Fin 65) : KernelSigAction :=
  let handler := d.hostHandlers signal
  let flags := checkAndAddFlags handler.hostAction.saFlags handler.guestAction.saFlags guestFlags
  { handler :=
      if handler.guestAction.handler = SIG_DFL ∧ handler.required = false then .SIG_DFL
      else if handler.guestAction.handler = SIG_IGN ∧ handler.required = false then .SIG_IGN
      else .SignalHandlerThunk
    saFlags := if isX86Host then flags ||| SA_RESTORER else flags
    saMask := updateMask (fun i => (d.hostHandlers i).required) handler.guestAction.saMask handler.hostAction.saMask }

def updateHostThunk (isX86Host : Bool) (d : SignalDelegator) (signal : Fin 65) : SignalDelegator :=
  d.modify signal fun handler => { handler with hostAction := d.updatedAction isX86Host signal }

def installHostThunk (isX86Host : Bool) (d : SignalDelegator) (signal : Fin 65) : Bool × SignalDelegator :=
  if (d.hostHandlers signal).installed then (false, d)
  else
    let d := d.modify signal fun handler =>
      { handler with hostAction := { handler.hostAction with saFlags := SA_SIGINFO ||| SA_ONSTACK } }
    let d := d.updateHostThunk isX86Host signal
    (true, d.modify signal fun handler => { handler with installed := true })

/-! ## Registrations -/

/-- `FrontendRegisterHostSignalHandler` and `FrontendRegisterFrontendHostSignalHandler`. -/
def registerHostSignalHandler (isX86Host : Bool) (d : SignalDelegator) (signal : Fin 65) (required : Bool) :
    SignalDelegator :=
  ((d.modify signal fun handler => { handler with required := required }).installHostThunk isX86Host signal).2

/-- What a call of the guest gives back: its result, and the old action that it stored. -/
structure Response where
  result : Int
  oldAction : Option GuestSigAction
deriving DecidableEq, Repr

/-- The check of RegisterGuestSignalHandler, which lets 0 and 64 through. -/
def outOfRange (signal : Int) : Prop := signal < 0 ∨ (MAX_SIGNALS : Int) < signal

instance (signal : Int) : Decidable (outOfRange signal) := inferInstanceAs (Decidable (_ ∨ _))

def setGuestAction (isX86Host : Bool) (d : SignalDelegator) (signal : Fin 65) (action : GuestSigAction) : SignalDelegator :=
  let d := d.modify signal fun handler => { handler with guestAction := action }
  let (installed, d) := d.installHostThunk isX86Host signal
  if installed then d else d.updateHostThunk isX86Host signal

/-- The memory behind `*OldAction = GuestAction`. -/
def oldStored (d : SignalDelegator) (signal : Fin 65) (m : Memory) (oldAction : BitVec 64) : Memory :=
  if oldAction = 0 then m else (d.hostHandlers signal).guestAction.store m oldAction

/-- The pointers may be null. The old action is stored before the new one is loaded. -/
def registerGuestSignalHandler (isX86Host : Bool) (d : SignalDelegator) (signal : Int) (m : Memory)
    (action oldAction : BitVec 64) : Response × SignalDelegator :=
  if outOfRange signal then (⟨-EINVAL, none⟩, d)
  else
    let signal : Fin 65 := Fin.ofNat 65 signal.toNat
    let old := if oldAction = 0 then none else some (d.hostHandlers signal).guestAction
    let m := d.oldStored signal m oldAction
    if action = 0 then (⟨0, old⟩, d)
    else if signal = SIGKILL ∨ signal = SIGSTOP then (⟨-EINVAL, old⟩, d)
    else (⟨0, old⟩, d.setGuestAction isX86Host signal (.load m action))

end SignalDelegator

/-- A call of the guest comes with the memory that its pointers go into. A registration of the host is for a real signal. -/
inductive Call
  | guest (signal : Int) (m : Memory) (action oldAction : BitVec 64)
  | host (signal : Fin 64) (required : Bool)

def Call.run (isX86Host : Bool) (d : SignalDelegator) : Call → SignalDelegator
  | guest signal m action oldAction => (d.registerGuestSignalHandler isX86Host signal m action oldAction).2
  | host signal required => d.registerHostSignalHandler isX86Host signal.succ required

/-! ## The statement -/

/-- The host's action for an installed signal is the guest's, as far as the required signals allow. -/
structure Mirrors (d : SignalDelegator) (signal : Fin 64) : Prop where
  mask : ∀ i : Fin 64, (d.hostHandlers signal.succ).hostAction.saMask.getLsbD i =
    ((d.hostHandlers signal.succ).guestAction.saMask.getLsbD i && !(d.hostHandlers i.succ).required)
  flags : (d.hostHandlers signal.succ).hostAction.saFlags &&& guestFlags =
    (d.hostHandlers signal.succ).guestAction.saFlags &&& guestFlags
  ignored : (d.hostHandlers signal.succ).hostAction.handler = .SIG_IGN ↔
    (d.hostHandlers signal.succ).guestAction.handler = SIG_IGN ∧ (d.hostHandlers signal.succ).required = false
  default : (d.hostHandlers signal.succ).hostAction.handler = .SIG_DFL ↔
    (d.hostHandlers signal.succ).guestAction.handler = SIG_DFL ∧ (d.hostHandlers signal.succ).required = false

/-- Every installed host handler mirrors the guest's. -/
def MirrorsAll (d : SignalDelegator) : Prop :=
  ∀ signal : Fin 64, (d.hostHandlers signal.succ).installed = true → Mirrors d signal

/-- The calls that POSIX refuses. -/
def IsError (signal : Int) (action : BitVec 64) : Prop :=
  signal < 1 ∨ 64 < signal ∨ (action ≠ 0 ∧ (signal = 9 ∨ signal = 19))

/-- What a call of the guest gives back and sets. -/
structure Answered (isX86Host : Bool) (d : SignalDelegator) (signal : Int) (m : Memory) (action oldAction : BitVec 64) :
    Prop where
  result : (d.registerGuestSignalHandler isX86Host signal m action oldAction).1.result = 0 ∨
    (d.registerGuestSignalHandler isX86Host signal m action oldAction).1.result = -EINVAL
  errors : (d.registerGuestSignalHandler isX86Host signal m action oldAction).1.result = -EINVAL ↔ IsError signal action
  nothing : (d.registerGuestSignalHandler isX86Host signal m action oldAction).1.result = -EINVAL →
    d.registerGuestSignalHandler isX86Host signal m action oldAction = (⟨-EINVAL, none⟩, d)
  old : (d.registerGuestSignalHandler isX86Host signal m action oldAction).1.result = 0 → ∀ i : Fin 65, signal = i →
    (d.registerGuestSignalHandler isX86Host signal m action oldAction).1.oldAction =
      if oldAction = 0 then none else some (d.hostHandlers i).guestAction
  -- the action is the one that the guest passes, also when it asks for the old one at the same place
  set : (d.registerGuestSignalHandler isX86Host signal m action oldAction).1.result = 0 → action ≠ 0 →
    ∀ i : Fin 65, signal = i →
      ((d.registerGuestSignalHandler isX86Host signal m action oldAction).2.hostHandlers i).guestAction = .load m action

def Call.Answered (isX86Host : Bool) (d : SignalDelegator) : Call → Prop
  | guest signal m action oldAction => Signals.Answered isX86Host d signal m action oldAction
  | host _ _ => True

/-- The host mirrors the guest before and after every call, and every call is answered. -/
def Right (isX86Host : Bool) (d : SignalDelegator) : List Call → Prop
  | [] => MirrorsAll d
  | call :: rest => MirrorsAll d ∧ call.Answered isX86Host d ∧ Right isX86Host (call.run isX86Host d) rest

/-- The old action is not stored over a new one that is another. -/
def KeepsAction (d : SignalDelegator) (signal : Fin 65) (m : Memory) (action oldAction : BitVec 64) : Prop :=
  GuestSigAction.load (d.oldStored signal m oldAction) action = .load m action

/-- The guest takes no signal out of an action's mask, but for required ones, does not have the old action stored over the new
one, does not ask for it with an attempt to set `SIGKILL` or `SIGSTOP`, and does not use signal 0. The host does not change
whether a signal is required that an installed action masks, or that is ignored or default. -/
def Call.Meets (d : SignalDelegator) : Call → Prop
  | guest signal m action oldAction => signal ≠ 0 ∧ (action ≠ 0 →
      (signal = 9 ∨ signal = 19 → oldAction = 0) ∧
      ∀ i : Fin 64, signal = (i.val : Int) + 1 → signal ≠ 9 → signal ≠ 19 → KeepsAction d i.succ m action oldAction ∧
        ((d.hostHandlers i.succ).installed = true →
          ∀ j : Fin 64, (d.hostHandlers i.succ).guestAction.saMask.getLsbD j = true → (d.hostHandlers j.succ).required = false →
            (GuestSigAction.load m action).saMask.getLsbD j = true))
  | host signal required => required = (d.hostHandlers signal.succ).required ∨
      ((∀ i : Fin 64, (d.hostHandlers i.succ).installed = true →
        (d.hostHandlers i.succ).guestAction.saMask.getLsbD signal = false) ∧
      ((d.hostHandlers signal.succ).installed = true →
        (d.hostHandlers signal.succ).guestAction.handler ≠ SIG_DFL ∧
        (d.hostHandlers signal.succ).guestAction.handler ≠ SIG_IGN))

def AllMeet (isX86Host : Bool) (d : SignalDelegator) : List Call → Prop
  | [] => True
  | call :: rest => call.Meets d ∧ AllMeet isX86Host (call.run isX86Host d) rest

end FexEmu.LinuxSyscalls.Signals
