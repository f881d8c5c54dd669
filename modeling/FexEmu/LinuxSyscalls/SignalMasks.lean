import FexEmu.LinuxSyscalls.SignalDelegatorProofs
import FexEmu.Data.ByteMemory
/-!
# Signal masks

`GuestSigProcMask` and `GuestSigSuspend` of one thread. Handlers run while a suspend waits, and make calls of their own.
-/
namespace FexEmu.LinuxSyscalls.Signals
open ByteMemory

/-- `IgnoredSignalsMask`: all signals but `SIGKILL` and `SIGSTOP`. -/
def ignoredSignalsMask : BitVec 64 := ~~~(1#64 <<< 8 ||| 1#64 <<< 18)

def withoutRequired (required : Fin 65 → Bool) (mask : BitVec 64) : BitVec 64 :=
  (List.finRange 64).foldl (fun mask (i : Fin 64) => if required i.succ then mask &&& ~~~(1#64 <<< i.val) else mask) mask

/-- The kernel takes `SIGKILL` and `SIGSTOP` out of any mask. -/
def blocked (mask : BitVec 64) : BitVec 64 := mask &&& ignoredSignalsMask

/-- `NewMask` of `HandleGuestSignal`, with which the handler runs on the host. -/
def handlerMask (required : Fin 65 → Bool) (signal : Fin 64) (action : GuestSigAction) : BitVec 64 :=
  withoutRequired required
    (if action.saFlags &&& SA_NODEFER = 0 then action.saMask ||| 1#64 <<< signal.val else action.saMask)

def SIG_BLOCK : Int := 0
def SIG_UNBLOCK : Int := 1
def SIG_SETMASK : Int := 2

def changedMask (how : Int) (set mask : BitVec 64) : Option (BitVec 64) :=
  if how = SIG_BLOCK then some (mask ||| (set &&& ignoredSignalsMask))
  else if how = SIG_UNBLOCK then some (mask &&& ~~~(set &&& ignoredSignalsMask))
  else if how = SIG_SETMASK then some (set &&& ignoredSignalsMask)
  else none

/-! ## Calls -/

/-- The masks of `ThreadData`, the kernel's mask of the thread, and the memory behind the guest's pointers. -/
structure ThreadState where
  currentSignalMask : BitVec 64
  previousSuspendMask : BitVec 64
  hostMask : BitVec 64
  memory : Memory

/-- `RegisterTLSState` reads the mask of the new thread from the host. -/
def ThreadState.registered (mask : BitVec 64) (memory : Memory) : ThreadState := ⟨blocked mask, 0, blocked mask, memory⟩

def storeOldSet (oldset oldSet : BitVec 64) (memory : Memory) : Memory :=
  if oldset = 0 then memory else write memory oldset oldSet

def guestSigProcMask (required : Fin 65 → Bool) (how : Int) (set oldset : BitVec 64) (t : ThreadState) :
    Int × ThreadState :=
  let oldSet := t.currentSignalMask
  if set = 0 then (0, { t with memory := storeOldSet oldset oldSet t.memory })
  else match changedMask how (read t.memory set 64) t.currentSignalMask with
    | none => (-EINVAL, t)
    | some mask =>
      (0, { t with
        currentSignalMask := mask
        hostMask := blocked (withoutRequired required mask)
        memory := storeOldSet oldset oldSet t.memory })

/-- `GuestSigSuspend` up to the wait of the host, which has the whole set of the guest. -/
def beginSuspend (set : BitVec 64) (t : ThreadState) : ThreadState :=
  { t with
    previousSuspendMask := t.currentSignalMask
    currentSignalMask := read t.memory set 64 &&& ignoredSignalsMask
    hostMask := blocked (read t.memory set 64) }

def endSuspend (hostMask : BitVec 64) (t : ThreadState) : ThreadState :=
  { t with currentSignalMask := t.previousSuspendMask, hostMask := hostMask }

mutual

/-- What the guest does: it writes to its memory and it makes calls. -/
inductive Calls
  | done
  | write (address value : BitVec 64) (rest : Calls)
  | sigProcMask (how : Int) (set oldset : BitVec 64) (rest : Calls)
  | sigSuspend (set : BitVec 64) (sigsetsize : Nat) (handlers : Handlers) (rest : Calls)

/-- The handlers that run while a suspend waits, one after the other. -/
inductive Handlers
  | done
  | handle (signal : Fin 64) (action : GuestSigAction) (body : Calls) (rest : Handlers)

end

mutual

def Calls.run (required : Fin 65 → Bool) : Calls → ThreadState → ThreadState
  | .done, t => t
  | .write address value rest, t => rest.run required { t with memory := ByteMemory.write t.memory address value }
  | .sigProcMask how set oldset rest, t => rest.run required (guestSigProcMask required how set oldset t).2
  | .sigSuspend set sigsetsize handlers rest, t =>
    if 8 < sigsetsize then rest.run required t
    else rest.run required (endSuspend t.hostMask (handlers.run required (beginSuspend set t)))

/-- The context that the host saved for a handler has the mask from before it. -/
def Handlers.run (required : Fin 65 → Bool) : Handlers → ThreadState → ThreadState
  | .done, t => t
  | .handle signal action body rest, t =>
    rest.run required
      { body.run required { t with hostMask := blocked (handlerMask required signal action) } with hostMask := t.hostMask }

end

/-! ## What the operations of POSIX define -/

/-- The mask of a thread, and its memory. -/
structure Posix where
  mask : BitVec 64
  memory : Memory

/-- `SIGKILL` and `SIGSTOP` cannot be blocked. -/
def posixChange (how : Int) (set mask : BitVec 64) : BitVec 64 :=
  (if how = SIG_BLOCK then mask ||| set else if how = SIG_UNBLOCK then mask &&& ~~~set else set) &&& ignoredSignalsMask

def refused (how : Int) (set : BitVec 64) : Bool := set ≠ 0 && how ≠ SIG_BLOCK && how ≠ SIG_UNBLOCK && how ≠ SIG_SETMASK

def Posix.sigProcMask (how : Int) (set oldset : BitVec 64) (p : Posix) : Posix :=
  if refused how set then p
  else
    { mask := if set = 0 then p.mask else posixChange how (read p.memory set 64) p.mask
      memory := storeOldSet oldset p.mask p.memory }

def Posix.wait (set : BitVec 64) (p : Posix) : Posix :=
  { p with mask := read p.memory set 64 &&& ignoredSignalsMask }

/-- A handler runs with the action's mask and, without `SA_NODEFER`, its own signal blocked as well. -/
def Posix.enter (signal : Fin 64) (action : GuestSigAction) (p : Posix) : Posix :=
  { p with
    mask := (p.mask ||| action.saMask ||| if action.saFlags &&& SA_NODEFER = 0 then 1#64 <<< signal.val else 0)
      &&& ignoredSignalsMask }

mutual

def Calls.posix : Calls → Posix → Posix
  | .done, p => p
  | .write address value rest, p => rest.posix { p with memory := ByteMemory.write p.memory address value }
  | .sigProcMask how set oldset rest, p => rest.posix (p.sigProcMask how set oldset)
  | .sigSuspend set sigsetsize handlers rest, p =>
    if 8 < sigsetsize then rest.posix p
    else rest.posix { handlers.posix (p.wait set) with mask := p.mask }

/-- The mask from before a handler is back after it. -/
def Handlers.posix : Handlers → Posix → Posix
  | .done, p => p
  | .handle signal action body rest, p => rest.posix { body.posix (p.enter signal action) with mask := p.mask }

end

/-! ## The statement -/

/-- The masks of a thread after a call that POSIX defines a mask for. -/
structure Follows (required : Fin 65 → Bool) (t : ThreadState) (p : Posix) : Prop where
  mask : t.currentSignalMask = p.mask
  unblockable : t.currentSignalMask.getLsbD 8 = false ∧ t.currentSignalMask.getLsbD 18 = false
  host : t.hostMask = withoutRequired required t.currentSignalMask

/-- What `GuestSigProcMask` gives back, called with the mask of `p`. -/
structure Answers (set oldset : BitVec 64) (how : Int) (t : ThreadState) (p : Posix) (r : Int × ThreadState) : Prop where
  result : r.1 = if refused how set then -EINVAL else 0
  unchanged : r.1 = -EINVAL → r.2 = t
  oldSet : r.1 = 0 → oldset ≠ 0 → read r.2.memory oldset 64 = p.mask

mutual

def Calls.Right (required : Fin 65 → Bool) : Calls → ThreadState → Posix → Prop
  | .done, _, _ => True
  | .write address value rest, t, p =>
    rest.Right required { t with memory := ByteMemory.write t.memory address value }
      { p with memory := ByteMemory.write p.memory address value }
  | .sigProcMask how set oldset rest, t, p =>
    Answers set oldset how t p (guestSigProcMask required how set oldset t) ∧
      Follows required (guestSigProcMask required how set oldset t).2 (p.sigProcMask how set oldset) ∧
      rest.Right required (guestSigProcMask required how set oldset t).2 (p.sigProcMask how set oldset)
  | .sigSuspend set sigsetsize handlers rest, t, p =>
    if 8 < sigsetsize then Follows required t p ∧ rest.Right required t p
    else
      handlers.Right required (beginSuspend set t) (p.wait set) ∧
        Follows required (endSuspend t.hostMask (handlers.run required (beginSuspend set t)))
          { handlers.posix (p.wait set) with mask := p.mask } ∧
        rest.Right required (endSuspend t.hostMask (handlers.run required (beginSuspend set t)))
          { handlers.posix (p.wait set) with mask := p.mask }

def Handlers.Right (required : Fin 65 → Bool) : Handlers → ThreadState → Posix → Prop
  | .done, _, _ => True
  | .handle signal action body rest, t, p =>
    body.Right required { t with hostMask := blocked (handlerMask required signal action) } (p.enter signal action) ∧
      rest.Right required
        { body.run required { t with hostMask := blocked (handlerMask required signal action) } with hostMask := t.hostMask }
        { body.posix (p.enter signal action) with mask := p.mask }

end

/-! ## The condition -/

/-- The mask of FEX behind calls that are right: the one that the last of them left, or the one from before. -/
def Calls.left : Calls → Posix → BitVec 64 → BitVec 64
  | .done, _, current => current
  | .write address value rest, p, current =>
    rest.left { p with memory := ByteMemory.write p.memory address value } current
  | .sigProcMask how set oldset rest, p, _ =>
    rest.left (p.sigProcMask how set oldset) (p.sigProcMask how set oldset).mask
  | .sigSuspend set sigsetsize handlers rest, p, _ =>
    if 8 < sigsetsize then rest.left p p.mask else rest.left { handlers.posix (p.wait set) with mask := p.mask } p.mask

mutual

/-- The mask of FEX at the start of the last suspend. -/
def Calls.lastSuspended : Calls → Posix → BitVec 64 → Option (BitVec 64)
  | .done, _, _ => none
  | .write address value rest, p, current =>
    rest.lastSuspended { p with memory := ByteMemory.write p.memory address value } current
  | .sigProcMask how set oldset rest, p, _ =>
    rest.lastSuspended (p.sigProcMask how set oldset) (p.sigProcMask how set oldset).mask
  | .sigSuspend set sigsetsize handlers rest, p, current =>
    if 8 < sigsetsize then rest.lastSuspended p p.mask
    else
      (rest.lastSuspended { handlers.posix (p.wait set) with mask := p.mask } p.mask).or
        ((handlers.lastSuspended (p.wait set) (p.wait set).mask).or (some current))

def Handlers.lastSuspended : Handlers → Posix → BitVec 64 → Option (BitVec 64)
  | .done, _, _ => none
  | .handle signal action body rest, p, current =>
    (rest.lastSuspended { body.posix (p.enter signal action) with mask := p.mask }
      (body.left (p.enter signal action) current)).or (body.lastSuspended (p.enter signal action) current)

end

/-- What a call that changes the mask does not depend on, where the mask of FEX is not the guest's: it stores no old mask, and
blocks or unblocks every signal that is in one of them only. -/
def Covers (how : Int) (set oldset : BitVec 64) (p : Posix) (current : BitVec 64) : Prop :=
  (oldset ≠ 0 → current = p.mask) ∧ (how ≠ SIG_SETMASK → (current ^^^ p.mask) &&& ~~~read p.memory set 64 = 0)

mutual

/-- A condition on the masks that FEX and the host have at each call. A call that does not set the mask finds the guest's at
both, one that does covers where they differ, and the slot of a suspend has the guest's mask when it returns. -/
def Calls.Meets (required : Fin 65 → Bool) : Calls → Posix → BitVec 64 → BitVec 64 → Prop
  | .done, _, _, _ => True
  | .write address value rest, p, current, host =>
    rest.Meets required { p with memory := ByteMemory.write p.memory address value } current host
  | .sigProcMask how set oldset rest, p, current, host =>
    if set = 0 ∨ refused how set = true then
      (current = p.mask ∧ host = withoutRequired required p.mask) ∧
        rest.Meets required (p.sigProcMask how set oldset) p.mask host
    else
      Covers how set oldset p current ∧
        rest.Meets required (p.sigProcMask how set oldset) (p.sigProcMask how set oldset).mask
          (withoutRequired required (p.sigProcMask how set oldset).mask)
  | .sigSuspend set sigsetsize handlers rest, p, current, host =>
    if 8 < sigsetsize then
      (current = p.mask ∧ host = withoutRequired required p.mask) ∧ rest.Meets required p p.mask host
    else
      handlers.Meets required (p.wait set) (p.wait set).mask ∧
        ((handlers.lastSuspended (p.wait set) (p.wait set).mask).getD current = p.mask ∧
          host = withoutRequired required p.mask) ∧
        rest.Meets required { handlers.posix (p.wait set) with mask := p.mask } p.mask host

def Handlers.Meets (required : Fin 65 → Bool) : Handlers → Posix → BitVec 64 → Prop
  | .done, _, _ => True
  | .handle signal action body rest, p, current =>
    body.Meets required (p.enter signal action) current (blocked (handlerMask required signal action)) ∧
      rest.Meets required { body.posix (p.enter signal action) with mask := p.mask } (body.left (p.enter signal action) current)

end

end FexEmu.LinuxSyscalls.Signals
