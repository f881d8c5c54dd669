import FexEmu.X32.Types
/-!
# Time, timers, message queues and limits

A handler reads structures of the guest into the host's, passes their addresses to the host's function, and writes back what
it left in them.
-/
namespace FexEmu.X32

open Records FlatMemory

/-! ## Calls of the host -/

inductive HostFunction where
  | gettimeofday | nanosleep | clock_gettime | clock_getres | clock_nanosleep | adjtimex | clock_adjtime | timer_create
  | timer_settime | timer_gettime | getitimer | setitimer | mq_open | mq_notify | mq_getsetattr | getrlimit | getrusage
deriving DecidableEq

def HostFunction.sleeps (f : HostFunction) : Bool := f = .nanosleep || f = .clock_nanosleep

/-- A function that fails returns minus one and sets `errno`, but this one returns the number of the error. -/
def HostFunction.returnsErrorNumber (f : HostFunction) : Bool := f = .clock_nanosleep

def EINTR : Nat := 4
def EINVAL : Nat := 22

/-- What a function gets for a pointer: null, the address of a structure that holds a value, or something else. -/
inductive HostPointer (L : Layout FieldName) where
  | null
  | to (v : L.Value)
  | stray

/-- A call with numbers and guest pointers, a structure that the function reads and one that it writes. -/
structure HostCall (I O : Layout FieldName) where
  function : HostFunction
  scalars : List Nat
  input : HostPointer I
  output : HostPointer O

/-- What a host call returns and stores. -/
structure Outcome (O : Layout FieldName) where
  status : Except Nat Nat
  output : O.Value
  memory : Memory

/-- A function that fails leaves everything as it was; an interrupted sleep tells the time that is left. -/
structure Documented {I O : Layout FieldName} (call : HostCall I O) (m : Memory) (o : Outcome O) : Prop where
  errno : ∀ e, o.status = .error e → 0 < e ∧ e < 4096
  fails : ∀ e, o.status = .error e → ¬ (call.function.sleeps = true ∧ e = EINTR) →
    (∀ v, call.output = .to v → o.output = v) ∧ o.memory = m
  result : ∀ r, o.status = .ok r → r < 2 ^ 31 ∧ (call.function = .mq_getsetattr → r = 0)

/-- A kernel whose answers are documented ones. -/
structure Kernel (I O : Layout FieldName) where
  answer : HostCall I O → Memory → Outcome O
  documented : ∀ call m, Documented call m (answer call m)

def returned (f : HostFunction) : Except Nat Nat → BitVec 64
  | .ok r => BitVec.ofNat 64 r
  | .error e => if f.returnsErrorNumber then BitVec.ofNat 64 e else -1

/-- `SYSCALL_ERRNO`; the function set `errno` if it failed. -/
def SYSCALL_ERRNO (Result : BitVec 64) : Except Nat Nat → BitVec 64
  | .ok _ => Result
  | .error errno => if Result = -1 then -(BitVec.ofNat 64 errno) else Result

/-! ## Structures of the guest -/

def noStruct : Conversion where
  guest := []
  host := []
  toHost left _ := left
  toGuest left _ := left

namespace Conversion

variable (c : Conversion)

def load (m : Memory) (p : Nat) : c.host.Value := c.toHost c.host.zero (c.guest.readFrom m p)

/-- `if (p) { Host = *p; Host_p = &Host; }` -/
def copyIn (m : Memory) (p : Nat) : HostPointer c.host := if p = 0 then .null else .to (c.load m p)

/-- `if (p) { Host_p = &Host; }` with a cleared structure -/
def clearedFor (p : Nat) : HostPointer c.host := if p = 0 then .null else .to c.host.zero

/-- `if (p) { *p = Host; }` -/
def copyOut (left : c.guest.Value) (m : Memory) (p : Nat) (h : c.host.Value) : Memory :=
  if p = 0 then m else Layout.writeTo m p (c.toGuest left h)

end Conversion

/-- What a handler did: the call, its own result and the guest's memory. -/
structure Run (I O : Layout FieldName) where
  call : HostCall I O
  result : BitVec 64
  memory : Memory

/-- The host's way to pass large structures by value. -/
inductive HostAbi where
  /-- The address of a copy. -/
  | aarch64
  /-- A copy on the stack; the register of the argument holds something else. -/
  | x86_64
deriving DecidableEq

/-! ## Handlers -/

section Handlers
variable (m : Memory)

def passOn (k : Kernel noStruct.host noStruct.host) (f : HostFunction) (scalars : List Nat) :
    Option (Run noStruct.host noStruct.host) :=
  let call : HostCall noStruct.host noStruct.host := ⟨f, scalars, .null, .null⟩
  let o := k.answer call m
  some ⟨call, SYSCALL_ERRNO (returned f o.status) o.status, o.memory⟩

def clock_gettime64 (k : Kernel noStruct.host noStruct.host) (clk_id tp : Nat) := passOn m k .clock_gettime [clk_id, tp]

def clock_adjtime64 (k : Kernel noStruct.host noStruct.host) (clk_id buf : Nat) := passOn m k .clock_adjtime [clk_id, buf]

def clock_getres_time64 (k : Kernel noStruct.host noStruct.host) (clk_id tp : Nat) := passOn m k .clock_getres [clk_id, tp]

def clock_nanosleep_time64 (k : Kernel noStruct.host noStruct.host) (clockid flags request remain : Nat) :=
  passOn m k .clock_nanosleep [clockid, flags, request, remain]

def timer_settime64 (k : Kernel noStruct.host noStruct.host) (timerid flags new_value old_value : Nat) :=
  passOn m k .timer_settime [timerid, flags, new_value, old_value]

def timer_gettime64 (k : Kernel noStruct.host noStruct.host) (timerid curr_value : Nat) :=
  passOn m k .timer_gettime [timerid, curr_value]

def fill {c : Conversion} (left : c.guest.Value) (k : Kernel noStruct.host c.host) (f : HostFunction) (scalars : List Nat)
    (output : HostPointer c.host) (p : Nat) : Run noStruct.host c.host :=
  let call : HostCall noStruct.host c.host := ⟨f, scalars, .null, output⟩
  let o := k.answer call m
  ⟨call, SYSCALL_ERRNO (returned f o.status) o.status, c.copyOut left o.memory p o.output⟩

def gettimeofday (left : timeval32.guest.Value) (k : Kernel noStruct.host timeval32.host) (tv tz : Nat) :=
  some (fill m left k .gettimeofday [tz] (timeval32.clearedFor tv) tv)

/-- The structure of the handler is passed also for a null pointer. -/
def clock_gettime (left : timespec32.guest.Value) (k : Kernel noStruct.host timespec32.host) (clk_id tp : Nat) :=
  some (fill m left k .clock_gettime [clk_id] (.to timespec32.host.zero) tp)

/-- The structure of the handler is passed also for a null pointer. -/
def clock_getres (left : timespec32.guest.Value) (k : Kernel noStruct.host timespec32.host) (clk_id tp : Nat) :=
  some (fill m left k .clock_getres [clk_id] (.to timespec32.host.zero) tp)

def getitimer (left : itimerval32.guest.Value) (k : Kernel noStruct.host itimerval32.host) (which curr_value : Nat) :=
  some (fill m left k .getitimer [which] (itimerval32.clearedFor curr_value) curr_value)

/-- `rlimit32<true>` has no operator. -/
def rlimit32Signed : Conversion := { rlimit32 with toGuest := fun _ => rlimit32.toGuest true }

/-- There is no run if the pointer is null, which the handler follows. -/
def getrlimit (left : rlimit32Signed.guest.Value) (k : Kernel noStruct.host rlimit32Signed.host) (resource rlim : Nat) :
    Option (Run noStruct.host rlimit32Signed.host) :=
  if rlim = 0 then none
  else some (fill m (c := rlimit32Signed) left k .getrlimit [resource] (.to rlimit32Signed.host.zero) rlim)

def ugetrlimit (left : rlimit32.guest.Value) (k : Kernel noStruct.host rlimit32.host) (resource rlim : Nat) :
    Option (Run noStruct.host rlimit32.host) :=
  if rlim = 0 then none else some (fill m left k .getrlimit [resource] (.to rlimit32.host.zero) rlim)

def getrusage (left : rusage_32.guest.Value) (k : Kernel noStruct.host rusage_32.host) (who usage : Nat) :
    Option (Run noStruct.host rusage_32.host) :=
  if usage = 0 then none else some (fill m left k .getrusage [who] (.to (rusage_32.load m usage)) usage)

/-- The structure itself is passed instead of its address, so that it stays cleared. -/
def timer_gettime (abi : HostAbi) (left : old_itimerspec32.guest.Value) (k : Kernel noStruct.host old_itimerspec32.host)
    (timerid curr_value : Nat) : Option (Run noStruct.host old_itimerspec32.host) :=
  let curr_value_host := old_itimerspec32.host.zero
  let argument : HostPointer old_itimerspec32.host :=
    match abi with
    | .aarch64 => .to curr_value_host
    | .x86_64 => .stray
  let call : HostCall noStruct.host old_itimerspec32.host := ⟨.timer_gettime, [timerid], .null, argument⟩
  let o := k.answer call m
  if curr_value = 0 then none
  else some
    ⟨call, SYSCALL_ERRNO (returned .timer_gettime o.status) o.status,
      old_itimerspec32.copyOut left o.memory curr_value curr_value_host⟩

/-- The function changes a structure, which is copied back if the call succeeds. -/
def adjust (left : timex32.guest.Value) (k : Kernel noStruct.host timex32.host) (f : HostFunction) (scalars : List Nat)
    (buf : Nat) : Option (Run noStruct.host timex32.host) :=
  let call : HostCall noStruct.host timex32.host := ⟨f, scalars, .null, .to (timex32.load m buf)⟩
  let o := k.answer call m
  let Result := returned f o.status
  let memory := if Result ≠ -1 then timex32.copyOut left o.memory buf o.output else o.memory
  if buf = 0 then none else some ⟨call, SYSCALL_ERRNO Result o.status, memory⟩

def adjtimex (left : timex32.guest.Value) (k : Kernel noStruct.host timex32.host) (buf : Nat) :=
  adjust m left k .adjtimex [] buf

def clock_adjtime (left : timex32.guest.Value) (k : Kernel noStruct.host timex32.host) (clk_id buf : Nat) :=
  adjust m left k .clock_adjtime [clk_id] buf

/-- The time that is left is copied in and copied back, whatever the result. -/
def sleep (left : timespec32.guest.Value) (k : Kernel timespec32.host timespec32.host) (f : HostFunction)
    (scalars : List Nat) (req rem : Nat) : Option (Run timespec32.host timespec32.host) :=
  let call : HostCall timespec32.host timespec32.host := ⟨f, scalars, timespec32.copyIn m req, timespec32.copyIn m rem⟩
  let o := k.answer call m
  some ⟨call, SYSCALL_ERRNO (returned f o.status) o.status, timespec32.copyOut left o.memory rem o.output⟩

def nanosleep (left : timespec32.guest.Value) (k : Kernel timespec32.host timespec32.host) (req rem : Nat) :=
  sleep m left k .nanosleep [] req rem

def clock_nanosleep (left : timespec32.guest.Value) (k : Kernel timespec32.host timespec32.host)
    (clockid flags request remain : Nat) :=
  sleep m left k .clock_nanosleep [clockid, flags] request remain

def pass {c : Conversion} (k : Kernel c.host noStruct.host) (f : HostFunction) (scalars : List Nat)
    (input : HostPointer c.host) : Run c.host noStruct.host :=
  let call : HostCall c.host noStruct.host := ⟨f, scalars, input, .null⟩
  let o := k.answer call m
  ⟨call, SYSCALL_ERRNO (returned f o.status) o.status, o.memory⟩

def timer_create (k : Kernel sigevent32.host noStruct.host) (clockid sevp timerid : Nat) :
    Option (Run sigevent32.host noStruct.host) :=
  if sevp = 0 then none else some (pass m k .timer_create [clockid, timerid] (.to (sigevent32.load m sevp)))

def mq_notify (k : Kernel sigevent32.host noStruct.host) (mqdes sevp : Nat) : Option (Run sigevent32.host noStruct.host) :=
  if sevp = 0 then none else some (pass m k .mq_notify [mqdes] (.to (sigevent32.load m sevp)))

def O_CREAT : Nat := 0o100

/-- The attributes are an argument only of a call that may create the queue. -/
def mq_open (k : Kernel mq_attr32.host noStruct.host) (name oflag mode attr : Nat) :=
  some (pass m k .mq_open [name, oflag, mode] (if oflag &&& O_CREAT ≠ 0 ∧ attr ≠ 0 then .to (mq_attr32.load m attr) else .null))

def setitimer (left : itimerval32.guest.Value) (k : Kernel itimerval32.host itimerval32.host)
    (which new_value old_value : Nat) : Option (Run itimerval32.host itimerval32.host) :=
  let call : HostCall itimerval32.host itimerval32.host :=
    ⟨.setitimer, [which], itimerval32.copyIn m new_value, itimerval32.clearedFor old_value⟩
  let o := k.answer call m
  some ⟨call, SYSCALL_ERRNO (returned .setitimer o.status) o.status, itimerval32.copyOut left o.memory old_value o.output⟩

def timer_settime (left : old_itimerspec32.guest.Value) (k : Kernel old_itimerspec32.host old_itimerspec32.host)
    (timerid flags new_value old_value : Nat) : Option (Run old_itimerspec32.host old_itimerspec32.host) :=
  let call : HostCall old_itimerspec32.host old_itimerspec32.host :=
    ⟨.timer_settime, [timerid, flags], .to (old_itimerspec32.load m new_value), old_itimerspec32.clearedFor old_value⟩
  let o := k.answer call m
  let Result := returned .timer_settime o.status
  let memory := if Result ≠ -1 then old_itimerspec32.copyOut left o.memory old_value o.output else o.memory
  if new_value = 0 then none else some ⟨call, SYSCALL_ERRNO Result o.status, memory⟩

def mq_getsetattr (left : mq_attr32.guest.Value) (k : Kernel mq_attr32.host mq_attr32.host) (mqdes newattr oldattr : Nat) :
    Option (Run mq_attr32.host mq_attr32.host) :=
  let call : HostCall mq_attr32.host mq_attr32.host :=
    ⟨.mq_getsetattr, [mqdes], mq_attr32.copyIn m newattr, mq_attr32.clearedFor oldattr⟩
  let o := k.answer call m
  let Result := returned .mq_getsetattr o.status
  let memory := if Result ≠ 1 then mq_attr32.copyOut left o.memory oldattr o.output else o.memory
  some ⟨call, SYSCALL_ERRNO Result o.status, memory⟩

end Handlers

end FexEmu.X32
