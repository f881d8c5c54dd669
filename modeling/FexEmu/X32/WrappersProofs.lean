import FexEmu.X32.Structures
import FexEmu.X32.Wrappers
/-!
# Transparent handlers

The host gets what the guest passed, the guest the result, and the guest's memory what the host wrote, or nothing new after an
error.
-/
namespace FexEmu.X32

open Records FlatMemory

/-! ## Requests -/

/-- A system call of a guest with its arguments. -/
inductive Request where
  | gettimeofday (tv tz : Nat)
  | nanosleep (req rem : Nat)
  | clock_gettime (clk_id tp : Nat)
  | clock_getres (clk_id tp : Nat)
  | clock_nanosleep (clockid flags request remain : Nat)
  | adjtimex (buf : Nat)
  | clock_adjtime (clk_id buf : Nat)
  | timer_create (clockid sevp timerid : Nat)
  | timer_settime (timerid flags new_value old_value : Nat)
  | timer_gettime (timerid curr_value : Nat)
  | getitimer (which curr_value : Nat)
  | setitimer (which new_value old_value : Nat)
  | mq_open (name oflag mode attr : Nat)
  | mq_notify (mqdes sevp : Nat)
  | mq_getsetattr (mqdes newattr oldattr : Nat)
  | getrlimit (resource rlim : Nat)
  | ugetrlimit (resource rlim : Nat)
  | getrusage (who usage : Nat)
  | clock_gettime64 (clk_id tp : Nat)
  | clock_adjtime64 (clk_id buf : Nat)
  | clock_getres_time64 (clk_id tp : Nat)
  | clock_nanosleep_time64 (clockid flags request remain : Nat)
  | timer_settime64 (timerid flags new_value old_value : Nat)
  | timer_gettime64 (timerid curr_value : Nat)

namespace Request

/-- The structure that the host's function reads. -/
def input : Request → Conversion
  | nanosleep .. | clock_nanosleep .. => timespec32
  | timer_create .. | mq_notify .. => sigevent32
  | timer_settime .. => old_itimerspec32
  | setitimer .. => itimerval32
  | mq_open .. | mq_getsetattr .. => mq_attr32
  | _ => noStruct

/-- The structure that the host's function writes. -/
def output : Request → Conversion
  | gettimeofday .. => timeval32
  | nanosleep .. | clock_gettime .. | clock_getres .. | clock_nanosleep .. => timespec32
  | adjtimex .. | clock_adjtime .. => timex32
  | timer_settime .. | timer_gettime .. => old_itimerspec32
  | getitimer .. | setitimer .. => itimerval32
  | mq_getsetattr .. => mq_attr32
  | getrlimit .. => rlimit32Signed
  | ugetrlimit .. => rlimit32
  | getrusage .. => rusage_32
  | _ => noStruct

def handle (abi : HostAbi) (m : Memory) :
    (r : Request) → r.output.guest.Value → Kernel r.input.host r.output.host → Option (Run r.input.host r.output.host)
  | gettimeofday tv tz, left, k => X32.gettimeofday m left k tv tz
  | nanosleep req rem, left, k => X32.nanosleep m left k req rem
  | clock_gettime clk_id tp, left, k => X32.clock_gettime m left k clk_id tp
  | clock_getres clk_id tp, left, k => X32.clock_getres m left k clk_id tp
  | clock_nanosleep clockid flags request remain, left, k => X32.clock_nanosleep m left k clockid flags request remain
  | adjtimex buf, left, k => X32.adjtimex m left k buf
  | clock_adjtime clk_id buf, left, k => X32.clock_adjtime m left k clk_id buf
  | timer_create clockid sevp timerid, _, k => X32.timer_create m k clockid sevp timerid
  | timer_settime timerid flags new_value old_value, left, k => X32.timer_settime m left k timerid flags new_value old_value
  | timer_gettime timerid curr_value, left, k => X32.timer_gettime m abi left k timerid curr_value
  | getitimer which curr_value, left, k => X32.getitimer m left k which curr_value
  | setitimer which new_value old_value, left, k => X32.setitimer m left k which new_value old_value
  | mq_open name oflag mode attr, _, k => X32.mq_open m k name oflag mode attr
  | mq_notify mqdes sevp, _, k => X32.mq_notify m k mqdes sevp
  | mq_getsetattr mqdes newattr oldattr, left, k => X32.mq_getsetattr m left k mqdes newattr oldattr
  | getrlimit resource rlim, left, k => X32.getrlimit m left k resource rlim
  | ugetrlimit resource rlim, left, k => X32.ugetrlimit m left k resource rlim
  | getrusage who usage, left, k => X32.getrusage m left k who usage
  | clock_gettime64 clk_id tp, _, k => X32.clock_gettime64 m k clk_id tp
  | clock_adjtime64 clk_id buf, _, k => X32.clock_adjtime64 m k clk_id buf
  | clock_getres_time64 clk_id tp, _, k => X32.clock_getres_time64 m k clk_id tp
  | clock_nanosleep_time64 clockid flags request remain, _, k => X32.clock_nanosleep_time64 m k clockid flags request remain
  | timer_settime64 timerid flags new_value old_value, _, k => X32.timer_settime64 m k timerid flags new_value old_value
  | timer_gettime64 timerid curr_value, _, k => X32.timer_gettime64 m k timerid curr_value

/-! ## What a handler should do -/

/-- The host's function, and the arguments that need no conversion. -/
def function : Request → HostFunction × List Nat
  | gettimeofday _ tz => (.gettimeofday, [tz])
  | nanosleep .. => (.nanosleep, [])
  | clock_gettime clk_id _ => (.clock_gettime, [clk_id])
  | clock_getres clk_id _ => (.clock_getres, [clk_id])
  | clock_nanosleep clockid flags _ _ => (.clock_nanosleep, [clockid, flags])
  | adjtimex _ => (.adjtimex, [])
  | clock_adjtime clk_id _ => (.clock_adjtime, [clk_id])
  | timer_create clockid _ timerid => (.timer_create, [clockid, timerid])
  | timer_settime timerid flags _ _ => (.timer_settime, [timerid, flags])
  | timer_gettime timerid _ => (.timer_gettime, [timerid])
  | getitimer which _ => (.getitimer, [which])
  | setitimer which _ _ => (.setitimer, [which])
  | mq_open name oflag mode _ => (.mq_open, [name, oflag, mode])
  | mq_notify mqdes _ => (.mq_notify, [mqdes])
  | mq_getsetattr mqdes _ _ => (.mq_getsetattr, [mqdes])
  | getrlimit resource _ | ugetrlimit resource _ => (.getrlimit, [resource])
  | getrusage who _ => (.getrusage, [who])
  | clock_gettime64 clk_id tp => (.clock_gettime, [clk_id, tp])
  | clock_adjtime64 clk_id buf => (.clock_adjtime, [clk_id, buf])
  | clock_getres_time64 clk_id tp => (.clock_getres, [clk_id, tp])
  | clock_nanosleep_time64 clockid flags request remain => (.clock_nanosleep, [clockid, flags, request, remain])
  | timer_settime64 timerid flags new_value old_value => (.timer_settime, [timerid, flags, new_value, old_value])
  | timer_gettime64 timerid curr_value => (.timer_gettime, [timerid, curr_value])

def source : Request → Nat
  | nanosleep req _ => req
  | clock_nanosleep _ _ request _ => request
  | timer_create _ sevp _ | mq_notify _ sevp => sevp
  | timer_settime _ _ new_value _ | setitimer _ new_value _ => new_value
  | mq_open _ oflag _ attr => if oflag &&& O_CREAT ≠ 0 then attr else 0
  | mq_getsetattr _ newattr _ => newattr
  | _ => 0

def target : Request → Nat
  | gettimeofday tv _ => tv
  | nanosleep _ rem => rem
  | clock_gettime _ tp | clock_getres _ tp => tp
  | clock_nanosleep _ _ _ remain => remain
  | adjtimex buf | clock_adjtime _ buf => buf
  | timer_settime _ _ _ old_value | setitimer _ _ old_value => old_value
  | timer_gettime _ curr_value | getitimer _ curr_value => curr_value
  | mq_getsetattr _ _ oldattr => oldattr
  | getrlimit _ rlim | ugetrlimit _ rlim => rlim
  | getrusage _ usage => usage
  | _ => 0

/-- The written structure starts with the guest's values. -/
def copiesTarget : Request → Bool
  | nanosleep .. | clock_nanosleep .. | adjtimex .. | clock_adjtime .. | getrusage .. => true
  | _ => false

/-- Linux refuses these null pointers. -/
def Refused : Request → Prop
  | clock_gettime _ tp => tp = 0
  | adjtimex buf | clock_adjtime _ buf => buf = 0
  | timer_settime _ _ new_value _ => new_value = 0
  | timer_gettime _ curr_value => curr_value = 0
  | getrlimit _ rlim | ugetrlimit _ rlim => rlim = 0
  | getrusage _ usage => usage = 0
  | _ => False

variable (r : Request)

/-- The call with the converted values, null pointers for null pointers. -/
def hostCall (m : Memory) : HostCall r.input.host r.output.host where
  function := r.function.1
  scalars := r.function.2
  input := r.input.copyIn m r.source
  output := if r.copiesTarget then r.output.copyIn m r.target else r.output.clearedFor r.target

/-- The guest gets the negated error and keeps its memory, or gets the result and the converted structure, whatever the
padding. -/
def Answers (m : Memory) (o : Outcome r.output.host) (run : Run r.input.host r.output.host) : Prop :=
  match o.status with
  | .ok v => run.result = BitVec.ofNat 64 v ∧ ∃ left, run.memory = r.output.copyOut left o.memory r.target o.output
  | .error e =>
    run.result = -(BitVec.ofNat 64 e) ∧
      if r.function.1.sleeps = true ∧ e = EINTR then ∃ left, run.memory = r.output.copyOut left o.memory r.target o.output
      else run.memory = m

/-- The wrapper makes the host's call and gives its answer to the guest. -/
def Transparent (abi : HostAbi) (m : Memory) (left : r.output.guest.Value) (k : Kernel r.input.host r.output.host) : Prop :=
  ∃ run, handle abi m r left k = some run ∧ run.call = r.hostCall m ∧ r.Answers m (k.answer run.call m) run

/-! ## What they do -/

/-- The call was answered without an error. -/
def Succeeds {O : Layout FieldName} (o : Outcome O) : Prop := ∃ v, o.status = .ok v

/-- The guest's struct holds the host's zeros. -/
def Cleared (m : Memory) (left : r.output.guest.Value) : Prop :=
  ∀ f ∈ r.output.guest, r.output.guest.readFrom m r.target f.key = r.output.toGuest left r.output.host.zero f.key

/-- A failing call writes nothing, or writes what is there already. -/
def KeepsOnError (m : Memory) (left : r.output.guest.Value) (k : Kernel r.input.host r.output.host) : Prop :=
  Succeeds (k.answer (r.hostCall m) m) ∨ r.target = 0 ∨ r.Cleared m left

/-- What a handler needs to be transparent. -/
inductive Condition where
  /-- The call does not fail, or the write of a failing call changes nothing. -/
  | keepsOnError
  | success
  | nonnull (p : Nat)
  /-- The timer's time does not reach the guest's structure, so the timer must not be armed. -/
  | unarmed

def conditions : Request → List Condition
  | gettimeofday .. | clock_gettime .. | getitimer .. | setitimer .. | getrlimit .. | ugetrlimit .. | mq_getsetattr .. =>
    [.keepsOnError]
  | clock_getres _ tp => [.nonnull tp, .keepsOnError]
  | clock_nanosleep .. | clock_nanosleep_time64 .. => [.success]
  | timer_create _ sevp _ | mq_notify _ sevp => [.nonnull sevp]
  | timer_gettime .. => [.unarmed]
  | _ => []

def Meets (abi : HostAbi) (m : Memory) (left : r.output.guest.Value) (k : Kernel r.input.host r.output.host) :
    Condition → Prop
  | .keepsOnError => r.KeepsOnError m left k
  | .success => Succeeds (k.answer (r.hostCall m) m)
  | .nonnull p => p ≠ 0
  | .unarmed => abi = .aarch64 ∧
    match (k.answer (r.hostCall m) m).status with
    | .ok _ => ∀ f ∈ r.output.guest, r.output.toGuest left (k.answer (r.hostCall m) m).output f.key = 0
    | .error _ => r.Cleared m left

/-- The request meets each of its conditions. -/
def Sound (abi : HostAbi) (m : Memory) (left : r.output.guest.Value) (k : Kernel r.input.host r.output.host) : Prop :=
  ∀ c ∈ r.conditions, r.Meets abi m left k c

theorem errno_ne_minusOne {e : Nat} (h : e < 4096) : BitVec.ofNat 64 e ≠ -1 := by
  intro same
  have := congrArg BitVec.toNat same
  simp at this
  omega

theorem errno_ne_negated {e : Nat} (pos : 0 < e) (h : e < 4096) : BitVec.ofNat 64 e ≠ -(BitVec.ofNat 64 e) := by
  intro same
  have := congrArg BitVec.toNat same
  rw [BitVec.toNat_neg, BitVec.toNat_ofNat, Nat.mod_eq_of_lt (by omega)] at this
  omega

theorem SYSCALL_ERRNO_error {f : HostFunction} (h : f.returnsErrorNumber = false) (e : Nat) :
    SYSCALL_ERRNO (returned f (.error e)) (.error e) = -(BitVec.ofNat 64 e) := by
  simp [returned, h, SYSCALL_ERRNO]

theorem SYSCALL_ERRNO_number {f : HostFunction} (h : f.returnsErrorNumber = true) {e : Nat} (lt : e < 4096) :
    SYSCALL_ERRNO (returned f (.error e)) (.error e) = BitVec.ofNat 64 e := by
  simp only [returned, h, SYSCALL_ERRNO, if_true]
  exact if_neg (errno_ne_minusOne lt)

/-! ## Memory -/

theorem output_wellFormed : r.output.guest.WellFormed := by
  have times : timespec32.guest.WellFormed ∧ timeval32.guest.WellFormed ∧ timex32.guest.WellFormed := by decide
  have timers : old_itimerspec32.guest.WellFormed ∧ itimerval32.guest.WellFormed := by decide
  have limits : rlimit32.guest.WellFormed ∧ rusage_32.guest.WellFormed ∧ mq_attr32.guest.WellFormed := by decide
  have none : noStruct.guest.WellFormed := by decide
  cases r with
  | gettimeofday => exact times.2.1
  | nanosleep | clock_gettime | clock_getres | clock_nanosleep => exact times.1
  | adjtimex | clock_adjtime => exact times.2.2
  | timer_settime | timer_gettime => exact timers.1
  | getitimer | setitimer => exact timers.2
  | mq_getsetattr => exact limits.2.2
  | getrlimit | ugetrlimit => exact limits.1
  | getrusage => exact limits.2.1
  | _ => exact none

/-- What is read from a guest's structure and written back is what was there. -/
def Restores (c : Conversion) : Prop :=
  ∀ left g, ∀ f ∈ c.guest, c.toGuest left (c.toHost c.host.zero g) f.key = g f.key

theorem restores_of_copies (c : Copies) (host : Layout FieldName) (drops : c.Drops [] []) (fits : c.Fits host)
    (full : ∀ f ∈ c.guest, f.padding = false) : Restores (c.conversion host) := by
  intro left g f hf
  exact (Copies.roundTrips_iff drops fits left host.zero g).2 ⟨by simp, by simp⟩ f hf (full f hf)

theorem timespec32_restores : Restores timespec32 :=
  restores_of_copies timespec32.fields timespec32.host (by decide) (by decide) (by decide)

theorem rusage_32_restores : Restores rusage_32 :=
  restores_of_copies rusage_32.fields rusage_32.host (by decide) (by decide) (by decide)

theorem copyOut_eq_self {c : Conversion} (wf : c.guest.WellFormed) {left : c.guest.Value} {m : Memory} {p : Nat} {h : c.host.Value} :
    c.copyOut left m p h = m ↔ p = 0 ∨ ∀ f ∈ c.guest, c.guest.readFrom m p f.key = c.toGuest left h f.key := by
  unfold Conversion.copyOut
  split
  · rename_i null
    exact iff_of_true rfl (.inl null)
  · rename_i nonnull
    rw [Layout.writeTo_eq_self wf]
    exact ⟨.inr, fun h => h.resolve_left nonnull⟩

theorem copyOut_load {c : Conversion} (wf : c.guest.WellFormed) (restores : Restores c) (left : c.guest.Value) (m : Memory) (p : Nat) :
    c.copyOut left m p (c.load m p) = m := by
  rw [copyOut_eq_self wf]
  right
  intro f hf
  exact (restores left _ f hf).symm

/-! ## Answers -/

section Answers
variable {r} {m : Memory} {o : Outcome r.output.host} {run : Run r.input.host r.output.host} {v e : Nat}

theorem answers_ok (h : o.status = .ok v) : r.Answers m o run ↔
    run.result = BitVec.ofNat 64 v ∧ ∃ left, run.memory = r.output.copyOut left o.memory r.target o.output := by
  rw [Answers, h]

theorem answers_error (h : o.status = .error e) : r.Answers m o run ↔ run.result = -(BitVec.ofNat 64 e) ∧
    if r.function.1.sleeps = true ∧ e = EINTR then ∃ left, run.memory = r.output.copyOut left o.memory r.target o.output
    else run.memory = m := by
  rw [Answers, h]

variable {call : HostCall r.input.host r.output.host} (documented : Documented call m o) {left : r.output.guest.Value}
  (same : call.function = r.function.1)
  (result : run.result = SYSCALL_ERRNO (returned r.function.1 o.status) o.status)
include documented same result

theorem answers_always_iff (number : r.function.1.returnsErrorNumber = false) (awake : r.function.1.sleeps = false)
    (memory : run.memory = r.output.copyOut left o.memory r.target o.output) {h : r.output.host.Value}
    (there : r.target ≠ 0 → call.output = .to h) :
    r.Answers m o run ↔ Succeeds o ∨ r.target = 0 ∨
      ∀ f ∈ r.output.guest, r.output.guest.readFrom m r.target f.key = r.output.toGuest left h f.key := by
  cases status : o.status with
  | ok v =>
    apply iff_of_true
    · rw [answers_ok status, result, status]
      exact ⟨rfl, left, memory⟩
    · exact .inl ⟨v, status⟩
  | error e =>
    have fails : ¬ Succeeds o := by
      rintro ⟨v, ok⟩
      rw [status] at ok
      cases ok
    have stays := documented.fails e status (by rw [same, awake]; simp)
    rw [answers_error status, result, status, SYSCALL_ERRNO_error number, awake, memory, stays.2]
    simp only [Bool.false_eq_true, false_and, if_false, true_and, fails, false_or]
    rw [copyOut_eq_self r.output_wellFormed]
    by_cases null : r.target = 0
    · simp [null]
    · rw [stays.1 h (there null)]

theorem answers_onSuccess (number : r.function.1.returnsErrorNumber = false) (awake : r.function.1.sleeps = false)
    (memory : run.memory =
      if returned r.function.1 o.status ≠ -1 then r.output.copyOut left o.memory r.target o.output else o.memory) :
    r.Answers m o run := by
  cases status : o.status with
  | ok v =>
    have small := (documented.result v status).1
    have ok : returned r.function.1 o.status ≠ -1 := by
      rw [status]
      intro same
      have := congrArg BitVec.toNat same
      rw [returned, BitVec.toNat_ofNat, Nat.mod_eq_of_lt (by omega)] at this
      simp at this
      omega
    rw [if_pos ok] at memory
    rw [answers_ok status, result, status]
    exact ⟨rfl, left, memory⟩
  | error e =>
    have failed : returned r.function.1 o.status = -1 := by
      rw [status, returned, number]
      rfl
    rw [if_neg (not_not.2 failed)] at memory
    have stays := documented.fails e status (by rw [same, awake]; simp)
    rw [answers_error status, result, status, SYSCALL_ERRNO_error number, awake, memory, stays.2]
    simp

theorem answers_sleep (number : r.function.1.returnsErrorNumber = false) (restores : Restores r.output)
    (memory : run.memory = r.output.copyOut left o.memory r.target o.output)
    (there : r.target ≠ 0 → call.output = .to (r.output.load m r.target)) : r.Answers m o run := by
  cases status : o.status with
  | ok v =>
    rw [answers_ok status, result, status]
    exact ⟨rfl, left, memory⟩
  | error e =>
    rw [answers_error status, result, status, SYSCALL_ERRNO_error number]
    refine ⟨rfl, ?_⟩
    split
    · exact ⟨left, memory⟩
    · rename_i uninterrupted
      have stays := documented.fails e status (by rwa [same])
      rw [memory, stays.2]
      by_cases null : r.target = 0
      · exact if_pos null
      · rw [stays.1 _ (there null)]
        exact copyOut_load r.output_wellFormed restores left m r.target

omit same in
theorem answers_number_iff (number : r.function.1.returnsErrorNumber = true)
    (memory : run.memory = r.output.copyOut left o.memory r.target o.output) : r.Answers m o run ↔ Succeeds o := by
  cases status : o.status with
  | ok v =>
    apply iff_of_true
    · rw [answers_ok status, result, status]
      exact ⟨rfl, left, memory⟩
    · exact ⟨v, status⟩
  | error e =>
    obtain ⟨pos, small⟩ := documented.errno e status
    apply iff_of_false
    · rw [answers_error status, result, status, SYSCALL_ERRNO_number number small]
      exact fun h => errno_ne_negated pos small h.1
    · rintro ⟨v, ok⟩
      rw [status] at ok
      cases ok

end Answers

/-! ## Handlers -/

variable {r} {abi : HostAbi} {m : Memory} {left : r.output.guest.Value} {k : Kernel r.input.host r.output.host}

theorem transparent_some {run : Run r.input.host r.output.host} (h : handle abi m r left k = some run) :
    r.Transparent abi m left k ↔ run.call = r.hostCall m ∧ r.Answers m (k.answer run.call m) run := by
  constructor
  · rintro ⟨run', made, call, answers⟩
    cases h.symm.trans made
    exact ⟨call, answers⟩
  · rintro ⟨call, answers⟩
    exact ⟨run, h, call, answers⟩

theorem not_transparent_none (h : handle abi m r left k = none) : ¬ r.Transparent abi m left k := by
  rintro ⟨run, made, _⟩
  rw [h] at made
  cases made

theorem sound_keepsOnError (h : r.conditions = [.keepsOnError]) : r.Sound abi m left k ↔ r.KeepsOnError m left k := by
  rw [Sound, h, List.forall_mem_singleton]
  rfl

section Shapes
variable {run : Run r.input.host r.output.host} (h : handle abi m r left k = some run) (call : run.call = r.hostCall m)
  (result : run.result =
    SYSCALL_ERRNO (returned r.function.1 (k.answer run.call m).status) (k.answer run.call m).status)
include h call result

theorem transparent_fill_iff
    (memory : run.memory = r.output.copyOut left (k.answer run.call m).memory r.target (k.answer run.call m).output)
    (number : r.function.1.returnsErrorNumber = false) (awake : r.function.1.sleeps = false)
    (fresh : r.copiesTarget = false) : r.Transparent abi m left k ↔ r.KeepsOnError m left k := by
  rw [transparent_some h, call, and_iff_right rfl]
  rw [call] at result memory
  have there (nonnull : r.target ≠ 0) : (r.hostCall m).output = .to r.output.host.zero := by
    simp [hostCall, fresh, Conversion.clearedFor, if_neg nonnull]
  exact answers_always_iff (k.documented _ m) rfl result number awake memory there

theorem transparent_pass (memory : run.memory = (k.answer run.call m).memory)
    (number : r.function.1.returnsErrorNumber = false) (awake : r.function.1.sleeps = false) (null : r.target = 0) :
    r.Transparent abi m left k := by
  rw [transparent_some h, call, and_iff_right rfl]
  rw [call] at result memory
  have untouched : run.memory =
      r.output.copyOut left (k.answer (r.hostCall m) m).memory r.target (k.answer (r.hostCall m) m).output := by
    rw [memory, null]
    rfl
  exact (answers_always_iff (h := r.output.host.zero) (k.documented _ m) rfl result number awake untouched
    (fun nonnull => absurd null nonnull)).2 (.inr (.inl null))

theorem transparent_onSuccess
    (memory : run.memory = if returned r.function.1 (k.answer run.call m).status ≠ -1 then
      r.output.copyOut left (k.answer run.call m).memory r.target (k.answer run.call m).output
      else (k.answer run.call m).memory)
    (number : r.function.1.returnsErrorNumber = false) (awake : r.function.1.sleeps = false) :
    r.Transparent abi m left k := by
  rw [transparent_some h, call, and_iff_right rfl]
  rw [call] at result memory
  exact answers_onSuccess (k.documented _ m) rfl result number awake memory

theorem transparent_restore
    (memory : run.memory = r.output.copyOut left (k.answer run.call m).memory r.target (k.answer run.call m).output)
    (number : r.function.1.returnsErrorNumber = false) (restores : Restores r.output) (copies : r.copiesTarget = true) :
    r.Transparent abi m left k := by
  rw [transparent_some h, call, and_iff_right rfl]
  rw [call] at result memory
  have there (nonnull : r.target ≠ 0) : (r.hostCall m).output = .to (r.output.load m r.target) := by
    simp [hostCall, copies, Conversion.copyIn, if_neg nonnull]
  exact answers_sleep (k.documented _ m) rfl result number restores memory there

theorem transparent_zeros_iff
    (memory : run.memory = r.output.copyOut left (k.answer run.call m).memory r.target r.output.host.zero)
    (number : r.function.1.returnsErrorNumber = false) (awake : r.function.1.sleeps = false) (nonnull : r.target ≠ 0)
    (zeros : ∀ m h, (∃ left', r.output.copyOut left m r.target r.output.host.zero = r.output.copyOut left' m r.target h) ↔
      ∀ f ∈ r.output.guest, r.output.toGuest left h f.key = 0) :
    r.Transparent abi m left k ↔
      match (k.answer (r.hostCall m) m).status with
      | .ok _ => ∀ f ∈ r.output.guest, r.output.toGuest left (k.answer (r.hostCall m) m).output f.key = 0
      | .error _ => r.Cleared m left := by
  rw [transparent_some h, call, and_iff_right rfl]
  rw [call] at result memory
  cases status : (k.answer (r.hostCall m) m).status with
  | ok v =>
    rw [answers_ok status, result, status, memory]
    exact (and_iff_right rfl).trans (zeros _ _)
  | error e =>
    have stays := (k.documented (r.hostCall m) m).fails e status
      (fun sleeps => by rw [hostCall, awake] at sleeps; cases sleeps.1)
    rw [answers_error status, result, status, SYSCALL_ERRNO_error number, awake, memory, stays.2]
    simp only [Bool.false_eq_true, false_and, if_false, true_and]
    rw [copyOut_eq_self r.output_wellFormed]
    exact or_iff_right nonnull

theorem transparent_number_iff
    (memory : run.memory = r.output.copyOut left (k.answer run.call m).memory r.target (k.answer run.call m).output)
    (number : r.function.1.returnsErrorNumber = true) (condition : r.conditions = [.success]) :
    r.Transparent abi m left k ↔ r.Sound abi m left k := by
  rw [transparent_some h, call, and_iff_right rfl, Sound, condition, List.forall_mem_singleton]
  rw [call] at result memory
  exact answers_number_iff (k.documented _ m) result number memory

end Shapes

theorem sound_of_nil (h : r.conditions = []) : r.Sound abi m left k := by
  rw [Sound, h]
  simp

section Null
variable {c : Conversion} {I : Layout FieldName} {f : HostFunction} {scalars : List Nat} {input : HostPointer I} {p : Nat}

theorem call_cleared (h : p ≠ 0) : HostCall.mk f scalars input (.to c.host.zero) = ⟨f, scalars, input, c.clearedFor p⟩ := by
  rw [Conversion.clearedFor, if_neg h]

theorem call_copied (h : p ≠ 0) (m : Memory) :
    HostCall.mk f scalars input (.to (c.load m p)) = ⟨f, scalars, input, c.copyIn m p⟩ := by
  rw [Conversion.copyIn, if_neg h]

theorem call_input (h : p ≠ 0) (m : Memory) (output : HostPointer I) :
    HostCall.mk f scalars (.to (c.load m p)) output = ⟨f, scalars, c.copyIn m p, output⟩ := by
  rw [Conversion.copyIn, if_neg h]

end Null

theorem attributes_eq (m : Memory) (oflag attr : Nat) :
    (if oflag &&& O_CREAT ≠ 0 ∧ attr ≠ 0 then HostPointer.to (mq_attr32.load m attr) else .null) =
      mq_attr32.copyIn m (if oflag &&& O_CREAT ≠ 0 then attr else 0) := by
  by_cases create : oflag &&& O_CREAT ≠ 0
  · by_cases null : attr = 0
    · rw [if_pos create, null, Conversion.copyIn, if_pos rfl]
      simp
    · rw [if_pos create, Conversion.copyIn, if_neg null, if_pos ⟨create, null⟩]
  · rw [if_neg create, if_neg (fun both => create both.1)]
    rfl

theorem returned_ne_one {call : HostCall mq_attr32.host mq_attr32.host} {o : Outcome mq_attr32.host}
    (documented : Documented call m o) (same : call.function = .mq_getsetattr) : returned .mq_getsetattr o.status ≠ 1 := by
  cases status : o.status with
  | ok v =>
    rw [(documented.result v status).2 same]
    decide
  | error e =>
    have failed : returned .mq_getsetattr (.error e) = -1 := rfl
    rw [failed]
    decide

/-! ### The time of a timer -/

theorem old_itimerspec32_toGuest (left : old_itimerspec32.guest.Value) (h : old_itimerspec32.host.Value) :
    ∀ f ∈ old_itimerspec32.guest, old_itimerspec32.toGuest left h f.key = (h f.key).setWidth _ := by
  intro f hf
  have full : ∀ f ∈ old_itimerspec32.fields.guest, f.padding = false := by decide
  exact (GuestStruct.whole_copies old_itimerspec32.fields old_itimerspec32.host (by decide) (by decide)).2 left h f hf
    (full f hf) trivial

/-- A cleared structure looks like the converted one if and only if all fields of that one are zero. -/
theorem copyOut_zero_iff (left : old_itimerspec32.guest.Value) (m : Memory) {p : Nat} (nonnull : p ≠ 0)
    (h : old_itimerspec32.host.Value) :
    (∃ left', old_itimerspec32.copyOut left m p old_itimerspec32.host.zero = old_itimerspec32.copyOut left' m p h) ↔
      ∀ f ∈ old_itimerspec32.guest, old_itimerspec32.toGuest left h f.key = 0 := by
  have wf : old_itimerspec32.guest.WellFormed := by decide
  have zero (f) (hf : f ∈ old_itimerspec32.guest) : old_itimerspec32.toGuest left old_itimerspec32.host.zero f.key = 0 :=
    (old_itimerspec32_toGuest left _ f hf).trans (BitVec.setWidth_zero _ _)
  simp only [Conversion.copyOut, if_neg nonnull, Layout.writeTo_eq_writeTo wf]
  constructor
  · rintro ⟨left', same⟩ f hf
    rw [old_itimerspec32_toGuest left h f hf, ← old_itimerspec32_toGuest left' h f hf, ← same f hf, zero f hf]
  · intro none
    exact ⟨left, fun f hf => (zero f hf).trans (none f hf).symm⟩

theorem timer_gettime_iff (timerid curr_value : Nat) (nonnull : curr_value ≠ 0) (abi : HostAbi) (m : Memory)
    (left : (timer_gettime timerid curr_value).output.guest.Value)
    (k : Kernel (timer_gettime timerid curr_value).input.host (timer_gettime timerid curr_value).output.host) :
    Transparent (timer_gettime timerid curr_value) abi m left k ↔ Sound (timer_gettime timerid curr_value) abi m left k := by
  rw [Sound, conditions, List.forall_mem_singleton]
  cases abi with
  | x86_64 =>
    apply iff_of_false
    · have made : handle .x86_64 m (timer_gettime timerid curr_value) left k = some _ := if_neg nonnull
      rw [transparent_some made]
      rintro ⟨call, _⟩
      have output := (congrArg HostCall.output call).trans (if_neg nonnull)
      cases output
    · rintro ⟨aarch64, _⟩
      cases aarch64
  | aarch64 =>
    have made : handle .aarch64 m (timer_gettime timerid curr_value) left k = some _ := if_neg nonnull
    refine (transparent_zeros_iff made (call_cleared nonnull) rfl rfl rfl rfl nonnull
      (fun m h => copyOut_zero_iff left m nonnull h)).trans ?_
    exact (and_iff_right rfl).symm

/-! ### All handlers -/

/-- A handler is transparent if and only if it meets its conditions. -/
theorem transparent_iff (r : Request) (allowed : ¬ r.Refused) (abi : HostAbi) (m : Memory) (left : r.output.guest.Value)
    (k : Kernel r.input.host r.output.host) : r.Transparent abi m left k ↔ r.Sound abi m left k := by
  cases r with
  | gettimeofday tv tz =>
    rw [sound_keepsOnError rfl]
    exact transparent_fill_iff rfl rfl rfl rfl rfl rfl rfl
  | getitimer which curr_value =>
    rw [sound_keepsOnError rfl]
    exact transparent_fill_iff rfl rfl rfl rfl rfl rfl rfl
  | setitimer which new_value old_value =>
    rw [sound_keepsOnError rfl]
    exact transparent_fill_iff rfl rfl rfl rfl rfl rfl rfl
  | clock_gettime clk_id tp =>
    rw [sound_keepsOnError rfl]
    exact transparent_fill_iff rfl (call_cleared allowed) rfl rfl rfl rfl rfl
  | getrlimit resource rlim =>
    rw [sound_keepsOnError rfl]
    exact transparent_fill_iff (if_neg allowed) (call_cleared allowed) rfl rfl rfl rfl rfl
  | ugetrlimit resource rlim =>
    rw [sound_keepsOnError rfl]
    exact transparent_fill_iff (if_neg allowed) (call_cleared allowed) rfl rfl rfl rfl rfl
  | nanosleep req rem =>
    exact iff_of_true (transparent_restore rfl rfl rfl rfl rfl timespec32_restores rfl) (sound_of_nil rfl)
  | getrusage who usage =>
    exact iff_of_true (transparent_restore (if_neg allowed) (call_copied allowed m) rfl rfl rfl rusage_32_restores rfl)
      (sound_of_nil rfl)
  | adjtimex buf =>
    exact iff_of_true (transparent_onSuccess (if_neg allowed) (call_copied allowed m) rfl rfl rfl rfl) (sound_of_nil rfl)
  | clock_adjtime clk_id buf =>
    exact iff_of_true (transparent_onSuccess (if_neg allowed) (call_copied allowed m) rfl rfl rfl rfl) (sound_of_nil rfl)
  | timer_settime timerid flags new_value old_value =>
    exact iff_of_true (transparent_onSuccess (if_neg allowed) (call_input allowed m _) rfl rfl rfl rfl) (sound_of_nil rfl)
  | clock_nanosleep clockid flags request remain => exact transparent_number_iff rfl rfl rfl rfl rfl rfl
  | clock_nanosleep_time64 clockid flags request remain => exact transparent_number_iff rfl rfl rfl rfl rfl rfl
  | clock_gettime64 clk_id tp => exact iff_of_true (transparent_pass rfl rfl rfl rfl rfl rfl rfl) (sound_of_nil rfl)
  | clock_adjtime64 clk_id buf => exact iff_of_true (transparent_pass rfl rfl rfl rfl rfl rfl rfl) (sound_of_nil rfl)
  | clock_getres_time64 clk_id tp => exact iff_of_true (transparent_pass rfl rfl rfl rfl rfl rfl rfl) (sound_of_nil rfl)
  | timer_settime64 timerid flags new_value old_value =>
    exact iff_of_true (transparent_pass rfl rfl rfl rfl rfl rfl rfl) (sound_of_nil rfl)
  | timer_gettime64 timerid curr_value => exact iff_of_true (transparent_pass rfl rfl rfl rfl rfl rfl rfl) (sound_of_nil rfl)
  | clock_getres clk_id tp =>
    by_cases null : tp = 0
    · apply iff_of_false
      · rw [transparent_some rfl, null]
        rintro ⟨call, _⟩
        cases call
      · intro sound
        exact sound (.nonnull tp) (by simp [conditions]) null
    · have sound : Sound (clock_getres clk_id tp) abi m left k ↔ KeepsOnError (clock_getres clk_id tp) m left k := by
        rw [Sound, conditions, List.forall_mem_cons, List.forall_mem_singleton]
        exact and_iff_right null
      rw [sound]
      exact transparent_fill_iff rfl (call_cleared null) rfl rfl rfl rfl rfl
  | timer_create clockid sevp timerid =>
    rw [Sound, conditions, List.forall_mem_singleton]
    by_cases null : sevp = 0
    · exact iff_of_false (not_transparent_none (if_pos null)) (fun nonnull => nonnull null)
    · exact iff_of_true (transparent_pass (if_neg null) (call_input null m _) rfl rfl rfl rfl rfl) null
  | mq_notify mqdes sevp =>
    rw [Sound, conditions, List.forall_mem_singleton]
    by_cases null : sevp = 0
    · exact iff_of_false (not_transparent_none (if_pos null)) (fun nonnull => nonnull null)
    · exact iff_of_true (transparent_pass (if_neg null) (call_input null m _) rfl rfl rfl rfl rfl) null
  | mq_open name oflag mode attr =>
    refine iff_of_true (transparent_pass rfl ?_ rfl rfl rfl rfl rfl) (sound_of_nil rfl)
    exact congrArg (fun input => HostCall.mk _ _ input _) (attributes_eq m oflag attr)
  | mq_getsetattr mqdes newattr oldattr =>
    rw [sound_keepsOnError rfl]
    exact transparent_fill_iff rfl rfl rfl (if_pos (returned_ne_one (k.documented _ m) rfl)) rfl rfl rfl
  | timer_gettime timerid curr_value => exact timer_gettime_iff timerid curr_value allowed abi m left k

/-! ### A function that fails -/

def refusing (I O : Layout FieldName) : Kernel I O where
  answer call m :=
    { status := .error EINVAL
      output := match call.output with
        | .to v => v
        | _ => O.zero
      memory := m }
  documented call m :=
    { errno := by
        intro e h
        cases h
        decide
      fails := by
        intro e _ _
        refine ⟨?_, rfl⟩
        intro v h
        simp only [h]
      result := by
        intro r h
        cases h }

theorem transparent_iff_clock_gettime :
    ¬ (clock_gettime 1 0x1000).Refused ∧
    ((clock_gettime 1 0x1000).Transparent .aarch64 (fun _ => 0) (fun _ => 0) (refusing _ _) ↔
      (clock_gettime 1 0x1000).Sound .aarch64 (fun _ => 0) (fun _ => 0) (refusing _ _)) :=
  ⟨Nat.succ_ne_zero _, transparent_iff (clock_gettime 1 0x1000) (Nat.succ_ne_zero _) _ _ _ _⟩

/-- A sleep that fails returns the number of the error as if it were a result. -/
theorem clock_nanosleep_not_transparent :
    ¬ (clock_nanosleep 1 0 0x1000 0).Transparent .aarch64 (fun _ => 0) (fun _ => 0) (refusing _ _) := by
  intro transparent
  have answers := (transparent_some rfl).1 transparent
  have result := ((answers_error rfl).1 answers.2).1
  exact absurd result (by decide)

end Request

end FexEmu.X32
