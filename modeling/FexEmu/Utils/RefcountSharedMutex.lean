import Mathlib.Tactic
import Mathlib.Logic.Relation
import Mathlib.Algebra.BigOperators.Fin
/-!
# refcount_shared_mutex

A step is a load or a compare-exchange of `Futex`, a wait or a wake. A thread may hold the mutex shared several times.
-/
namespace FexEmu.RefcountSharedMutex

variable {T : Type} [DecidableEq T]

def UNIQUE_LOCK_VALUE : BitVec 32 := -4096

/-! ## Threads -/

/-- Where a thread is in one of the functions. `blocking` tells the locks from the tries. -/
inductive Pc
  | idle
  -- TryUniqueLock in lock or try_lock, then the wait with the value that was seen
  | uniqueLoad (blocking : Bool)
  | uniqueExchange (blocking : Bool)
  | uniqueWait (value : BitVec 32)
  | uniqueSleep
  -- unlock
  | unlockLoad
  | unlockExchange
  | wakeAll
  -- lock_shared with `Expected`, or try_lock_shared
  | sharedLoad (blocking : Bool) (expected : BitVec 32)
  | sharedExchange (blocking : Bool) (expected value : BitVec 32)
  | sharedWait (expected : BitVec 32)
  | sharedSleep
  | sharedReload
  -- unlock_shared
  | decrementLoad
  | decrementExchange (value : BitVec 32)
  | wakeOne
deriving DecidableEq, Repr

/-- `woken` is set by a `FUTEX_WAKE` for the thread, until it has retried. -/
structure Thread where
  shared : Nat
  unique : Bool
  pc : Pc
  woken : Bool
deriving DecidableEq, Repr

def Thread.asleep (t : Thread) : Bool := t.pc = .uniqueSleep || t.pc = .sharedSleep

def Thread.goto (t : Thread) (pc : Pc) : Thread := { t with pc := pc }

def Thread.retried (t : Thread) (pc : Pc) : Thread := { t with pc := pc, woken := false }

/-- A `FUTEX_WAIT` returns. -/
def Thread.wakeUp (t : Thread) : Thread :=
  match t.pc with
  | .uniqueSleep => t.goto (.uniqueLoad true)
  | .sharedSleep => t.goto .sharedReload
  | _ => t

/-- The futex word and the threads. -/
structure State (T : Type) where
  futex : BitVec 32
  threads : T → Thread

def initial : State T := ⟨0, fun _ => ⟨0, false, .idle, false⟩⟩

def State.set (s : State T) (i : T) (t : Thread) : State T := { s with threads := Function.update s.threads i t }

/-- `FUTEX_WAKE` for one thread. -/
def State.wake (s : State T) (j : T) : State T := s.set j { (s.threads j).wakeUp with woken := true }

/-- `FUTEX_WAKE` for all. -/
def State.wakeAll (s : State T) : State T :=
  { s with threads := fun j => if (s.threads j).asleep then { (s.threads j).wakeUp with woken := true } else s.threads j }

/-! ## Steps -/

/-- The functions of the mutex. -/
inductive Call
  | lock
  | tryLock
  | unlock
  | lockShared
  | tryLockShared
  | unlockShared
deriving DecidableEq, Repr

def Call.entry : Call → Pc
  | .lock => .uniqueLoad true
  | .tryLock => .uniqueLoad false
  | .unlock => .unlockLoad
  | .lockShared => .sharedLoad true UNIQUE_LOCK_VALUE
  | .tryLockShared => .sharedLoad false UNIQUE_LOCK_VALUE
  | .unlockShared => .decrementLoad

def Call.may (t : Thread) : Call → Bool
  | .unlock => t.unique
  | .unlockShared => 0 < t.shared
  | _ => true

def uniqueFailed (t : Thread) (blocking : Bool) (value : BitVec 32) : Thread :=
  t.retried (if blocking then .uniqueWait value else .idle)

def sharedFailed (t : Thread) (blocking : Bool) (expected : BitVec 32) : Thread :=
  t.retried (if blocking then .sharedWait expected else .idle)

/-- The next step of a thread in a function, but for the wake of `unlock_shared`. -/
def State.advance (s : State T) (i : T) : State T :=
  let t := s.threads i
  match t.pc with
  | .uniqueLoad blocking =>
    s.set i (if s.futex = 0 then t.goto (.uniqueExchange blocking) else uniqueFailed t blocking s.futex)
  | .uniqueExchange blocking =>
    if s.futex = 0 then { s with futex := UNIQUE_LOCK_VALUE }.set i { t.retried .idle with unique := true }
    else s.set i (uniqueFailed t blocking s.futex)
  | .uniqueWait value => s.set i (t.goto (if s.futex = value then .uniqueSleep else .uniqueLoad true))
  | .unlockLoad => s.set i (t.goto (if s.futex = UNIQUE_LOCK_VALUE then .unlockExchange else .wakeAll))
  | .unlockExchange =>
    if s.futex = UNIQUE_LOCK_VALUE then { s with futex := 0 }.set i { t.goto .wakeAll with unique := false }
    else s.set i (t.goto .wakeAll)
  | .wakeAll => (s.set i (t.goto .idle)).wakeAll
  | .sharedLoad blocking expected =>
    s.set i (if s.futex = UNIQUE_LOCK_VALUE then sharedFailed t blocking expected
      else t.goto (.sharedExchange blocking expected s.futex))
  | .sharedExchange blocking expected value =>
    if s.futex = value then { s with futex := value + 1 }.set i { t.retried .idle with shared := t.shared + 1 }
    else s.set i (if s.futex = UNIQUE_LOCK_VALUE then sharedFailed t blocking expected
      else t.goto (.sharedExchange blocking expected s.futex))
  | .sharedWait expected => s.set i (t.goto (if s.futex = expected then .sharedSleep else .sharedReload))
  | .sharedReload =>
    s.set i (if s.futex = UNIQUE_LOCK_VALUE then t.retried (.sharedWait s.futex) else t.goto (.sharedLoad true s.futex))
  | .decrementLoad =>
    s.set i (t.goto (if s.futex = UNIQUE_LOCK_VALUE then .idle else .decrementExchange s.futex))
  | .decrementExchange value =>
    if s.futex = value then
      { s with futex := value - 1 }.set i
        { t.goto (if value - 1 = 0 then .wakeOne else .idle) with shared := t.shared - 1 }
    else s.set i (t.goto (if s.futex = UNIQUE_LOCK_VALUE then .idle else .decrementExchange s.futex))
  | .idle => s
  | .uniqueSleep => s
  | .sharedSleep => s
  | .wakeOne => s

/-- `wakeOne` is the `FUTEX_WAKE` of `unlock_shared`, which wakes a thread if one sleeps. A wait may also be interrupted. -/
inductive Action (T : Type)
  | call (i : T) (f : Call)
  | advance (i : T)
  | wakeOne (i : T) (woken : Option T)
  | interrupt (i : T)

/-- Any thread may step. A wake-up reaches one sleeper if there is one, and a sleeper may wake by itself. -/
inductive Step (s : State T) : Action T → State T → Prop
  | call {i : T} {f : Call} (hidle : (s.threads i).pc = .idle) (hmay : f.may (s.threads i) = true) :
    Step s (.call i f) (s.set i ((s.threads i).goto f.entry))
  | advance (i : T) : Step s (.advance i) (s.advance i)
  | wakeOne {i j : T} (hi : (s.threads i).pc = .wakeOne) (hj : (s.threads j).asleep = true) :
    Step s (.wakeOne i (some j)) ((s.set i ((s.threads i).goto .idle)).wake j)
  | wakeNone {i : T} (hi : (s.threads i).pc = .wakeOne) (hnone : ∀ j, (s.threads j).asleep = false) :
    Step s (.wakeOne i none) (s.set i ((s.threads i).goto .idle))
  | interrupt {i : T} (hi : (s.threads i).asleep = true) : Step s (.interrupt i) (s.set i (s.threads i).wakeUp)

variable [Fintype T]

def State.sharedHolds (s : State T) : Nat := ∑ i, (s.threads i).shared

/-- The states of the runs with few enough shared holds whose steps satisfy a condition. -/
def Reachable (allowed : State T → Action T → Prop) : State T → Prop :=
  Relation.ReflTransGen (fun s s' => ∃ a, allowed s a ∧ Step s a s' ∧ s'.sharedHolds < UNIQUE_LOCK_VALUE.toNat) initial

/-- No `lock_shared` waits with a value 0 that it has read, while `Futex` is 0. -/
def NoWaitForZero (s : State T) : Action T → Prop
  | .advance i => (s.threads i).pc = .sharedWait 0 → s.futex ≠ 0
  | _ => True

/-- A thread that holds the mutex unique is alone, and the futex counts the shared holds. -/
structure Excludes (s : State T) : Prop where
  unique : ∀ i, (s.threads i).unique = true → ∀ j, (s.threads j).shared = 0 ∧ (j ≠ i → (s.threads j).unique = false)
  value : s.futex = UNIQUE_LOCK_VALUE ↔ ∃ i, (s.threads i).unique = true
  count : s.futex ≠ UNIQUE_LOCK_VALUE → s.futex.toNat = s.sharedHolds

/-- In a try of `lock` or of `lock_shared`. -/
def Pc.retries : Pc → Bool
  | .uniqueLoad _ => true
  | .uniqueExchange _ => true
  | .sharedReload => true
  | .sharedLoad _ _ => true
  | .sharedExchange _ _ _ => true
  | _ => false

/-- A thread that still has to wake others, or that was woken and has not retried yet. -/
def Thread.willWake (t : Thread) : Bool := t.pc = .wakeAll || t.pc = .wakeOne || (t.woken && t.pc.retries)

/-- While the mutex is free a thread that sleeps has one that will wake it. -/
def NoLostWakeUp (s : State T) : Prop := s.futex = 0 → (∃ i, (s.threads i).asleep = true) → ∃ i, (s.threads i).willWake = true

end FexEmu.RefcountSharedMutex
