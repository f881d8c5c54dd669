import Mathlib.Tactic
import Mathlib.Logic.Relation
/-!
# The writeout queue of the AOT cache

A step of `AOTIRCaptureCacheWriteoutQueue_Append` or `FinalizeAOTIRCache` is a section under the lock, the compare-exchange of
the flag, or the start or end of a queued function.
-/
namespace FexEmu.IR.Writeout

variable {T F : Type} [DecidableEq T]

/-! ## Threads -/

/-- Who flushes. -/
inductive Caller
  | append
  | finalize
deriving DecidableEq, Repr

/-- Where a thread is in `AOTIRCaptureCacheWriteoutQueue_Flush`. -/
inductive Place (F : Type)
  -- at a look at the size of the queue, the first one or the one after a function that was maybe the last
  | look
  -- at the lock in the loop
  | loop
  | taken (fn : F) (maybeEmpty : Bool)
  | running (fn : F) (maybeEmpty : Bool)
deriving DecidableEq, Repr

/-- Where a thread is in AOTIRCaptureCacheWriteoutQueue_Append or _Flush. -/
inductive Pc (F : Type)
  | outside
  -- has to flush if it gets the flag
  | pushed
  | flushing (caller : Caller) (place : Place F)
deriving DecidableEq, Repr

def Pc.flushes : Pc F → Bool
  | .flushing _ _ => true
  | _ => false

/-- The last four fields say what has happened: the functions pushed, started and run, in order, and whether an empty queue
was popped. -/
structure State (T F : Type) where
  queue : List F
  flusing : Bool
  threads : T → Pc F
  pushed : List F
  started : List F
  finished : List F
  emptyPopped : Bool

def initial : State T F := ⟨[], false, fun _ => .outside, [], [], [], false⟩

namespace State

def goto (s : State T F) (i : T) (pc : Pc F) : State T F := { s with threads := Function.update s.threads i pc }

def append (s : State T F) (i : T) (fn : F) : State T F :=
  let s := { s with queue := s.queue ++ [fn], pushed := s.pushed ++ [fn] }
  if 10000 < s.queue.length then s.goto i .pushed else s

def compareExchange (s : State T F) (i : T) : State T F :=
  if s.flusing then s.goto i .outside else { s with flusing := true }.goto i (.flushing .append .look)

def look (s : State T F) (i : T) (caller : Caller) : State T F :=
  if s.queue.length = 0 then { s with flusing := false }.goto i .outside else s.goto i (.flushing caller .loop)

def take (s : State T F) (i : T) (caller : Caller) : State T F :=
  match s.queue with
  | [] => { s with emptyPopped := true }
  | fn :: queue => { s with queue := queue }.goto i (.flushing caller (.taken fn (queue.length = 0)))

/-- The next step of a thread that is in a flush or has to begin one. -/
def advance (s : State T F) (i : T) : State T F :=
  match s.threads i with
  | .outside => s
  | .pushed => s.compareExchange i
  | .flushing caller .look => s.look i caller
  | .flushing caller .loop => s.take i caller
  | .flushing caller (.taken fn maybeEmpty) =>
    { s with started := s.started ++ [fn] }.goto i (.flushing caller (.running fn maybeEmpty))
  | .flushing caller (.running fn maybeEmpty) =>
    { s with finished := s.finished ++ [fn] }.goto i (.flushing caller (if maybeEmpty then .look else .loop))

end State

/-- A thread appends, finalizes, or takes its next step. -/
inductive Action (T F : Type)
  | append (i : T) (fn : F)
  | finalize (i : T)
  | advance (i : T)

def step (s : State T F) : Action T F → Option (State T F)
  | .append i fn => match s.threads i with
    | .outside => some (s.append i fn)
    | _ => none
  | .finalize i => match s.threads i with
    | .outside => some (s.goto i (.flushing .finalize .look))
    | _ => none
  | .advance i => some (s.advance i)

/-- No thread flushes. -/
def State.Quiet (s : State T F) : Prop := ∀ i, (s.threads i).flushes = false

/-- `FinalizeAOTIRCache` is called while no thread flushes, and no `Append` takes the flag while it flushes without it. -/
def Allowed (s : State T F) : Action T F → Prop
  | .append _ _ => True
  | .finalize _ => s.Quiet
  | .advance i => s.threads i = .pushed → s.flusing = true ∨ s.Quiet

def Reachable (allowed : State T F → Action T F → Prop) : State T F → Prop :=
  Relation.ReflTransGen (fun s s' => ∃ a, allowed s a ∧ step s a = some s') initial

/-- What holds of the queue in every state of every run. -/
structure Safe (s : State T F) : Prop where
  /-- One function runs at a time. -/
  alone : ∀ i j c d fn fn' m m', s.threads i = .flushing c (.running fn m) → s.threads j = .flushing d (.running fn' m') →
    i = j
  /-- The functions are started in the order in which they were pushed, each of them once. -/
  inOrder : s.started <+: s.pushed
  notEmpty : s.emptyPopped = false
  /-- When the flush of `FinalizeAOTIRCache` returns and no other thread is in an `Append`, all functions have run. -/
  complete : ∀ i place, s.threads i = .flushing .finalize place → (s.advance i).threads i = .outside →
    (∀ j, j ≠ i → s.threads j = .outside) → (s.advance i).finished = (s.advance i).pushed

end FexEmu.IR.Writeout
