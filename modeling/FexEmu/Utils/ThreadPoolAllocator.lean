import Mathlib.Tactic
/-!
# ThreadPoolAllocator

A step is one atomic operation on a flag or a time, or a section of the lists under the mutex.
-/
namespace FexEmu.ThreadPool

/-! ## Data -/

/-- The values of a buffer's owned flag. -/
inductive ClientFlags
  | free
  | owned
  | disowned
deriving DecidableEq, Repr

/-- An element of a `std::list`, an iterator is its `id`. -/
structure Node where
  id : Nat
  buffer : Nat
deriving DecidableEq, Repr

variable {C : Type} [DecidableEq C]

/-- `MemoryBuffer`, where the flag's pointer is the client that has the flag. -/
structure MemoryBuffer (C : Type) where
  size : Nat
  lastUsed : Nat
  currentClientOwnedFlag : Option C

/-- Where a client is in one of its functions. -/
inductive Pc
  | idle
  -- ReownOrClaimBuffer
  | isOwned
  | exchange
  | touch
  | pointer
  -- ClaimBuffer
  | lock
  | sweepFlag (now : Nat) (it : Nat)
  | sweepTime (now : Nat) (it : Nat)
  | sweepTake (now : Nat) (it : Nat)
  | place (now : Nat)
  | publish (node : Nat)
  -- DelayedDisownBuffer
  | disownTouch
  | disown
  | period
  -- UnclaimBuffer
  | isFree
  | unclaim
deriving DecidableEq, Repr

/-- A `FixedSizePooledAllocation`. -/
structure Client where
  size : Nat
  info : Option Nat
  clientOwnedFlag : ClientFlags
  countPer : Nat
  previous : Nat
  pc : Pc
deriving DecidableEq, Repr

/-- The pool and all of its clients. Nodes and buffers have numbers in place of addresses. -/
structure State (C : Type) where
  clock : Nat
  mutex : Option C
  claimed : List Node
  unclaimed : List Node
  live : Nat → Bool
  buffer : Nat → MemoryBuffer C
  client : C → Client
  nextNode : Nat
  nextBuffer : Nat

/-- The template arguments of the clients. -/
structure Period where
  periodMS : Nat
  periodFrequency : Nat
deriving DecidableEq, Repr

def DURATION : Nat := 5000

/-! ## The lists -/

/-- The first buffer of the size, else the last one that is larger. -/
def bestFit (sizeOf : Nat → Nat) (size : Nat) : List Node → Option Node → Option Node
  | [], unsizedFit => unsizedFit
  | it :: rest, unsizedFit =>
    if sizeOf it.buffer = size then some it
    else bestFit sizeOf size rest (if sizeOf it.buffer > size then some it else unsizedFit)

/-- The expired buffer to free, but for the one that is being claimed. -/
def expired (lastUsed : Nat → Nat) (now : Nat) (bestFit : Option Node) : List Node → Nat → Option Node → Option Node
  | [], _, found => found
  | it :: rest, lruTime, found =>
    if some it ≠ bestFit ∧ lastUsed it.buffer + DURATION ≤ now ∧ lruTime < lastUsed it.buffer then
      expired lastUsed now bestFit rest (lastUsed it.buffer) (some it)
    else expired lastUsed now bestFit rest lruTime found

namespace State

def setClient (s : State C) (c : C) (client : Client) : State C := { s with client := Function.update s.client c client }

def goto (s : State C) (c : C) (pc : Pc) : State C := s.setClient c { s.client c with pc := pc }

def setFlag (s : State C) (c : C) (flag : ClientFlags) : State C :=
  s.setClient c { s.client c with clientOwnedFlag := flag }

def setBuffer (s : State C) (b : Nat) (buffer : MemoryBuffer C) : State C :=
  { s with buffer := Function.update s.buffer b buffer }

/-- The buffer of an iterator into `ClaimedBuffers`. -/
def claimedNode (s : State C) (it : Nat) : Option Node := s.claimed.find? (fun n => n.id == it)

/-- From `ClaimedBuffers` to the end of `UnclaimedBuffers`. -/
def moveToUnclaimed (s : State C) (node : Node) : State C :=
  { s.setBuffer node.buffer { s.buffer node.buffer with currentClientOwnedFlag := none } with
    claimed := s.claimed.erase node
    unclaimed := s.unclaimed ++ [⟨s.nextNode, node.buffer⟩]
    nextNode := s.nextNode + 1 }

def freeBuffer (s : State C) (node : Node) : State C :=
  { s with unclaimed := s.unclaimed.erase node, live := Function.update s.live node.buffer false }

/-- To the end of `ClaimedBuffers`. -/
def emplaceClaimed (s : State C) (b : Nat) : State C :=
  { s with claimed := s.claimed ++ [⟨s.nextNode, b⟩], nextNode := s.nextNode + 1 }

def alloc (s : State C) (size : Nat) : State C :=
  { s.setBuffer s.nextBuffer ⟨size, s.clock, none⟩ with
    live := Function.update s.live s.nextBuffer true
    nextBuffer := s.nextBuffer + 1 }

def freeExpired (s : State C) (now : Nat) (best : Option Node) : State C :=
  match expired (fun b => (s.buffer b).lastUsed) now best s.unclaimed 0 none with
  | none => s
  | some node => s.freeBuffer node

def claimFit (s : State C) (size : Nat) : Option Node → State C
  | some node => { s with unclaimed := s.unclaimed.erase node }.emplaceClaimed node.buffer
  | none => (s.alloc size).emplaceClaimed s.nextBuffer

/-- The part of `ClaimBufferImpl` after the sweep. -/
def placeBuffer (s : State C) (now size : Nat) : State C :=
  let best := bestFit (fun b => (s.buffer b).size) size s.unclaimed none
  (s.freeExpired now best).claimFit size best

end State

/-! ## Steps -/

/-- What would be undefined behaviour. -/
inductive Fault
  | erasedIterator
  | nullFlag
deriving DecidableEq, Repr

/-- The functions of a client. -/
inductive Call
  | reownOrClaimBuffer
  | delayedDisownBuffer
  | unclaimBuffer
deriving DecidableEq, Repr

/-- Time passes, a client enters a function, or it takes its next step. -/
inductive Action (C : Type)
  | tick (time : Nat)
  | call (c : C) (f : Call)
  | run (c : C)

def withNode (s : State C) (it : Option Nat) (f : Node → Except Fault (State C)) : Except Fault (State C) :=
  match it.bind s.claimedNode with
  | none => .error .erasedIterator
  | some node => f node

def withFlag (s : State C) (b : Nat) (f : C → Except Fault (State C)) : Except Fault (State C) :=
  match (s.buffer b).currentClientOwnedFlag with
  | none => .error .nullFlag
  | some c => f c

/-- `LastUsed.store(ClockType::now())`. -/
def touched (s : State C) (b : Nat) : State C := s.setBuffer b { s.buffer b with lastUsed := s.clock }

/-- The next step of a client in a function, nothing if it has to wait. -/
def runStep (p : Period) (s : State C) (c : C) : Option (Except Fault (State C)) :=
  let me := s.client c
  match me.pc with
  | .idle => none
  | .isOwned => some (.ok (s.goto c (if me.clientOwnedFlag = .owned then .pointer else .exchange)))
  | .exchange =>
    some (.ok (if me.clientOwnedFlag = .disowned then (s.setFlag c .owned).goto c .touch else s.goto c .lock))
  | .touch => some (withNode s me.info fun node => .ok ((touched s node.buffer).goto c .pointer))
  | .pointer => some (withNode s me.info fun _ => .ok (s.goto c .idle))
  | .lock => if s.mutex = none then some (.ok ({ s with mutex := some c }.goto c (.sweepFlag s.clock 0))) else none
  | .sweepFlag now it =>
    match s.claimed[it]? with
    | none => some (.ok (s.goto c (.place now)))
    | some node => some (withFlag s node.buffer fun c' =>
        .ok (s.goto c (if (s.client c').clientOwnedFlag = .disowned then .sweepTime now it else .sweepFlag now (it + 1))))
  | .sweepTime now it =>
    match s.claimed[it]? with
    | none => some (.error .erasedIterator)
    | some node =>
      some (.ok (s.goto c (if (s.buffer node.buffer).lastUsed + DURATION ≤ now then .sweepTake now it
        else .sweepFlag now (it + 1))))
  | .sweepTake now it =>
    match s.claimed[it]? with
    | none => some (.error .erasedIterator)
    | some node => some (withFlag s node.buffer fun c' =>
        .ok (if (s.client c').clientOwnedFlag = .disowned then
            ((s.setFlag c' .free).moveToUnclaimed node).goto c (.sweepFlag now it)
          else s.goto c (.sweepFlag now (it + 1))))
  | .place now => some (.ok ((s.placeBuffer now me.size).goto c (.publish s.nextNode)))
  | .publish it => some (withNode s (some it) fun node =>
      .ok { (s.setBuffer node.buffer { s.buffer node.buffer with currentClientOwnedFlag := some c }).setClient c
          { me with info := some it, clientOwnedFlag := .owned, pc := .pointer } with mutex := none })
  | .disownTouch => some (withNode s me.info fun node => .ok ((touched s node.buffer).goto c .disown))
  | .disown => some (withNode s me.info fun node => withFlag s node.buffer fun c' =>
      .ok ((s.setFlag c' .disowned).goto c .period))
  | .period =>
    some (.ok (s.setClient c (if p.periodMS ≤ s.clock - me.previous then
        { me with countPer := 1, previous := s.clock, pc := if me.countPer < p.periodFrequency then .isFree else .idle }
      else { me with countPer := me.countPer + 1, pc := .idle })))
  | .isFree => some (.ok (s.goto c (if me.clientOwnedFlag = .free then .idle else .unclaim)))
  | .unclaim =>
    if s.mutex = none then some (withNode s me.info fun node => withFlag s node.buffer fun c' =>
      .ok (((s.setFlag c' .free).moveToUnclaimed node).goto c .idle))
    else none

/-- A call. `DelayedDisownBuffer` asserts that the client owns its buffer. -/
def callStep (s : State C) (c : C) : Call → Option (State C)
  | .reownOrClaimBuffer => if (s.client c).pc = .idle then some (s.goto c .isOwned) else none
  | .delayedDisownBuffer =>
    if (s.client c).pc = .idle ∧ (s.client c).clientOwnedFlag = .owned then some (s.goto c .disownTouch) else none
  | .unclaimBuffer => if (s.client c).pc = .idle then some (s.goto c .isFree) else none

def step (p : Period) (s : State C) : Action C → Option (Except Fault (State C))
  | .tick time => some (.ok { s with clock := s.clock + time })
  | .call c f => (callStep s c f).map .ok
  | .run c => runStep p s c

def initial (clock : Nat) (size : C → Nat) : State C where
  clock := clock
  mutex := none
  claimed := []
  unclaimed := []
  live _ := false
  buffer _ := ⟨0, 0, none⟩
  client c := ⟨size c, none, .free, 0, 0, .idle⟩
  nextNode := 0
  nextBuffer := 0

end FexEmu.ThreadPool
