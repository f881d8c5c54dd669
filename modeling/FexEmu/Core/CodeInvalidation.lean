import FexEmu.Core.LookupCache
/-!
# Code invalidation

Compiling a block records the pages of its guest code before it maps the entry; a write to guest code invalidates what its
pages list. Here is every interleaving that `CodeInvalidationMutex` allows.
-/
namespace FexEmu.CodeInvalidation

open LookupCache

/-- `compiling` is the block in `CompileBlock` with its recorded pages; `blockPages` remembers those of the blocks that got
mapped. -/
structure Thread where
  cache : State
  compiling : Option (UInt64 × List UInt64)
  blockPages : UInt64 → List UInt64

def Thread.init : Thread where
  cache := .init
  compiling := none
  blockPages _ := []

/-- The threads by id, `none` once destroyed. Ids are not used again. -/
abbrev Context := List (Option Thread)

def thread (ctx : Context) (i : Nat) : Option Thread := ctx[i]?.join

/-- What a thread does to its own cache. `compileBlock` starts a compilation, which ends in `addBlockMapping` or
`compileFailed`. `clearCodeCache` can come in the middle of one. -/
inductive Op where
  | compileBlock (guestRIP : UInt64)
  | addBlockExecutableRange (address start length : UInt64)
  | addBlockMapping (address hostCode : UInt64)
  | compileFailed
  | findBlock (address : UInt64)
  | addBlockLink (guestDestination hostLink : UInt64) (delinker : Delinker)
  | clearCodeCache
deriving DecidableEq, Repr

/-- What can happen to the threads' caches, in any order. -/
inductive Event where
  | createThread
  | destroyThread (i : Nat)
  | onThread (i : Nat) (op : Op)
  | removeCodeEntry (i : Nat) (guestRIP : UInt64)
  | invalidate (start length : UInt64)
deriving DecidableEq, Repr

variable (c : Config)

/-- The keys from `lower_bound` up to `upper_bound`. -/
def inRange (start length page : UInt64) : Bool :=
  decide (start >>> 12 ≤ page) && decide (page ≤ (start + length - 1) >>> 12)

/-- The addresses the pages of the range list, in the order they are erased. -/
def listedIn (s : State) (start length : UInt64) : List UInt64 :=
  (s.codePages.filter (fun e => inRange start length e.1)).flatMap Prod.snd

def clearPages (start length : UInt64) (pages : List (UInt64 × List UInt64)) : List (UInt64 × List UInt64) :=
  pages.map (fun e => if inRange start length e.1 then (e.1, []) else e)

def invalidateGuestThreadCodeRange (s : State) (start length : UInt64) : State :=
  { (listedIn s start length).foldl (erase c) s with codePages := clearPages start length s.codePages }

/-! ## Steps -/

def threadStep (t : Thread) : Op → Option Thread
  | .compileBlock rip =>
    let r := findBlock c t.cache rip
    if t.compiling = none ∧ r.1 = 0 then some { t with cache := r.2, compiling := some (rip, []) } else none
  | .addBlockExecutableRange address start length =>
    match t.compiling with
    | none => none
    | some (entry, pages) =>
      if entry ≠ address then none
      else some { t with
        cache := (addBlockExecutableRange t.cache address start length).2
        compiling := some (entry, pages ++ pagesOf start length) }
  | .addBlockMapping address hostCode =>
    match t.compiling with
    | none => none
    | some (entry, pages) =>
      if entry ≠ address then none
      else some
        { cache := addBlockMapping t.cache address hostCode
          compiling := none
          -- `emplace` keeps an earlier mapping of the address, and with it its pages.
          blockPages := Function.update t.blockPages address
            (if t.cache.blockList address = none then pages else t.blockPages address ++ pages) }
  | .compileFailed => if t.compiling = none then none else some { t with compiling := none }
  | .findBlock a => some { t with cache := (findBlock c t.cache a).2 }
  | .addBlockLink d h k => some { t with cache := addBlockLink t.cache d h k }
  | .clearCodeCache => some { t with cache := clearCache t.cache }

/-- `CompileBlock` holds `CodeInvalidationMutex` shared, so whoever holds it
unique finds no compilation under way. -/
def quiet (ctx : Context) : Bool := ctx.all (fun o => o.all (fun t => t.compiling.isNone))

def updateThread (ctx : Context) (i : Nat) (f : Thread → Option Thread) : Option Context :=
  (thread ctx i).bind (fun t => (f t).map (fun t' => ctx.set i (some t')))

/-- `none` when the event cannot happen now. A range to invalidate does not wrap around. -/
def step (ctx : Context) : Event → Option Context
  | .createThread => some (ctx ++ [some .init])
  | .destroyThread i => (thread ctx i).bind (fun t => if t.compiling = none then some (ctx.set i none) else none)
  | .onThread i op => updateThread ctx i (fun t => threadStep c t op)
  | .removeCodeEntry i rip =>
    if quiet ctx then updateThread ctx i (fun t => some { t with cache := erase c t.cache rip }) else none
  | .invalidate start length =>
    if quiet ctx ∧ start.toNat + length.toNat ≤ 2 ^ 64 then
      some (ctx.map (Option.map (fun t =>
        { t with cache := invalidateGuestThreadCodeRange c t.cache start length })))
    else none

def run (evs : List Event) : Option Context := evs.foldlM (step c) []

/-- `CodePages` lists `address` under `page`. -/
def Listed (s : State) (page address : UInt64) : Prop := ∃ l, (page, l) ∈ s.codePages ∧ address ∈ l

/-- The range has a byte on the page. -/
def Meets (page start length : UInt64) : Prop :=
  ∃ x, start.toNat ≤ x ∧ x < start.toNat + length.toNat ∧ x / 4096 = page.toNat

/-- The event records a block's range that meets the page. -/
def Records (e : Event) (i : Nat) (address page : UInt64) : Prop :=
  ∃ start length, e = .onThread i (.addBlockExecutableRange address start length) ∧ page ∈ pagesOf start length

/-- The event invalidates a range that meets the page. -/
def Clears (e : Event) (page : UInt64) : Prop :=
  ∃ start length, e = .invalidate start length ∧ inRange start length page = true

/-- Some compilation of `address` on thread `i` recorded `page`, and the page has
not been invalidated since. -/
def Recorded (evs : List Event) (i : Nat) (address page : UInt64) : Prop :=
  ∃ pre e post, evs = pre ++ e :: post ∧ Records e i address page ∧ ∀ e' ∈ post, ¬ Clears e' page

end FexEmu.CodeInvalidation
