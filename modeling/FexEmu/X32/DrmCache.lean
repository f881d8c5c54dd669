import Mathlib.Data.BitVec
import Mathlib.Tactic
/-!
# The descriptor cache of the DRM ioctls

`LRUCacheFDCache` keeps the handlers of the last descriptors beside a map of all of them. The slot behind the cached ones
holds `AddAndRunHandler`.
-/
namespace FexEmu.X32.DrmCache

abbrev FD := BitVec 32

/-- The drivers that a handler is chosen for. -/
inductive Device
  | AMDGPU | MSM | Nouveau | I915 | Panfrost | Lima | VC4 | V3D | Virtio
  deriving DecidableEq

/-- A function pointer. -/
inductive HandlerType
  | null | addAndRunHandler | device (d : Device)
  deriving DecidableEq

/-- `LRUCacheFDCache`. -/
structure LRUCacheFDCache where
  LRUCache : Nat → FD × HandlerType
  FDToHandler : FD → Option Device

/-- The slots are static: those that were never written are zero. -/
def LRUCacheFDCache.initial (LRUSize : Nat) : LRUCacheFDCache where
  LRUCache := Function.update (fun _ => (0, .null)) LRUSize (0, .addAndRunHandler)
  FDToHandler := fun _ => none

namespace LRUCacheFDCache

variable (LRUSize : Nat) (c : LRUCacheFDCache) (fd : FD)

def setFDHandler (handler : Device) : LRUCacheFDCache :=
  { c with FDToHandler := Function.update c.FDToHandler fd (some handler) }

def duplicateFD (newFD : FD) : LRUCacheFDCache :=
  match c.FDToHandler fd with
  | some handler => c.setFDHandler newFD handler
  | none => c

/-- The `memmove` leaves the slot behind the cached ones where it is. -/
def addToFront (handler : HandlerType) : LRUCacheFDCache :=
  { c with LRUCache := fun i =>
      if i = 0 then (fd, handler) else if i < LRUSize then c.LRUCache (i - 1) else c.LRUCache i }

/-- The slot that the loop of `FindHandler` stops at. -/
def slot : Option Nat := (List.range LRUSize).find? fun i => (c.LRUCache i).1 = fd

def findHandler : HandlerType × LRUCacheFDCache :=
  match c.slot LRUSize fd with
  | none => ((c.LRUCache LRUSize).2, c)
  | some i =>
    if i = 0 ∨ (c.LRUCache i).2 = .null then ((c.LRUCache (if i = 0 then 0 else LRUSize)).2, c)
    else ((c.LRUCache i).2, c.addToFront LRUSize fd (c.LRUCache i).2)

/-- `strcmp` with the names. -/
def deviceOf (name : String) : Option Device :=
  if name = "amdgpu" then some .AMDGPU
  else if name = "msm" then some .MSM
  else if name = "nouveau" then some .Nouveau
  else if name = "i915" then some .I915
  else if name = "panfrost" then some .Panfrost
  else if name = "lima" then some .Lima
  else if name = "vc4" then some .VC4
  else if name = "v3d" then some .V3D
  else if name = "virtio_gpu" then some .Virtio
  else none

/-- The name is missing where the query of the version fails or has no room for it. -/
def assignDeviceTypeToFD (name : Option String) : LRUCacheFDCache :=
  match name.bind deviceOf with
  | some handler => c.setFDHandler fd handler
  | none => c

def addAndRunMapHandler (name : Option String) : LRUCacheFDCache :=
  match c.FDToHandler fd with
  | some handler => c.addToFront LRUSize fd (.device handler)
  | none => c.assignDeviceTypeToFD fd name

/-- The calls that reach the cache; `name` is the driver that the kernel reports. -/
inductive Event
  | version (fd : FD) (name : Option String)
  | command (fd : FD) (name : Option String)
  | duplicate (fd newFD : FD)

def step : Event → LRUCacheFDCache
  | .version fd name => c.assignDeviceTypeToFD fd name
  | .duplicate fd newFD => c.duplicateFD fd newFD
  | .command fd name =>
    let (handler, c) := c.findHandler LRUSize fd
    if handler = .addAndRunHandler then c.addAndRunMapHandler LRUSize fd name else c

def run (events : List Event) : LRUCacheFDCache := events.foldl (step LRUSize) c

/-! ## The statement -/

/-- The entry has a device. -/
def Used (i : Nat) : Prop := (c.LRUCache i).2 ≠ .null

/-- The answer of `FindHandler` is the fallback or what the map has. -/
def Answers : Prop :=
  (c.findHandler LRUSize fd).1 = .addAndRunHandler ∨
    ∃ d, c.FDToHandler fd = some d ∧ (c.findHandler LRUSize fd).1 = .device d

/-- The last entry asks for the device, and no descriptor has two entries. -/
structure Sound : Prop where
  last : (c.LRUCache LRUSize).2 = .addAndRunHandler
  once : ∀ i < LRUSize, ∀ j < LRUSize, c.Used i → c.Used j → (c.LRUCache i).1 = (c.LRUCache j).1 → i = j

/-- The state is sound, and a command that comes next is answered. -/
def Holds (after : List Event) : Prop :=
  c.Sound LRUSize ∧ ∀ fd name rest, after = .command fd name :: rest → c.Answers LRUSize fd

/-- The descriptor is not cached with another handler. -/
def Agrees (handler : Option Device) : Prop :=
  ∀ d, handler = some d → ∀ i < LRUSize, (c.LRUCache i).1 = fd → c.Used i → (c.LRUCache i).2 = .device d

/-- No command comes for a descriptor in one of the middle slots, nor for descriptor 0 before anything is cached. A
descriptor that gets a handler is not cached with another one. -/
def Allows : Event → Prop
  | .version fd name => c.Agrees LRUSize fd (name.bind deviceOf)
  | .duplicate fd newFD => c.Agrees LRUSize newFD (c.FDToHandler fd)
  | .command fd _ => (fd = 0 → c.Used 0) ∧ ∀ i, 0 < i → i + 1 < LRUSize → (c.LRUCache i).1 = fd → ¬c.Used i

def AllowsAll : LRUCacheFDCache → List Event → Prop
  | _, [] => True
  | c, event :: events => c.Allows LRUSize event ∧ AllowsAll (c.step LRUSize event) events

/-! ## Runs -/

/-- The invariant: the used slots are in front, and agree with the map. -/
structure Coherent : Prop extends c.Sound LRUSize where
  front : ∀ i j, i ≤ j → j < LRUSize → c.Used j → c.Used i
  zero : ∀ i < LRUSize, ¬c.Used i → (c.LRUCache i).1 = 0
  held : ∀ i < LRUSize, c.Used i → ∃ d, c.FDToHandler (c.LRUCache i).1 = some d ∧ (c.LRUCache i).2 = .device d

variable {LRUSize c fd}

theorem initial_slot {i : Nat} (inside : i < LRUSize) : (initial LRUSize).LRUCache i = (0, .null) := by
  have below : i ≠ LRUSize := Nat.ne_of_lt inside
  simp [initial, below]

theorem initial_coherent : (initial LRUSize).Coherent LRUSize := by
  have no : ∀ i < LRUSize, ¬(initial LRUSize).Used i := fun i inside used => used (by rw [initial_slot inside])
  exact {
    last := by simp [initial]
    once := fun i inside _ _ used => absurd used (no i inside)
    front := fun _ j _ inside used => absurd used (no j inside)
    zero := fun i inside _ => by rw [initial_slot inside]
    held := fun i inside used => absurd used (no i inside) }

theorem Coherent.setFDHandler {d : Device} (h : c.Coherent LRUSize) (agrees : c.Agrees LRUSize fd (some d)) :
    (c.setFDHandler fd d).Coherent LRUSize where
  last := h.last
  once := h.once
  front := h.front
  zero := h.zero
  held i inside used := by
    by_cases same : (c.LRUCache i).1 = fd
    · exact ⟨d, by rw [← same]; exact Function.update_self .., agrees d rfl i inside same used⟩
    · obtain ⟨d', held, cached⟩ := h.held i inside used
      exact ⟨d', (Function.update_of_ne same ..).trans held, cached⟩

theorem Coherent.addToFront {d : Device} (h : c.Coherent LRUSize) (held : c.FDToHandler fd = some d)
    (new : ∀ i, i + 1 < LRUSize → c.Used i → (c.LRUCache i).1 ≠ fd) (size : 0 < LRUSize) :
    (c.addToFront LRUSize fd (.device d)).Coherent LRUSize := by
  have first : (c.addToFront LRUSize fd (.device d)).LRUCache 0 = (fd, .device d) := rfl
  have moved : ∀ i, i + 1 < LRUSize → (c.addToFront LRUSize fd (.device d)).LRUCache (i + 1) = c.LRUCache i := by
    intro i inside
    simp [LRUCacheFDCache.addToFront, inside]
  refine ⟨⟨?_, ?_⟩, ?_, ?_, ?_⟩
  · simp [LRUCacheFDCache.addToFront, Nat.ne_of_gt size, h.last]
  · rintro (_ | i) hi (_ | j) hj used used' same
    · rfl
    · rw [first, moved j hj] at same
      rw [Used, moved j hj] at used'
      exact absurd same.symm (new j hj used')
    · rw [first, moved i hi] at same
      rw [Used, moved i hi] at used
      exact absurd same (new i hi used)
    · rw [moved i hi, moved j hj] at same
      rw [Used, moved i hi] at used
      rw [Used, moved j hj] at used'
      rw [h.once i (by omega) j (by omega) used used' same]
  · rintro (_ | i) (_ | j) le inside used
    · exact used
    · exact nofun
    · omega
    · rw [Used, moved j inside] at used
      rw [Used, moved i (by omega)]
      exact h.front i j (by omega) (by omega) used
  · rintro (_ | i) inside unused
    · exact absurd nofun unused
    · rw [Used, moved i inside] at unused
      rw [moved i inside]
      exact h.zero i (by omega) unused
  · rintro (_ | i) inside used
    · exact ⟨d, held, rfl⟩
    · rw [Used, moved i inside] at used
      rw [moved i inside]
      exact h.held i (by omega) used

theorem slot_eq_none (h : c.slot LRUSize fd = none) : ∀ i < LRUSize, (c.LRUCache i).1 ≠ fd := by
  intro i inside
  simpa using List.find?_eq_none.mp h i (List.mem_range.mpr inside)

theorem slot_eq_some {i : Nat} (h : c.slot LRUSize fd = some i) : i < LRUSize ∧ (c.LRUCache i).1 = fd :=
  ⟨List.mem_range.mp (List.mem_of_find?_eq_some h), by simpa using List.find?_some h⟩

theorem Coherent.findHandler (h : c.Coherent LRUSize) (size : 0 < LRUSize) (cached : fd = 0 → c.Used 0)
    (middle : ∀ i, 0 < i → i + 1 < LRUSize → (c.LRUCache i).1 = fd → ¬c.Used i) :
    c.findHandler LRUSize fd = (.addAndRunHandler, c) ∧ (∀ i < LRUSize, c.Used i → (c.LRUCache i).1 ≠ fd) ∨
      ∃ d c', c.findHandler LRUSize fd = (.device d, c') ∧ c.FDToHandler fd = some d ∧ c'.Coherent LRUSize := by
  unfold LRUCacheFDCache.findHandler
  cases found : c.slot LRUSize fd with
  | none => exact .inl ⟨by rw [← h.last], fun i inside _ => slot_eq_none found i inside⟩
  | some i =>
    obtain ⟨inside, same⟩ := slot_eq_some found
    dsimp only
    by_cases used : c.Used i
    · obtain ⟨d, held, handler⟩ := h.held i inside used
      rw [same] at held
      rw [handler]
      refine .inr ⟨d, ?_⟩
      by_cases first : i = 0
      · subst first
        exact ⟨c, by simp [handler], held, h⟩
      · refine ⟨_, by simp [first], held, h.addToFront held (fun j below used' same' => ?_) size⟩
        have := h.once j (by omega) i inside used' used (same'.trans same.symm)
        exact middle i (by omega) (by omega) same used
    · have zero := h.zero i inside used
      have later : i ≠ 0 := by
        rintro rfl
        exact used (cached (same.symm.trans zero))
      refine .inl ⟨?_, ?_⟩
      · rw [if_pos (.inr (not_not.mp used)), if_neg later, h.last]
      · intro j below used' same'
        rcases Nat.lt_or_ge j i with lt | ge
        · have earlier := List.find?_range_eq_some.mp found
          exact absurd same' (by simpa using earlier.2.2 j lt)
        · exact used (h.front i j ge below used')

theorem Coherent.assignDeviceTypeToFD {name : Option String} (h : c.Coherent LRUSize)
    (agrees : c.Agrees LRUSize fd (name.bind deviceOf)) : (c.assignDeviceTypeToFD fd name).Coherent LRUSize := by
  unfold LRUCacheFDCache.assignDeviceTypeToFD
  split
  · rename_i same
    rw [same] at agrees
    exact h.setFDHandler agrees
  · exact h

/-- One step keeps the invariant, and a command is answered. -/
theorem Coherent.step (h : c.Coherent LRUSize) (size : 0 < LRUSize) {event : Event} (allowed : c.Allows LRUSize event) :
    (c.step LRUSize event).Coherent LRUSize ∧ ∀ fd name, event = .command fd name → c.Answers LRUSize fd := by
  cases event with
  | version fd name => exact ⟨h.assignDeviceTypeToFD allowed, nofun⟩
  | duplicate fd newFD =>
    refine ⟨?_, nofun⟩
    have agrees : c.Agrees LRUSize newFD (c.FDToHandler fd) := allowed
    change (c.duplicateFD fd newFD).Coherent LRUSize
    unfold duplicateFD
    cases held : c.FDToHandler fd with
    | none => exact h
    | some d => exact h.setFDHandler (held ▸ agrees)
  | command fd name =>
    unfold LRUCacheFDCache.step Answers
    rcases h.findHandler size allowed.1 allowed.2 with ⟨found, new⟩ | ⟨d, c', found, held, coherent⟩
    · refine ⟨?_, fun fd' _ same => by cases same; exact .inl (by rw [found])⟩
      dsimp only
      rw [found, if_pos rfl]
      unfold addAndRunMapHandler
      split
      · rename_i d held
        exact h.addToFront held (fun i inside used => new i (by omega) used) size
      · exact h.assignDeviceTypeToFD fun _ _ i inside same used => absurd same (new i inside used)
    · refine ⟨?_, fun fd' _ same => by cases same; exact .inr ⟨d, held, by rw [found]⟩⟩
      dsimp only
      rw [found, if_neg nofun]
      exact coherent

theorem Coherent.run (size : 0 < LRUSize) (before after : List Event) : ∀ {c : LRUCacheFDCache}, c.Coherent LRUSize →
    AllowsAll LRUSize c (before ++ after) →
      (c.run LRUSize before).Coherent LRUSize ∧ AllowsAll LRUSize (c.run LRUSize before) after := by
  induction before with
  | nil => exact fun h allowed => ⟨h, allowed⟩
  | cons event before ih => exact fun h allowed => ih (h.step size allowed.1).1 allowed.2

/-- In every run that meets the condition the commands are answered and no descriptor is cached twice. -/
theorem drmCache_holds (LRUSize : Nat) (size : 0 < LRUSize) (events : List Event)
    (allowed : AllowsAll LRUSize (initial LRUSize) events) (before after : List Event) (cut : events = before ++ after) :
    ((initial LRUSize).run LRUSize before).Holds LRUSize after := by
  subst cut
  obtain ⟨coherent, allowed⟩ := initial_coherent.run size before after allowed
  refine ⟨coherent.toSound, ?_⟩
  rintro fd name rest rfl
  exact (coherent.step size allowed.1).2 fd name rfl

instance (c : LRUCacheFDCache) (i : Nat) : Decidable (c.Used i) := inferInstanceAs (Decidable (_ ≠ _))

/-- Two devices are opened and cached. A duplicate moves the first one to the last slot, where the next command finds it. -/
def openAndDuplicate : List Event :=
  [.version 5 "amdgpu", .command 5 none, .command 5 none, .version 7 "i915", .command 7 none, .duplicate 7 9,
    .command 9 none, .duplicate 7 9, .version 9 none, .command 5 none]

theorem openAndDuplicate_allowed : AllowsAll 3 (initial 3) (openAndDuplicate ++ [.command 7 none]) := by
  have middle : ∀ (c : LRUCacheFDCache) (fd : FD), ((c.LRUCache 1).1 = fd → ¬c.Used 1) →
      ∀ i, 0 < i → i + 1 < 3 → (c.LRUCache i).1 = fd → ¬c.Used i := by
    intro c fd h i pos inside
    obtain rfl : i = 1 := by omega
    exact h
  have agrees : ∀ (c : LRUCacheFDCache) (fd : FD) (handler : Option Device),
      (∀ d ∈ handler, ∀ i < 3, (c.LRUCache i).1 = fd → c.Used i → (c.LRUCache i).2 = .device d) → c.Agrees 3 fd handler :=
    fun _ _ _ h => h
  refine ⟨?_, ⟨by decide, middle _ _ ?_⟩, ⟨by decide, middle _ _ ?_⟩, ?_, ⟨by decide, middle _ _ ?_⟩, ?_,
    ⟨by decide, middle _ _ ?_⟩, ?_, ?_, ⟨by decide, middle _ _ ?_⟩, ⟨by decide, middle _ _ ?_⟩, trivial⟩
  all_goals first | decide | (refine agrees _ _ _ ?_; decide)

theorem drmCache_holds_openAndDuplicate : ((initial 3).run 3 openAndDuplicate).Holds 3 [.command 7 none] :=
  drmCache_holds 3 (by decide) _ openAndDuplicate_allowed _ _ rfl

/-- The unused slots hold descriptor 0 and no handler. -/
theorem drmCache_null : ¬∀ (events before after : List Event), events = before ++ after →
    ((initial 3).run 3 before).Holds 3 after := by
  intro all
  have answers := (all [.command 0 none] [] _ rfl).2 0 none [] rfl
  have null : ((initial 3).findHandler 3 0).1 = .null := by decide
  change ((initial 3).findHandler 3 0).1 = _ ∨ ∃ d, _ ∧ ((initial 3).findHandler 3 0).1 = _ at answers
  rw [null] at answers
  simp at answers

end LRUCacheFDCache

end FexEmu.X32.DrmCache
