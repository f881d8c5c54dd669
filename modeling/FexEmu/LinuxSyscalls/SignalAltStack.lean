import FexEmu.Data.ByteMemory
/-!
# The alternate signal stack

`RegisterGuestSigAltStack` and the stack of `HandleGuestSignal`, beside what Linux keeps and answers.
-/
namespace FexEmu.LinuxSyscalls.AltStack

open ByteMemory

/-- `stack_t`. -/
structure StackT where
  ss_sp : BitVec 64
  ss_flags : BitVec 32
  ss_size : BitVec 64
  deriving DecidableEq

def SS_ONSTACK : BitVec 32 := 1
def SS_DISABLE : BitVec 32 := 2
def SS_AUTODISARM : BitVec 32 := 0x80000000
def X86_MINSIGSTKSZ : BitVec 64 := 0x2000
def EPERM : Int := 1
def ENOMEM : Int := 12
def EINVAL : Int := 22

/-- A call of `sigaltstack` with the memory that its pointers go into, or a signal with a handler, at a guest stack pointer. -/
inductive Event
  | sigaltstack (m : Memory) (ss old_ss : BitVec 64) (guestSP : BitVec 64)
  | signal (saOnStack : Bool) (guestSP : BitVec 64)

/-- The result of a call and the old stack it stores, or the top of a frame's stack. -/
inductive Answer
  | returned (result : Int) (old : Option StackT)
  | frame (top : BitVec 64)
  deriving DecidableEq

namespace StackT

def load (m : Memory) (p : BitVec 64) : StackT := ⟨read m p 64, read m (p + 8) 32, read m (p + 16) 64⟩

def store (s : StackT) (m : Memory) (p : BitVec 64) : Memory :=
  write (write (write m p s.ss_sp) (p + 8) s.ss_flags) (p + 16) s.ss_size

/-- A pointer may be null. -/
def loadIf (m : Memory) (p : BitVec 64) : Option StackT := if p = 0 then none else some (load m p)

def disabled (s : StackT) : Bool := s.ss_flags &&& SS_DISABLE ≠ 0

/-- `GuestSP >= AltStackBase && GuestSP <= AltStackEnd`, in both files. -/
def covers (s : StackT) (guestSP : BitVec 64) : Bool := s.ss_sp ≤ guestSP && guestSP ≤ s.ss_sp + s.ss_size

def usingAltStack (s : StackT) (guestSP : BitVec 64) : Bool := !s.disabled && s.covers guestSP

end StackT

/-- What is left of the flags is none that may be passed. -/
def invalidFlags (flags : BitVec 32) : Bool := (flags &&& ~~~SS_ONSTACK) &&& ~~~(SS_AUTODISARM ||| SS_DISABLE) ≠ 0

/-- The part of `RegisterGuestSigAltStack` that assigns a new stack. -/
def assign (guestAltStack : StackT) (guestSP : BitVec 64) (ss : StackT) : StackT × Int :=
  if guestAltStack.usingAltStack guestSP then (guestAltStack, -EPERM)
  else if invalidFlags ss.ss_flags then (guestAltStack, -EINVAL)
  else if ss.disabled then (ss, 0)
  else if ss.ss_size < X86_MINSIGSTKSZ then (guestAltStack, -ENOMEM)
  else (ss, 0)

/-- What is stored at `old_ss`. -/
def reported (guestAltStack : StackT) (guestSP : BitVec 64) : StackT :=
  { guestAltStack with ss_flags := guestAltStack.ss_flags |||
      if guestAltStack.usingAltStack guestSP then SS_ONSTACK else SS_DISABLE }

/-- The old stack is stored before the new one is loaded. -/
def registerGuestSigAltStack (guestAltStack : StackT) (m : Memory) (ss old_ss : BitVec 64) (guestSP : BitVec 64) :
    StackT × Answer :=
  let old := reported guestAltStack guestSP
  let m := if old_ss = 0 then m else old.store m old_ss
  let r : StackT × Int := match StackT.loadIf m ss with
    | none => (guestAltStack, 0)
    | some ss => assign guestAltStack guestSP ss
  (r.1, .returned r.2 (if old_ss = 0 then none else some old))

def step (guestAltStack : StackT) : Event → StackT × Answer
  | .sigaltstack m ss old_ss guestSP => registerGuestSigAltStack guestAltStack m ss old_ss guestSP
  | .signal saOnStack guestSP =>
    (guestAltStack, .frame (if saOnStack && !guestAltStack.disabled && !guestAltStack.covers guestSP then
      guestAltStack.ss_sp + guestAltStack.ss_size else guestSP))

/-! ## Linux -/

namespace Linux

def MINSIGSTKSZ : BitVec 64 := 2048

def autodisarm (k : StackT) : Bool := k.ss_flags &&& SS_AUTODISARM ≠ 0

def onSigStack (k : StackT) (sp : BitVec 64) : Bool := !autodisarm k && (k.ss_sp < sp && sp - k.ss_sp ≤ k.ss_size)

def sasSSFlags (k : StackT) (sp : BitVec 64) : BitVec 32 :=
  if k.ss_size = 0 then SS_DISABLE else if onSigStack k sp then SS_ONSTACK else 0

/-- The stack after a call that sets one, and its result. -/
def setStack (k : StackT) (sp : BitVec 64) (ss : StackT) : StackT × Int :=
  let mode := ss.ss_flags &&& ~~~SS_AUTODISARM
  if onSigStack k sp then (k, -EPERM)
  else if mode ≠ SS_DISABLE ∧ mode ≠ SS_ONSTACK ∧ mode ≠ 0 then (k, -EINVAL)
  else if mode = SS_DISABLE then (⟨0, ss.ss_flags, 0⟩, 0)
  else if ss.ss_size < MINSIGSTKSZ then (k, -ENOMEM)
  else (ss, 0)

/-- The new stack is loaded first, and the old one goes to the caller only with a call that succeeds. A signal takes a stack
with `SS_AUTODISARM` away. -/
def step (k : StackT) : Event → StackT × Answer
  | .sigaltstack m ss old_ss sp =>
    let r : StackT × Int := match StackT.loadIf m ss with
      | none => (k, 0)
      | some ss => setStack k sp ss
    (r.1, .returned r.2 (if r.2 = 0 ∧ old_ss ≠ 0 then
      some ⟨k.ss_sp, sasSSFlags k sp ||| (k.ss_flags &&& SS_AUTODISARM), k.ss_size⟩ else none))
  | .signal saOnStack sp =>
    (if autodisarm k then ⟨0, SS_DISABLE, 0⟩ else k,
      .frame (if saOnStack ∧ sasSSFlags k sp = 0 then k.ss_sp + k.ss_size else sp))

end Linux

/-! ## Runs -/

/-- The answers to a sequence of events and the stack behind it. -/
def run (step : StackT → Event → StackT × Answer) : StackT → List Event → List Answer × StackT
  | s, [] => ([], s)
  | s, e :: events => ((step s e).2 :: (run step (step s e).1 events).1, (run step (step s e).1 events).2)

def initial : StackT := ⟨0, SS_DISABLE, 0⟩

/-- What Linux has where `RegisterGuestSigAltStack` keeps this stack. -/
def kernelOf (s : StackT) : StackT := if s.disabled then ⟨0, s.ss_flags, 0⟩ else s

/-- The stacks that are ever stored. -/
structure Stored (s : StackT) : Prop where
  flags : invalidFlags s.ss_flags = false
  size : s.disabled = false → X86_MINSIGSTKSZ ≤ s.ss_size

/-- An enabled stack's test answers as the kernel's. -/
def SameTest (s : StackT) (sp : BitVec 64) : Prop := s.disabled = false → s.covers sp = Linux.onSigStack s sp

/-- The old stack is reported as Linux does: a disabled one is empty and without `SS_ONSTACK`, an enabled one in
use. -/
def SameReport (s : StackT) (sp : BitVec 64) : Prop :=
  if s.disabled then s.ss_sp = 0 ∧ s.ss_size = 0 ∧ s.ss_flags &&& SS_ONSTACK = 0 else s.covers sp = true

/-- The flags are not both of `SS_ONSTACK` and `SS_DISABLE`, and the size is not between the two minimums. -/
def SameSet (ss : StackT) : Prop :=
  ¬(ss.disabled ∧ ss.ss_flags &&& SS_ONSTACK ≠ 0) ∧
  (ss.disabled = false → ss.ss_size < Linux.MINSIGSTKSZ ∨ X86_MINSIGSTKSZ ≤ ss.ss_size)

/-- The condition on a step: a call that fails asks for no old stack besides, and the old stack is not stored over a new one
that is another. -/
def Meets (s : StackT) : Event → Prop
  | .sigaltstack m ss old_ss sp => SameTest s sp ∧ (old_ss ≠ 0 → SameReport s sp) ∧
    ∀ new, StackT.loadIf m ss = some new → (s.usingAltStack sp = false → invalidFlags new.ss_flags = false → SameSet new) ∧
      (old_ss ≠ 0 → StackT.load ((reported s sp).store m old_ss) ss = new ∧ s.disabled ∧
        invalidFlags new.ss_flags = false ∧ (new.disabled ∨ X86_MINSIGSTKSZ ≤ new.ss_size))
  | .signal saOnStack sp => Linux.autodisarm s = false ∧ (saOnStack → SameTest s sp)

/-- All steps of a run meet it. -/
def AllMeet : StackT → List Event → Prop
  | _, [] => True
  | s, e :: events => Meets s e ∧ AllMeet (step s e).1 events

/-! ## Memory -/

theorem read_store_apart (s : StackT) (m : Memory) {p a : BitVec 64} {w : Nat} (h : Apart p 24 a ((w + 7) / 8))
    (pos : 0 < w) (hw : w ≤ 2 ^ 64) : read (s.store m p) a w = read m a w := by
  have part (d : BitVec 64) (n : Nat) (inside : d.toNat + n ≤ 24) (some : 0 < n) : Apart (p + d) n a ((w + 7) / 8) :=
    h.inside (by rwa [add_sub_cancel_left]) (by simp) some (by omega)
  unfold StackT.store
  rw [read_write_apart _ (part 16 8 (by decide) (by decide)) hw, read_write_apart _ (part 8 4 (by decide) (by decide)) hw,
    read_write_apart _ (by simpa using part 0 8 (by decide) (by decide)) hw]

theorem load_store_apart (s : StackT) (m : Memory) {p q : BitVec 64} (h : Apart p 24 q 24) :
    StackT.load (s.store m p) q = StackT.load m q := by
  have part (d : BitVec 64) (n : Nat) (inside : d.toNat + n ≤ 24) (some : 0 < n) : Apart p 24 (q + d) n :=
    h.inside (by simp) (by rwa [add_sub_cancel_left]) (by decide) some
  unfold StackT.load
  rw [read_store_apart s m (by simpa using part 0 8 (by decide) (by decide)) (by decide) (by decide),
    read_store_apart s m (part 8 4 (by decide) (by decide)) (by decide) (by decide),
    read_store_apart s m (part 16 8 (by decide) (by decide)) (by decide) (by decide)]

theorem load_store (s : StackT) (m : Memory) (p : BitVec 64) : StackT.load (s.store m p) p = s := by
  have apart (c d : BitVec 64) (n k : Nat) (h : n ≤ (d - c).toNat ∧ k ≤ (c - d).toNat) : Apart (p + c) n (p + d) k :=
    (apart_offset c d).mpr h
  unfold StackT.load StackT.store
  rw [read_write_apart _ (by simpa using apart 16 0 8 8 (by decide)) (by decide),
    read_write_apart _ (by simpa using apart 8 0 4 8 (by decide)) (by decide), read_write _ (by decide),
    read_write_apart _ (apart 16 8 8 4 (by decide)) (by decide), read_write _ (by decide), read_write _ (by decide)]

/-! ## Steps -/

theorem flags_cases (flags : BitVec 32) (h : invalidFlags flags = false) :
    flags = 0#32 ∨ flags = 1#32 ∨ flags = 2#32 ∨ flags = 3#32 ∨ flags = 0x80000000#32 ∨ flags = 0x80000001#32 ∨
      flags = 0x80000002#32 ∨ flags = 0x80000003#32 := by
  have none_else : flags &&& 0x7FFFFFFC#32 = 0#32 := by
    simpa [invalidFlags, BitVec.and_assoc, SS_ONSTACK, SS_AUTODISARM, SS_DISABLE] using h
  have split : flags = (flags &&& BitVec.twoPow 32 0) ||| (flags &&& BitVec.twoPow 32 1)
      ||| (flags &&& BitVec.twoPow 32 31) ||| (flags &&& 0x7FFFFFFC#32) := by
    simp only [← BitVec.and_or_distrib_left]
    rw [show BitVec.twoPow 32 0 ||| BitVec.twoPow 32 1 ||| BitVec.twoPow 32 31 ||| 0x7FFFFFFC#32
      = BitVec.allOnes 32 by decide, BitVec.and_allOnes]
  rw [none_else] at split
  simp only [BitVec.and_twoPow] at split
  rw [split]
  cases flags.getLsbD 0 <;> cases flags.getLsbD 1 <;> cases flags.getLsbD 31 <;> decide

/-- How the reports agree on flags that may be stored, and what their modes are. -/
theorem flags_spec (flags : BitVec 32) (h : invalidFlags flags = false) :
    (flags &&& SS_DISABLE ≠ 0 → flags &&& SS_ONSTACK = 0 →
      SS_DISABLE ||| (flags &&& SS_AUTODISARM) = flags ||| SS_DISABLE ∧ flags &&& ~~~SS_AUTODISARM = SS_DISABLE) ∧
    (flags &&& SS_DISABLE = 0 → SS_ONSTACK ||| (flags &&& SS_AUTODISARM) = flags ||| SS_ONSTACK ∧
      flags &&& ~~~SS_AUTODISARM ≠ SS_DISABLE ∧
      (flags &&& ~~~SS_AUTODISARM = SS_ONSTACK ∨ flags &&& ~~~SS_AUTODISARM = 0)) := by
  obtain rfl | rfl | rfl | rfl | rfl | rfl | rfl | rfl := flags_cases flags h <;> decide

theorem mode_valid (flags mode : BitVec 32) (h : flags &&& ~~~SS_AUTODISARM = mode)
    (one : mode = SS_DISABLE ∨ mode = SS_ONSTACK ∨ mode = 0) : invalidFlags flags = false := by
  have moved : (flags &&& ~~~SS_ONSTACK) &&& ~~~(SS_AUTODISARM ||| SS_DISABLE)
      = (flags &&& ~~~SS_AUTODISARM) &&& (~~~SS_ONSTACK &&& ~~~SS_DISABLE) := by
    ac_rfl
  rw [invalidFlags, moved, h]
  obtain rfl | rfl | rfl := one <;> decide

theorem onSigStack_kernelOf {s : StackT} {sp : BitVec 64} (same : SameTest s sp) :
    Linux.onSigStack (kernelOf s) sp = s.usingAltStack sp := by
  cases h : s.disabled with
  | true =>
    have empty : ¬((0#64 < sp) ∧ sp - 0#64 ≤ 0#64) := by bv_omega
    simpa [kernelOf, h, Linux.onSigStack, StackT.usingAltStack] using fun _ => not_and.mp empty
  | false => simp [kernelOf, h, StackT.usingAltStack, same h]

section Step
variable {s : StackT} {sp : BitVec 64} (stored : Stored s)
include stored

theorem sasSSFlags_kernelOf (same : SameTest s sp) : Linux.sasSSFlags (kernelOf s) sp
    = if s.disabled then SS_DISABLE else if s.usingAltStack sp then SS_ONSTACK else 0 := by
  rw [Linux.sasSSFlags, onSigStack_kernelOf same]
  cases h : s.disabled with
  | true => simp [kernelOf, h]
  | false =>
    have nonempty : ¬s.ss_size = 0 := fun zero => absurd (zero ▸ stored.size h) (by decide)
    rw [kernelOf, h, if_neg Bool.false_ne_true, if_neg nonempty, if_neg Bool.false_ne_true]

theorem report_kernelOf (same : SameTest s sp) (report : SameReport s sp) :
    (⟨(kernelOf s).ss_sp, Linux.sasSSFlags (kernelOf s) sp ||| ((kernelOf s).ss_flags &&& SS_AUTODISARM),
      (kernelOf s).ss_size⟩ : StackT) = reported s sp := by
  rw [sasSSFlags_kernelOf stored same, reported]
  obtain ⟨off, on⟩ := flags_spec s.ss_flags stored.flags
  unfold SameReport at report
  cases h : s.disabled with
  | true =>
    rw [if_pos h] at report
    obtain ⟨no_sp, no_size, not_on⟩ := report
    simp [kernelOf, h, StackT.usingAltStack, (off (by simpa [StackT.disabled] using h) not_on).1, no_sp, no_size]
  | false =>
    rw [h, if_neg Bool.false_ne_true] at report
    simp [kernelOf, h, StackT.usingAltStack, report, (on (by simpa [StackT.disabled] using h)).1]

theorem assign_follows (same : SameTest s sp) (new : StackT)
    (set : s.usingAltStack sp = false → invalidFlags new.ss_flags = false → SameSet new) :
    Linux.setStack (kernelOf s) sp new = (kernelOf (assign s sp new).1, (assign s sp new).2) ∧
      Stored (assign s sp new).1 := by
  unfold Linux.setStack assign
  rw [onSigStack_kernelOf same]
  cases inUse : s.usingAltStack sp with
  | true => simpa using stored
  | false =>
    cases invalid : invalidFlags new.ss_flags with
    | true =>
      have mode (m : BitVec 32) (one : m = SS_DISABLE ∨ m = SS_ONSTACK ∨ m = 0) :
          new.ss_flags &&& ~~~SS_AUTODISARM ≠ m := fun eq => by simp [mode_valid _ m eq one] at invalid
      simp only [Bool.false_eq_true, if_false, if_true]
      rw [if_pos ⟨mode _ (.inl rfl), mode _ (.inr (.inl rfl)), mode _ (.inr (.inr rfl))⟩]
      exact ⟨rfl, stored⟩
    | false =>
      obtain ⟨off, on⟩ := flags_spec new.ss_flags invalid
      obtain ⟨not_both, size⟩ := set inUse invalid
      cases h : new.disabled with
      | true =>
        have mode := (off (by simpa [StackT.disabled] using h) (by simpa [h] using not_both)).2
        refine ⟨by simp [mode, kernelOf, h], ?_⟩
        simpa using (⟨invalid, fun enabled => by simp [h] at enabled⟩ : Stored new)
      | false =>
        obtain ⟨-, not_off, mode⟩ := on (by simpa [StackT.disabled] using h)
        have refused : (new.ss_size < Linux.MINSIGSTKSZ) ↔ new.ss_size < X86_MINSIGSTKSZ := by
          have := size h
          simp only [Linux.MINSIGSTKSZ, X86_MINSIGSTKSZ] at this ⊢
          bv_omega
        have passed : ¬(new.ss_flags &&& ~~~SS_AUTODISARM ≠ SS_DISABLE ∧ new.ss_flags &&& ~~~SS_AUTODISARM ≠ SS_ONSTACK ∧
            new.ss_flags &&& ~~~SS_AUTODISARM ≠ 0) := by
          rintro ⟨-, not_on, not_zero⟩
          exact mode.elim not_on not_zero
        simp only [Bool.false_eq_true, if_false]
        rw [if_neg passed, if_neg not_off]
        by_cases small : new.ss_size < X86_MINSIGSTKSZ
        · rw [if_pos small, if_pos (refused.mpr small)]
          exact ⟨rfl, stored⟩
        · rw [if_neg small, if_neg (mt refused.mp small)]
          exact ⟨by simp [kernelOf, h], invalid, fun _ => by simpa using small⟩

end Step

theorem step_follows (s : StackT) (e : Event) (stored : Stored s) (meets : Meets s e) :
    Linux.step (kernelOf s) e = (kernelOf (step s e).1, (step s e).2) ∧ Stored (step s e).1 := by
  cases e with
  | signal saOnStack sp =>
    obtain ⟨armed, same⟩ := meets
    -- a frame that would disarm the stack is shut out
    have armed' : Linux.autodisarm (kernelOf s) = false := by
      unfold kernelOf
      split <;> exact armed
    refine ⟨?_, stored⟩
    cases saOnStack with
    | false => simp [Linux.step, step, armed']
    | true =>
      have flags := sasSSFlags_kernelOf stored (same rfl)
      cases h : s.disabled with
      | true => simp [Linux.step, step, armed', flags, h, SS_DISABLE]
      | false =>
        have plain : kernelOf s = s := by simp [kernelOf, h]
        rw [plain] at flags armed' ⊢
        cases inUse : s.covers sp <;>
          simp [Linux.step, step, armed', flags, h, inUse, StackT.usingAltStack, SS_ONSTACK, plain]
  | sigaltstack m ss old_ss sp =>
    obtain ⟨same, report, set⟩ := meets
    unfold step Linux.step registerGuestSigAltStack
    cases hnew : StackT.loadIf m ss with
    | none =>
      have null : ss = 0 := by
        by_contra h
        rw [StackT.loadIf, if_neg h] at hnew
        cases hnew
      subst null
      by_cases asked : old_ss = 0
      · simpa [StackT.loadIf, asked] using stored
      · simpa [StackT.loadIf, asked, report_kernelOf stored same (report asked)] using stored
    | some new =>
      obtain ⟨followed, stored'⟩ := assign_follows stored same new (set new hnew).1
      by_cases asked : old_ss = 0
      · simpa [asked, hnew, followed] using stored'
      · obtain ⟨kept, off, valid, fits⟩ := (set new hnew).2 asked
        have done : (assign s sp new).2 = 0 := by
          cases h : new.disabled with
          | true => simp [assign, StackT.usingAltStack, off, valid, h]
          | false =>
            have large : ¬new.ss_size < X86_MINSIGSTKSZ := by simpa [h] using fits
            simp [assign, StackT.usingAltStack, off, valid, h, large]
        -- the old stack is stored first, and what is loaded behind it is still the new one
        have loaded : StackT.loadIf ((reported s sp).store m old_ss) ss = some new := by
          by_cases null : ss = 0
          · simp [StackT.loadIf, null] at hnew
          · rw [StackT.loadIf, if_neg null, kept]
        have asked' : ¬old_ss = 0#64 := asked
        simpa [hnew, asked', followed, done, loaded, report_kernelOf stored same (report asked)] using stored'

theorem run_follows (events : List Event) (s : StackT) (stored : Stored s) (meets : AllMeet s events) :
    run Linux.step (kernelOf s) events = ((run step s events).1, kernelOf (run step s events).2) := by
  induction events generalizing s with
  | nil => rfl
  | cons e events ih =>
    obtain ⟨same, stored'⟩ := step_follows s e stored meets.1
    rw [run, run, same, ih _ stored' meets.2]

/-- A run all of whose steps meet the condition has the answers that Linux gives, and leaves the stack it keeps. -/
theorem sigaltstack_follows_linux (events : List Event) (meets : AllMeet initial events) :
    run Linux.step initial events = ((run step initial events).1, kernelOf (run step initial events).2) :=
  run_follows events initial ⟨rfl, fun enabled => by cases enabled⟩ meets

def enabledStack : StackT := ⟨0x10000, 0, 0x4000⟩

/-- The stack stands at `0x100`. -/
def stackAt : Memory := enabledStack.store (fun _ => 0) 0x100

theorem sigaltstack_in_use : run Linux.step initial
      [.sigaltstack stackAt 0x100 0x200 0x5000, .sigaltstack stackAt 0 0x100 0x12000, .signal true 0x12000]
    = ([.returned 0 (some initial), .returned 0 (some ⟨0x10000, SS_ONSTACK, 0x4000⟩), .frame 0x12000], enabledStack) := by
  have given : StackT.load stackAt 0x100 = enabledStack := load_store _ _ _
  have kept (s : StackT) : StackT.load (s.store stackAt 0x200) 0x100 = enabledStack :=
    (load_store_apart s stackAt ⟨by decide, by decide⟩).trans given
  have first : step initial (.sigaltstack stackAt 0x100 0x200 0x5000) = (enabledStack, .returned 0 (some initial)) := by
    rw [step, registerGuestSigAltStack, if_neg (by decide), StackT.loadIf, if_neg (by decide), kept]
    decide
  rw [sigaltstack_follows_linux]
  · rw [run, first]
    decide
  refine ⟨⟨nofun, fun _ => by rw [SameReport]; decide, fun new same => ?_⟩, ?_⟩
  · rw [StackT.loadIf, if_neg (by decide), given] at same
    obtain rfl := Option.some.inj same
    exact ⟨fun _ _ => ⟨by decide, by decide⟩, fun _ => ⟨kept _, by decide⟩⟩
  · rw [first]
    exact ⟨⟨fun _ => by decide, fun _ => by rw [SameReport]; decide, nofun⟩, ⟨by decide, fun _ _ => by decide⟩, trivial⟩

/-- An enabled stack that is not in use is reported as disabled. -/
theorem sigaltstack_reports_disabled :
    ¬∀ events : List Event, (run step initial events).1 = (run Linux.step initial events).1 := by
  intro all
  have same := all [.sigaltstack stackAt 0x100 0 0x5000, .sigaltstack stackAt 0 0x200 0x5000]
  have set : (step initial (.sigaltstack stackAt 0x100 0 0x5000)).1 = enabledStack ∧
      (Linux.step initial (.sigaltstack stackAt 0x100 0 0x5000)).1 = enabledStack := by
    rw [step, registerGuestSigAltStack, if_pos rfl, Linux.step, StackT.loadIf, if_neg (by decide), stackAt, load_store]
    decide
  simp only [run, set.1, set.2] at same
  exact absurd (List.cons.inj same).2 (by decide)

/-- With one pointer for both, the old stack is set again. -/
theorem sigaltstack_one_pointer (s : StackT) (m : Memory) (p sp : BitVec 64) (h : p ≠ 0) :
    (step s (.sigaltstack m p p sp)).1 = (assign s sp (reported s sp)).1 := by
  rw [step, registerGuestSigAltStack, if_neg h, StackT.loadIf, if_neg h, load_store]

end FexEmu.LinuxSyscalls.AltStack
