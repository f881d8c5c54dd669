import Mathlib.Data.BitVec
import Mathlib.Tactic
/-!
# `select` of a 32-bit guest

The handlers read the guest's sets word by word into host sets, and write the host's answer back bit by bit.
-/
namespace FexEmu.X32.Select

/-- The three handlers have one body. They differ in the guest's time and in the mask. -/
inductive Call
  | select | pselect6 | pselect6_time64
  deriving DecidableEq

def Call.timeBits : Call → Nat
  | .select | .pselect6 => 32
  | .pselect6_time64 => 64

/-- The three sets of select. -/
inductive Which
  | readfds | writefds | exceptfds

/-- The words from a pointer of the guest on. -/
abbrev fd_set32 := Nat → BitVec 32

/-- The bits by their descriptor. Those below `FD_SETSIZE` are inside. -/
abbrev fd_set := Int → Bool

structure sigset_argpack32 where
  sigset : Option (BitVec 64)
  size : BitVec 32

/-- The guest's arguments. -/
structure Args (c : Call) where
  nfds : BitVec 32
  sets : Which → Option fd_set32
  timeout : Option (BitVec c.timeBits × BitVec c.timeBits)
  /-- `select` has no such argument. -/
  sigmaskpack : Option sigset_argpack32

/-- The request that the kernel gets. -/
structure Request where
  nfds : BitVec 32
  sets : Which → Option fd_set
  timeout : Option (BitVec 64 × BitVec 64)
  mask : Option (BitVec 64)

/-- What the host's call returns and leaves behind its pointers. -/
structure Answer where
  result : Except Nat Nat
  sets : Which → fd_set
  timeout : BitVec 64 × BitVec 64

/-- A word of the guest's set or a bit of the host's. -/
inductive Access
  | word (i : Nat)
  | bit (n : Int)

/-- What the handler asks the kernel, returns, stores and reads. -/
structure Outcome (c : Call) where
  request : Request
  result : Int
  sets : Which → Option fd_set32
  timeout : Option (BitVec c.timeBits × BitVec c.timeBits)
  accesses : Which → List Access

section
variable (nfds : BitVec 32)

def alignUp (value size : BitVec 64) : BitVec 64 := value + (size - value % size) % size

def numWords : Nat := (alignUp (nfds.signExtend 64) 32 / 4).toNat % 2 ^ 32

/-- The arguments of `FD_SET` for one word. The difference to `nfds` wraps. -/
def wordBits (guest : fd_set32) (i : Nat) : List Int :=
  ((List.range (min 32 (nfds - BitVec.ofNat 32 (i * 32)).toInt.toNat)).filter (guest i).getLsbD).map
    fun j => (BitVec.ofNat 32 (i * 32 + j)).toInt

def bitsSet (guest : fd_set32) : List Int := (List.range (numWords nfds)).flatMap (wordBits nfds guest)

def hostSet (guest : fd_set32) : fd_set := fun n => decide (n ∈ bitsSet nfds guest)

def copyBit (host : fd_set) (guest : fd_set32) (i : Nat) : fd_set32 :=
  Function.update guest (i / 32) (if host i then guest (i / 32) ||| 1#32 <<< (i % 32)
    else guest (i / 32) &&& ~~~(1#32 <<< (i % 32)))

def copyBack (host : fd_set) (guest : fd_set32) : fd_set32 :=
  (List.range nfds.toInt.toNat).foldl (copyBit host) guest

def accesses (guest : fd_set32) : List Access :=
  (List.range (numWords nfds)).map .word ++ (bitsSet nfds guest).map .bit ++
    (List.range nfds.toInt.toNat).flatMap fun i => [.bit i, .word (i / 32)]

end

/-- The mask of the wait, with `sigaddset` of the C library. A shift counts modulo 64. -/
def signalMask (sigaddset : BitVec 64 → Nat → BitVec 64) : Option sigset_argpack32 → BitVec 64
  | some ⟨some sigmask, size⟩ => (List.range (size.toNat * 8)).foldl
      (fun set i => if sigmask &&& 1#64 <<< (i % 64) ≠ 0 then sigaddset set (i + 1) else set) 0
  | _ => 0

variable {c : Call} (sigaddset : BitVec 64 → Nat → BitVec 64) (kernel : Request → Answer) (args : Args c)

def request : Request where
  nfds := args.nfds
  sets := fun w => (args.sets w).map (hostSet args.nfds)
  timeout := args.timeout.map fun t => (t.1.signExtend 64, t.2.signExtend 64)
  mask := if c = .select then none else some (signalMask sigaddset args.sigmaskpack)

def handler : Outcome c :=
  let request := request sigaddset args
  let answer := kernel request
  { request
    result := match answer.result with
      | .ok result => result
      | .error errno => -errno
    sets := fun w => (args.sets w).map (copyBack args.nfds (answer.sets w))
    timeout := args.timeout.map fun _ => (answer.timeout.1.setWidth c.timeBits, answer.timeout.2.setWidth c.timeBits)
    accesses := fun w => (args.sets w).elim [] (accesses args.nfds) }

/-- Descriptor n is in the guest's set. -/
def Has (guest : fd_set32) (n : Nat) : Prop := (guest (n / 32)).getLsbD (n % 32) = true

/-- One set on its way to the host and back. A word is one of the rounded up `nfds / 32` if its first bit is below `nfds`. -/
structure Exact (nfds : BitVec 32) (guest guest' : fd_set32) (host answer : fd_set) (accesses : List Access) : Prop where
  passed : ∀ n : Int, host n = true ↔ ∃ i : Nat, n = i ∧ n < nfds.toInt ∧ Has guest i
  returned : ∀ i : Nat, Has guest' i ↔ if (i : Int) < nfds.toInt then answer i = true else Has guest i
  words : ∀ i : Nat, .word i ∈ accesses → (32 * i : Int) < nfds.toInt
  bits : ∀ n, .bit n ∈ accesses → 0 ≤ n ∧ n < 1024

/-- A signal mask comes with the call. -/
def Args.SuppliesMask : Prop := c ≠ .select ∧ ∃ sigmask size, args.sigmaskpack = some ⟨some sigmask, size⟩

/-- Null sets stay null, the others are translated, and the mask is changed just if there is one. -/
structure Translates (o : Outcome c) : Prop where
  null : ∀ w, args.sets w = none → o.request.sets w = none ∧ o.sets w = none
  exact : ∀ w guest, args.sets w = some guest → ∃ host guest', o.request.sets w = some host ∧ o.sets w = some guest' ∧
    Exact args.nfds guest guest' host ((kernel o.request).sets w) (o.accesses w)
  mask : o.request.mask.isSome ↔ args.SuppliesMask

/-! ## The number of words -/

variable {nfds : BitVec 32}

theorem numWords_eq : numWords nfds = ((if nfds.toNat < 2 ^ 31 then nfds.toNat else nfds.toNat + (2 ^ 64 - 2 ^ 32)) + 31) %
    2 ^ 64 / 32 * 8 % 2 ^ 32 := by
  have bound := nfds.isLt
  have extended : (nfds.signExtend 64).toNat =
      if nfds.toNat < 2 ^ 31 then nfds.toNat else nfds.toNat + (2 ^ 64 - 2 ^ 32) := by
    rw [BitVec.toNat_signExtend, BitVec.toNat_setWidth, BitVec.msb_eq_decide]
    split_ifs <;> simp_all <;> omega
  simp only [numWords, alignUp, BitVec.toNat_udiv, BitVec.toNat_add, BitVec.toNat_umod, BitVec.toNat_sub,
    show (32 : BitVec 64).toNat = 32 from rfl, show (4 : BitVec 64).toNat = 4 from rfl]
  omega

theorem numWords_eq_zero (low : -31 ≤ nfds.toInt) (high : nfds.toInt ≤ 0) : numWords nfds = 0 := by
  rw [BitVec.toInt_eq_toNat_cond] at low high
  rw [numWords_eq]
  split_ifs at * <;> omega

/-- Otherwise the last word that is read lies behind the set. -/
theorem numWords_last (outside : ¬(-31 ≤ nfds.toInt ∧ nfds.toInt ≤ 0)) :
    0 < numWords nfds ∧ nfds.toInt ≤ 32 * (numWords nfds - 1 : Nat) := by
  rw [BitVec.toInt_eq_toNat_cond] at *
  rw [numWords_eq]
  split_ifs at * <;> omega

/-! ## The sets -/

theorem exact_iff (guest : fd_set32) (answer : fd_set) :
    Exact nfds guest (copyBack nfds answer guest) (hostSet nfds guest) answer (accesses nfds guest) ↔
      -31 ≤ nfds.toInt ∧ nfds.toInt ≤ 0 := by
  constructor
  · intro exact
    by_contra outside
    obtain ⟨positive, behind⟩ := numWords_last outside
    have inside := exact.words (numWords nfds - 1) (by simp [accesses]; omega)
    omega
  · rintro ⟨low, high⟩
    have none := numWords_eq_zero low high
    have loop : nfds.toInt.toNat = 0 := by omega
    constructor
    · intro n
      simp only [hostSet, bitsSet, none, List.range_zero, List.flatMap_nil, List.not_mem_nil, decide_false,
        Bool.false_eq_true, false_iff]
      rintro ⟨i, rfl, below, -⟩
      omega
    · intro i
      rw [if_neg (by omega), copyBack, loop]
      rfl
    · simp [accesses, bitsSet, none, loop]
    · simp [accesses, bitsSet, none, loop]

theorem mask_iff : (handler sigaddset kernel args).request.mask.isSome ↔ c ≠ .select := by
  simp only [handler, request]
  split <;> simp [*]

/-- A call is translated exactly when it has no set, or none of its descriptors counts, and a `pselect6` has a mask. -/
theorem select_translates_iff : Translates kernel args (handler sigaddset kernel args) ↔
    ((∀ w, args.sets w = none) ∨ (-31 ≤ args.nfds.toInt ∧ args.nfds.toInt ≤ 0)) ∧ (c = .select ∨ args.SuppliesMask) := by
  have masks : ((handler sigaddset kernel args).request.mask.isSome ↔ args.SuppliesMask) ↔
      (c = .select ∨ args.SuppliesMask) := by
    rw [mask_iff]
    by_cases select : c = .select
    · simp [select, Args.SuppliesMask]
    · simp [select]
  rw [← masks]
  constructor
  · intro translates
    refine ⟨?_, translates.mask⟩
    by_cases all : ∀ w, args.sets w = none
    · exact .inl all
    · push Not at all
      obtain ⟨w, some⟩ := all
      obtain ⟨guest, there⟩ := Option.ne_none_iff_exists'.mp some
      obtain ⟨host, guest', hostIs, guestIs, exact⟩ := translates.exact w guest there
      simp only [handler, request, there, Option.map_some, Option.some.injEq, Option.elim_some] at hostIs guestIs exact
      subst hostIs guestIs
      exact .inr ((exact_iff guest _).mp exact)
  · rintro ⟨sets, mask⟩
    refine ⟨fun w none => ?_, fun w guest there => ?_, mask⟩
    · simp [handler, request, none]
    · refine ⟨_, _, by simp [handler, request, there]; rfl, by simp [handler, there]; rfl, ?_⟩
      rcases sets with none | inside
      · rw [none w] at there
        cases there
      · simp only [handler, there, Option.elim_some]
        exact (exact_iff guest _).mpr inside

/-- For one descriptor 8 words are read. -/
theorem select_reads_behind : ¬∀ (c : Call) (sigaddset : BitVec 64 → Nat → BitVec 64) (kernel : Request → Answer)
    (args : Args c), Translates kernel args (handler sigaddset kernel args) := by
  intro all
  let args : Args .select := ⟨1, fun _ => some fun _ => 0, none, none⟩
  obtain ⟨host, guest', hostIs, guestIs, exact⟩ :=
    (all .select (fun set _ => set) (fun _ => ⟨.ok 0, fun _ _ => false, 0, 0⟩) args).exact .readfds _ rfl
  have inside := exact.words 7 (List.mem_append_left _ (List.mem_append_left _ (List.mem_map_of_mem (by decide))))
  exact absurd inside (by decide)

end FexEmu.X32.Select
