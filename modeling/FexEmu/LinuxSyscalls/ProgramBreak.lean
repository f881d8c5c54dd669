import FexEmu.Data.Widths
import Mathlib.Tactic
/-!
# The program break

`HandleBRK` of `Syscalls.cpp` over the allocator, whose answers are data of a call; `Allowed` are those that it can give.
-/
namespace FexEmu.LinuxSyscalls.Brk

def alignUp (value size : Nat) : Nat := add64 value ((size - value % size) % size)

def MAP_FAILED : Nat := 2 ^ 64 - 1

/-- An address, or `errno`. -/
abbrev MmapAnswer := Except Nat Nat

def rawResult : MmapAnswer → Nat
  | .ok a => a
  | .error errno => 2 ^ 64 - errno

def hasSyscallError (result : Nat) : Bool := 0xFFFFFFFFFFFF0001 ≤ result

/-- `x64SyscallHandler::GuestMmap` goes to `FEX_mmap`, `x32SyscallHandler::GuestMmap` to the 32-bit allocator. -/
def guestMmap (is64BitMode : Bool) (answer : MmapAnswer) : Nat :=
  if is64BitMode then if 2 ^ 64 - 4096 ≤ rawResult answer then MAP_FAILED else rawResult answer
  else if !hasSyscallError (rawResult answer) then rawResult answer else MAP_FAILED

/-- The host's answers to the calls that HandleBRK may make. -/
structure Answers where
  mmap : MmapAnswer
  munmap : Except Nat Unit

/-! ## The handler -/

/-- The fields of `SyscallHandler`, and the pages that are mapped for the heap. -/
structure ProgramBreak where
  dataSpace : Nat
  dataSpaceSize : Nat
  dataSpaceMaxSize : Nat
  pages : Nat → Bool

namespace ProgramBreak

def inRange (a length p : Nat) : Bool := a ≤ p * 4096 && p * 4096 < a + length

def mmap (s : ProgramBreak) (answer : MmapAnswer) (length : Nat) : ProgramBreak :=
  match answer with
  | .ok a => { s with pages := fun p => s.pages p || inRange a length p }
  | .error _ => s

def munmap (s : ProgramBreak) (answer : Except Nat Unit) (a length : Nat) : ProgramBreak :=
  match answer with
  | .ok _ => { s with pages := fun p => s.pages p && !inRange a length p }
  | .error _ => s

def brk (s : ProgramBreak) : Nat := add64 s.dataSpace s.dataSpaceSize

def withSize (s : ProgramBreak) (size : Nat) : ProgramBreak := { s with dataSpaceSize := size }

end ProgramBreak

def SizeAlignment : Nat := 8 * 1024 * 1024

def allocateNewSize (s : ProgramBreak) (newSize : Nat) : Nat := sub64 (alignUp newSize SizeAlignment) s.dataSpaceMaxSize

def heapEnd (s : ProgramBreak) : Nat := add64 s.dataSpace s.dataSpaceMaxSize

def overLimit (is64BitMode : Bool) (s : ProgramBreak) (newSize : Nat) : Bool :=
  !is64BitMode && 0x100000000 < add64 (heapEnd s) (allocateNewSize s newSize)

def grow (is64BitMode : Bool) (answers : Answers) (newSize : Nat) (s : ProgramBreak) : Nat × ProgramBreak :=
  let allocate := allocateNewSize s newSize
  if overLimit is64BitMode s newSize then (s.brk, s)
  else
    let newBRK := guestMmap is64BitMode answers.mmap
    let t := s.mmap answers.mmap allocate
    if newBRK ≠ MAP_FAILED ∧ newBRK ≠ heapEnd s then
      -- a kernel that does not know `MAP_FIXED_NOREPLACE`
      let t := t.munmap answers.munmap newBRK allocate
      (t.brk, t)
    else if newBRK = MAP_FAILED then (t.brk, t)
    else
      let t := { t with dataSpaceMaxSize := add64 t.dataSpaceMaxSize allocate }.withSize newSize
      (t.brk, t)

def handleBRK (is64BitMode : Bool) (answers : Answers) (addr : Nat) (s : ProgramBreak) : Nat × ProgramBreak :=
  if addr = 0 then (s.brk, s)
  else if addr < s.dataSpace then ((s.withSize 0).brk, s.withSize 0)
  else
    let newSize := addr - s.dataSpace
    let newSizeAligned := alignUp newSize 4096
    if newSizeAligned < s.dataSpaceMaxSize then
      let t := s.munmap answers.munmap (add64 s.dataSpace newSizeAligned) (s.dataSpaceMaxSize - newSizeAligned)
      let t := { t with dataSpaceMaxSize := newSizeAligned }.withSize newSize
      (t.brk, t)
    else if s.dataSpaceMaxSize < newSize then grow is64BitMode answers newSize s
    else ((s.withSize newSize).brk, s.withSize newSize)

def defaultProgramBreak (base size : Nat) : ProgramBreak :=
  ⟨base, 0, size, ProgramBreak.inRange base size⟩

/-! ## The statement -/

/-- The size stays in what is mapped, and exactly that is mapped. -/
structure Consistent (s : ProgramBreak) : Prop where
  size_le : s.dataSpaceSize ≤ s.dataSpaceMaxSize
  aligned : 4096 ∣ s.dataSpaceMaxSize
  pages : ∀ p, s.pages p = true ↔ s.dataSpace ≤ p * 4096 ∧ p * 4096 < s.dataSpace + s.dataSpaceMaxSize

/-- The heap has to grow, and the limit or the host refuses. -/
def OutOfMemory (is64BitMode : Bool) (answers : Answers) (addr : Nat) (s : ProgramBreak) : Prop :=
  s.dataSpaceMaxSize < addr - s.dataSpace ∧
    (overLimit is64BitMode s (addr - s.dataSpace) = true ∨ answers.mmap ≠ .ok (heapEnd s))

/-- The request is neither below the heap nor out of memory. -/
def Satisfiable (is64BitMode : Bool) (answers : Answers) (addr : Nat) (s : ProgramBreak) : Prop :=
  s.dataSpace ≤ addr ∧ ¬OutOfMemory is64BitMode answers addr s

/-- What a call has to do, but for requests below the start. -/
structure Contract (is64BitMode : Bool) (answers : Answers) (addr : Nat) (s : ProgramBreak) (result : Nat × ProgramBreak) :
    Prop where
  consistent : Consistent result.2
  same : result.2.dataSpace = s.dataSpace
  value : result.1 = result.2.dataSpace + result.2.dataSpaceSize
  granted : Satisfiable is64BitMode answers addr s → result.1 = addr
  outOfMemory : s.dataSpace ≤ addr → OutOfMemory is64BitMode answers addr s → result = (s.brk, s)

/-- A request below the heap's start changes nothing. -/
def RefusedBelow (addr : Nat) (s : ProgramBreak) (result : Nat × ProgramBreak) : Prop :=
  addr < s.dataSpace → result = (s.brk, s)

/-- A request below the start frees the heap and leaves its pages. -/
def EmptiedBelow (addr : Nat) (s : ProgramBreak) (result : Nat × ProgramBreak) : Prop :=
  addr < s.dataSpace → if addr = 0 then result = (s.brk, s) else result = (s.dataSpace, s.withSize 0)

def taskSize : Nat := 2 ^ 57

/-- A mapping that grows the heap lies among the user addresses, and takes no page of the heap when it is elsewhere. -/
def Allowed (answers : Answers) (addr : Nat) (s : ProgramBreak) : Prop :=
  let length := allocateNewSize s (addr - s.dataSpace)
  match answers.mmap with
  | .ok a => 0 < length ∧ 4096 ∣ a ∧ a + length ≤ taskSize ∧
      (a ≠ heapEnd s → ∀ p, ProgramBreak.inRange a length p = true → s.pages p = false)
  | .error errno => 0 < errno ∧ errno < 4096

/-- The states of all runs, with calls of `munmap` that succeed. -/
inductive Reachable (is64BitMode : Bool) (base size : Nat) : ProgramBreak → Prop
  | initial : Reachable is64BitMode base size (defaultProgramBreak base size)
  | call {s : ProgramBreak} {answers : Answers} {addr : Nat} (hs : Reachable is64BitMode base size s) (haddr : addr < 2 ^ 64)
      (hallowed : Allowed answers addr s) (hmunmap : answers.munmap = .ok ()) :
      Reachable is64BitMode base size (handleBRK is64BitMode answers addr s).2

/-! ## Arithmetic -/

theorem alignUp_page {n : Nat} (h : n + 4096 ≤ 2 ^ 64) : alignUp n 4096 = (n + 4095) / 4096 * 4096 := by
  unfold alignUp add64
  omega

theorem alignUp_grow {n : Nat} (h : n < 2 ^ 64) :
    alignUp n SizeAlignment = 0 ∨ n ≤ alignUp n SizeAlignment ∧ 4096 ∣ alignUp n SizeAlignment := by
  unfold alignUp add64 SizeAlignment
  omega

theorem guestMmap_ok {is64BitMode : Bool} {a : Nat} (h : a < taskSize) : guestMmap is64BitMode (.ok a) = a := by
  unfold taskSize at h
  cases is64BitMode
  · have herr : hasSyscallError (rawResult (.ok a)) = false := by
      rw [hasSyscallError, rawResult, decide_eq_false_iff_not]
      omega
    rw [guestMmap, if_neg (by simp), herr]
    rfl
  · have hle : ¬2 ^ 64 - 4096 ≤ rawResult (.ok a) := by
      rw [rawResult]
      omega
    rw [guestMmap, if_pos rfl, if_neg hle]
    rfl

theorem guestMmap_error {is64BitMode : Bool} {errno : Nat} (h0 : 0 < errno) (h : errno < 4096) :
    guestMmap is64BitMode (.error errno) = MAP_FAILED := by
  cases is64BitMode
  · have herr : hasSyscallError (rawResult (.error errno)) = true := by
      rw [hasSyscallError, rawResult, decide_eq_true_iff]
      omega
    rw [guestMmap, if_neg (by simp), herr]
    rfl
  · have hle : 2 ^ 64 - 4096 ≤ rawResult (.error errno) := by
      rw [rawResult]
      omega
    rw [guestMmap, if_pos rfl, if_pos hle]

/-! ## One call -/

/-- What holds between calls. -/
structure Inv (s : ProgramBreak) : Prop where
  pos : 0 < s.dataSpace
  base : 4096 ∣ s.dataSpace
  end_le : s.dataSpace + s.dataSpaceMaxSize ≤ taskSize
  consistent : Consistent s

section Call
variable {is64BitMode : Bool} {answers : Answers} {addr : Nat} {s : ProgramBreak}

theorem Inv.heapEnd_eq (h : Inv s) : heapEnd s = s.dataSpace + s.dataSpaceMaxSize := by
  have := h.end_le
  unfold heapEnd add64
  unfold taskSize at this
  omega

theorem Inv.brk_eq (h : Inv s) : s.brk = s.dataSpace + s.dataSpaceSize := by
  have := h.end_le
  have := h.consistent.size_le
  unfold ProgramBreak.brk add64
  unfold taskSize at *
  omega

theorem Inv.withSize (h : Inv s) {size : Nat} (hsize : size ≤ s.dataSpaceMaxSize) : Inv (s.withSize size) :=
  ⟨h.pos, h.base, h.end_le, hsize, h.consistent.aligned, h.consistent.pages⟩

theorem Inv.shrink (h : Inv s) (size aligned : Nat) (hle : size ≤ aligned) (haligned : 4096 ∣ aligned)
    (hlt : aligned < s.dataSpaceMaxSize) :
    Inv ({ s.munmap (.ok ()) (add64 s.dataSpace aligned) (s.dataSpaceMaxSize - aligned) with
      dataSpaceMaxSize := aligned }.withSize size) := by
  have hend := h.end_le
  have hbase : add64 s.dataSpace aligned = s.dataSpace + aligned := by
    unfold add64 taskSize at *
    omega
  refine ⟨h.pos, h.base, (by simp only [ProgramBreak.withSize, ProgramBreak.munmap]; omega), hle, haligned, fun p => ?_⟩
  have hpages := h.consistent.pages p
  simp only [ProgramBreak.withSize, ProgramBreak.munmap, ProgramBreak.inRange, hbase, Bool.and_eq_true, hpages,
    Bool.not_eq_true', Bool.and_eq_false_iff, decide_eq_false_iff_not]
  omega

theorem Inv.extend (h : Inv s) (size length : Nat) (hlength : 4096 ∣ s.dataSpaceMaxSize + length)
    (hend : s.dataSpace + s.dataSpaceMaxSize + length ≤ taskSize) (hsize : size ≤ s.dataSpaceMaxSize + length) :
    Inv ({ s.mmap (.ok (heapEnd s)) length with
      dataSpaceMaxSize := add64 s.dataSpaceMaxSize length }.withSize size) := by
  have hmax : add64 s.dataSpaceMaxSize length = s.dataSpaceMaxSize + length := by
    unfold add64 taskSize at *
    omega
  rw [hmax, h.heapEnd_eq]
  refine ⟨h.pos, h.base, (by simp only [ProgramBreak.withSize, ProgramBreak.mmap]; omega), hsize, hlength, fun p => ?_⟩
  have hpages := h.consistent.pages p
  simp only [ProgramBreak.withSize, ProgramBreak.mmap, ProgramBreak.inRange, Bool.or_eq_true, Bool.and_eq_true, hpages,
    decide_eq_true_eq]
  omega

theorem mmap_munmap {a length : Nat} (h : ∀ p, ProgramBreak.inRange a length p = true → s.pages p = false) :
    (s.mmap (.ok a) length).munmap (.ok ()) a length = s := by
  have hpages : (fun p => (s.pages p || ProgramBreak.inRange a length p) && !ProgramBreak.inRange a length p) = s.pages := by
    funext p
    cases hr : ProgramBreak.inRange a length p
    · simp
    · simp [h p hr]
  simp [ProgramBreak.mmap, ProgramBreak.munmap, hpages]

theorem grow_spec (h : Inv s) (haddr : addr < 2 ^ 64) (hbase : s.dataSpace ≤ addr) (hallowed : Allowed answers addr s)
    (hmunmap : answers.munmap = .ok ()) (hlt : s.dataSpaceMaxSize < addr - s.dataSpace) :
    (OutOfMemory is64BitMode answers addr s ∧ grow is64BitMode answers (addr - s.dataSpace) s = (s.brk, s)) ∨
    (¬OutOfMemory is64BitMode answers addr s ∧ ∃ t, Inv t ∧ t.dataSpace = s.dataSpace ∧ t.dataSpaceSize = addr - s.dataSpace ∧
      grow is64BitMode answers (addr - s.dataSpace) s = (t.brk, t)) := by
  unfold grow
  cases hlimit : overLimit is64BitMode s (addr - s.dataSpace) with
  | true => exact .inl ⟨⟨hlt, .inl hlimit⟩, rfl⟩
  | false =>
    unfold Allowed at hallowed
    cases hanswer : answers.mmap with
    | error errno =>
      rw [hanswer] at hallowed
      refine .inl ⟨⟨hlt, .inr (by rw [hanswer]; simp)⟩, ?_⟩
      simp [guestMmap_error hallowed.1 hallowed.2, ProgramBreak.mmap]
    | ok a =>
      rw [hanswer] at hallowed
      obtain ⟨hpos, hpage, hend, hfree⟩ := hallowed
      have hvalue : guestMmap is64BitMode (.ok a) = a := guestMmap_ok (by omega)
      have hvalid : a ≠ MAP_FAILED := by
        unfold MAP_FAILED taskSize at *
        omega
      -- the heap can only grow in place; what the kernel put elsewhere is unmapped again
      by_cases hplace : a = heapEnd s
      · right
        subst hplace
        refine ⟨?_, ?_⟩
        · rintro ⟨-, hover | hne⟩
          · rw [hlimit] at hover
            cases hover
          · exact hne hanswer
        · have hmax := h.consistent.aligned
          have hgrow := alignUp_grow (n := addr - s.dataSpace) (by omega)
          have hheap := h.heapEnd_eq
          have hlength : allocateNewSize s (addr - s.dataSpace) =
              alignUp (addr - s.dataSpace) SizeAlignment - s.dataSpaceMaxSize ∧
              s.dataSpaceMaxSize < alignUp (addr - s.dataSpace) SizeAlignment := by
            unfold allocateNewSize sub64 taskSize at *
            have : alignUp (addr - s.dataSpace) SizeAlignment < 2 ^ 64 := Nat.mod_lt _ (by decide)
            omega
          refine ⟨_, h.extend (addr - s.dataSpace) (allocateNewSize s (addr - s.dataSpace)) ?_ ?_ ?_, ?_, ?_, ?_⟩
          · omega
          · omega
          · omega
          · rfl
          · rfl
          · simp only [Bool.false_eq_true, if_false, hvalue, ne_eq, hvalid, not_false_eq_true, not_true_eq_false, and_false]
            rfl
      · refine .inl ⟨⟨hlt, .inr (by rw [hanswer]; simpa using hplace)⟩, ?_⟩
        simp [hvalue, hvalid, hplace, hmunmap, mmap_munmap (hfree hplace)]

theorem handleBRK_spec (h : Inv s) (haddr : addr < 2 ^ 64) (hallowed : Allowed answers addr s)
    (hmunmap : answers.munmap = .ok ()) :
    Inv (handleBRK is64BitMode answers addr s).2 ∧
      Contract is64BitMode answers addr s (handleBRK is64BitMode answers addr s) ∧
      EmptiedBelow addr s (handleBRK is64BitMode answers addr s) := by
  have hpos := h.pos
  have hbase := h.base
  simp only [handleBRK]
  split_ifs with hzero hbelow hshrink hgrow
  · have hnot : ¬s.dataSpace ≤ addr := by omega
    refine ⟨h, ⟨h.consistent, rfl, h.brk_eq, fun hsat => absurd hsat.1 hnot, fun hle => absurd hle hnot⟩, fun _ => ?_⟩
    rw [if_pos hzero]
  · have hnot : ¬s.dataSpace ≤ addr := by omega
    have hinv : Inv (s.withSize 0) := h.withSize (Nat.zero_le _)
    refine ⟨hinv, ⟨hinv.consistent, rfl, hinv.brk_eq, fun hsat => absurd hsat.1 hnot, fun hle => absurd hle hnot⟩,
      fun _ => ?_⟩
    rw [if_neg hzero, hinv.brk_eq]
    rfl
  · have haligned : alignUp (addr - s.dataSpace) 4096 = (addr - s.dataSpace + 4095) / 4096 * 4096 :=
      alignUp_page (by omega)
    have hinv := h.shrink (addr - s.dataSpace) (alignUp (addr - s.dataSpace) 4096) (by omega)
      (by omega) hshrink
    rw [hmunmap]
    refine ⟨hinv, ⟨hinv.consistent, rfl, hinv.brk_eq, fun _ => ?_, fun _ hoom => ?_⟩, fun hlt => absurd hlt hbelow⟩
    · have hle : s.dataSpace ≤ addr := by omega
      rw [hinv.brk_eq]
      exact Nat.add_sub_cancel' hle
    · have := hoom.1
      omega
  · obtain ⟨hoom, heq⟩ | ⟨hoom, t, ht, hspace, hsize, heq⟩ :=
      @grow_spec is64BitMode _ _ _ h haddr (by omega) hallowed hmunmap hgrow
    · rw [heq]
      exact ⟨h, ⟨h.consistent, rfl, h.brk_eq, fun hsat => absurd hoom hsat.2, fun _ _ => rfl⟩, fun hlt => absurd hlt hbelow⟩
    · rw [heq]
      refine ⟨ht, ⟨ht.consistent, hspace, ht.brk_eq, fun _ => ?_, fun _ hout => absurd hout hoom⟩,
        fun hlt => absurd hlt hbelow⟩
      rw [ht.brk_eq, hspace, hsize]
      omega
  · have hinv : Inv (s.withSize (addr - s.dataSpace)) := h.withSize (by omega)
    refine ⟨hinv, ⟨hinv.consistent, rfl, hinv.brk_eq, fun _ => ?_, fun _ hoom => absurd hoom.1 hgrow⟩,
      fun hlt => absurd hlt hbelow⟩
    have hle : s.dataSpace ≤ addr := by omega
    rw [hinv.brk_eq]
    exact Nat.add_sub_cancel' hle

end Call

/-! ## All runs -/

theorem inv_defaultProgramBreak {base size : Nat} (hpos : 0 < base) (hbase : 4096 ∣ base) (hsize : 4096 ∣ size)
    (hend : base + size ≤ taskSize) : Inv (defaultProgramBreak base size) := by
  refine ⟨hpos, hbase, hend, Nat.zero_le _, hsize, fun p => ?_⟩
  simp [defaultProgramBreak, ProgramBreak.inRange]

theorem inv_of_reachable {is64BitMode : Bool} {base size : Nat} (hinit : Inv (defaultProgramBreak base size))
    {s : ProgramBreak} (hs : Reachable is64BitMode base size s) : Inv s := by
  induction hs with
  | initial => exact hinit
  | call _ haddr hallowed hmunmap ih => exact (handleBRK_spec ih haddr hallowed hmunmap).1

/-- Every call of every run. -/
theorem handleBRK_consistent (is64BitMode : Bool) {base size : Nat} (hpos : 0 < base) (hbase : 4096 ∣ base)
    (hsize : 4096 ∣ size) (hend : base + size ≤ taskSize) {s : ProgramBreak} (hs : Reachable is64BitMode base size s)
    {answers : Answers} {addr : Nat} (haddr : addr < 2 ^ 64) (hallowed : Allowed answers addr s)
    (hmunmap : answers.munmap = .ok ()) :
    Contract is64BitMode answers addr s (handleBRK is64BitMode answers addr s) ∧
      EmptiedBelow addr s (handleBRK is64BitMode answers addr s) :=
  (handleBRK_spec (inv_of_reachable (inv_defaultProgramBreak hpos hbase hsize hend) hs) haddr hallowed hmunmap).2

/-- A request that gives pages back, after one that has mapped them behind the first page. -/
theorem handleBRK_consistent_shrink :
    let s := (handleBRK true ⟨.ok 0x11000, .ok ()⟩ 0x15000 (defaultProgramBreak 0x10000 0x1000)).2
    let answers : Answers := ⟨.error 12, .ok ()⟩
    (s.dataSpaceMaxSize = 0x800000 ∧ (handleBRK true answers 0x12800 s).2.dataSpaceMaxSize = 0x3000) ∧
      Contract true answers 0x12800 s (handleBRK true answers 0x12800 s) ∧
        EmptiedBelow 0x12800 s (handleBRK true answers 0x12800 s) :=
  have grown : Allowed ⟨.ok 0x11000, .ok ()⟩ 0x15000 (defaultProgramBreak 0x10000 0x1000) :=
    ⟨by decide, by decide, by decide, fun h => absurd rfl h⟩
  ⟨by decide, handleBRK_consistent true (by decide) (by decide) (by decide) (by decide)
    (.call .initial (by decide) grown rfl) (by decide) ⟨by decide, by decide⟩ rfl⟩

/-- A request below the start empties the heap, and pages that could not be unmapped stay. -/
theorem handleBRK_below_and_unmapped :
    ¬RefusedBelow 0x8000 ((defaultProgramBreak 0x10000 0x1000).withSize 8)
      (handleBRK true ⟨.error 12, .ok ()⟩ 0x8000 ((defaultProgramBreak 0x10000 0x1000).withSize 8)) ∧
    ¬Consistent (handleBRK true ⟨.error 12, .error 12⟩ 0x10800 (defaultProgramBreak 0x10000 0x2000)).2 ∧
    ¬Consistent (handleBRK true ⟨.error 12, .ok ()⟩ (2 ^ 64 - 1) (defaultProgramBreak 0 0x1000)).2 := by
  refine ⟨fun h => ?_, fun h => ?_, fun h => ?_⟩
  · have := congrArg Prod.fst (h (by decide))
    exact absurd this (by decide)
  · exact absurd ((h.pages 0x11).mp (by decide)).2 (by decide)
  · exact absurd h.size_le (by decide)

end FexEmu.LinuxSyscalls.Brk
