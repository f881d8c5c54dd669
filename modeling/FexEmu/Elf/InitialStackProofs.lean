import FexEmu.Elf.InitialStack
/-!
# The initial stack is laid out as it shall be

Both loops over strings write the terminator one byte behind its place, which is no harm on a mapping of zeros.
-/
namespace FexEmu.Elf.InitialStack

open ByteMemory (bytes bytes_length)
open FlatMemory
open List (length_cons length_singleton mem_cons)
open Nat (mod_eq_of_lt succ_mul zero_mul)

variable {s s' : Stack} {b : Backing} {strings : List (List Byte)}

@[simp] theorem Stack.memory_store (s : Stack) (a : Nat) (l : List Byte) :
    (s.store a l).memory = FlatMemory.store s.memory a l := rfl

@[simp] theorem Stack.memory_storeWord (s : Stack) (size a v : Nat) :
    (s.storeWord size a v).memory = FlatMemory.store s.memory a (bytes size v) := rfl

@[simp] theorem Stack.written_store (s : Stack) (a : Nat) (l : List Byte) :
    (s.store a l).written = (a, l.length) :: s.written := rfl

@[simp] theorem Stack.written_storeWord (s : Stack) (size a v : Nat) :
    (s.storeWord size a v).written = (a, size) :: s.written := by
  simp [storeWord]

@[simp] theorem backingSize_nil : backingSize [] = 0 := rfl

@[simp] theorem backingSize_cons (x : List Byte) (strings : List (List Byte)) :
    backingSize (x :: strings) = x.length + 1 + backingSize strings := by
  simp [backingSize]

/-- The offset of a string from the first one. -/
def offsetOf (strings : List (List Byte)) (i : Nat) : Nat := backingSize (strings.take i)

theorem offsetOf_zero (strings : List (List Byte)) : offsetOf strings 0 = 0 := by
  simp [offsetOf]

theorem offsetOf_succ (x : List Byte) (strings : List (List Byte)) (i : Nat) :
    offsetOf (x :: strings) (i + 1) = x.length + 1 + offsetOf strings i := by
  simp [offsetOf]

theorem offsetOf_le {i : Nat} (h : i < strings.length) : offsetOf strings i + strings[i].length + 1 ≤ backingSize strings := by
  induction strings generalizing i with
  | nil => simp at h
  | cons x strings ih =>
    cases i with
    | zero => simp [offsetOf_zero]
    | succ i =>
      have := ih (i := i) (by simpa using h)
      simp only [offsetOf_succ, backingSize_cons, List.getElem_cons_succ]
      omega

/-! ## The loops over strings -/

/-- What copying strings and their pointers has done to the stack, with a frame. -/
structure Placed (b : Backing) (pointer off : Nat) (strings : List (List Byte)) (s s' : Stack) : Prop where
  outside : ∀ a, (a < pointer ∨ pointer + strings.length * b.size ≤ a) →
    (a < b.base + off ∨ b.base + off + backingSize strings < a) → s'.memory a = s.memory a
  pointers : ∀ i < strings.length, Holds s'.memory (pointer + i * b.size) (bytes b.size (b.guest + off + offsetOf strings i))
  copies : ∀ i, (h : i < strings.length) → Holds s'.memory (b.base + off + offsetOf strings i) (strings[i] ++ [0])
  past : s'.memory (b.base + off + backingSize strings) = 0
  written : ∀ area ∈ s'.written, area ∈ s.written ∨ Inside area (pointer, strings.length * b.size) ∨
    Inside area (b.base + off, backingSize strings + 1)

/-- One round of the loops. -/
def placeString (b : Backing) (pointer off : Nat) (x : List Byte) (s : Stack) : Stack :=
  ((s.storeWord b.size pointer (b.guest + off)).store (b.base + off) x).store (b.base + off + x.length + 1) [0]

theorem store_nil (m : Memory) (a : Nat) : FlatMemory.store m a [] = m := by
  funext c
  apply store_outside
  simp only [List.length_nil]
  omega

/-- The strings are to lie above their pointers, where the memory is still zero. -/
structure Ready (b : Backing) (pointer off : Nat) (strings : List (List Byte)) (s : Stack) : Prop where
  below : pointer + strings.length * b.size ≤ b.base + off
  zero : ∀ a, b.base + off ≤ a → a ≤ b.base + off + backingSize strings → s.memory a = 0

section Round

variable {pointer off : Nat} {x : List Byte} {s1 : Stack} (memory : s1.memory = (placeString b pointer off x s).memory)
include memory

theorem round_outside {a : Nat} (below : a < pointer ∨ pointer + b.size ≤ a)
    (above : a < b.base + off ∨ a = b.base + off + x.length ∨ b.base + off + x.length + 1 < a) : s1.memory a = s.memory a := by
  rw [memory, placeString, Stack.memory_store, store_outside (by simp; omega), Stack.memory_store, store_outside (by omega),
    Stack.memory_storeWord, store_outside (by simpa using below)]

variable (ready : Ready b pointer off (x :: strings) s)
include ready

theorem round_pointer : Holds s1.memory pointer (bytes b.size (b.guest + off)) := by
  have room := ready.below
  rw [length_cons, succ_mul] at room
  rw [memory, placeString]
  apply Holds.store
  · apply Holds.store
    · exact holds_store _ _ _
    · rw [bytes_length]
      omega
  · rw [bytes_length]
    omega

theorem round_string : Holds s1.memory (b.base + off) (x ++ [0]) := by
  have room := ready.below
  rw [length_cons, succ_mul] at room
  rw [holds_append, holds_singleton]
  constructor
  · rw [memory, placeString]
    exact (holds_store _ _ _).store (by omega)
  · rw [round_outside memory (by omega) (by omega)]
    exact ready.zero _ (by omega) (by rw [backingSize_cons]; omega)

theorem round_ready : Ready b (pointer + b.size) (off + x.length + 1) strings s1 := by
  have room := ready.below
  rw [length_cons, succ_mul] at room
  constructor
  · omega
  · intro a ge le
    by_cases start : a = b.base + off + x.length + 1
    · rw [start, memory, placeString]
      exact holds_singleton.mp (holds_store _ _ _)
    · rw [round_outside memory (by omega) (by omega)]
      exact ready.zero a (by omega) (by rw [backingSize_cons]; omega)

theorem Placed.cons (written : ∀ area ∈ s1.written, area ∈ (placeString b pointer off x s).written)
    (rest : Placed b (pointer + b.size) (off + x.length + 1) strings s1 s') : Placed b pointer off (x :: strings) s s' := by
  have room := ready.below
  rw [length_cons, succ_mul] at room
  -- what the first round writes is left alone by the others
  have keep : ∀ a, pointer ≤ a → a < pointer + b.size ∨ (b.base + off ≤ a ∧ a < b.base + off + x.length + 1) →
      s'.memory a = s1.memory a := by
    intro a ge inside
    apply rest.outside
    · omega
    · omega
  constructor
  · intro a below above
    rw [length_cons, succ_mul] at below
    rw [backingSize_cons] at above
    rw [rest.outside a (by omega) (by omega), round_outside memory (by omega) (by omega)]
  · intro i hi
    cases i with
    | zero =>
      rw [offsetOf_zero, zero_mul]
      exact (round_pointer memory ready).congr (fun a ge lt => keep a ge (.inl (by simpa using lt)))
    | succ i =>
      have here := rest.pointers i (by simpa using hi)
      have pointerEq : pointer + (i + 1) * b.size = pointer + b.size + i * b.size := by ring
      have offsetEq : b.guest + off + (x.length + 1 + offsetOf strings i) =
          b.guest + (off + x.length + 1) + offsetOf strings i := by ring
      rw [offsetOf_succ, pointerEq, offsetEq]
      exact here
  · intro i hi
    cases i with
    | zero =>
      apply (round_string memory ready).congr
      intro a ge lt
      simp only [List.length_append, length_singleton] at lt
      exact keep a (by omega) (.inr ⟨ge, lt⟩)
    | succ i =>
      have here := rest.copies i (by simpa using hi)
      have offsetEq : b.base + off + (x.length + 1 + offsetOf strings i) =
          b.base + (off + x.length + 1) + offsetOf strings i := by ring
      rw [offsetOf_succ, offsetEq]
      exact here
  · have pastEq : b.base + off + (x.length + 1 + backingSize strings) =
        b.base + (off + x.length + 1) + backingSize strings := by ring
    rw [backingSize_cons, pastEq]
    exact rest.past
  · intro area mem
    rw [length_cons, succ_mul, backingSize_cons]
    rcases rest.written area mem with old | pointers | copies
    · have here := written area old
      simp only [placeString, Stack.written_store, Stack.written_storeWord, length_singleton, mem_cons] at here
      rcases here with rfl | rfl | rfl | old
      · exact .inr (.inr ⟨by simp only; omega, by simp only; omega⟩)
      · exact .inr (.inr ⟨by simp only; omega, by simp only; omega⟩)
      · exact .inr (.inl ⟨by simp only; omega, by simp only; omega⟩)
      · exact .inl old
    · obtain ⟨ge, le⟩ := pointers
      exact .inr (.inl ⟨by simp only at *; omega, by simp only at *; omega⟩)
    · obtain ⟨ge, le⟩ := copies
      exact .inr (.inr ⟨by simp only at *; omega, by simp only at *; omega⟩)

end Round

variable {pointer off : Nat}

theorem Placed.nil (ready : Ready b pointer off [] s) : Placed b pointer off [] s s := by
  refine ⟨fun _ _ _ => rfl, by simp, by simp, ?_, fun area mem => .inl mem⟩
  exact ready.zero _ (by simp) (by simp)

theorem setupArguments_spec (ready : Ready b pointer off strings s) :
    Placed b pointer off strings s (setupArguments b pointer off strings s) := by
  induction strings generalizing pointer off s with
  | nil => exact .nil ready
  | cons x strings ih =>
    simp only [setupArguments]
    by_cases empty : x.length > 0
    · rw [if_pos empty]
      exact .cons rfl ready (fun _ mem => mem) (ih (round_ready rfl ready))
    · -- An empty string is not copied, which leaves the same memory.
      obtain rfl := List.eq_nil_of_length_eq_zero (Nat.eq_zero_of_not_pos empty)
      have memory : ((s.storeWord b.size pointer (b.guest + off)).store (b.base + off + 0 + 1) [0]).memory =
          (placeString b pointer off [] s).memory := by
        simp only [placeString, Stack.memory_store, store_nil]
        rfl
      apply Placed.cons memory ready
      · simp only [placeString, Stack.written_store, Stack.written_storeWord, mem_cons]
        rintro area (rfl | rfl | old)
        · exact .inl rfl
        · exact .inr (.inr (.inl rfl))
        · exact .inr (.inr (.inr old))
      · exact ih (round_ready memory ready)

theorem setupEnvironment_spec (ready : Ready b pointer off strings s) (nonempty : ∀ x ∈ strings, x ≠ []) :
    ∃ s', setupEnvironment b pointer off strings s = some s' ∧ Placed b pointer off strings s s' := by
  induction strings generalizing pointer off s with
  | nil => exact ⟨s, rfl, .nil ready⟩
  | cons x strings ih =>
    obtain ⟨here, later⟩ := List.forall_mem_cons.mp nonempty
    obtain ⟨s', hs', rest⟩ := ih (round_ready rfl ready) later
    refine ⟨s', ?_, .cons rfl ready (fun _ mem => mem) rest⟩
    simp only [setupEnvironment, if_pos (List.length_pos_iff.mpr here)]
    exact hs'

theorem setupEnvironment_throws (empty : [] ∈ strings) (s : Stack) :
    setupEnvironment b pointer off strings s = none := by
  induction strings generalizing pointer off s with
  | nil => cases empty
  | cons x strings ih =>
    simp only [setupEnvironment]
    split
    · rename_i pos
      rcases mem_cons.mp empty with rfl | later
      · exact absurd pos (Nat.lt_irrefl 0)
      · exact ih later _
    · rfl

/-! ## The auxiliary entries -/

/-- What the loop over the entries leaves. -/
structure AuxPlaced (size random entry : Nat) (aux : List auxv_t) (s s' : Stack) : Prop where
  outside : ∀ a, (a < entry ∨ entry + aux.length * (2 * size) ≤ a) → (a < random ∨ random + 16 ≤ a) → s'.memory a = s.memory a
  key : ∀ i, (h : i < aux.length) → Holds s'.memory (entry + i * (2 * size)) (bytes size aux[i].key)
  val : ∀ i, (h : i < aux.length) →
    Holds s'.memory (entry + i * (2 * size) + size) (bytes size (if aux[i].key = 25 then random else aux[i].val))
  written : ∀ area ∈ s'.written, area ∈ s.written ∨ Inside area (entry, aux.length * (2 * size)) ∨ Inside area (random, 16)

/-- One round of the loop. -/
def placeAux (size random entry : Nat) (aux : auxv_t) (s : Stack) : Stack :=
  if aux.key = 25 then
    let s := (s.storeWord 8 random 0xDEAD).storeWord 8 (random + 8) 0xDEAD2
    (s.storeWord size entry 25).storeWord size (entry + size) random
  else (s.storeWord size entry aux.key).storeWord size (entry + size) aux.val

theorem placeAux_spec {size random entry : Nat} (aux : auxv_t) (s : Stack) :
    AuxPlaced size random entry [aux] s (placeAux size random entry aux s) := by
  have pair : ∀ (s : Stack) (key val : Nat),
      Holds ((s.storeWord size entry key).storeWord size (entry + size) val).memory entry (bytes size key) ∧
        Holds ((s.storeWord size entry key).storeWord size (entry + size) val).memory (entry + size) (bytes size val) := by
    intro s key val
    refine ⟨?_, holds_store _ _ _⟩
    exact (holds_store _ _ _).store (by simp)
  have single : ∀ i, i < [aux].length → i = 0 := by
    simp
  constructor
  · intro a below above
    simp only [length_singleton, Nat.one_mul] at below
    simp only [placeAux]
    split
    · simp only [Stack.memory_storeWord]
      rw [store_outside (by simp; omega), store_outside (by simp; omega), store_outside (by simp; omega), store_outside (by simp; omega)]
    · simp only [Stack.memory_storeWord]
      rw [store_outside (by simp; omega), store_outside (by simp; omega)]
  · intro i h
    obtain rfl := single i h
    simp only [zero_mul, Nat.add_zero, List.getElem_cons_zero, placeAux]
    split
    · rename_i is25
      rw [is25]
      exact (pair _ 25 random).1
    · exact (pair _ _ _).1
  · intro i h
    obtain rfl := single i h
    simp only [zero_mul, Nat.add_zero, List.getElem_cons_zero, placeAux]
    split
    · exact (pair _ 25 random).2
    · exact (pair _ _ _).2
  · intro area mem
    simp only [length_singleton, Nat.one_mul]
    simp only [placeAux] at mem
    split at mem
    · simp only [Stack.written_storeWord, mem_cons] at mem
      rcases mem with rfl | rfl | rfl | rfl | old
      · exact .inr (.inl ⟨by simp, by simp only; omega⟩)
      · exact .inr (.inl ⟨by simp, by simp only; omega⟩)
      · exact .inr (.inr ⟨by simp, by simp⟩)
      · exact .inr (.inr ⟨by simp, by simp⟩)
      · exact .inl old
    · simp only [Stack.written_storeWord, mem_cons] at mem
      rcases mem with rfl | rfl | old
      · exact .inr (.inl ⟨by simp, by simp only; omega⟩)
      · exact .inr (.inl ⟨by simp, by simp only; omega⟩)
      · exact .inl old

theorem setupAuxVariables_spec {size random entry : Nat} {aux : List auxv_t} (s : Stack)
    (below : entry + aux.length * (2 * size) ≤ random) :
    AuxPlaced size random entry aux s (setupAuxVariables size random entry aux s) := by
  induction aux generalizing entry s with
  | nil => exact ⟨fun _ _ _ => rfl, by simp, by simp, fun _ mem => .inl mem⟩
  | cons x aux ih =>
    rw [length_cons, succ_mul] at below
    have here : AuxPlaced size random entry [x] s (placeAux size random entry x s) := placeAux_spec x s
    have rest : AuxPlaced size random (entry + 2 * size) aux (placeAux size random entry x s)
        (setupAuxVariables size random entry (x :: aux) s) := ih _ (by omega)
    -- the first entry stays while the others are written behind it
    have keep : ∀ {a l}, Holds (placeAux size random entry x s).memory a l → entry ≤ a → a + l.length ≤ entry + 2 * size →
        Holds (setupAuxVariables size random entry (x :: aux) s).memory a l := by
      intro a l h ge le
      apply h.congr
      intro c hc hc'
      exact rest.outside c (by omega) (by omega)
    have next : ∀ i, entry + (i + 1) * (2 * size) = entry + 2 * size + i * (2 * size) := by
      intro i
      ring
    constructor
    · intro a out random
      rw [length_cons, succ_mul] at out
      rw [rest.outside a (by omega) random, here.outside a (by simp; omega) random]
    · intro i h
      cases i with
      | zero =>
        have first := here.key 0 (by simp)
        rw [zero_mul, Nat.add_zero] at first ⊢
        exact keep first le_rfl (by rw [bytes_length]; omega)
      | succ i =>
        rw [next]
        exact rest.key i (by simpa using h)
    · intro i h
      cases i with
      | zero =>
        have first := here.val 0 (by simp)
        rw [zero_mul, Nat.add_zero] at first ⊢
        exact keep first (Nat.le_add_right _ _) (by rw [bytes_length]; omega)
      | succ i =>
        rw [next]
        exact rest.val i (by simpa using h)
    · intro area mem
      rw [length_cons, succ_mul]
      rcases rest.written area mem with old | ⟨ge, le⟩ | random
      · rcases here.written area old with old | ⟨ge, le⟩ | random
        · exact .inl old
        · simp only [length_singleton, Nat.one_mul] at ge le
          exact .inr (.inl ⟨ge, by simp only; omega⟩)
        · exact .inr (.inr random)
      · exact .inr (.inl ⟨by simp only; omega, by simp only; omega⟩)
      · exact .inr (.inr random)

/-! ## SetupPointers -/

variable {p : Program} {base : Nat}

theorem sizeOfPointer_cases (is64BitMode : Bool) : sizeOfPointer is64BitMode = 4 ∨ sizeOfPointer is64BitMode = 8 := by
  cases is64BitMode
  · exact .inl rfl
  · exact .inr rfl

/-- The areas one behind the other, for a stack that fits the mapping. -/
structure Fits (p : Program) (base stackPointer : Nat) (o : Offsets) : Prop where
  start : base ≤ stackPointer
  auxV : o.auxV = sizeOfPointer p.is64BitMode + p.args.length * sizeOfPointer p.is64BitMode + sizeOfPointer p.is64BitMode +
    p.environmentVariables.length * sizeOfPointer p.is64BitMode + sizeOfPointer p.is64BitMode
  argument : o.argument = o.auxV + p.auxVariables.length * (2 * sizeOfPointer p.is64BitMode)
  envp : o.envp = o.argument + backingSize p.args
  randomNumber : o.randomNumber = o.envp + backingSize p.environmentVariables
  top : stackPointer + o.randomNumber + 16 = base + STACK_SIZE

theorem offsets_total (p : Program) : (offsets p).total = stackBytes p := by
  simp only [offsets, stackBytes]
  ring

theorem fits (room : stackBytes p ≤ STACK_SIZE) : Fits p base (base + STACK_SIZE - (offsets p).total) (offsets p) := by
  have total := offsets_total p
  have sum : (offsets p).total = (offsets p).envp + backingSize p.environmentVariables + 16 := rfl
  have small : (offsets p).randomNumber = (offsets p).envp + backingSize p.environmentVariables := by
    have limit : STACK_SIZE < 2 ^ 32 := by decide
    apply mod_eq_of_lt
    change (offsets p).envp + backingSize p.environmentVariables < 2 ^ 32
    omega
  refine ⟨by omega, ?_, ?_, rfl, small, by omega⟩
  · simp only [offsets]
    ring
  · simp only [offsets]
    ring

/-- What `SetupPointers` leaves, as bytes. -/
structure Pointers (p : Program) (base stackPointer : Nat) (o : Offsets) (s : Stack) : Prop where
  written : ∀ area ∈ s.written, Inside area (base, STACK_SIZE)
  argc : Holds s.memory stackPointer (bytes (sizeOfPointer p.is64BitMode) p.args.length)
  argv : ∀ i < p.args.length, Holds s.memory
    (stackPointer + sizeOfPointer p.is64BitMode + i * sizeOfPointer p.is64BitMode) (bytes (sizeOfPointer p.is64BitMode)
      ((stackPointer + o.argument) % 2 ^ (8 * sizeOfPointer p.is64BitMode) + offsetOf p.args i))
  argvEnd : Holds s.memory
    (stackPointer + sizeOfPointer p.is64BitMode + p.args.length * sizeOfPointer p.is64BitMode) (bytes (sizeOfPointer p.is64BitMode) 0)
  args : ∀ i, (h : i < p.args.length) → Holds s.memory (stackPointer + o.argument + offsetOf p.args i) (p.args[i] ++ [0])
  envp : ∀ i < p.environmentVariables.length, Holds s.memory
    (stackPointer + sizeOfPointer p.is64BitMode + p.args.length * sizeOfPointer p.is64BitMode + sizeOfPointer p.is64BitMode +
      i * sizeOfPointer p.is64BitMode) (bytes (sizeOfPointer p.is64BitMode)
      ((stackPointer + o.envp) % 2 ^ (8 * sizeOfPointer p.is64BitMode) + offsetOf p.environmentVariables i))
  envpEnd : Holds s.memory
    (stackPointer + sizeOfPointer p.is64BitMode + p.args.length * sizeOfPointer p.is64BitMode + sizeOfPointer p.is64BitMode +
      p.environmentVariables.length * sizeOfPointer p.is64BitMode) (bytes (sizeOfPointer p.is64BitMode) 0)
  environment : ∀ i, (h : i < p.environmentVariables.length) →
    Holds s.memory (stackPointer + o.envp + offsetOf p.environmentVariables i) (p.environmentVariables[i] ++ [0])
  key : ∀ i, (h : i < p.auxVariables.length) →
    Holds s.memory (stackPointer + o.auxV + i * (2 * sizeOfPointer p.is64BitMode))
      (bytes (sizeOfPointer p.is64BitMode) p.auxVariables[i].key)
  val : ∀ i, (h : i < p.auxVariables.length) →
    Holds s.memory (stackPointer + o.auxV + i * (2 * sizeOfPointer p.is64BitMode) + sizeOfPointer p.is64BitMode)
      (bytes (sizeOfPointer p.is64BitMode) (if p.auxVariables[i].key = 25 then stackPointer + o.randomNumber else p.auxVariables[i].val))

theorem setupPointers_spec {stackPointer : Nat} {o : Offsets} (fits : Fits p base stackPointer o)
    (zero : ∀ a, base ≤ a → a < base + STACK_SIZE → s.memory a = 0) (fresh : s.written = [])
    (nonempty : ∀ x ∈ p.environmentVariables, x ≠ []) :
    ∃ s', setupPointers p stackPointer o s = some s' ∧ Pointers p base stackPointer o s' := by
  obtain ⟨start, auxV, argument, envp, randomNumber, top⟩ := fits
  simp only [setupPointers]
  generalize hsize : sizeOfPointer p.is64BitMode = size at *
  generalize hargs : p.args.length * size = argsSize at *
  generalize hvars : p.environmentVariables.length * size = varsSize at *
  generalize haux : p.auxVariables.length * (2 * size) = auxSize at *
  -- The words before the loops.
  generalize hs1 : ((s.storeWord size stackPointer p.args.length).storeWord size (stackPointer + size + argsSize) 0).storeWord size
    (stackPointer + size + argsSize + size) 0 = s1
  have outside1 : ∀ a, stackPointer + size + argsSize + size + size ≤ a → s1.memory a = s.memory a := by
    intro a ge
    rw [← hs1, Stack.memory_storeWord, store_outside (by simp; omega), Stack.memory_storeWord, store_outside (by simp; omega),
      Stack.memory_storeWord, store_outside (by simp; omega)]
  have argc1 : Holds s1.memory stackPointer (bytes size p.args.length) := by
    rw [← hs1]
    apply Holds.store
    · apply Holds.store
      · exact holds_store _ _ _
      · simp only [bytes_length]
        omega
    · simp only [bytes_length]
      omega
  have argvEnd1 : Holds s1.memory (stackPointer + size + argsSize) (bytes size 0) := by
    rw [← hs1]
    apply Holds.store
    · exact holds_store _ _ _
    · simp only [bytes_length]
      omega
  -- The arguments.
  have ready1 : Ready ⟨size, stackPointer + o.argument, (stackPointer + o.argument) % 2 ^ (8 * size)⟩ (stackPointer + size) 0
      p.args s1 := by
    constructor
    · simp only [hargs]
      omega
    · intro a ge le
      simp only at ge le
      rw [outside1 a (by omega)]
      exact zero a (by omega) (by omega)
  have placed1 := setupArguments_spec ready1
  generalize setupArguments _ (stackPointer + size) 0 p.args s1 = s2 at *
  -- The environment.
  have ready2 : Ready ⟨size, stackPointer + o.envp, (stackPointer + o.envp) % 2 ^ (8 * size)⟩
      (stackPointer + size + argsSize + size) 0 p.environmentVariables s2 := by
    constructor
    · simp only [hvars]
      omega
    · intro a ge le
      simp only at ge le
      by_cases first : a = stackPointer + o.envp
      · rw [first, envp, ← Nat.add_assoc]
        exact placed1.past
      · rw [placed1.outside a (by simp only [hargs]; omega) (by simp only; omega), outside1 a (by omega)]
        exact zero a (by omega) (by omega)
  obtain ⟨s3, hs3, placed2⟩ := setupEnvironment_spec ready2 nonempty
  rw [hs3]
  refine ⟨_, rfl, ?_⟩
  -- The end of the environment and the auxiliary entries.
  have below : stackPointer + o.auxV + p.auxVariables.length * (2 * size) ≤ stackPointer + o.randomNumber := by
    omega
  have placed3 := setupAuxVariables_spec (s3.storeWord size (stackPointer + size + argsSize + size + varsSize) 0) below
  generalize setupAuxVariables _ _ _ _ _ = s5 at *
  have keep : ∀ a, a < stackPointer + size + argsSize + size + varsSize ∨
      (stackPointer + o.argument ≤ a ∧ a < stackPointer + o.randomNumber) → s5.memory a = s3.memory a := by
    intro a ha
    rw [placed3.outside a (by rw [haux]; omega) (by omega), Stack.memory_storeWord, store_outside (by rw [bytes_length]; omega)]
  have head : ∀ a, (a < stackPointer + size ∨ (stackPointer + size + argsSize ≤ a ∧ a < stackPointer + size + argsSize + size)) →
      s5.memory a = s1.memory a := by
    intro a ha
    rw [keep a (by omega), placed2.outside a (by simp only [hvars]; omega) (by simp only; omega),
      placed1.outside a (by simp only [hargs]; omega) (by simp only; omega)]
  constructor
  · intro area mem
    rcases placed3.written area mem with old | ⟨ge, le⟩ | ⟨ge, le⟩
    · rw [Stack.written_storeWord, mem_cons] at old
      rcases old with rfl | old
      · exact ⟨by simp only; omega, by simp only; omega⟩
      · rcases placed2.written area old with old | ⟨ge, le⟩ | ⟨ge, le⟩
        · rcases placed1.written area old with old | ⟨ge, le⟩ | ⟨ge, le⟩
          · rw [← hs1] at old
            simp only [Stack.written_storeWord, fresh, mem_cons, List.not_mem_nil, or_false] at old
            rcases old with rfl | rfl | rfl
            · exact ⟨by simp only; omega, by simp only; omega⟩
            · exact ⟨by simp only; omega, by simp only; omega⟩
            · exact ⟨by simp only; omega, by simp only; omega⟩
          · simp only [hargs] at ge le
            exact ⟨by simp only; omega, by simp only; omega⟩
          · simp only at ge le
            exact ⟨by simp only; omega, by simp only; omega⟩
        · simp only [hvars] at ge le
          exact ⟨by simp only; omega, by simp only; omega⟩
        · simp only at ge le
          exact ⟨by simp only; omega, by simp only; omega⟩
    · exact ⟨by simp only; omega, by simp only; omega⟩
    · exact ⟨by simp only at ge ⊢; omega, by simp only at le ⊢; omega⟩
  · rw [hsize]
    exact argc1.congr (fun a ge lt => head a (.inl (by rw [bytes_length] at lt; omega)))
  · intro i hi
    rw [hsize]
    have here := placed1.pointers i hi
    have inTable : (i + 1) * size ≤ p.args.length * size := Nat.mul_le_mul_right _ hi
    rw [succ_mul, hargs] at inTable
    apply here.congr
    intro a ge lt
    simp only [bytes_length] at ge lt
    rw [keep a (by omega), placed2.outside a (by simp only; omega) (by simp only; omega)]
  · rw [hsize, hargs]
    exact argvEnd1.congr (fun a ge lt => head a (.inr ⟨ge, by rw [bytes_length] at lt; omega⟩))
  · intro i hi
    have here := placed1.copies i hi
    have le := offsetOf_le hi
    apply here.congr
    intro a ge lt
    simp only [List.length_append, length_singleton] at ge lt
    rw [keep a (by omega), placed2.outside a (by simp only [hvars]; omega) (by simp only; omega)]
  · intro i hi
    rw [hsize, hargs]
    have here := placed2.pointers i hi
    have inTable : (i + 1) * size ≤ p.environmentVariables.length * size := Nat.mul_le_mul_right _ hi
    rw [succ_mul, hvars] at inTable
    apply here.congr
    intro a ge lt
    simp only [bytes_length] at ge lt
    exact keep a (by omega)
  · rw [hsize, hargs, hvars]
    have here : Holds (s3.storeWord size (stackPointer + size + argsSize + size + varsSize) 0).memory
        (stackPointer + size + argsSize + size + varsSize) (bytes size 0) := holds_store _ _ _
    apply here.congr
    intro a ge lt
    rw [bytes_length] at lt
    exact placed3.outside a (by omega) (by omega)
  · intro i hi
    have here := placed2.copies i hi
    have le := offsetOf_le hi
    apply here.congr
    intro a ge lt
    simp only [List.length_append, length_singleton] at ge lt
    exact keep a (by omega)
  · rw [hsize]
    exact placed3.key
  · rw [hsize]
    exact placed3.val

/-! ## Areas -/

/-- The areas of strings one behind the other. -/
def stringAreas (start : Nat) : List (List Byte) → List (Nat × Nat)
  | [] => []
  | x :: strings => (start, x.length + 1) :: stringAreas (start + x.length + 1) strings

theorem mapIdx_eq_stringAreas {f : Nat → Nat} {start : Nat} (h : ∀ i < strings.length, f i = start + offsetOf strings i) :
    strings.mapIdx (fun i x => (f i, x.length + 1)) = stringAreas start strings := by
  induction strings generalizing f start with
  | nil => rfl
  | cons x strings ih =>
    have first := h 0 (by simp)
    rw [offsetOf_zero, Nat.add_zero] at first
    have rest : ∀ i < strings.length, f (i + 1) = start + x.length + 1 + offsetOf strings i := by
      intro i hi
      rw [h (i + 1) (by simpa using hi), offsetOf_succ]
      omega
    rw [List.mapIdx_cons, stringAreas, first, ih rest]

theorem inside_stringAreas {start : Nat} {area : Nat × Nat} (h : area ∈ stringAreas start strings) :
    Inside area (start, backingSize strings) := by
  induction strings generalizing start with
  | nil => cases h
  | cons x strings ih =>
    rw [backingSize_cons]
    rcases mem_cons.mp h with rfl | later
    · exact ⟨le_rfl, by simp only; omega⟩
    · obtain ⟨ge, le⟩ := ih later
      exact ⟨by simp only; omega, by simp only; omega⟩

theorem pairwise_stringAreas (start : Nat) (strings : List (List Byte)) : (stringAreas start strings).Pairwise Apart := by
  induction strings generalizing start with
  | nil => exact .nil
  | cons x strings ih =>
    refine .cons ?_ (ih _)
    intro area h
    obtain ⟨ge, le⟩ := inside_stringAreas h
    exact .inl ge

/-! ## SetupStack -/

theorem word_of_holds {r : Result} {i v : Nat} (h : Holds r.stack.memory (r.stackPointer + i * sizeOfPointer p.is64BitMode)
    (bytes (sizeOfPointer p.is64BitMode) v)) : r.word p i = v % 2 ^ (8 * sizeOfPointer p.is64BitMode) := by
  rw [Result.word, load_of_holds h, pow_mul]

section Follows

variable {r : Result} (fit : Fits p base r.stackPointer (offsets p)) (below : base + STACK_SIZE ≤ 2 ^ (8 * sizeOfPointer p.is64BitMode))
  (h : Pointers p base r.stackPointer (offsets p) r.stack)
include fit below h

variable {i : Nat}

theorem argvWord (hi : i < p.args.length) :
    r.word p (1 + i) = r.stackPointer + (offsets p).argument + offsetOf p.args i := by
  obtain ⟨start, auxV, argument, envp, randomNumber, top⟩ := fit
  have le := offsetOf_le hi
  have here := h.argv i hi
  rw [mod_eq_of_lt (by omega)] at here
  rw [word_of_holds (v := r.stackPointer + (offsets p).argument + offsetOf p.args i), mod_eq_of_lt (by omega)]
  convert here using 1
  ring

theorem environmentWord (hi : i < p.environmentVariables.length) :
    r.word p (Result.envpWord p + i) = r.stackPointer + (offsets p).envp + offsetOf p.environmentVariables i := by
  obtain ⟨start, auxV, argument, envp, randomNumber, top⟩ := fit
  have le := offsetOf_le hi
  have here := h.envp i hi
  rw [mod_eq_of_lt (by omega)] at here
  rw [word_of_holds (v := r.stackPointer + (offsets p).envp + offsetOf p.environmentVariables i), mod_eq_of_lt (by omega)]
  convert here using 1
  rw [Result.envpWord]
  ring

omit below in
theorem auxValWord (hi : i < p.auxVariables.length) : r.word p (Result.auxWord p + 2 * i + 1) =
    (if p.auxVariables[i].key = 25 then r.stackPointer + (offsets p).randomNumber else p.auxVariables[i].val) %
      2 ^ (8 * sizeOfPointer p.is64BitMode) := by
  have here := h.val i hi
  apply word_of_holds
  convert here using 1
  rw [Result.auxWord, fit.auxV]
  ring

theorem areas_eq : r.areas p =
    (r.stackPointer, (offsets p).argument) :: stringAreas (r.stackPointer + (offsets p).argument) p.args ++
      stringAreas (r.stackPointer + (offsets p).envp) p.environmentVariables := by
  have table : (Result.auxWord p + 2 * p.auxVariables.length) * sizeOfPointer p.is64BitMode = (offsets p).argument := by
    rw [fit.argument, fit.auxV, Result.auxWord]
    ring
  rw [Result.areas, table, mapIdx_eq_stringAreas (fun i hi => argvWord fit below h hi),
    mapIdx_eq_stringAreas (fun i hi => environmentWord fit below h hi)]

theorem areas_inside {area : Nat × Nat} (mem : area ∈ r.areas p) :
    Inside area (r.stackPointer, (offsets p).randomNumber) := by
  rw [areas_eq fit below h] at mem
  obtain ⟨start, auxV, argument, envp, randomNumber, top⟩ := fit
  simp only [List.cons_append, mem_cons, List.mem_append] at mem
  rcases mem with rfl | args | vars
  · exact ⟨le_rfl, by simp only; omega⟩
  · exact (inside_stringAreas args).trans ⟨by simp only; omega, by simp only; omega⟩
  · exact (inside_stringAreas vars).trans ⟨by simp only; omega, by simp only; omega⟩

theorem areas_apart : (r.areas p).Pairwise Apart := by
  rw [areas_eq fit below h]
  obtain ⟨start, auxV, argument, envp, randomNumber, top⟩ := fit
  rw [List.cons_append, List.pairwise_cons, List.pairwise_append]
  have table : Inside (r.stackPointer, (offsets p).argument) (r.stackPointer, (offsets p).argument) := ⟨le_rfl, le_rfl⟩
  refine ⟨?_, pairwise_stringAreas _ _, pairwise_stringAreas _ _, ?_⟩
  · intro area mem
    rcases List.mem_append.mp mem with args | vars
    · exact apart_of_inside table (inside_stringAreas args) le_rfl
    · exact apart_of_inside table (inside_stringAreas vars) (by omega)
  · intro x args y vars
    exact apart_of_inside (inside_stringAreas args) (inside_stringAreas vars) (by omega)

theorem followsABI (aligned : r.stackPointer % 16 = 0) : r.FollowsABI p base := by
  have positive : 0 < sizeOfPointer p.is64BitMode := by
    rcases sizeOfPointer_cases p.is64BitMode with size | size <;> omega
  have areasInside := fun area => @areas_inside _ _ _ fit below h area
  have limit : r.stackPointer + (offsets p).randomNumber + 16 ≤ 2 ^ (8 * sizeOfPointer p.is64BitMode) := by
    rw [fit.top]
    exact below
  have inMapping : Inside (r.stackPointer, (offsets p).randomNumber + 16) (base, STACK_SIZE) :=
    ⟨fit.start, by simp only; rw [← fit.top]; omega⟩
  have random : ∀ i, (hi : i < p.auxVariables.length) → p.auxVariables[i].key = 25 →
      r.word p (Result.auxWord p + 2 * i + 1) = r.stackPointer + (offsets p).randomNumber := by
    intro i hi is25
    rw [auxValWord fit h hi, if_pos is25, mod_eq_of_lt (by omega)]
  constructor
  · exact h.written
  · exact aligned
  · have few : p.args.length < 2 ^ (8 * sizeOfPointer p.is64BitMode) := by
      have le : p.args.length ≤ p.args.length * sizeOfPointer p.is64BitMode := Nat.le_mul_of_pos_right _ positive
      obtain ⟨start, auxV, argument, envp, randomNumber, top⟩ := fit
      omega
    have here := word_of_holds (i := 0) (by rw [zero_mul, Nat.add_zero]; exact h.argc)
    rw [here, mod_eq_of_lt few]
  · intro i hi
    rw [argvWord fit below h hi]
    exact h.args i hi
  · have here := h.argvEnd
    rw [word_of_holds (v := 0), Nat.zero_mod]
    convert here using 1
    ring
  · intro i hi
    rw [environmentWord fit below h hi]
    exact h.environment i hi
  · have here := h.envpEnd
    rw [word_of_holds (v := 0), Nat.zero_mod]
    convert here using 1
    rw [Result.envpWord]
    ring
  · intro i hi
    apply word_of_holds
    convert h.key i hi using 1
    rw [Result.auxWord, fit.auxV]
    ring
  · intro i hi ne
    rw [auxValWord fit h hi, if_neg ne]
  · intro i hi is25
    rw [random i hi is25]
    refine ⟨Inside.trans ⟨by simp, by simp only; omega⟩ inMapping, fun area mem => .inl ?_⟩
    exact (areasInside area mem).2
  · intro area mem
    have smaller : Inside (r.stackPointer, (offsets p).randomNumber) (r.stackPointer, (offsets p).randomNumber + 16) :=
      ⟨le_rfl, by simp⟩
    exact ((areasInside area mem).trans smaller).trans inMapping
  · exact areas_apart fit below h

end Follows

theorem setupStack_follows (mapping : Mapping p base s) (room : stackBytes p ≤ STACK_SIZE)
    (nonempty : ∀ x ∈ p.environmentVariables, x ≠ []) : ∃ r, setupStack p base s = some r ∧
      r.stackPointer = base + STACK_SIZE - stackBytes p ∧ (r.stackPointer % 16 = 0 → r.FollowsABI p base) := by
  have fit : Fits p base (base + STACK_SIZE - (offsets p).total) (offsets p) := fits room
  obtain ⟨s', hs', h⟩ := setupPointers_spec fit mapping.zero mapping.fresh nonempty
  refine ⟨_, by simp only [setupStack, hs', Option.map_some]; rfl, by rw [offsets_total], ?_⟩
  exact followsABI fit mapping.below h

/-- The stack is that of the psABI exactly when no environment string is empty and the stack is a multiple of 16 bytes. -/
theorem setupStack_followsABI_iff (mapping : Mapping p base s) (room : stackBytes p ≤ STACK_SIZE) :
    (∃ r, setupStack p base s = some r ∧ r.FollowsABI p base) ↔
      (∀ x ∈ p.environmentVariables, x ≠ []) ∧ stackBytes p % 16 = 0 := by
  have page := mapping.page
  have multiple : STACK_SIZE % 16 = 0 := by decide
  constructor
  · rintro ⟨r, hr, follows⟩
    have nonempty : ∀ x ∈ p.environmentVariables, x ≠ [] := by
      rintro x mem rfl
      simp only [setupStack, setupPointers, setupEnvironment_throws mem, Option.map_none] at hr
      cases hr
    obtain ⟨r', hr', top, -⟩ := setupStack_follows mapping room nonempty
    obtain rfl := Option.some.inj (hr.symm.trans hr')
    have aligned := follows.aligned
    exact ⟨nonempty, by omega⟩
  · rintro ⟨nonempty, whole⟩
    obtain ⟨r, hr, top, follows⟩ := setupStack_follows mapping room nonempty
    exact ⟨r, hr, follows (by omega)⟩

/-! ## A string that is empty, and a stack that is no multiple of 16 bytes -/

def zeros : Stack := ⟨fun _ => 0, []⟩

/-- A 64-bit program "a" with an empty environment string. -/
def emptyVariable : Program := ⟨true, [[0x61]], [[]], [⟨25, 0⟩, ⟨0, 0⟩]⟩

/-- A 64-bit program "a" without an environment. -/
def shortArgument : Program := ⟨true, [[0x61]], [], [⟨25, 0⟩, ⟨0, 0⟩]⟩

theorem zeros_mapping (p : Program) : Mapping p 0x10000000 zeros := by
  refine ⟨fun _ _ _ => rfl, rfl, rfl, ?_⟩
  rcases sizeOfPointer_cases p.is64BitMode with size | size <;> rw [size] <;> decide

/-- The first one throws, and the second one starts on a stack pointer that is not aligned. -/
theorem setupStack_not_ABI :
    (Mapping emptyVariable 0x10000000 zeros ∧ stackBytes emptyVariable ≤ STACK_SIZE ∧
      setupStack emptyVariable 0x10000000 zeros = none) ∧
    (Mapping shortArgument 0x10000000 zeros ∧ stackBytes shortArgument ≤ STACK_SIZE ∧
      ∀ r, setupStack shortArgument 0x10000000 zeros = some r → ¬r.FollowsABI shortArgument 0x10000000) := by
  refine ⟨⟨zeros_mapping _, by decide, rfl⟩, zeros_mapping _, by decide, ?_⟩
  intro r hr follows
  obtain ⟨r', hr', top, -⟩ := setupStack_follows (zeros_mapping shortArgument) (by decide) (by decide)
  obtain rfl := Option.some.inj (hr.symm.trans hr')
  have aligned := follows.aligned
  rw [top] at aligned
  revert aligned
  decide

/-- A 32-bit program with two arguments, one of them empty, and an environment string. -/
def roundProgram : Program := ⟨false, [[0x61, 0x62, 0x63], []], [[0x78, 0x3D]], [⟨25, 0⟩, ⟨0, 0⟩]⟩

theorem setupStack_followsABI_round : ∃ r, setupStack roundProgram 0x10000000 zeros = some r ∧ r.FollowsABI roundProgram 0x10000000 :=
  (setupStack_followsABI_iff (zeros_mapping roundProgram) (by decide)).mpr (by decide)

end FexEmu.Elf.InitialStack
