import FexEmu.Data.FlatMemory
/-!
# The initial stack of a process

`SetupStack` and `SetupPointers` of `ELFCodeLoader2.h`, on a stack whose addresses do not wrap around.
-/
namespace FexEmu.Elf.InitialStack

open ByteMemory (bytes)
open FlatMemory

/-- The memory with the areas that were written. -/
structure Stack where
  memory : Memory
  written : List (Nat × Nat)

def Stack.store (s : Stack) (a : Nat) (l : List Byte) : Stack := ⟨FlatMemory.store s.memory a l, (a, l.length) :: s.written⟩

/-- A `PointerType` of some bytes. -/
def Stack.storeWord (s : Stack) (size a v : Nat) : Stack := s.store a (bytes size v)

def STACK_SIZE : Nat := 8 * 1024 * 1024

def sizeOfPointer (is64BitMode : Bool) : Nat := if is64BitMode then 8 else 4

/-- An entry of the auxiliary vector. -/
structure auxv_t where
  key : Nat
  val : Nat
deriving DecidableEq, Repr

/-- `ArgumentBackingSize` and `EnvironmentBackingSize`. -/
def backingSize (strings : List (List Byte)) : Nat := (strings.map (fun s => s.length + 1)).sum

/-! ## SetupPointers -/

/-- Where the loop over strings writes. -/
structure Backing where
  size : Nat
  base : Nat
  guest : Nat

/-- The loop over the arguments, with the address of the pointer to the next one. -/
def setupArguments (b : Backing) : (pointer currentOffset : Nat) → List (List Byte) → Stack → Stack
  | _, _, [], s => s
  | pointer, currentOffset, arg :: args, s =>
    let s := s.storeWord b.size pointer (b.guest + currentOffset)
    let s := if arg.length > 0 then s.store (b.base + currentOffset) arg else s
    let s := s.store (b.base + currentOffset + arg.length + 1) [0]
    setupArguments b (pointer + b.size) (currentOffset + arg.length + 1) args s

/-- The loop over the environment. `at(0)` of an empty string throws. -/
def setupEnvironment (b : Backing) : (pointer currentOffset : Nat) → List (List Byte) → Stack → Option Stack
  | _, _, [], s => some s
  | pointer, currentOffset, var :: vars, s =>
    let s := s.storeWord b.size pointer (b.guest + currentOffset)
    if var.length > 0 then
      let s := s.store (b.base + currentOffset) var
      let s := s.store (b.base + currentOffset + var.length + 1) [0]
      setupEnvironment b (pointer + b.size) (currentOffset + var.length + 1) vars s
    else none

/-- The loop over the auxiliary entries, with the address of the next one. -/
def setupAuxVariables (size random : Nat) : (entry : Nat) → List auxv_t → Stack → Stack
  | _, [], s => s
  | entry, aux :: rest, s =>
    let s :=
      if aux.key = 25 then
        let s := (s.storeWord 8 random 0xDEAD).storeWord 8 (random + 8) 0xDEAD2
        (s.storeWord size entry 25).storeWord size (entry + size) random
      else (s.storeWord size entry aux.key).storeWord size (entry + size) aux.val
    setupAuxVariables size random (entry + 2 * size) rest s

/-- What a program starts with. -/
structure Program where
  is64BitMode : Bool
  args : List (List Byte)
  environmentVariables : List (List Byte)
  auxVariables : List auxv_t

/-- The offsets from the stack pointer. -/
structure Offsets where
  auxV : Nat
  argument : Nat
  envp : Nat
  randomNumber : Nat
  total : Nat

def setupPointers (p : Program) (stackPointer : Nat) (o : Offsets) (s : Stack) : Option Stack :=
  let size := sizeOfPointer p.is64BitMode
  let argumentPointers := stackPointer + size
  let padPointers := stackPointer + size + p.args.length * size
  let envpPointers := stackPointer + size + p.args.length * size + size
  let backing offset : Backing := ⟨size, stackPointer + offset, (stackPointer + offset) % 2 ^ (8 * size)⟩
  let s := s.storeWord size stackPointer p.args.length
  let s := s.storeWord size padPointers 0
  let s := s.storeWord size envpPointers 0
  let s := setupArguments (backing o.argument) argumentPointers 0 p.args s
  match setupEnvironment (backing o.envp) envpPointers 0 p.environmentVariables s with
  | some s =>
    let s := s.storeWord size (envpPointers + p.environmentVariables.length * size) 0
    some (setupAuxVariables size (stackPointer + o.randomNumber) (stackPointer + o.auxV) p.auxVariables s)
  | none => none

def offsets (p : Program) : Offsets :=
  let size := sizeOfPointer p.is64BitMode
  let auxV := size + size * p.args.length + size + size * p.environmentVariables.length + size
  let argument := auxV + 2 * size * p.auxVariables.length
  let envp := argument + backingSize p.args
  let random := envp + backingSize p.environmentVariables
  ⟨auxV, argument, envp, random % 2 ^ 32, random + 16⟩

/-- What SetupStack leaves and returns. -/
structure Result where
  stackPointer : Nat
  stack : Stack
  auxTabBase : Nat
  auxTabSize : Nat

/-- `base` is the address of the mapping. An exception is `none`. -/
def setupStack (p : Program) (base : Nat) (s : Stack) : Option Result :=
  let o := offsets p
  let stackPointer := base + STACK_SIZE - o.total
  (setupPointers p stackPointer o s).map fun s =>
    ⟨stackPointer, s, stackPointer + o.auxV, 2 * sizeOfPointer p.is64BitMode * p.auxVariables.length⟩

/-! ## What it shall be -/

/-- A mapping of zeros that nothing was written to yet. -/
structure Mapping (p : Program) (base : Nat) (s : Stack) : Prop where
  zero : ∀ a, base ≤ a → a < base + STACK_SIZE → s.memory a = 0
  fresh : s.written = []
  page : base % 4096 = 0
  below : base + STACK_SIZE ≤ 2 ^ (8 * sizeOfPointer p.is64BitMode)

namespace Result

variable (p : Program) (r : Result)

def word (i : Nat) : Nat :=
  load r.stack.memory (r.stackPointer + i * sizeOfPointer p.is64BitMode) (sizeOfPointer p.is64BitMode)

/-- The first word of the environment, and of the auxiliary entries. -/
def envpWord : Nat := 2 + p.args.length
def auxWord : Nat := 3 + p.args.length + p.environmentVariables.length

/-- A string with its NUL lies at an address. -/
def Copied (a : Nat) (string : List Byte) : Prop := Holds r.stack.memory a (string ++ [0])

/-- The pointers with the words around them, and the strings that they lead to. -/
def areas : List (Nat × Nat) :=
  (r.stackPointer, (auxWord p + 2 * p.auxVariables.length) * sizeOfPointer p.is64BitMode) ::
    p.args.mapIdx (fun i arg => (r.word p (1 + i), arg.length + 1)) ++
      p.environmentVariables.mapIdx (fun i var => (r.word p (envpWord p + i), var.length + 1))

/-- The psABI. In the 32-bit mode an auxiliary entry has 32 bits. -/
structure FollowsABI (base : Nat) : Prop where
  written : ∀ area ∈ r.stack.written, Inside area (base, STACK_SIZE)
  aligned : r.stackPointer % 16 = 0
  argc : r.word p 0 = p.args.length
  argv : ∀ i, (h : i < p.args.length) → r.Copied (r.word p (1 + i)) p.args[i]
  argvEnd : r.word p (1 + p.args.length) = 0
  envp : ∀ i, (h : i < p.environmentVariables.length) → r.Copied (r.word p (envpWord p + i)) p.environmentVariables[i]
  envpEnd : r.word p (envpWord p + p.environmentVariables.length) = 0
  key : ∀ i, (h : i < p.auxVariables.length) →
    r.word p (auxWord p + 2 * i) = p.auxVariables[i].key % 2 ^ (8 * sizeOfPointer p.is64BitMode)
  val : ∀ i, (h : i < p.auxVariables.length) → p.auxVariables[i].key ≠ 25 →
    r.word p (auxWord p + 2 * i + 1) = p.auxVariables[i].val % 2 ^ (8 * sizeOfPointer p.is64BitMode)
  random : ∀ i, (h : i < p.auxVariables.length) → p.auxVariables[i].key = 25 →
    Inside (r.word p (auxWord p + 2 * i + 1), 16) (base, STACK_SIZE) ∧
      ∀ area ∈ r.areas p, Apart area (r.word p (auxWord p + 2 * i + 1), 16)
  inside : ∀ area ∈ r.areas p, Inside area (base, STACK_SIZE)
  apart : (r.areas p).Pairwise Apart

end Result

def stackBytes (p : Program) : Nat :=
  sizeOfPointer p.is64BitMode * (3 + p.args.length + p.environmentVariables.length + 2 * p.auxVariables.length) +
    backingSize p.args + backingSize p.environmentVariables + 16

end FexEmu.Elf.InitialStack
