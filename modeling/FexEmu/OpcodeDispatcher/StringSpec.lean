import FexEmu.OpcodeDispatcher.ArithmeticFlags
import FexEmu.OpcodeDispatcher.EffectiveAddress
/-!
# String instructions of the architecture

An iteration of each instruction, its repetition, and what it takes for the emitted code to follow them.
-/
namespace FexEmu.OpcodeDispatcher.StringOps

open FlatMemory (Memory)
open ByteMemory (bytes)
open Address (CPUState Segment DecodedOp inEffect segmentBase linearBits)
open Frontend.ModRM (X86Reg)
open Frontend.Prefixes (flag addressSizeBit repPrefixBit repnePrefixBit)

/-- The string instructions. -/
inductive Instruction
  | movs | stos | lods | cmps | scas
deriving DecidableEq, Repr

/-- The prefixes that repeat one. -/
inductive RepeatPrefix
  | rep | repne
deriving DecidableEq, Repr

/-- The registers, flags and memory that a string instruction reads or writes. -/
@[ext] structure Arch where
  rax : Nat
  rcx : Nat
  rsi : Nat
  rdi : Nat
  flags : ALUFlags
  df : Bool
  mem : Memory

/-! ## Iterations -/

/-- The width of addresses, the element's bytes and the segments' bases. -/
structure Operands where
  bits : Nat
  size : Nat
  srcBase : Nat
  dstBase : Nat

def step (size : Nat) (df : Bool) : Int := if df then -size else size

namespace Operands
variable (x : Operands)

def linear (base pointer : Nat) : Nat := (pointer + base) % 2 ^ x.bits

def load (a : Arch) (base pointer : Nat) : Nat := FlatMemory.load a.mem (x.linear base pointer) x.size

def store (a : Arch) (value : Nat) : Memory :=
  FlatMemory.store a.mem (x.linear x.dstBase a.rdi) (bytes x.size (value % 2 ^ (8 * x.size)))

def advance (df : Bool) (pointer : Nat) : Nat := ((pointer + step x.size df) % 2 ^ x.bits).toNat

/-- An element in the accumulator. Only small ones leave the bytes above alone. -/
def accumulate (rax value : Nat) : Nat :=
  if x.size < 4 then rax / 2 ^ (8 * x.size) * 2 ^ (8 * x.size) + value else value

def compare (value value' : Nat) : ALUFlags :=
  subFlags (BitVec.ofNat (8 * x.size) value) (BitVec.ofNat (8 * x.size) value') false

def iterate (instruction : Instruction) (a : Arch) : Arch :=
  let rsi := x.advance a.df a.rsi
  let rdi := x.advance a.df a.rdi
  match instruction with
  | .movs => { a with mem := x.store a (x.load a x.srcBase a.rsi), rsi, rdi }
  | .stos => { a with mem := x.store a a.rax, rdi }
  | .lods => { a with rax := x.accumulate a.rax (x.load a x.srcBase a.rsi), rsi }
  | .cmps => { a with flags := x.compare (x.load a x.srcBase a.rsi) (x.load a x.dstBase a.rdi), rsi, rdi }
  | .scas => { a with flags := x.compare a.rax (x.load a x.dstBase a.rdi), rdi }

end Operands

/-- A repetition for a count, and the iterations that are executed. -/
def repeated (iterate : Arch → Arch) (leaves : ALUFlags → Bool) : Nat → Arch → Arch × Nat
  | 0, a => (a, 0)
  | count + 1, a =>
    let next := { iterate a with rcx := count }
    if leaves next.flags then (next, 1)
    else
      let rest := repeated iterate leaves count next
      (rest.1, rest.2 + 1)

def leaves (instruction : Instruction) (repeatPrefix : RepeatPrefix) (flags : ALUFlags) : Bool :=
  if instruction = .cmps ∨ instruction = .scas then
    match repeatPrefix with
    | .rep => !flags.zf
    | .repne => flags.zf
  else false

/-! ## Instructions -/

/-- Without an address size prefix, which fails. The flags tell its prefixes, at most one for a segment, and the size of its
elements. -/
structure Decoded (is64BitMode : Bool) extends DecodedOp where
  instruction : Instruction
  repeatPrefix : Option RepeatPrefix
  override : Option Segment
  size : Nat
  flags_addressSize : flags &&& flag addressSizeBit = 0
  flags_rep : (flags &&& flag repPrefixBit ≠ 0) ↔ repeatPrefix = some .rep
  flags_repne : (flags &&& flag repnePrefixBit ≠ 0) ↔ repeatPrefix = some .repne
  flags_segment : ∀ segment, (flags &&& flag segment.bit ≠ 0) ↔
    segment ∈ override.toList.filter (inEffect is64BitMode)
  getSrcSize_eq : getSrcSize toDecodedOp = size
  getDstSize_eq : getDstSize toDecodedOp = size
  sizes : size = 1 ∨ size = 2 ∨ size = 4 ∨ size = 8 ∧ is64BitMode = true

/-- The destination is in the extra segment, the source in the data segment by default, both with base zero in 64-bit mode.
-/
def destinationBase (is64BitMode : Bool) (cpu : CPUState) : Nat := if is64BitMode then 0 else segmentBase false cpu .es

def sourceBase (is64BitMode : Bool) (cpu : CPUState) (override : Option Segment) : Nat :=
  match override.filter (inEffect is64BitMode) with
  | some segment => segmentBase is64BitMode cpu segment
  | none => if is64BitMode then 0 else segmentBase false cpu .ds

section
variable {is64BitMode : Bool} (op : Decoded is64BitMode)

def Decoded.operands (cpu : CPUState) : Operands where
  bits := linearBits is64BitMode
  size := op.size
  srcBase := sourceBase is64BitMode cpu op.override
  dstBase := destinationBase is64BitMode cpu

/-- The state that the architecture leaves, and the iterations that it executes. -/
def Decoded.execute (cpu : CPUState) (a : Arch) : Arch × Nat :=
  let iterate := (op.operands cpu).iterate op.instruction
  match op.repeatPrefix with
  | none => (iterate a, 1)
  | some repeatPrefix => repeated iterate (leaves op.instruction repeatPrefix) a.rcx a

def handler : Instruction → Bool → DecodedOp → Option Code
  | .movs => movsOp
  | .stos => stosOp
  | .lods => lodsOp
  | .cmps => cmpsOp
  | .scas => scasOp

def State.reg (is64BitMode : Bool) (s : State) (reg : X86Reg) : Nat :=
  (s.cpu.gregs reg).toNat % 2 ^ linearBits is64BitMode

def State.arch (is64BitMode : Bool) (s : State) : Arch where
  rax := s.reg is64BitMode .rax
  rcx := s.reg is64BitMode .rcx
  rsi := s.reg is64BitMode .rsi
  rdi := s.reg is64BitMode .rdi
  flags := s.calculateDeferredFlags.flags
  df := s.df
  mem := s.mem

def usesRSI (instruction : Instruction) : Bool := instruction = .movs || instruction = .lods || instruction = .cmps

def usesRDI (instruction : Instruction) : Bool := instruction ≠ .lods

/-- The pointer is moved by the size of all elements that there was an iteration for. -/
def Moved (uses : Bool) (pointer iterations pointer' : Nat) (cpu : CPUState) (df : Bool) : Prop :=
  pointer' = if uses then ((pointer + step op.size df * iterations) % 2 ^ (op.operands cpu).bits).toNat else pointer

/-- The emitted code ends as the architecture does, with the pointers moved by what was iterated over. -/
def FollowsX86 (s : State) : Prop :=
  ∃ code passes s', handler op.instruction is64BitMode op.toDecodedOp = some code ∧ code passes s = some s' ∧
    s'.arch is64BitMode = (op.execute s.cpu (s.arch is64BitMode)).1 ∧
    Moved op (usesRSI op.instruction) (s.reg is64BitMode .rsi) (op.execute s.cpu (s.arch is64BitMode)).2
      (s'.reg is64BitMode .rsi) s.cpu s.df ∧
    Moved op (usesRDI op.instruction) (s.reg is64BitMode .rdi) (op.execute s.cpu (s.arch is64BitMode)).2
      (s'.reg is64BitMode .rdi) s.cpu s.df

end

end FexEmu.OpcodeDispatcher.StringOps
