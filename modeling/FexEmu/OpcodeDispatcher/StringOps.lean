import FexEmu.OpcodeDispatcher.Address
/-!
# String instructions

`STOSOp`, `MOVSOp`, `CMPSOp`, `LODSOp` and `SCASOp`, and the flags of a subtraction.
-/
namespace FexEmu.OpcodeDispatcher.StringOps

open FlatMemory (Memory)
open ByteMemory (bytes)
open Address (Node constant loadContext arithmetic add lshr bfe CPUState gprSize appendSegmentOffset DecodedOp)
open Frontend.ModRM (X86Reg)
open Frontend.Prefixes (flag addressSizeBit esPrefixBit dsPrefixBit repPrefixBit repnePrefixBit)

/-- The flags that arithmetic sets. -/
structure ALUFlags where
  cf : Bool
  pf : Bool
  af : Bool
  zf : Bool
  sf : Bool
  of : Bool
deriving DecidableEq, Repr

/-- `deferred` is what `CalculateDeferredFlags` has still to store, of whatever type it is. -/
structure State where
  cpu : CPUState
  flags : ALUFlags
  df : Bool
  deferred : Option (ALUFlags → ALUFlags)
  mem : Memory

/-! ## Nodes -/

def sub : Node → Node → Node := arithmetic (· - ·)

def xor : Node → Node → Node := arithmetic (· ^^^ ·)

def and : Node → Node → Node := arithmetic (· &&& ·)

def popcount (src : Node) : Node := ⟨src.size, src.value.cpop⟩

def select (condition : Bool) (trueVal falseVal : Node) : Node := if condition then trueVal else falseVal

/-- `_Bfe` from the bit `lsb` on. -/
def bfeFrom (width lsb : Nat) (src : Node) : Node := bfe src.size width ⟨src.size, src.value >>> lsb⟩

def loadFlag (bit : Bool) : Node := ⟨1, if bit then 1 else 0⟩

/-- `SetRFLAG` stores the lowest bit. -/
def rflag (value : Node) : Bool := value.value.getLsbD 0

/-- `_StoreContext` of the low bytes of a member. -/
def storeContext (size : Nat) (value : Node) (member : BitVec 64) : BitVec 64 :=
  (member >>> (8 * size) <<< (8 * size)) ||| (value.value.setWidth (8 * size)).setWidth 64

def State.loadGreg (s : State) (size : Nat) (reg : X86Reg) : Node := loadContext size (s.cpu.gregs reg)

def State.storeGreg (s : State) (size : Nat) (value : Node) (reg : X86Reg) : State :=
  { s with cpu := { s.cpu with gregs := Function.update s.cpu.gregs reg (storeContext size value (s.cpu.gregs reg)) } }

/-- `_LoadMemAutoTSO`. -/
def State.loadMem (s : State) (size : Nat) (address : Node) : Node :=
  ⟨size, BitVec.ofNat 64 (FlatMemory.load s.mem address.value.toNat size)⟩

/-- `_StoreMemAutoTSO`. -/
def State.storeMem (s : State) (size : Nat) (address value : Node) : State :=
  { s with mem := FlatMemory.store s.mem address.value.toNat (bytes size value.value.toNat) }

def calculcateFlags_SUB (srcSize : Nat) (res src1 src2 : Node) : ALUFlags where
  af := rflag (bfeFrom 1 4 (xor (xor src1 src2) res))
  sf := rflag (lshr res (srcSize * 8 - 1))
  pf := rflag (xor (popcount (and res (constant 64 0xFF))) (constant 64 1))
  zf := rflag (select (res.value = 0) (constant 64 1) (constant 64 0))
  cf := rflag (select (src1.value < src2.value) (constant 64 1) (constant 64 0))
  of := rflag (bfeFrom 1 (srcSize * 8 - 1) (and (xor src1 src2) (xor res src1)))

def State.generateFlags_SUB (s : State) (srcSize : Nat) (res src1 src2 : Node) : State :=
  { s with deferred := some fun _ => calculcateFlags_SUB srcSize res src1 src2 }

def State.calculateDeferredFlags (s : State) : State :=
  { s with flags := s.deferred.elim s.flags (fun calculate => calculate s.flags), deferred := none }

/-- What emitted code does, if its loop is entered at most so many times. -/
abbrev Code := Nat → State → Option State

def loop (gprSize : Nat) (tail : State → State) (jumpsBack : State → Bool) : Code
  | 0, _ => none
  | passes + 1, s =>
    if (s.loadGreg gprSize .rcx).value = 0 then some s
    else
      let s := tail s
      if jumpsBack s then loop gprSize tail jumpsBack passes s else some s

/-- `{REPE ? COND_NEQ : COND_EQ}` of the zero flag. -/
def zfJumpsBack (repe : Bool) (s : State) : Bool :=
  if repe then (loadFlag s.flags.zf).value ≠ 0 else (loadFlag s.flags.zf).value = 0

/-! ## Handlers -/

/-- The sizes of `GetSrcSize` and `GetDstSize`, where zero is invalid. -/
def sizes : List Nat := [0, 1, 2, 4, 8, 16, 32, 0]

def getDstSize (op : DecodedOp) : Nat := sizes.getD ((op.flags >>> 19) &&& 7#32).toNat 0

def getSrcSize (op : DecodedOp) : Nat := sizes.getD ((op.flags >>> 22) &&& 7#32).toNat 0

def hasAddressSize (op : DecodedOp) : Bool := op.flags &&& flag addressSizeBit ≠ 0

def repeats (op : DecodedOp) : Bool := op.flags &&& (flag repPrefixBit ||| flag repnePrefixBit) ≠ 0

def repe (op : DecodedOp) : Bool := op.flags &&& flag repPrefixBit ≠ 0

def State.ptrDir (s : State) (size : Nat) : Node :=
  select ((loadFlag s.df).value = 0) (constant 64 (BitVec.ofNat 64 size)) (constant 64 (-BitVec.ofNat 64 size))

def State.appendES (s : State) (is64BitMode : Bool) (value : Node) : Node :=
  appendSegmentOffset is64BitMode s.cpu value 0 (flag esPrefixBit) true

def State.appendDS (s : State) (is64BitMode : Bool) (op : DecodedOp) (value : Node) : Node :=
  appendSegmentOffset is64BitMode s.cpu value op.flags (flag dsPrefixBit) false

def State.offsetPointer (s : State) (gprSize : Nat) (ptrDir : Node) (reg : X86Reg) : State :=
  let tailDest := s.loadGreg gprSize reg
  s.storeGreg gprSize (add tailDest ptrDir) reg

def State.offsetTail (s : State) (gprSize : Nat) (ptrDir : Node) (reg : X86Reg) : State :=
  let tailCounter := s.loadGreg gprSize .rcx
  let tailDest := s.loadGreg gprSize reg
  let s := s.storeGreg gprSize (sub tailCounter (constant 64 1)) .rcx
  s.storeGreg gprSize (add tailDest ptrDir) reg

section
variable (is64BitMode : Bool) (op : DecodedOp)

def stos (s : State) : State :=
  let src := s.loadGreg (getSrcSize op) .rax
  let dest := s.loadGreg (gprSize is64BitMode) .rdi
  let dest := s.appendES is64BitMode dest
  s.storeMem (getSrcSize op) dest src

def stosTail (ptrDir : Node) (s : State) : State :=
  (stos is64BitMode op s).offsetTail (gprSize is64BitMode) ptrDir .rdi

def stosOp : Option Code :=
  if hasAddressSize op then none
  else if ¬repeats op then
    some fun _ s =>
      let s := stos is64BitMode op s
      some (s.offsetPointer (gprSize is64BitMode) (s.ptrDir (getSrcSize op)) .rdi)
  else
    some fun passes s =>
      let s := s.calculateDeferredFlags
      let ptrDir := s.ptrDir (getSrcSize op)
      loop (gprSize is64BitMode) (stosTail is64BitMode op ptrDir) (fun _ => true) passes s

/-! ### MOVS -/

def movsTail (ptrDir : Node) (s : State) : State :=
  let src := s.loadGreg (gprSize is64BitMode) .rsi
  let dest := s.loadGreg (gprSize is64BitMode) .rdi
  let dest := s.appendES is64BitMode dest
  let src := s.appendDS is64BitMode op src
  let src := s.loadMem (getSrcSize op) src
  let s := s.storeMem (getSrcSize op) dest src
  let tailCounter := s.loadGreg (gprSize is64BitMode) .rcx
  let s := s.storeGreg (gprSize is64BitMode) (sub tailCounter (constant 64 1)) .rcx
  let tailSrc := s.loadGreg (gprSize is64BitMode) .rsi
  let tailDest := s.loadGreg (gprSize is64BitMode) .rdi
  let s := s.storeGreg (gprSize is64BitMode) (add tailSrc ptrDir) .rsi
  s.storeGreg (gprSize is64BitMode) (add tailDest ptrDir) .rdi

/-- Without a loop, the pointers that are stored are those of the access. -/
def movs (ptrDir : Node) (s : State) : State :=
  let rsi := s.loadGreg (gprSize is64BitMode) .rsi
  let rdi := s.loadGreg (gprSize is64BitMode) .rdi
  let rdi := s.appendES is64BitMode rdi
  let rsi := s.appendDS is64BitMode op rsi
  let src := s.loadMem (getSrcSize op) rsi
  let s := s.storeMem (getSrcSize op) rdi src
  let s := s.storeGreg (gprSize is64BitMode) (add rsi ptrDir) .rsi
  s.storeGreg (gprSize is64BitMode) (add rdi ptrDir) .rdi

def movsOp : Option Code :=
  if hasAddressSize op then none
  else if repeats op then
    some fun passes s =>
      let ptrDir := s.ptrDir (getSrcSize op)
      let s := s.calculateDeferredFlags
      loop (gprSize is64BitMode) (movsTail is64BitMode op ptrDir) (fun _ => true) passes s
  else some fun _ s => some (movs is64BitMode op (s.ptrDir (getSrcSize op)) s)

/-! ### CMPS and SCAS -/

/-- `Result`, cut to the size of an element. -/
def result (src1 src2 : Node) : Node :=
  let result := sub src1 src2
  if getSrcSize op < 4 then bfeFrom (getSrcSize op * 8) 0 result else result

def cmps (s : State) : State × Node × Node :=
  let destRDI := s.loadGreg (gprSize is64BitMode) .rdi
  let destRSI := s.loadGreg (gprSize is64BitMode) .rsi
  let destRDI := s.appendES is64BitMode destRDI
  let destRSI := s.appendDS is64BitMode op destRSI
  let src1 := s.loadMem (getSrcSize op) destRDI
  let src2 := s.loadMem (getSrcSize op) destRSI
  (s.generateFlags_SUB (getSrcSize op) (result op src2 src1) src2 src1, destRDI, destRSI)

def cmpsTail (ptrDir : Node) (s : State) : State :=
  let (s, destRDI, destRSI) := cmps is64BitMode op s
  let s := s.calculateDeferredFlags
  let tailCounter := s.loadGreg (gprSize is64BitMode) .rcx
  let s := s.storeGreg (gprSize is64BitMode) (sub tailCounter (constant 64 1)) .rcx
  let s := s.storeGreg (gprSize is64BitMode) (add destRDI ptrDir) .rdi
  s.storeGreg (gprSize is64BitMode) (add destRSI ptrDir) .rsi

def cmpsOp : Option Code :=
  if hasAddressSize op then none
  else if ¬repeats op then
    some fun _ s =>
      let (s, destRDI, destRSI) := cmps is64BitMode op s
      let ptrDir := s.ptrDir (getSrcSize op)
      let s := s.storeGreg (gprSize is64BitMode) (add destRDI ptrDir) .rdi
      some (s.storeGreg (gprSize is64BitMode) (add destRSI ptrDir) .rsi)
  else
    some fun passes s =>
      let s := s.calculateDeferredFlags
      let ptrDir := s.ptrDir (getSrcSize op)
      loop (gprSize is64BitMode) (cmpsTail is64BitMode op ptrDir) (zfJumpsBack (repe op)) passes s

def scas (s : State) : State :=
  let destRDI := s.loadGreg (gprSize is64BitMode) .rdi
  let destRDI := s.appendES is64BitMode destRDI
  let src1 := s.loadGreg (getSrcSize op) .rax
  let src2 := s.loadMem (getSrcSize op) destRDI
  s.generateFlags_SUB (getSrcSize op) (result op src1 src2) src1 src2

def scasTail (ptrDir : Node) (s : State) : State :=
  (scas is64BitMode op s).calculateDeferredFlags.offsetTail (gprSize is64BitMode) ptrDir .rdi

def scasOp : Option Code :=
  if hasAddressSize op then none
  else if ¬repeats op then
    some fun _ s =>
      let s := scas is64BitMode op s
      some (s.offsetPointer (gprSize is64BitMode) (s.ptrDir (getSrcSize op)) .rdi)
  else
    some fun passes s =>
      let s := s.calculateDeferredFlags
      let ptrDir := s.ptrDir (getSrcSize op)
      loop (gprSize is64BitMode) (scasTail is64BitMode op ptrDir) (zfJumpsBack (repe op)) passes s

/-! ### LODS -/

/-- `StoreResult` of the accumulator. -/
def State.storeResultRAX (s : State) (src : Node) : State :=
  if gprSize is64BitMode = 8 ∧ getDstSize op = 4 then
    let value := if src.size = 8 then bfe 4 32 src else src
    s.storeGreg (gprSize is64BitMode) value .rax
  else s.storeGreg (min (gprSize is64BitMode) (getDstSize op)) src .rax

def lods (s : State) : State :=
  let destRSI := s.loadGreg (gprSize is64BitMode) .rsi
  let destRSI := s.appendDS is64BitMode op destRSI
  let src := s.loadMem (getSrcSize op) destRSI
  s.storeResultRAX is64BitMode op src

def lodsTail (ptrDir : Node) (s : State) : State :=
  (lods is64BitMode op s).offsetTail (gprSize is64BitMode) ptrDir .rsi

def lodsOp : Option Code :=
  if hasAddressSize op then none
  else if ¬repeats op then
    some fun _ s =>
      let s := lods is64BitMode op s
      some (s.offsetPointer (gprSize is64BitMode) (s.ptrDir (getSrcSize op)) .rsi)
  else
    some fun passes s =>
      let s := s.calculateDeferredFlags
      let ptrDir := s.ptrDir (getSrcSize op)
      loop (gprSize is64BitMode) (lodsTail is64BitMode op ptrDir) (fun _ => true) passes s

end

end FexEmu.OpcodeDispatcher.StringOps
