import Mathlib.Tactic
/-!
# ELF files

`ReadElf` of `ELFParser.h`. `pread` may read less than it is asked for, and then leaves the rest of its buffer as it was.
-/
namespace FexEmu.Elf

abbrev Byte := BitVec 8

/-- The file as pread sees it. -/
structure File where
  size : Nat
  bytes : Nat → Byte

def maxRead : Nat := 0x7FFFF000

def available (file : File) (offset count : Nat) : Nat := min (min count (file.size - offset)) maxRead

/-- A read of `count` bytes into a buffer. A negative offset is refused. -/
def pread (file : File) (buffer : Nat → Byte) (count offset : Nat) : Option (Nat → Byte) :=
  if 2 ^ 63 ≤ offset then none
  else some fun i => if i < available file offset count then file.bytes (offset + i) else buffer i

/-- All bytes of a range can be read from the file in one call. -/
def Whole (file : File) (offset count : Nat) : Prop := offset + count ≤ file.size ∧ count ≤ maxRead

instance (file : File) (offset count : Nat) : Decidable (Whole file offset count) := inferInstanceAs (Decidable (_ ∧ _))

/-! ## Headers -/

def num (bytes : Nat → Byte) (offset : Nat) : Nat → Nat
  | 0 => 0
  | n + 1 => (bytes offset).toNat + 2 ^ 8 * num bytes (offset + 1) n

/-- The types of files that the parser takes. -/
inductive ELFType
  | TYPE_X86_32
  | TYPE_X86_64
deriving DecidableEq, Repr

/-- The fields of the ELF header that the parser and the loader read. -/
structure Ehdr where
  e_type : Nat
  e_machine : Nat
  e_entry : Nat
  e_phoff : Nat
  e_ehsize : Nat
  e_phentsize : Nat
  e_phnum : Nat
deriving DecidableEq, Repr

/-- A program header. -/
structure Phdr where
  p_type : Nat
  p_flags : Nat
  p_offset : Nat
  p_vaddr : Nat
  p_paddr : Nat
  p_filesz : Nat
  p_memsz : Nat
  p_align : Nat
deriving DecidableEq, Repr

def PT_LOAD : Nat := 1
def PT_INTERP : Nat := 3
def ET_DYN : Nat := 3
def EM_386 : Nat := 3
def EM_X86_64 : Nat := 62

def ELFType.machine : ELFType → Nat
  | .TYPE_X86_32 => EM_386
  | .TYPE_X86_64 => EM_X86_64

/-- The size of an `Elf32_Ehdr` or `Elf64_Ehdr`. -/
def ELFType.ehdrSize : ELFType → Nat
  | .TYPE_X86_32 => 52
  | .TYPE_X86_64 => 64

def ELFType.phdrSize : ELFType → Nat
  | .TYPE_X86_32 => 32
  | .TYPE_X86_64 => 56

def ehdrOf : ELFType → (Nat → Byte) → Ehdr
  | .TYPE_X86_32, b => ⟨num b 16 2, num b 18 2, num b 24 4, num b 28 4, num b 40 2, num b 42 2, num b 44 2⟩
  | .TYPE_X86_64, b => ⟨num b 16 2, num b 18 2, num b 24 8, num b 32 8, num b 52 2, num b 54 2, num b 56 2⟩

def phdrOf : ELFType → (Nat → Byte) → Nat → Phdr
  | .TYPE_X86_32, b, at_ => ⟨num b at_ 4, num b (at_ + 24) 4, num b (at_ + 4) 4, num b (at_ + 8) 4, num b (at_ + 12) 4,
      num b (at_ + 16) 4, num b (at_ + 20) 4, num b (at_ + 28) 4⟩
  | .TYPE_X86_64, b, at_ => ⟨num b at_ 4, num b (at_ + 4) 4, num b (at_ + 8) 8, num b (at_ + 16) 8, num b (at_ + 24) 8,
      num b (at_ + 32) 8, num b (at_ + 40) 8, num b (at_ + 48) 8⟩

def phdrsOf (type : ELFType) (b : Nat → Byte) (count : Nat) : List Phdr :=
  (List.range count).map fun i => phdrOf type b (i * type.phdrSize)

/-! ## Reading -/

/-- What the array on the stack, the headers and the program headers hold before they are read into. -/
structure Buffers where
  header : Nat → Byte
  ehdr : Nat → Byte
  phdrs : Nat → Byte

/-- A parser that has read a file. -/
structure ELFParser where
  type : ELFType
  ehdr : Ehdr
  phdrs : List Phdr
  interpreterElf : List Byte

def hasMagic (header : Nat → Byte) : Bool := header 0 = 0x7F && header 1 = 0x45 && header 2 = 0x4C && header 3 = 0x46

/-- `EI_CLASS`. -/
def classOf (header : Nat → Byte) : Option ELFType :=
  if header 4 = 1 then some .TYPE_X86_32 else if header 4 = 2 then some .TYPE_X86_64 else none

def checkEhdr (type : ELFType) (ehdr : Ehdr) : Bool :=
  ehdr.e_ehsize = type.ehdrSize && ehdr.e_phentsize = type.phdrSize && ehdr.e_machine = type.machine &&
    1 ≤ ehdr.e_phnum && ehdr.e_phnum ≤ 65536 / ehdr.e_phentsize

def resize (s : List Byte) (n : Nat) : Nat → Byte := fun i => if i < n then s.getD i 0 else 0

/-- The loop over the program headers. A string that is too long throws. -/
def readInterpreter (file : File) : List Phdr → List Byte → Option (List Byte)
  | [], s => some s
  | phdr :: rest, s =>
    if phdr.p_type = PT_INTERP then
      if 2 ^ 63 - 2 < phdr.p_filesz then none
      else (pread file (resize s phdr.p_filesz) phdr.p_filesz phdr.p_offset).bind fun bytes =>
        readInterpreter file rest ((List.range phdr.p_filesz).map bytes)
    else readInterpreter file rest s

def readHeader (file : File) (buffers : Buffers) : Option (ELFType × Ehdr) :=
  if file.size < 4 then none
  else (pread file buffers.header 5 0).bind fun header =>
    if hasMagic header then
      (classOf header).bind fun type =>
        (pread file buffers.ehdr type.ehdrSize 0).bind fun bytes =>
          if checkEhdr type (ehdrOf type bytes) then some (type, ehdrOf type bytes) else none
    else none

/-- The program headers that `ReadElf` goes on with. -/
def readPhdrs (file : File) (buffers : Buffers) (type : ELFType) (ehdr : Ehdr) : Option (List Phdr) :=
  (pread file buffers.phdrs (type.phdrSize * ehdr.e_phnum) ehdr.e_phoff).map fun bytes => phdrsOf type bytes ehdr.e_phnum

def readElf (file : File) (buffers : Buffers) (interpreterElf : List Byte) : Option ELFParser :=
  (readHeader file buffers).bind fun (type, ehdr) =>
    (readPhdrs file buffers type ehdr).bind fun phdrs =>
      (readInterpreter file phdrs interpreterElf).map fun interpreterElf => ⟨type, ehdr, phdrs, interpreterElf⟩

/-! ## The statement -/

def fileEhdr (file : File) (type : ELFType) : Ehdr := ehdrOf type file.bytes

def filePhdrs (file : File) (type : ELFType) : List Phdr :=
  phdrsOf type (fun i => file.bytes ((fileEhdr file type).e_phoff + i)) (fileEhdr file type).e_phnum

/-- The header, the program headers and each interpreter string lie in the file. -/
structure Complete (file : File) (type : ELFType) : Prop where
  ehdr : Whole file 0 type.ehdrSize
  phdrs : Whole file (fileEhdr file type).e_phoff (type.phdrSize * (fileEhdr file type).e_phnum)
  interpreter : ∀ phdr ∈ filePhdrs file type, phdr.p_type = PT_INTERP → Whole file phdr.p_offset phdr.p_filesz

/-- What the parser holds of a file that it accepts. -/
structure Accepted (file : File) (parser : ELFParser) : Prop where
  complete : Complete file parser.type
  phdrs : parser.phdrs = filePhdrs file parser.type
  interpreter : (∀ phdr ∈ filePhdrs file parser.type, phdr.p_type ≠ PT_INTERP) → parser.interpreterElf = []

/-- What a buffer holds of a file after a read that may be short. -/
def filled (file : File) (buffer : Nat → Byte) (count offset : Nat) : Nat → Byte :=
  fun i => if i < available file offset count then file.bytes (offset + i) else buffer i

/-- The file, continued by what the buffers held, passes the checks. -/
structure Passes (file : File) (buffers : Buffers) (type : ELFType) (ehdr : Ehdr) (phdrs : List Phdr) : Prop where
  size : 4 ≤ file.size
  magic : hasMagic (filled file buffers.header 5 0)
  cls : classOf (filled file buffers.header 5 0) = some type
  header : ehdr = ehdrOf type (filled file buffers.ehdr type.ehdrSize 0)
  checked : checkEhdr type ehdr
  headers : phdrs = phdrsOf type (filled file buffers.phdrs (type.phdrSize * ehdr.e_phnum) ehdr.e_phoff) ehdr.e_phnum
  offset : ehdr.e_phoff < 2 ^ 63
  interpreters : ∀ phdr ∈ phdrs, phdr.p_type = PT_INTERP → phdr.p_filesz ≤ 2 ^ 63 - 2 ∧ phdr.p_offset < 2 ^ 63

/-- A file that passes the checks is long enough, and one without an interpreter is read by a parser that has none. -/
def LongEnough (file : File) (buffers : Buffers) (interpreterElf : List Byte) : Prop :=
  ∀ type ehdr phdrs, Passes file buffers type ehdr phdrs →
    Complete file type ∧ ((∀ phdr ∈ filePhdrs file type, phdr.p_type ≠ PT_INTERP) → interpreterElf = [])

/-- `ReadElf` accepts only what it has read. -/
def ReadsRight (file : File) (buffers : Buffers) (interpreterElf : List Byte) : Prop :=
  ∀ parser, readElf file buffers interpreterElf = some parser → Accepted file parser

end FexEmu.Elf
