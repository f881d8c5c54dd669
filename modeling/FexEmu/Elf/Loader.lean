import FexEmu.Elf.Parser
/-!
# Loading an ELF file

`CalculateTotalElfSize`, `MapFile` and `LoadElfFile` of `ELFCodeLoader2.h`. Addresses are of 64 bits, and wrap.
-/
namespace FexEmu.Elf

/-- A `uintptr_t`. -/
def wrap (x : Nat) : Nat := x % 2 ^ 64

def pageStart (x : Nat) : Nat := x / 4096 * 4096

def pageOffset (x : Nat) : Nat := x % 4096

def pageAlign (x : Nat) : Nat := pageStart (wrap (x + 4095))

def BRK_SIZE : Nat := 8 * 1024 * 1024

/-! ## Mapping -/

/-- A call of `Mapper`; an anonymous one has no file offset. -/
structure Request where
  addr : Nat
  size : Nat
  prot : Nat
  fixed : Bool
  off : Option Nat
deriving DecidableEq, Repr

/-- `Mapper` may look at the calls before. `none` is `MAP_FAILED`. -/
abbrev Mapper := List Request → Request → Option Nat

/-- What a load has made, and `*BrkBase`. -/
structure Image where
  calls : List Request
  mappings : List (Nat × Nat)
  memory : Nat → Byte
  brkBase : Nat

def fileByte (file : File) (offset : Nat) : Byte := if offset < file.size then file.bytes offset else 0

def contents (file : File) : Option Nat → Nat → Byte
  | some off, i => fileByte file (off + i)
  | none, _ => 0

/-- A call of `Mapper` that is kept. -/
def mmap (mapper : Mapper) (file : File) (s : Image) (request : Request) : Option Image :=
  (mapper s.calls request).map fun addr =>
    { s with
      calls := request :: s.calls
      mappings := (addr, request.size) :: s.mappings
      memory := fun a => if addr ≤ a ∧ a < addr + request.size then contents file request.off (a - addr) else s.memory a }

def memset (s : Image) (start size : Nat) : Image :=
  { s with memory := fun a => if start ≤ a ∧ a < start + size then 0 else s.memory a }

/-! ## Loading -/

def isLoad (header : Phdr) : Bool := header.p_type = PT_LOAD

def calculateTotalElfSize (headers : List Phdr) : Nat :=
  match headers.reverse.find? isLoad with
  | none => 0
  | some last => pageAlign (wrap (last.p_vaddr + last.p_memsz))

/-- `PF_R`, `PF_W` and `PF_X` -/
def readable (header : Phdr) : Bool := header.p_flags.testBit 2

def writable (header : Phdr) : Bool := header.p_flags.testBit 1

def executable (header : Phdr) : Bool := header.p_flags.testBit 0

def mapFlags (header : Phdr) : Nat :=
  (if readable header then 1 else 0) + (if writable header then 2 else 0) + (if executable header then 4 else 0)

def mapFile (mapper : Mapper) (file : File) (base : Nat) (header : Phdr) (s : Image) : Option Image :=
  let addr := wrap (base + pageStart header.p_vaddr)
  let off := wrap (header.p_offset + 2 ^ 64 - pageOffset header.p_vaddr)
  let size := pageAlign (wrap (header.p_filesz + pageOffset header.p_vaddr))
  if size = 0 then some s
  else mmap mapper file s ⟨addr, size, mapFlags header, true, some off⟩

def clearBss (mapper : Mapper) (file : File) (base : Nat) (header : Phdr) (s : Image) : Option Image :=
  let bssStart := wrap (base + header.p_vaddr + header.p_filesz)
  let bssPageStart := pageAlign bssStart
  let bssPageEnd := pageAlign (wrap (base + header.p_vaddr + header.p_memsz))
  if header.p_filesz < header.p_memsz then
    let s := if writable header then memset s bssStart (wrap (bssPageStart + 2 ^ 64 - bssStart)) else s
    if bssPageStart ≠ bssPageEnd then
      mmap mapper file s ⟨bssPageStart, wrap (bssPageEnd + 2 ^ 64 - bssPageStart), mapFlags header, true, none⟩
    else some s
  else some s

/-- The highest address, for a load that is given a `BrkBase`. -/
def trackBrk (base : Nat) (brk : Bool) (header : Phdr) (s : Image) : Image :=
  let memend := wrap (base + header.p_vaddr + header.p_memsz)
  if brk && s.brkBase < memend then { s with brkBase := pageAlign memend } else s

def loadHeader (mapper : Mapper) (file : File) (base : Nat) (brk : Bool) (header : Phdr) (s : Image) : Option Image :=
  if isLoad header then
    (mapFile mapper file base header s).bind fun s => (clearBss mapper file base header s).map (trackBrk base brk header)
  else some s

def loadHeaders (mapper : Mapper) (file : File) (base : Nat) (brk : Bool) : List Phdr → Image → Option Image
  | [], s => some s
  | header :: rest, s => (loadHeader mapper file base brk header s).bind (loadHeaders mapper file base brk rest)

def totalSize (elf : ELFParser) (brk : Bool) : Nat :=
  wrap (calculateTotalElfSize elf.phdrs + if brk then BRK_SIZE else 0)

/-- The call that finds a place for an `ET_DYN` file. -/
def reservation (elf : ELFParser) (brk : Bool) : Request := ⟨0, totalSize elf brk, 0, false, none⟩

/-- `LoadElfFile`, with a `BrkBase` or without: the base and the image. -/
def loadElfFile (mapper : Mapper) (unmapper : Nat → Nat → Bool) (file : File) (elf : ELFParser) (brk : Bool)
    (memory : Nat → Byte) : Option (Nat × Image) :=
  if elf.ehdr.e_type = ET_DYN then
    (mapper [] (reservation elf brk)).bind fun base =>
      if unmapper base (totalSize elf brk) then
        (loadHeaders mapper file base brk elf.phdrs
          ⟨[reservation elf brk], [], memory, wrap (base + wrap (totalSize elf brk + 2 ^ 64 - BRK_SIZE))⟩).map (base, ·)
      else none
  else (loadHeaders mapper file 0 brk elf.phdrs ⟨[], [], memory, 0⟩).map (0, ·)

/-! ## The statement -/

/-- A fixed call is mapped where it asks, another one at pages of the address space. -/
structure MapsWhereAsked (mapper : Mapper) : Prop where
  asked : ∀ calls request addr, mapper calls request = some addr → request.fixed → addr = request.addr
  size : ∀ calls request addr, mapper calls request = some addr → request.fixed = false → 0 < request.size
  aligned : ∀ calls request addr, mapper calls request = some addr → request.fixed = false → addr % 4096 = 0
  space : ∀ calls request addr, mapper calls request = some addr → request.fixed = false → addr + request.size < 2 ^ 64

def pageUp (x : Nat) : Nat := (x + 4095) / 4096 * 4096

def Phdr.memEnd (header : Phdr) : Nat := header.p_vaddr + header.p_memsz

/-- The pages of a segment are those from `PAGE_START` of its begin to `PAGE_ALIGN` of its end. -/
structure Mappable (file : File) (headers : List Phdr) : Prop where
  ordered : (headers.filter isLoad).Pairwise fun header next => pageUp header.memEnd ≤ pageStart next.p_vaddr
  congruent : ∀ header ∈ headers, isLoad header → header.p_offset % 4096 = header.p_vaddr % 4096
  sizes : ∀ header ∈ headers, isLoad header → header.p_filesz ≤ header.p_memsz
  inside : ∀ header ∈ headers, isLoad header → header.p_offset + header.p_filesz ≤ file.size
  space : ∀ header ∈ headers, isLoad header → header.memEnd ≤ 2 ^ 64
  size : file.size < 2 ^ 63

/-- Ranges that do not meet. -/
def Apart (m n : Nat × Nat) : Prop := m.1 + m.2 ≤ n.1 ∨ n.1 + n.2 ≤ m.1

/-- What the program headers say. -/
structure Loaded (file : File) (elf : ELFParser) (brk : Bool) (base : Nat) (s : Image) : Prop where
  bytes : ∀ header ∈ elf.phdrs, isLoad header → ∀ i < header.p_filesz,
    s.memory (base + header.p_vaddr + i) = file.bytes (header.p_offset + i)
  zeros : ∀ header ∈ elf.phdrs, isLoad header → writable header → ∀ i, header.p_filesz ≤ i → i < header.p_memsz →
    s.memory (base + header.p_vaddr + i) = 0
  disjoint : s.mappings.Pairwise Apart
  inside : elf.ehdr.e_type = ET_DYN → ∀ m ∈ s.mappings, base ≤ m.1 ∧ m.1 + m.2 ≤ base + totalSize elf brk
  aligned : brk → s.brkBase % 4096 = 0
  above : brk → ∀ header ∈ elf.phdrs, isLoad header → base + header.memEnd ≤ s.brkBase

/-- Each load of the file that succeeds does what the program headers say. -/
def LoadsRight (file : File) (elf : ELFParser) : Prop :=
  ∀ mapper unmapper brk memory base s, MapsWhereAsked mapper →
    loadElfFile mapper unmapper file elf brk memory = some (base, s) → Loaded file elf brk base s

/-- The end of the segments, and the break after those of an `ET_DYN` file, do not wrap. -/
def Fits (elf : ELFParser) : Prop :=
  ∀ header ∈ elf.phdrs, isLoad header →
    if elf.ehdr.e_type = ET_DYN then pageUp header.memEnd + BRK_SIZE ≤ 2 ^ 64 else pageUp header.memEnd < 2 ^ 64

end FexEmu.Elf
