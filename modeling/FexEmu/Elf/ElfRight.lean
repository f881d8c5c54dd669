import FexEmu.Elf.ParserProofs
import FexEmu.Elf.LoaderProofs
/-!
# ELF files are loaded as their headers say

The loads, and what the reader accepts.
-/
namespace FexEmu.Elf

/-- The loads do what the program headers say exactly if the segments do not wrap, and `ReadElf` accepts only what it has
read exactly if a file that passes its checks is long enough. -/
theorem elf_iff {file : File} {elf : ELFParser} {buffers : Buffers} {interpreterElf : List Byte}
    (h : Mappable file elf.phdrs) : (LoadsRight file elf ↔ Fits elf) ∧
      (ReadsRight file buffers interpreterElf ↔ LongEnough file buffers interpreterElf) :=
  ⟨⟨fits_of_loadsRight h, loadsRight_of_fits h⟩, readsRight_iff⟩

/-! ## Files of one program header -/

/-- The header of an x86-64 `ET_EXEC` file that is followed by one program header. -/
def oneHeader : List Byte :=
  [0x7F, 0x45, 0x4C, 0x46, 2, 1, 1, 0, 0, 0, 0, 0, 0, 0, 0, 0, 2, 0, 62, 0, 1, 0, 0, 0, 0, 0, 0x40, 0, 0, 0, 0, 0,
    64, 0, 0, 0, 0, 0, 0, 0, 0, 0, 0, 0, 0, 0, 0, 0, 0, 0, 0, 0, 64, 0, 56, 0, 1, 0, 0, 0, 0, 0, 0, 0]

/-- All of the file at `0x400000`, and two pages of zeros after its own. -/
def oneSegment : List Byte :=
  [1, 0, 0, 0, 6, 0, 0, 0, 0, 0, 0, 0, 0, 0, 0, 0, 0, 0, 0x40, 0, 0, 0, 0, 0, 0, 0, 0x40, 0, 0, 0, 0, 0,
    120, 0, 0, 0, 0, 0, 0, 0, 0, 0x30, 0, 0, 0, 0, 0, 0, 0, 0x10, 0, 0, 0, 0, 0, 0]

def smallFile : File := ⟨120, fun i => (oneHeader ++ oneSegment).getD i 0⟩

def cutFile : File := ⟨64, fun i => oneHeader.getD i 0⟩

def zeroBuffers : Buffers := ⟨fun _ => 0, fun _ => 0, fun _ => 0⟩

def smallElf : ELFParser := ⟨.TYPE_X86_64, fileEhdr smallFile .TYPE_X86_64, filePhdrs smallFile .TYPE_X86_64, []⟩

theorem smallElf_phdrs : smallElf.phdrs = [⟨1, 6, 0, 0x400000, 0x400000, 120, 0x3000, 0x1000⟩] := by decide

theorem smallFile_mappable : Mappable smallFile smallElf.phdrs := by
  refine ⟨by decide, ?_, ?_, ?_, ?_, by decide⟩ <;>
    · intro header hmem _
      rw [List.mem_singleton.mp hmem]
      decide

theorem smallElf_fits : Fits smallElf := by
  intro header hmem _
  rw [smallElf_phdrs, List.mem_singleton] at hmem
  rw [hmem]
  decide

theorem smallFile_longEnough : LongEnough smallFile zeroBuffers [] := by
  intro type ehdr phdrs h
  have hclass : classOf (filled smallFile zeroBuffers.header 5 0) = some .TYPE_X86_64 := by decide
  obtain rfl : ELFType.TYPE_X86_64 = type := Option.some.inj (hclass.symm.trans h.cls)
  exact ⟨⟨by decide, by decide, by decide⟩, fun _ => rfl⟩

theorem elf_iff_small : LoadsRight smallFile smallElf ∧ ReadsRight smallFile zeroBuffers [] :=
  ⟨(@elf_iff _ _ zeroBuffers [] smallFile_mappable).1.mpr smallElf_fits,
    (@elf_iff _ smallElf _ _ smallFile_mappable).2.mpr smallFile_longEnough⟩

/-- A file whose program headers are cut off is accepted. -/
theorem elf_not_read : ¬ReadsRight cutFile zeroBuffers [] := by
  intro h
  have hread : (readElf cutFile zeroBuffers []).map ELFParser.type = some .TYPE_X86_64 := by decide
  obtain ⟨parser, hparser, htype⟩ := Option.map_eq_some_iff.mp hread
  have hphdrs := (h parser hparser).complete.phdrs
  rw [htype] at hphdrs
  revert hphdrs
  decide

end FexEmu.Elf
