import FexEmu.Elf.Parser
/-!
# What `ReadElf` accepts

It accepts what passes its checks, with the rest of a buffer after a read that was short.
-/
namespace FexEmu.Elf

/-! ## Reads -/

variable {file : File} {buffers : Buffers} {type : ELFType}

variable {count : Nat} {b c : Nat → Byte} {ehdr : Ehdr}

theorem pread_eq_some {buffer bytes : Nat → Byte} {offset : Nat} :
    pread file buffer count offset = some bytes ↔ offset < 2 ^ 63 ∧ bytes = filled file buffer count offset := by
  rw [pread]
  split
  · rename_i h
    simp only [reduceCtorEq, false_iff, not_and]
    omega
  · rename_i h
    rw [Option.some.injEq]
    exact ⟨fun e => ⟨by omega, e.symm⟩, fun e => e.2.symm⟩

theorem filled_of_whole {buffer : Nat → Byte} {offset i : Nat} (h : Whole file offset count) (hi : i < count) :
    filled file buffer count offset i = file.bytes (offset + i) := by
  obtain ⟨hsize, hmax⟩ := h
  have : i < available file offset count := by
    rw [available]
    omega
  rw [filled, if_pos this]

theorem num_congr {n : Nat} : ∀ {offset : Nat}, (∀ i, offset ≤ i → i < offset + n → b i = c i) →
    num b offset n = num c offset n := by
  induction n with
  | zero => intros; rfl
  | succ n ih =>
    intro offset h
    rw [num, num, h offset (by omega) (by omega), ih fun i hi hi' => h i (by omega) (by omega)]

theorem ehdrOf_congr (h : ∀ i < type.ehdrSize, b i = c i) : ehdrOf type b = ehdrOf type c := by
  cases type <;> simp only [ELFType.ehdrSize] at h <;> simp only [ehdrOf, Ehdr.mk.injEq] <;>
    refine ⟨?_, ?_, ?_, ?_, ?_, ?_, ?_⟩ <;> exact num_congr fun i _ hi => h i (by omega)

theorem phdrOf_congr {start : Nat} (h : ∀ i, start ≤ i → i < start + type.phdrSize → b i = c i) :
    phdrOf type b start = phdrOf type c start := by
  cases type <;> simp only [ELFType.phdrSize] at h <;> simp only [phdrOf, Phdr.mk.injEq] <;>
    refine ⟨?_, ?_, ?_, ?_, ?_, ?_, ?_, ?_⟩ <;> exact num_congr fun i _ hi => h i (by omega) (by omega)

theorem phdrsOf_congr (h : ∀ i < type.phdrSize * count, b i = c i) : phdrsOf type b count = phdrsOf type c count := by
  refine List.map_congr_left fun k hk => phdrOf_congr fun i _ hi => h i ?_
  have hk : k < count := List.mem_range.mp hk
  calc i < (k + 1) * type.phdrSize := by rw [Nat.succ_mul]; omega
    _ ≤ count * type.phdrSize := Nat.mul_le_mul_right _ hk
    _ = type.phdrSize * count := Nat.mul_comm _ _

/-! ## The checks -/

theorem readHeader_eq_some : readHeader file buffers = some (type, ehdr) ↔
    4 ≤ file.size ∧ hasMagic (filled file buffers.header 5 0) ∧ classOf (filled file buffers.header 5 0) = some type ∧
      ehdr = ehdrOf type (filled file buffers.ehdr type.ehdrSize 0) ∧ checkEhdr type ehdr := by
  have hread : ∀ buffer count, pread file buffer count 0 = some (filled file buffer count 0) := fun buffer count =>
    pread_eq_some.mpr ⟨by norm_num, rfl⟩
  rw [readHeader, hread, Option.bind_some]
  by_cases hsize : file.size < 4
  · simp [hsize]
  by_cases hmagic : hasMagic (filled file buffers.header 5 0)
  · rw [if_neg hsize, if_pos hmagic]
    cases hclass : classOf (filled file buffers.header 5 0) with
    | none => simp
    | some found =>
      rw [Option.bind_some, hread, Option.bind_some]
      constructor
      · split
        · rename_i hcheck
          rintro ⟨rfl, rfl⟩
          exact ⟨by omega, hmagic, rfl, rfl, hcheck⟩
        · intro h
          cases h
      · rintro ⟨_, _, ⟨rfl⟩, rfl, hcheck⟩
        rw [if_pos hcheck]
  · simp [hsize, hmagic]

theorem readPhdrs_eq_some {phdrs : List Phdr} : readPhdrs file buffers type ehdr = some phdrs ↔ ehdr.e_phoff < 2 ^ 63 ∧
      phdrs = phdrsOf type (filled file buffers.phdrs (type.phdrSize * ehdr.e_phnum) ehdr.e_phoff) ehdr.e_phnum := by
  rw [readPhdrs, Option.map_eq_some_iff]
  constructor
  · rintro ⟨bytes, hread, rfl⟩
    obtain ⟨hoff, rfl⟩ := pread_eq_some.mp hread
    exact ⟨hoff, rfl⟩
  · rintro ⟨hoff, rfl⟩
    exact ⟨_, pread_eq_some.mpr ⟨hoff, rfl⟩, rfl⟩

theorem readInterpreter_isSome : ∀ {phdrs : List Phdr} {s : List Byte}, (readInterpreter file phdrs s).isSome ↔
    ∀ phdr ∈ phdrs, phdr.p_type = PT_INTERP → phdr.p_filesz ≤ 2 ^ 63 - 2 ∧ phdr.p_offset < 2 ^ 63
  | [], s => by simp [readInterpreter]
  | phdr :: rest, s => by
    rw [readInterpreter, List.forall_mem_cons]
    by_cases htype : phdr.p_type = PT_INTERP
    · rw [if_pos htype]
      by_cases hlong : 2 ^ 63 - 2 < phdr.p_filesz
      · rw [if_pos hlong]
        refine iff_of_false (by simp) fun h => ?_
        omega
      · rw [if_neg hlong]
        by_cases hoff : phdr.p_offset < 2 ^ 63
        · rw [pread_eq_some.mpr ⟨hoff, rfl⟩, Option.bind_some, readInterpreter_isSome]
          exact ⟨fun h => ⟨fun _ => ⟨by omega, hoff⟩, h⟩, fun h => h.2⟩
        · rw [pread, if_pos (by omega), Option.bind_none]
          exact iff_of_false (by simp) fun h => hoff (h.1 htype).2
    · rw [if_neg htype, readInterpreter_isSome]
      exact ⟨fun h => ⟨fun e => absurd e htype, h⟩, fun h => h.2⟩

theorem readInterpreter_of_none : ∀ {phdrs : List Phdr} {s : List Byte}, (∀ phdr ∈ phdrs, phdr.p_type ≠ PT_INTERP) →
    readInterpreter file phdrs s = some s
  | [], s, _ => rfl
  | phdr :: rest, s, h => by
    rw [readInterpreter, if_neg (h phdr List.mem_cons_self)]
    exact readInterpreter_of_none fun other hother => h other (List.mem_cons_of_mem _ hother)

theorem readElf_eq_some {s : List Byte} {parser : ELFParser} : readElf file buffers s = some parser ↔
    Passes file buffers parser.type parser.ehdr parser.phdrs ∧
      readInterpreter file parser.phdrs s = some parser.interpreterElf := by
  rw [readElf, Option.bind_eq_some_iff]
  constructor
  · rintro ⟨⟨type, ehdr⟩, hheader, hrest⟩
    obtain ⟨phdrs, hphdrs, hrest⟩ := Option.bind_eq_some_iff.mp hrest
    obtain ⟨interpreter, hinterp, rfl⟩ := Option.map_eq_some_iff.mp hrest
    obtain ⟨hsize, hmagic, hclass, hehdr, hcheck⟩ := readHeader_eq_some.mp hheader
    obtain ⟨hoff, hphdrs⟩ := readPhdrs_eq_some.mp hphdrs
    refine ⟨⟨hsize, hmagic, hclass, hehdr, hcheck, hphdrs, hoff, ?_⟩, hinterp⟩
    exact readInterpreter_isSome.mp (Option.isSome_of_eq_some hinterp)
  · rintro ⟨h, hinterp⟩
    refine ⟨(parser.type, parser.ehdr), readHeader_eq_some.mpr ⟨h.size, h.magic, h.cls, h.header, h.checked⟩, ?_⟩
    refine Option.bind_eq_some_iff.mpr ⟨parser.phdrs, readPhdrs_eq_some.mpr ⟨h.offset, h.headers⟩, ?_⟩
    exact Option.map_eq_some_iff.mpr ⟨parser.interpreterElf, hinterp, rfl⟩

/-! ## What is accepted -/

theorem Passes.phdrs_eq {phdrs : List Phdr} (h : Passes file buffers type ehdr phdrs)
    (hc : Complete file type) : phdrs = filePhdrs file type := by
  have hehdr : ehdr = fileEhdr file type := by
    rw [h.header, fileEhdr]
    refine ehdrOf_congr fun i hi => ?_
    rw [filled_of_whole hc.ehdr hi, Nat.zero_add]
  rw [h.headers, filePhdrs, hehdr]
  exact phdrsOf_congr fun i hi => filled_of_whole hc.phdrs hi

/-- `ReadElf` accepts only what it has read, exactly if the file is long enough for what passes its checks. -/
theorem readsRight_iff {s : List Byte} : ReadsRight file buffers s ↔ LongEnough file buffers s := by
  constructor
  · intro h type ehdr phdrs hpasses
    obtain ⟨interpreter, hinterp⟩ := Option.isSome_iff_exists.mp
      ((@readInterpreter_isSome file phdrs s).mpr hpasses.interpreters)
    have haccepted := h ⟨type, ehdr, phdrs, interpreter⟩ (readElf_eq_some.mpr ⟨hpasses, hinterp⟩)
    refine ⟨haccepted.complete, fun hnone => ?_⟩
    rw [hpasses.phdrs_eq haccepted.complete, readInterpreter_of_none hnone, Option.some.injEq] at hinterp
    rw [hinterp]
    exact haccepted.interpreter hnone
  · intro h parser hread
    obtain ⟨hpasses, hinterp⟩ := readElf_eq_some.mp hread
    obtain ⟨hcomplete, hempty⟩ := h _ _ _ hpasses
    have hphdrs := hpasses.phdrs_eq hcomplete
    refine ⟨hcomplete, hphdrs, fun hnone => ?_⟩
    rw [hphdrs, readInterpreter_of_none hnone, Option.some.injEq] at hinterp
    rw [← hinterp]
    exact hempty hnone

end FexEmu.Elf
