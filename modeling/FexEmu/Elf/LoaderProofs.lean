import FexEmu.Elf.Loader
/-!
# A loaded file is what its headers say

Each header changes only its own pages, so those of the headers before it stay.
-/
namespace FexEmu.Elf
open List (not_mem_nil mem_append mem_cons_of_mem mem_cons_self mem_cons mem_filter mem_reverse)
open Option (map_eq_some_iff bind_eq_some_iff isSome_iff_exists bind_some)

/-! ## Pages that do not wrap -/

variable {x : Nat}

theorem wrap_of_lt (h : x < 2 ^ 64) : wrap x = x := Nat.mod_eq_of_lt h

theorem wrap_sub {y : Nat} (hle : y ≤ x) (hx : x < 2 ^ 64) : wrap (x + 2 ^ 64 - y) = x - y := by
  rw [show x + 2 ^ 64 - y = x - y + 2 ^ 64 by omega, wrap, Nat.add_mod_right]
  exact Nat.mod_eq_of_lt (by omega)

theorem le_pageUp (x : Nat) : x ≤ pageUp x := by
  rw [pageUp]
  omega

theorem pageUp_mono {y : Nat} (h : x ≤ y) : pageUp x ≤ pageUp y := by
  rw [pageUp, pageUp]
  omega

theorem pageUp_add {base : Nat} (hbase : base % 4096 = 0) (x : Nat) : pageUp (base + x) = base + pageUp x := by
  rw [pageUp, pageUp]
  omega

theorem pageStart_add_pageUp (start size : Nat) :
    pageStart start + pageUp (size + pageOffset start) = pageUp (start + size) := by
  rw [pageStart, pageUp, pageUp, pageOffset]
  omega

theorem pageStart_le (x : Nat) : pageStart x ≤ x := by
  rw [pageStart]
  omega

theorem pageStart_add_pageOffset (x : Nat) : pageStart x + pageOffset x = x := by
  rw [pageStart, pageOffset]
  omega

theorem pageUp_mod (x : Nat) : pageUp x % 4096 = 0 := Nat.mul_mod_left _ _

theorem pageAlign_eq (h : pageUp x < 2 ^ 64) : pageAlign x = pageUp x := by
  rw [pageUp] at h
  rw [pageAlign, wrap_of_lt (by omega), pageStart, pageUp]

theorem pageAlign_lt (x : Nat) : pageAlign x < 2 ^ 64 := by
  rw [pageAlign, pageStart, wrap]
  omega

theorem pageAlign_mod (x : Nat) : pageAlign x % 4096 = 0 := Nat.mul_mod_left _ _

/-! ## One header -/

section
variable {mapper : Mapper} {file : File} {base : Nat} {brk : Bool} {header : Phdr} {s s' : Image}

/-- A header whose pages are in the address space. -/
structure Room (file : File) (base : Nat) (header : Phdr) : Prop where
  aligned : base % 4096 = 0
  space : base + pageUp header.memEnd < 2 ^ 64
  congruent : header.p_offset % 4096 = header.p_vaddr % 4096
  sizes : header.p_filesz ≤ header.p_memsz
  inside : header.p_offset + header.p_filesz ≤ file.size
  size : file.size < 2 ^ 63

theorem mmap_fixed (hm : MapsWhereAsked mapper) {request : Request} (hfixed : request.fixed)
    (h : mmap mapper file s request = some s') :
    s' = { s with
      calls := request :: s.calls
      mappings := (request.addr, request.size) :: s.mappings
      memory := fun a => if request.addr ≤ a ∧ a < request.addr + request.size
        then contents file request.off (a - request.addr) else s.memory a } := by
  obtain ⟨addr, hmap, rfl⟩ := map_eq_some_iff.mp h
  rw [hm.asked _ _ _ hmap hfixed]

/-- New mappings between two addresses, which do not overlap. -/
def Made (lo hi : Nat) (s s' : Image) : Prop :=
  ∃ made, s'.mappings = made ++ s.mappings ∧ made.Pairwise Apart ∧ ∀ m ∈ made, lo ≤ m.1 ∧ m.1 + m.2 ≤ hi

/-- Memory changes only between two addresses. -/
def Frame (lo hi : Nat) (s s' : Image) : Prop := ∀ a, a < lo ∨ hi ≤ a → s'.memory a = s.memory a

variable {lo hi : Nat} {t : Image}

theorem Made.of_eq (h : s'.mappings = s.mappings) : Made lo hi s s' :=
  ⟨[], h, List.Pairwise.nil, fun _ h => absurd h not_mem_nil⟩

theorem Made.trans {mid mid' : Nat} (h : Made lo mid s t) (h' : Made mid' hi t s') (hle : mid ≤ mid')
    (hlo : lo ≤ mid') (hhi : mid ≤ hi) : Made lo hi s s' := by
  obtain ⟨made, hmade, hpair, hin⟩ := h
  obtain ⟨made', hmade', hpair', hin'⟩ := h'
  refine ⟨made' ++ made, by rw [hmade', hmade, List.append_assoc], ?_, ?_⟩
  · refine List.pairwise_append.mpr ⟨hpair', hpair, fun m hm n hn => .inr ?_⟩
    have := hin' m hm
    have := hin n hn
    omega
  · intro m hm
    rcases mem_append.mp hm with hm | hm
    · have := hin' m hm
      omega
    · have := hin m hm
      omega

theorem Frame.mono {lo' hi' : Nat} (h : Frame lo hi s s') (hlo : lo' ≤ lo) (hhi : hi ≤ hi') : Frame lo' hi' s s' :=
  fun a ha => h a (by omega)

theorem Frame.trans (h : Frame lo hi s t) (h' : Frame lo hi t s') : Frame lo hi s s' :=
  fun a ha => (h' a ha).trans (h a ha)

theorem made_mmap (hm : MapsWhereAsked mapper) {request : Request} (hfixed : request.fixed)
    (h : mmap mapper file s request = some s') :
    Made request.addr (request.addr + request.size) s s' ∧ Frame request.addr (request.addr + request.size) s s' := by
  rw [mmap_fixed hm hfixed h]
  refine ⟨⟨[(request.addr, request.size)], rfl, List.pairwise_singleton _ _, ?_⟩, fun a ha => if_neg (by omega)⟩
  intro m hm
  rw [List.mem_singleton.mp hm]
  exact ⟨le_rfl, le_rfl⟩

theorem mapFile_spec (hm : MapsWhereAsked mapper) (hr : Room file base header)
    (h : mapFile mapper file base header s = some s') :
    Made (base + pageStart header.p_vaddr) (base + pageUp (header.p_vaddr + header.p_filesz)) s s' ∧
      Frame (base + pageStart header.p_vaddr) (base + pageUp (header.p_vaddr + header.p_filesz)) s s' ∧
      s'.brkBase = s.brkBase ∧
      ∀ i < header.p_filesz, s'.memory (base + header.p_vaddr + i) = file.bytes (header.p_offset + i) := by
  obtain ⟨halign, hspace, hcong, hsizes, hinside, hfile⟩ := hr
  have hup := pageUp_mono (show header.p_vaddr + header.p_filesz ≤ header.memEnd by rw [Phdr.memEnd]; omega)
  have hsplit := pageStart_add_pageUp header.p_vaddr header.p_filesz
  have hparts := pageStart_add_pageOffset header.p_vaddr
  have hle := le_pageUp (header.p_filesz + pageOffset header.p_vaddr)
  have hoff : pageOffset header.p_vaddr ≤ header.p_offset := by
    rw [pageOffset, ← hcong]
    exact Nat.mod_le _ _
  have haddr : wrap (base + pageStart header.p_vaddr) = base + pageStart header.p_vaddr := wrap_of_lt (by omega)
  have hsize : pageAlign (wrap (header.p_filesz + pageOffset header.p_vaddr)) =
      pageUp (header.p_filesz + pageOffset header.p_vaddr) := by
    rw [wrap_of_lt (by omega), pageAlign_eq (by omega)]
  simp only [mapFile, haddr, hsize, wrap_sub hoff (show header.p_offset < 2 ^ 64 by omega)] at h
  split at h
  · rename_i hzero
    rw [Option.some.injEq] at h
    subst h
    exact ⟨Made.of_eq rfl, fun _ _ => rfl, rfl, fun i hi => by omega⟩
  · obtain ⟨hmade, hframe⟩ := made_mmap hm rfl h
    rw [Nat.add_assoc, hsplit] at hmade hframe
    refine ⟨hmade, hframe, ?_⟩
    rw [mmap_fixed hm rfl h]
    refine ⟨rfl, fun i hi => ?_⟩
    simp only
    rw [if_pos ⟨by omega, by omega⟩, contents, fileByte, if_pos (by omega)]
    congr 1
    omega

theorem padding_spec {start stop : Nat} (hle : start ≤ stop) :
    Frame start stop s (if writable header then memset s start (stop - start) else s) ∧
      (writable header → ∀ a, start ≤ a → a < stop →
        (if writable header then memset s start (stop - start) else s).memory a = 0) := by
  constructor
  · intro a ha
    split
    · exact if_neg (by omega)
    · rfl
  · intro hw a ha ha'
    rw [if_pos hw]
    exact if_pos (by omega)

theorem clearBss_spec (hm : MapsWhereAsked mapper) (hr : Room file base header)
    (h : clearBss mapper file base header s = some s') :
    Made (base + pageUp (header.p_vaddr + header.p_filesz)) (base + pageUp header.memEnd) s s' ∧
      Frame (base + header.p_vaddr + header.p_filesz) (base + pageUp header.memEnd) s s' ∧
      s'.brkBase = s.brkBase ∧
      (writable header → ∀ i, header.p_filesz ≤ i → i < header.p_memsz → s'.memory (base + header.p_vaddr + i) = 0) := by
  obtain ⟨halign, hspace, hcong, hsizes, hinside, hfile⟩ := hr
  have hup := pageUp_mono (show header.p_vaddr + header.p_filesz ≤ header.memEnd by rw [Phdr.memEnd]; omega)
  have hend := le_pageUp (header.p_vaddr + header.p_filesz)
  have hmem := le_pageUp header.memEnd
  have hdef : header.memEnd = header.p_vaddr + header.p_memsz := rfl
  have hstart : wrap (base + header.p_vaddr + header.p_filesz) = base + (header.p_vaddr + header.p_filesz) := by
    rw [Nat.add_assoc]
    exact wrap_of_lt (by omega)
  have hmemend : wrap (base + header.p_vaddr + header.p_memsz) = base + header.memEnd := by
    rw [Nat.add_assoc]
    exact wrap_of_lt (by omega)
  have hfirst := pageUp_add halign (header.p_vaddr + header.p_filesz)
  have hlast := pageUp_add halign header.memEnd
  -- the base is aligned, so the pages of the file are those of the memory
  have hpage : pageAlign (base + (header.p_vaddr + header.p_filesz)) = base + pageUp (header.p_vaddr + header.p_filesz) := by
    rw [pageAlign_eq (by omega), hfirst]
  have hpageEnd : pageAlign (base + header.memEnd) = base + pageUp header.memEnd := by
    rw [pageAlign_eq (by omega), hlast]
  simp only [clearBss, hstart, hmemend, hpage, hpageEnd] at h
  rw [wrap_sub (by omega) (by omega), wrap_sub (by omega) (by omega)] at h
  obtain ⟨hpad, hpadZero⟩ := @padding_spec header s _ _
    (show base + (header.p_vaddr + header.p_filesz) ≤ base + pageUp (header.p_vaddr + header.p_filesz) by omega)
  have hpadSame : (if writable header then memset s (base + (header.p_vaddr + header.p_filesz))
      (base + pageUp (header.p_vaddr + header.p_filesz) - (base + (header.p_vaddr + header.p_filesz))) else s).mappings =
        s.mappings ∧ (if writable header then memset s (base + (header.p_vaddr + header.p_filesz))
      (base + pageUp (header.p_vaddr + header.p_filesz) - (base + (header.p_vaddr + header.p_filesz))) else s).brkBase =
        s.brkBase := by
    split <;> exact ⟨rfl, rfl⟩
  split at h
  · generalize (if writable header then memset s (base + (header.p_vaddr + header.p_filesz))
      (base + pageUp (header.p_vaddr + header.p_filesz) - (base + (header.p_vaddr + header.p_filesz))) else s) = t at *
    obtain ⟨hmappings, hbrk⟩ := hpadSame
    have hpad' := hpad.mono (show base + header.p_vaddr + header.p_filesz ≤ _ by omega)
      (show _ ≤ base + pageUp header.memEnd by omega)
    split at h
    -- the pages behind the last one of the file are mapped anew
    · obtain ⟨hmade, hframe⟩ := made_mmap hm rfl h
      rw [show base + pageUp (header.p_vaddr + header.p_filesz) +
        (base + pageUp header.memEnd - (base + pageUp (header.p_vaddr + header.p_filesz))) =
          base + pageUp header.memEnd by omega] at hmade hframe
      simp only at hmade hframe
      refine ⟨?_, hpad'.trans (hframe.mono (by omega) le_rfl), ?_⟩
      · have hbefore : Made (base + pageUp (header.p_vaddr + header.p_filesz))
            (base + pageUp (header.p_vaddr + header.p_filesz)) s t := Made.of_eq hmappings
        exact hbefore.trans hmade le_rfl le_rfl (by omega)
      · rw [mmap_fixed hm rfl h]
        refine ⟨hbrk, fun hw i hi hi' => ?_⟩
        simp only
        split
        · rfl
        · exact hpadZero hw _ (by omega) (by omega)
    · rw [Option.some.injEq] at h
      subst h
      exact ⟨Made.of_eq hmappings, hpad', hbrk, fun hw i hi hi' => hpadZero hw _ (by omega) (by omega)⟩
  · rw [Option.some.injEq] at h
    subst h
    exact ⟨Made.of_eq rfl, fun _ _ => rfl, rfl, fun _ i hi hi' => by omega⟩

/-- What a header's segment holds. -/
structure Holds (file : File) (base : Nat) (header : Phdr) (s : Image) : Prop where
  bytes : ∀ i < header.p_filesz, s.memory (base + header.p_vaddr + i) = file.bytes (header.p_offset + i)
  zeros : writable header → ∀ i, header.p_filesz ≤ i → i < header.p_memsz → s.memory (base + header.p_vaddr + i) = 0

theorem Holds.frame (h : Holds file base header s) (hsizes : header.p_filesz ≤ header.p_memsz)
    (hmem : ∀ a, base + header.p_vaddr ≤ a → a < base + header.memEnd → s'.memory a = s.memory a) :
    Holds file base header s' := by
  have hdef : header.memEnd = header.p_vaddr + header.p_memsz := rfl
  refine ⟨fun i hi => ?_, fun hw i hi hi' => ?_⟩
  · rw [hmem _ (by omega) (by omega), h.bytes i hi]
  · rw [hmem _ (by omega) (by omega), h.zeros hw i hi hi']

theorem trackBrk_spec (hr : Room file base header) (hmod : s.brkBase % 4096 = 0) :
    (trackBrk base brk header s).brkBase % 4096 = 0 ∧ s.brkBase ≤ (trackBrk base brk header s).brkBase ∧
      (brk → base + header.memEnd ≤ (trackBrk base brk header s).brkBase) := by
  have hup := le_pageUp header.memEnd
  have hspace := hr.space
  have hadd := pageUp_add hr.aligned header.memEnd
  have hmemend : wrap (base + header.p_vaddr + header.p_memsz) = base + header.memEnd := by
    rw [Nat.add_assoc]
    exact wrap_of_lt (show base + header.memEnd < 2 ^ 64 by omega)
  simp only [trackBrk, hmemend]
  split
  · rename_i h
    simp only [Bool.and_eq_true, decide_eq_true_eq] at h
    rw [pageAlign_eq (by omega)]
    exact ⟨pageUp_mod _, show s.brkBase ≤ pageUp _ by omega, fun _ => show _ ≤ pageUp _ by omega⟩
  · rename_i h
    refine ⟨hmod, le_rfl, fun hbrk => ?_⟩
    simp only [hbrk, Bool.true_and, decide_eq_true_eq] at h
    omega

theorem loadHeader_spec (hm : MapsWhereAsked mapper) (hr : Room file base header) (hload : isLoad header)
    (hmod : s.brkBase % 4096 = 0) (h : loadHeader mapper file base brk header s = some s') :
    Made (base + pageStart header.p_vaddr) (base + pageUp header.memEnd) s s' ∧
      Frame (base + pageStart header.p_vaddr) (base + pageUp header.memEnd) s s' ∧ Holds file base header s' ∧
      s'.brkBase % 4096 = 0 ∧ s.brkBase ≤ s'.brkBase ∧ (brk → base + header.memEnd ≤ s'.brkBase) := by
  rw [loadHeader, if_pos hload] at h
  obtain ⟨t, hfile, h⟩ := bind_eq_some_iff.mp h
  obtain ⟨u, hbss, rfl⟩ := map_eq_some_iff.mp h
  obtain ⟨hmadeFile, hframeFile, hbrkFile, hbytes⟩ := mapFile_spec hm hr hfile
  obtain ⟨hmadeBss, hframeBss, hbrkBss, hzeros⟩ := clearBss_spec hm hr hbss
  have hup := pageUp_mono (show header.p_vaddr + header.p_filesz ≤ header.memEnd by
    have := hr.sizes
    rw [Phdr.memEnd]
    omega)
  have hstart := pageStart_le header.p_vaddr
  have hend := le_pageUp (header.p_vaddr + header.p_filesz)
  have hkeep : (trackBrk base brk header u).mappings = u.mappings ∧ (trackBrk base brk header u).memory = u.memory := by
    simp only [trackBrk]
    split <;> exact ⟨rfl, rfl⟩
  obtain ⟨hmappings, hmemory⟩ := hkeep
  obtain ⟨hmod', hle, hafter⟩ := @trackBrk_spec file base brk header u hr (by rw [hbrkBss, hbrkFile, hmod])
  refine ⟨?_, ?_, ⟨fun i hi => ?_, ?_⟩, hmod', by rw [hbrkBss, hbrkFile] at hle; exact hle, hafter⟩
  · rw [Made, hmappings]
    exact hmadeFile.trans hmadeBss le_rfl (by omega) (by omega)
  · rw [Frame, hmemory]
    exact (hframeFile.mono le_rfl (by omega)).trans (hframeBss.mono (by omega) le_rfl)
  · rw [hmemory, hframeBss _ (by omega), hbytes i hi]
  · rw [hmemory]
    exact hzeros

/-! ## All headers -/

/-- What the rest of the headers changes. -/
structure Run (file : File) (base : Nat) (brk : Bool) (headers : List Phdr) (s s' : Image) : Prop where
  mappings : ∃ made, s'.mappings = made ++ s.mappings ∧ made.Pairwise Apart ∧ ∀ m ∈ made, ∃ header ∈ headers,
    isLoad header ∧ base + pageStart header.p_vaddr ≤ m.1 ∧ m.1 + m.2 ≤ base + pageUp header.memEnd
  memory : ∀ a, (∀ header ∈ headers, isLoad header → a < base + pageStart header.p_vaddr ∨
    base + pageUp header.memEnd ≤ a) → s'.memory a = s.memory a
  holds : ∀ header ∈ headers, isLoad header → Holds file base header s'
  aligned : s'.brkBase % 4096 = 0
  le : s.brkBase ≤ s'.brkBase
  above : brk → ∀ header ∈ headers, isLoad header → base + header.memEnd ≤ s'.brkBase

theorem Run.cons {headers : List Phdr} (hr : Room file base header)
    (hafter : ∀ next ∈ headers, isLoad next → pageUp header.memEnd ≤ pageStart next.p_vaddr)
    (hmade : Made (base + pageStart header.p_vaddr) (base + pageUp header.memEnd) s t)
    (hframe : Frame (base + pageStart header.p_vaddr) (base + pageUp header.memEnd) s t) (hload : isLoad header)
    (hholds : Holds file base header t) (hle : s.brkBase ≤ t.brkBase) (habove : brk → base + header.memEnd ≤ t.brkBase)
    (h : Run file base brk headers t s') : Run file base brk (header :: headers) s s' := by
  obtain ⟨made, hmadeEq, hpair, hin⟩ := hmade
  obtain ⟨rest, hrestEq, hrestPair, hrestIn⟩ := h.mappings
  have hup := le_pageUp header.memEnd
  refine ⟨⟨rest ++ made, by rw [hrestEq, hmadeEq, List.append_assoc], ?_, fun m hm => ?_⟩, fun a ha => ?_, ?_, h.aligned,
    hle.trans h.le, fun hbrk => ?_⟩
  · refine List.pairwise_append.mpr ⟨hrestPair, hpair, fun m hm n hn => .inr ?_⟩
    obtain ⟨next, hnext, hnextLoad, hlo, -⟩ := hrestIn m hm
    have := hafter next hnext hnextLoad
    have := (hin n hn).2
    omega
  · rcases mem_append.mp hm with hm | hm
    · obtain ⟨next, hnext, hrest⟩ := hrestIn m hm
      exact ⟨next, mem_cons_of_mem _ hnext, hrest⟩
    · exact ⟨header, mem_cons_self, hload, hin m hm⟩
  · rw [h.memory a fun next hnext => ha next (mem_cons_of_mem _ hnext)]
    exact hframe a (ha header mem_cons_self hload)
  · intro other hother hotherLoad
    rcases mem_cons.mp hother with rfl | hother
    · refine hholds.frame hr.sizes fun a _ hlt => h.memory a fun next hnext hnextLoad => ?_
      have := hafter next hnext hnextLoad
      omega
    · exact h.holds other hother hotherLoad
  · intro other hother hotherLoad
    rcases mem_cons.mp hother with rfl | hother
    · exact (habove hbrk).trans h.le
    · exact h.above hbrk other hother hotherLoad

theorem Run.skip {headers : List Phdr} (hload : ¬isLoad header) (h : Run file base brk headers s s') :
    Run file base brk (header :: headers) s s' := by
  have hmem : ∀ {other}, other ∈ header :: headers → isLoad other → other ∈ headers := by
    intro other hother hotherLoad
    rcases mem_cons.mp hother with rfl | hother
    · exact absurd hotherLoad hload
    · exact hother
  obtain ⟨made, hmadeEq, hpair, hin⟩ := h.mappings
  refine ⟨⟨made, hmadeEq, hpair, fun m hm => ?_⟩, fun a ha => ?_, fun other hother hotherLoad => ?_, h.aligned, h.le,
    fun hbrk other hother hotherLoad => ?_⟩
  · obtain ⟨next, hnext, hrest⟩ := hin m hm
    exact ⟨next, mem_cons_of_mem _ hnext, hrest⟩
  · exact h.memory a fun next hnext => ha next (mem_cons_of_mem _ hnext)
  · exact h.holds other (hmem hother hotherLoad) hotherLoad
  · exact h.above hbrk other (hmem hother hotherLoad) hotherLoad

theorem loadHeaders_run (hm : MapsWhereAsked mapper) : ∀ {headers : List Phdr} {s s' : Image},
    (∀ header ∈ headers, isLoad header → Room file base header) →
    ((headers.filter isLoad).Pairwise fun header next => pageUp header.memEnd ≤ pageStart next.p_vaddr) →
    s.brkBase % 4096 = 0 → loadHeaders mapper file base brk headers s = some s' → Run file base brk headers s s'
  | [], s, s', _, _, hmod, h => by
    rw [loadHeaders, Option.some.injEq] at h
    subst h
    exact ⟨⟨[], rfl, List.Pairwise.nil, fun _ h => absurd h not_mem_nil⟩, fun _ _ => rfl,
      fun _ h => absurd h not_mem_nil, hmod, le_rfl, fun _ _ h => absurd h not_mem_nil⟩
  | header :: rest, s, s', hroom, hordered, hmod, h => by
    obtain ⟨t, hhead, hrest⟩ := bind_eq_some_iff.mp h
    have hroomRest := fun next hnext => hroom next (mem_cons_of_mem header hnext)
    by_cases hload : isLoad header
    · rw [List.filter_cons_of_pos hload, List.pairwise_cons] at hordered
      have hr := hroom header mem_cons_self hload
      obtain ⟨hmade, hframe, hholds, hmod', hle, habove⟩ := loadHeader_spec hm hr hload hmod hhead
      refine Run.cons hr (fun next hnext hnextLoad => ?_) hmade hframe hload hholds hle habove
        (loadHeaders_run hm hroomRest hordered.2 hmod' hrest)
      exact hordered.1 next (mem_filter.mpr ⟨hnext, hnextLoad⟩)
    · rw [List.filter_cons_of_neg hload] at hordered
      rw [loadHeader, if_neg hload, Option.some.injEq] at hhead
      subst hhead
      exact (loadHeaders_run hm hroomRest hordered hmod hrest).skip hload

end

/-! ## The size -/

theorem calculateTotalElfSize_spec {headers : List Phdr}
    (hordered : (headers.filter isLoad).Pairwise fun header next => pageUp header.memEnd ≤ pageStart next.p_vaddr) :
    (∃ last ∈ headers, isLoad last ∧ calculateTotalElfSize headers = pageAlign (wrap last.memEnd) ∧
      ∀ header ∈ headers, isLoad header → pageUp header.memEnd ≤ pageUp last.memEnd) ∨
    calculateTotalElfSize headers = 0 ∧ ∀ header ∈ headers, ¬isLoad header := by
  cases hlast : headers.reverse.find? isLoad with
  | none =>
    refine .inr ⟨by rw [calculateTotalElfSize, hlast], fun header hmem => ?_⟩
    exact List.find?_eq_none.mp hlast header (mem_reverse.mpr hmem)
  | some last =>
    refine .inl ⟨last, mem_reverse.mp (List.mem_of_find?_eq_some hlast), List.find?_some hlast,
      by rw [calculateTotalElfSize, hlast]; rfl, fun header hmem hload => ?_⟩
    obtain ⟨-, before, after, heq, hnone⟩ := List.find?_eq_some_iff_append.mp hlast
    -- in the order of the file, only headers that are not loaded come after the last one
    have hheaders : headers = after.reverse ++ last :: before.reverse := by
      have := congrArg List.reverse heq
      simpa using this
    rw [hheaders] at hmem hordered
    rcases mem_append.mp hmem with hmem | hmem
    · rw [List.filter_append, List.pairwise_append] at hordered
      have hle := hordered.2.2 header (mem_filter.mpr ⟨hmem, hload⟩) last
        (mem_filter.mpr ⟨mem_cons_self, List.find?_some hlast⟩)
      have hstart := pageStart_le last.p_vaddr
      have hup := le_pageUp last.memEnd
      have hdef : last.memEnd = last.p_vaddr + last.p_memsz := rfl
      omega
    · rcases mem_cons.mp hmem with rfl | hmem
      · exact le_rfl
      · have := hnone header (mem_reverse.mp hmem)
        simp [hload] at this

theorem wrap_mod (x : Nat) : wrap x % 4096 = x % 4096 := by
  rw [wrap]
  omega

theorem pageAlign_wrap (x : Nat) : pageAlign (wrap x) = wrap (pageUp x) := by
  rw [pageAlign, pageStart, pageUp, wrap, wrap, wrap]
  omega

theorem calculateTotalElfSize_mod (headers : List Phdr) : calculateTotalElfSize headers % 4096 = 0 := by
  rw [calculateTotalElfSize]
  split
  · rfl
  · exact pageAlign_mod _

theorem totalSize_mod (elf : ELFParser) (brk : Bool) : totalSize elf brk % 4096 = 0 := by
  have := calculateTotalElfSize_mod elf.phdrs
  rw [totalSize, wrap_mod, Nat.add_mod, this]
  cases brk <;> rfl

/-! ## Loads that succeed -/

section
variable {file : File} {elf : ELFParser} {brk : Bool} {base : Nat} {s : Image}

variable {header : Phdr} {mapper : Mapper}

theorem Mappable.room (h : Mappable file elf.phdrs) (hmem : header ∈ elf.phdrs) (hload : isLoad header)
    (halign : base % 4096 = 0) (hspace : base + pageUp header.memEnd < 2 ^ 64) : Room file base header :=
  ⟨halign, hspace, h.congruent header hmem hload, h.sizes header hmem hload, h.inside header hmem hload, h.size⟩

theorem Run.loaded {start : Image} (h : Run file base brk elf.phdrs start s) (hstart : start.mappings = [])
    (htotal : elf.ehdr.e_type = ET_DYN → ∀ header ∈ elf.phdrs, isLoad header →
      pageUp header.memEnd ≤ totalSize elf brk) : Loaded file elf brk base s := by
  obtain ⟨made, heq, hpair, hin⟩ := h.mappings
  rw [hstart, List.append_nil] at heq
  refine ⟨fun header hmem hload => (h.holds header hmem hload).bytes,
    fun header hmem hload => (h.holds header hmem hload).zeros, by rw [heq]; exact hpair, fun hdyn m hm => ?_,
    fun _ => h.aligned, h.above⟩
  rw [heq] at hm
  obtain ⟨header, hmem, hload, hlo, hhi⟩ := hin m hm
  have := htotal hdyn header hmem hload
  omega

theorem totalSize_of_fits (h : Mappable file elf.phdrs) (hfits : Fits elf) (hdyn : elf.ehdr.e_type = ET_DYN)
    (hpos : 0 < totalSize elf brk) (hmem : header ∈ elf.phdrs) (hload : isLoad header) :
    pageUp header.memEnd ≤ totalSize elf brk := by
  rcases calculateTotalElfSize_spec h.ordered with ⟨last, hlast, hlastLoad, hsize, hle⟩ | ⟨-, hnone⟩
  · have hlastFits := hfits last hlast hlastLoad
    rw [if_pos hdyn] at hlastFits
    have := hle header hmem hload
    rw [totalSize, hsize, show pageAlign (wrap last.memEnd) = _ from pageAlign_wrap _, wrap, wrap] at hpos ⊢
    cases brk <;> simp only [Bool.false_eq_true, if_false, if_true] at hpos ⊢ <;> omega
  · exact absurd hload (hnone header hmem)

theorem loadsRight_of_fits (h : Mappable file elf.phdrs) (hfits : Fits elf) : LoadsRight file elf := by
  intro mapper unmapper brk memory base s hm hload
  rw [loadElfFile] at hload
  split at hload
  · rename_i hdyn
    obtain ⟨found, hmap, hload⟩ := bind_eq_some_iff.mp hload
    have hpos := hm.size _ _ _ hmap rfl
    have halign := hm.aligned _ _ _ hmap rfl
    have hspace := hm.space _ _ _ hmap rfl
    simp only [reservation] at hpos hspace
    have htotal : ∀ header ∈ elf.phdrs, isLoad header → pageUp header.memEnd ≤ totalSize elf brk :=
      fun header hmem hload => totalSize_of_fits h hfits hdyn hpos hmem hload
    split at hload
    · obtain ⟨image, hheaders, heq⟩ := map_eq_some_iff.mp hload
      obtain ⟨rfl, rfl⟩ := heq
      refine Run.loaded (loadHeaders_run hm (fun header hmem hload => ?_) h.ordered ?_ hheaders) rfl fun _ => htotal
      · refine h.room hmem hload halign ?_
        have := htotal header hmem hload
        omega
      · have := totalSize_mod elf brk
        show wrap _ % 4096 = 0
        rw [wrap_mod, Nat.add_mod, wrap_mod, BRK_SIZE]
        omega
    · cases hload
  · rename_i hdyn
    obtain ⟨image, hheaders, heq⟩ := map_eq_some_iff.mp hload
    obtain ⟨rfl, rfl⟩ := heq
    refine Run.loaded (loadHeaders_run hm (fun header hmem hload => ?_) h.ordered rfl hheaders) rfl
      fun hdyn' => absurd hdyn' hdyn
    refine h.room hmem hload rfl ?_
    have := hfits header hmem hload
    rw [if_neg hdyn] at this
    omega

/-! ## Segments at the end of the address space -/

/-- A mapper with all of the address space. -/
def freeMapper : Mapper := fun _ request =>
  if request.fixed then some request.addr else if 0 < request.size ∧ request.size ≤ 2 ^ 62 then some (2 ^ 63) else none

theorem freeMapper_maps : MapsWhereAsked freeMapper := by
  have hfree : ∀ calls request addr, freeMapper calls request = some addr → request.fixed = false →
      0 < request.size ∧ request.size ≤ 2 ^ 62 ∧ addr = 2 ^ 63 := by
    intro calls request addr h hfixed
    rw [freeMapper, hfixed, if_neg Bool.false_ne_true] at h
    split at h
    · rename_i hsize
      exact ⟨hsize.1, hsize.2, (Option.some.inj h).symm⟩
    · cases h
  refine ⟨fun calls request addr h hfixed => ?_, fun _ _ _ h hfixed => (hfree _ _ _ h hfixed).1,
    fun _ _ _ h hfixed => ?_, fun _ _ _ h hfixed => ?_⟩
  · rw [freeMapper, if_pos hfixed, Option.some.injEq] at h
    exact h.symm
  · rw [(hfree _ _ _ h hfixed).2.2]
    norm_num
  · have := hfree _ _ _ h hfixed
    omega

theorem mmap_free_isSome {request : Request} (hfixed : request.fixed) : (mmap freeMapper file s request).isSome := by
  rw [mmap, freeMapper, if_pos hfixed]
  rfl

theorem loadHeader_free_isSome (file : File) (base : Nat) (brk : Bool) (header : Phdr) (s : Image) :
    (loadHeader freeMapper file base brk header s).isSome := by
  rw [loadHeader]
  split
  · have hfile : (mapFile freeMapper file base header s).isSome := by
      simp only [mapFile]
      split
      · rfl
      · exact mmap_free_isSome rfl
    obtain ⟨t, ht⟩ := isSome_iff_exists.mp hfile
    rw [ht, bind_some, Option.isSome_map]
    simp only [clearBss]
    split
    · split
      · exact mmap_free_isSome rfl
      · rfl
    · rfl
  · rfl

theorem loadHeaders_free_isSome (file : File) (base : Nat) (brk : Bool) : ∀ (headers : List Phdr) (s : Image),
    (loadHeaders freeMapper file base brk headers s).isSome
  | [], _ => rfl
  | header :: rest, s => by
    obtain ⟨t, ht⟩ := isSome_iff_exists.mp (loadHeader_free_isSome file base brk header s)
    rw [loadHeaders, ht, bind_some]
    exact loadHeaders_free_isSome file base brk rest t

theorem mmap_brkBase {request : Request} {s' : Image} (h : mmap mapper file s request = some s') :
    s'.brkBase = s.brkBase := by
  obtain ⟨addr, -, rfl⟩ := map_eq_some_iff.mp h
  rfl

theorem loadHeader_brk_lt {s' : Image} (hlt : s.brkBase < 2 ^ 64)
    (h : loadHeader mapper file base brk header s = some s') : s'.brkBase < 2 ^ 64 := by
  rw [loadHeader] at h
  split at h
  · obtain ⟨t, hfile, h⟩ := bind_eq_some_iff.mp h
    obtain ⟨u, hbss, rfl⟩ := map_eq_some_iff.mp h
    have ht : t.brkBase = s.brkBase := by
      simp only [mapFile] at hfile
      split at hfile
      · rw [Option.some.inj hfile]
      · exact mmap_brkBase hfile
    have hu : u.brkBase = t.brkBase := by
      simp only [clearBss] at hbss
      split at hbss
      · have hpad : ∀ a n, (if writable header then memset t a n else t).brkBase = t.brkBase := by
          intro a n
          split <;> rfl
        split at hbss
        · rw [mmap_brkBase hbss, hpad]
        · rw [← Option.some.inj hbss, hpad]
      · rw [Option.some.inj hbss]
    simp only [trackBrk]
    split
    · exact pageAlign_lt _
    · rwa [hu, ht]
  · rwa [← Option.some.inj h]

theorem loadHeaders_brk_lt : ∀ {headers : List Phdr} {s s' : Image}, s.brkBase < 2 ^ 64 →
    loadHeaders mapper file base brk headers s = some s' → s'.brkBase < 2 ^ 64
  | [], s, s', hlt, h => by rwa [← Option.some.inj h]
  | header :: rest, s, s', hlt, h => by
    obtain ⟨t, hhead, hrest⟩ := bind_eq_some_iff.mp h
    exact loadHeaders_brk_lt (loadHeader_brk_lt hlt hhead) hrest

/-- A file that does not fit can be loaded with a break that is below a segment. -/
theorem fits_of_loadsRight (h : Mappable file elf.phdrs) (hright : LoadsRight file elf) : Fits elf := by
  intro header hmem hload
  split
  · rename_i hdyn
    by_contra hnot
    have htotal : 0 < totalSize elf true ∧ totalSize elf true ≤ 2 ^ 62 := by
      rcases calculateTotalElfSize_spec h.ordered with ⟨last, hlast, hlastLoad, hsize, hle⟩ | ⟨-, hnone⟩
      · have hheader := hle header hmem hload
        have hspace := h.space last hlast hlastLoad
        have hlastUp : pageUp last.memEnd ≤ 2 ^ 64 := pageUp_mono hspace
        rw [totalSize, hsize, pageAlign_wrap, wrap, wrap]
        rw [BRK_SIZE] at *
        simp only [if_true]
        omega
      · exact absurd hload (hnone header hmem)
    obtain ⟨image, himage⟩ := isSome_iff_exists.mp (loadHeaders_free_isSome file (2 ^ 63) true
      elf.phdrs ⟨[reservation elf true], [], fun _ => 0, wrap (2 ^ 63 + wrap (totalSize elf true + 2 ^ 64 - BRK_SIZE))⟩)
    have hmap : freeMapper [] (reservation elf true) = some (2 ^ 63) := by
      rw [freeMapper, if_neg (by simp [reservation])]
      exact if_pos htotal
    have hloaded := hright freeMapper (fun _ _ => true) true (fun _ => 0) (2 ^ 63) image freeMapper_maps (by
      rw [loadElfFile, if_pos hdyn, hmap, bind_some, if_pos rfl, himage]
      rfl)
    have habove := hloaded.above rfl header hmem hload
    have hlt := loadHeaders_brk_lt (show wrap _ < 2 ^ 64 from Nat.mod_lt _ (by norm_num)) himage
    rw [pageUp, BRK_SIZE] at hnot
    omega
  · rename_i hdyn
    obtain ⟨image, himage⟩ := isSome_iff_exists.mp (loadHeaders_free_isSome file 0 true
      elf.phdrs ⟨[], [], fun _ => 0, 0⟩)
    have hloaded := hright freeMapper (fun _ _ => true) true (fun _ => 0) 0 image freeMapper_maps (by
      rw [loadElfFile, if_neg hdyn, himage]
      rfl)
    have habove := hloaded.above rfl header hmem hload
    have halign := hloaded.aligned rfl
    have hlt := loadHeaders_brk_lt (show 0 < 2 ^ 64 by norm_num) himage
    rw [pageUp]
    omega

end

end FexEmu.Elf
