import FexEmu.LinuxSyscalls.LinuxAllocatorProofs
import FexEmu.LinuxSyscalls.PlacementSearch
/-!
# The flags of mremap

A mapping that cannot grow in place is moved, whether it may or not, and nothing is taken back if a later call fails. A fixed
move goes on to a second move.
-/
namespace FexEmu.LinuxSyscalls.MemAllocator32Bit

/-! ## Flags and failures -/

/-- A call that fails sets `errno`. -/
def RealErrors (answers : List Answer) : Prop := ∀ e, .error e ∈ answers → 0 < e

/-- No page outside of a range was mapped or unmapped. -/
def SameOutside (host host' : Host) (page count : Nat) : Prop :=
  ∀ p, p < page ∨ page + count ≤ p → host'.pages p = host.pages p

/-- The bitmap and the mappings are as before. -/
def Unchanged (s s' : AllocState) : Prop := s'.alloc.mappedPages = s.alloc.mappedPages ∧ s'.host = s.host

/-- Without `MREMAP_MAYMOVE` the mapping stays or the call fails, and a call that fails changes neither the bitmap nor the
mappings. -/
def RespectsFlags (segsz : Int → Option Nat) (s : AllocState) (oldAddress oldSize newSize flags newAddress : Nat) : Prop :=
  ∀ answers, RealErrors answers → ∀ r s',
    mremap segsz oldAddress oldSize newSize flags newAddress { s with answers } = .ok (r, s') →
      (isMayMove flags = false → r < 0 ∨ r = oldAddress ∧
        SameOutside s.host s'.host (oldAddress / 4096) (max (pageCount oldSize) (pageCount newSize))) ∧
      (r < 0 → Unchanged s s')

section Steps
variable {segsz : Int → Option Nat} {c : KernelCall} {s s' : AllocState} {α β : Type}

theorem bind_ok {m : M α} {f : α → M β} {x : β × AllocState} (h : (m >>= f) s = .ok x) :
    ∃ a s', m s = .ok (a, s') ∧ f a s' = .ok x := by
  change (m s >>= fun y => f y.1 y.2) = .ok x at h
  cases hm : m s with
  | error e =>
    rw [hm] at h
    cases h
  | ok y =>
    rw [hm] at h
    exact ⟨y.1, y.2, rfl, h⟩

theorem call_ok {a : Answer} (h : call segsz c s = .ok (a, s')) :
    ∃ rest, s.answers = a :: rest ∧ Consistent segsz c a ∧
      s' = { s with host := s.host.apply segsz c a, answers := rest, errno := errnoAfter s.errno a } := by
  cases hs : s.answers with
  | nil =>
    rw [call_nil hs] at h
    cases h
  | cons b rest =>
    by_cases hc : Consistent segsz c b
    · rw [call_cons hs hc] at h
      cases h
      exact ⟨rest, rfl, hc, rfl⟩
    · rw [call_inconsistent hs hc] at h
      cases h

theorem errnoResult_run (s : AllocState) : errnoResult s = .ok (-(s.errno : Int), s) := rfl

/-- A range that `MappedPages` can be set for. -/
def InBitmap (page n : Nat) : Prop := 0 < n → page + n ≤ bitmapSize

theorem setPages_run (value : Bool) (n : Nat) :
    ∀ page s, InBitmap page n → setPages value page n s =
      .ok ((), { s with alloc := { s.alloc with mappedPages := fill s.alloc.mappedPages value page n } }) := by
  induction n with
  | zero =>
    intro page s _
    rw [fill_zero]
    rfl
  | succ n ih =>
    intro page s h
    have hend := h (Nat.succ_pos n)
    have hset : setPage value page s = .ok ((), { s with alloc :=
        { s.alloc with mappedPages := Function.update s.alloc.mappedPages page value } }) := by
      unfold setPage
      rw [if_pos (by omega)]
      rfl
    rw [setPages, bind_run _ hset, ih _ _ (fun _ => by omega), ← fill_succ]

theorem setPages_ok {value : Bool} (n : Nat) :
    ∀ page s s', setPages value page n s = .ok ((), s') → InBitmap page n := by
  induction n with
  | zero => exact fun _ _ _ _ h => absurd h (Nat.lt_irrefl 0)
  | succ n ih =>
    intro page s s' h _
    obtain ⟨⟨⟩, s₁, hset, hrest⟩ := bind_ok h
    have hin := ih _ _ _ hrest
    by_cases hpage : page < bitmapSize
    · rcases Nat.eq_zero_or_pos n with rfl | hn
      · omega
      · have := hin hn
        omega
    · unfold setPage at hset
      rw [if_neg hpage] at hset
      cases hset

/-- A taken page is met before the bitmap ends. -/
def Blocked (bits : Nat → Bool) (page n : Nat) : Prop :=
  ∃ i < n, page + i < bitmapSize ∧ bits (page + i) = true ∧ ∀ j < i, bits (page + j) = false

/-- All of the pages are free. -/
def Extends (bits : Nat → Bool) (page n : Nat) : Prop := ∀ i < n, Free bits (page + i)

theorem canExtend_spec (n : Nat) : ∀ page,
    (Extends s.alloc.mappedPages page n ∧ canExtend page n s = .ok (true, s)) ∨
      (Blocked s.alloc.mappedPages page n ∧ canExtend page n s = .ok (false, s)) ∨
      (¬ Extends s.alloc.mappedPages page n ∧ ¬ Blocked s.alloc.mappedPages page n ∧
        canExtend page n s = .error .outOfRange) := by
  induction n with
  | zero => exact fun page => .inl ⟨fun i hi => absurd hi (Nat.not_lt_zero i), rfl⟩
  | succ n ih =>
    intro page
    by_cases hpage : page < bitmapSize
    · rw [canExtend, bind_run _ (testPage_eq hpage)]
      cases htaken : s.alloc.mappedPages page with
      | true =>
        exact .inr (.inl ⟨⟨0, Nat.succ_pos n, hpage, htaken, fun j hj => absurd hj (Nat.not_lt_zero j)⟩, rfl⟩)
      | false =>
        rcases ih (page + 1) with ⟨free, hrun⟩ | ⟨⟨i, hi, hin, htak, hfree⟩, hrun⟩ | ⟨hfree, htak, hrun⟩
        · refine .inl ⟨fun i hi => ?_, hrun⟩
          cases i with
          | zero => exact ⟨hpage, htaken⟩
          | succ i =>
            rw [show page + (i + 1) = page + 1 + i by omega]
            exact free i (by omega)
        · refine .inr (.inl ⟨⟨i + 1, by omega, ?_, ?_, fun j hj => ?_⟩, hrun⟩)
          · omega
          · rwa [show page + (i + 1) = page + 1 + i by omega]
          · cases j with
            | zero => exact htaken
            | succ j =>
              rw [show page + (j + 1) = page + 1 + j by omega]
              exact hfree j (by omega)
        · refine .inr (.inr ⟨fun free => hfree fun i hi => ?_, ?_, hrun⟩)
          · rw [show page + 1 + i = page + (i + 1) by omega]
            exact free (i + 1) (by omega)
          · rintro ⟨i, hi, hin, hbit, hbefore⟩
            cases i with
            | zero => exact absurd (htaken.symm.trans hbit) Bool.false_ne_true
            | succ i =>
              rw [show page + (i + 1) = page + 1 + i by omega] at hin hbit
              refine htak ⟨i, by omega, hin, hbit, fun j hj => ?_⟩
              rw [show page + 1 + j = page + (j + 1) by omega]
              exact hbefore (j + 1) (by omega)
    · refine .inr (.inr ⟨fun free => hpage (free 0 (Nat.succ_pos n)).1, ?_, ?_⟩)
      · rintro ⟨i, -, hin, -⟩
        omega
      · change (testPage page s >>= fun y => _) = _
        change ((if page < bitmapSize then pure _ else throw Halt.outOfRange : M Bool) s >>= fun y => _) = _
        rw [if_neg hpage]
        rfl

end Steps

/-! ## The new place -/

/-- `AllocateNoHint` has a place to ask the kernel for. -/
def Relocatable (alloc : MemAllocator32Bit) (newSize : Nat) : Prop :=
  0 < newSize ∧ newSize ≤ 0xFFFFFFFF ∧ ¬ NoRun alloc.mappedPages (pagesLengthOf newSize) topKey

section Place
variable {segsz : Int → Option Nat} {length prot flags newSize : Nat} {fd offset r : Int} {s s' : AllocState}

theorem allocateNoHint_empty (fuel : Nat) :
    ∀ bottom wrapped s, LowTaken s.alloc.mappedPages → RealErrors s.answers →
      allocateNoHint segsz 0 prot flags fd offset false fuel bottom wrapped s = .ok (r, s') →
      r < 0 ∧ s'.alloc = s.alloc ∧ s'.host = s.host := by
  -- on the fuel; a mapping of no bytes is refused on every turn
  induction fuel with
  | zero =>
    intro _ _ _ _ _ h
    cases h
  | succ fuel ih =>
    intro bottom wrapped s low real h
    obtain ⟨bottom', page, lower, hrun⟩ := exists_foundLower low (pagesLengthOf 0) bottom (lastKeyOf false)
    by_cases hne : page = 0
    · subst hne
      rw [allocateNoHint_none (hrun s rfl)] at h
      cases h
      exact ⟨by decide, rfl, rfl⟩
    · rw [allocateNoHint_turn (hrun s rfl) hne] at h
      obtain ⟨a, s₁, hcall, h⟩ := bind_ok h
      obtain ⟨rest, hanswers, hc, hs₁⟩ := call_ok hcall
      cases a with
      | ok a => exact absurd hc.1 (Nat.lt_irrefl 0)
      | error e =>
        have halloc : s₁.alloc = s.alloc := by rw [hs₁]
        have hhost : s₁.host = s.host := by
          rw [hs₁]
          dsimp only
          exact apply_error _ _ _
        have hneg : -(e : Int) < 0 := Int.neg_neg_of_pos (Int.natCast_pos.mpr (real e (hanswers ▸ List.mem_cons_self)))
        have herrno : s₁.errno = e := by rw [hs₁, errnoAfter]
        have real₁ : RealErrors s₁.answers := by
          rw [hs₁]
          exact fun e' he' => real e' (hanswers ▸ List.mem_cons_of_mem _ he')
        -- the next turn starts from the same bitmap and the same host
        have again : ∀ bottom wrapped,
            allocateNoHint segsz 0 prot flags fd offset false fuel bottom wrapped s₁ = .ok (r, s') →
            r < 0 ∧ s'.alloc = s.alloc ∧ s'.host = s.host := by
          intro bottom wrapped h
          obtain ⟨hr, ha, hh⟩ := ih bottom wrapped s₁ (halloc ▸ low) real₁ h
          exact ⟨hr, ha.trans halloc, hh.trans hhost⟩
        have fails : errnoResult s₁ = .ok (r, s') → r < 0 ∧ s'.alloc = s.alloc ∧ s'.host = s.host := by
          intro h
          rw [errnoResult_run, herrno] at h
          cases h
          exact ⟨hneg, halloc, hhost⟩
        dsimp only at h
        split_ifs at h with hexist
        · change (if add64 page (pagesLengthOf 0) = topKey then _ else _ : M Int) s₁ = _ at h
          split_ifs at h
          · exact again _ _ h
          · exact fails h
          · exact again _ _ h
        · exact fails h

theorem accepted_of_le (h : newSize ≤ 0xFFFFFFFF) : ¬ Refused 0 newSize (-1) 0 := by
  rintro (h' | ⟨h', -⟩ | h')
  · exact h' rfl
  · exact h' rfl
  · unfold add64 at h'
    omega

theorem refused_of_lt (hsize : newSize < 2 ^ 64) (h : 0xFFFFFFFF < newSize) : Refused 0 newSize (-1) 0 := by
  refine .inr (.inr ?_)
  unfold add64
  omega

theorem mmap_unplaced (low : LowTaken s.alloc.mappedPages) (hsize : newSize < 2 ^ 64) (hnot : ¬ Relocatable s.alloc newSize)
    (real : RealErrors s.answers) (h : mmap segsz 0 newSize 0 0x22 (-1) 0 s = .ok (r, s')) :
    r < 0 ∧ s'.alloc = s.alloc ∧ s'.host = s.host := by
  by_cases refused : Refused 0 newSize (-1) 0
  · obtain ⟨e, he, hrun⟩ : ∃ e < 0, mmap segsz 0 newSize 0 0x22 (-1) 0 s = .ok (e, s) := mmap_refused refused
    rw [hrun] at h
    cases h
    exact ⟨he, rfl, rfl⟩
  · rw [mmap_noHint refused (by decide) (by decide)] at h
    rcases Nat.eq_zero_or_pos newSize with rfl | hpos
    · exact allocateNoHint_empty _ _ _ _ low real h
    · have hle : newSize ≤ 0xFFFFFFFF := by
        by_contra hlarge
        exact refused (refused_of_lt hsize (not_le.mp hlarge))
      have none : NoRun s.alloc.mappedPages (pagesLengthOf newSize) topKey := by
        by_contra some
        exact hnot ⟨hpos, hle, some⟩
      obtain ⟨bottom', page, lower, hrun⟩ :=
        exists_foundLower low (pagesLengthOf newSize) s.alloc.lastScanLocation topKey
      obtain rfl : page = 0 := lower.eq_zero (Nat.lt_or_ge topKey _).symm none
      rw [allocateNoHint_none (hrun s rfl)] at h
      cases h
      exact ⟨by decide, rfl, rfl⟩

theorem allocateNoHint_refused {bottom bottom' page : Nat} {wrapped : Bool} {rest : List Answer}
    (hlower : findLowerPage (pagesLengthOf length) bottom (lastKeyOf false) s = .ok ((bottom', page), s))
    (h : s.answers = .error 12 :: rest) (fuel : Nat) :
    ∃ s', allocateNoHint segsz length prot flags fd offset false (fuel + 1) bottom wrapped s = .ok (-12, s') ∧
      s'.alloc = s.alloc ∧ s'.host = s.host := by
  by_cases hne : page = 0
  · subst hne
    exact ⟨s, allocateNoHint_none hlower fuel, rfl, rfl⟩
  · have hc : Consistent segsz (.mmap (pageAddress page) length prot (flags ||| 0x100000) fd offset) (.error 12) := trivial
    rw [allocateNoHint_turn hlower hne, bind_run _ (call_cons h hc)]
    exact ⟨_, rfl, rfl, rfl⟩

/-- The kernel has room above the low 4 GB. -/
def HighRoom (host : Host) (size : Nat) : Prop :=
  ∃ page, 2 ^ 20 ≤ page ∧ page * 4096 + size ≤ taskSize ∧ host.pages page = none

variable (segsz) in
/-- A kernel that maps elsewhere and then does not unmap: the mapping stays although the call fails. -/
theorem mmap_leaks (low : LowTaken s.alloc.mappedPages) (h : Relocatable s.alloc newSize) (room : HighRoom s.host newSize) :
    ∃ answers s', RealErrors answers ∧ mmap segsz 0 newSize 0 0x22 (-1) 0 { s with answers } = .ok (-12, s') ∧
      s'.host ≠ s.host := by
  obtain ⟨hpos, hle, hrun⟩ := h
  obtain ⟨high, hhigh, hend, hfree⟩ := room
  have accepted := accepted_of_le hle
  obtain ⟨bottom', page, lower, hlower⟩ := exists_foundLower low (pagesLengthOf newSize) s.alloc.lastScanLocation topKey
  let call₁ : KernelCall := .mmap (pageAddress page) newSize 0 (0x22 &&& 0xFFFFFFBF ||| 0x100000) (-1) 0
  let s₀ : AllocState := { s with answers := [.ok (high * 4096), .error 12, .error 12] }
  let s₁ : AllocState :=
    { s₀ with host := s.host.apply segsz call₁ (.ok (high * 4096)), answers := [.error 12, .error 12] }
  let s₂ : AllocState := { s₁ with answers := [.error 12], errno := 12 }
  have hplaced : call segsz call₁ s₀ = .ok (.ok (high * 4096), s₁) :=
    call_cons rfl ⟨hpos, Nat.mul_mod_left _ _, hend, .inr ⟨by decide, by omega⟩⟩
  have habove : pageAddress topKey ≤ high * 4096 := by
    have htop : pageAddress topKey = topKey * 4096 := by decide
    unfold topKey at htop
    unfold topKey
    omega
  have hkept : call segsz (.munmap (high * 4096) newSize) s₁ = .ok (.error 12, s₂) := by
    have hc : Consistent segsz (.munmap (high * 4096) newSize) (.error 12) := trivial
    rfl
  have refused : ∀ bottom wrapped, ∃ s',
      allocateNoHint segsz newSize 0 (0x22 &&& 0xFFFFFFBF) (-1) 0 false 3 bottom wrapped s₂ = .ok (-12, s') ∧
        s'.alloc = s₂.alloc ∧ s'.host = s₂.host := by
    intro bottom wrapped
    obtain ⟨bottom', page, -, hrun⟩ := exists_foundLower low (pagesLengthOf newSize) bottom (lastKeyOf false)
    exact allocateNoHint_refused (hrun s₂ rfl) rfl 2
  have hrest : ∃ s',
      restartNoHint segsz newSize 0 (0x22 &&& 0xFFFFFFBF) (-1) 0 false 3 bottom' page false s₂ = .ok (-12, s') ∧
        s'.alloc = s₂.alloc ∧ s'.host = s₂.host := by
    change ∃ s', (if add64 page (pagesLengthOf newSize) = topKey then _ else _ : M Int) s₂ = _ ∧ _
    split_ifs with hupper hwrap
    · exact refused baseKey true
    · exact absurd hwrap.1 (by decide)
    · exact refused _ false
  obtain ⟨s', hs', -, hhost⟩ := hrest
  refine ⟨[.ok (high * 4096), .error 12, .error 12], s', ?_, ?_, ?_⟩
  · intro e he
    rcases he with _ | ⟨_, _ | ⟨_, _ | ⟨_, ⟨⟩⟩⟩⟩ <;> decide
  · rw [mmap_noHint accepted (by decide) (by decide)]
    have hlower : findLowerPage (pagesLengthOf newSize) s.alloc.lastScanLocation (lastKeyOf false) s₀ =
        .ok ((bottom', page), s₀) := hlower s₀ rfl
    change allocateNoHint segsz newSize 0 (0x22 &&& 0xFFFFFFBF) (-1) 0 false (3 + 1) s.alloc.lastScanLocation false s₀ = _
    rw [allocateNoHint_turn hlower (lower.ne_zero le_rfl hrun), bind_run _ hplaced]
    change (if pageAddress topKey ≤ high * 4096 then _ else _ : M Int) s₁ = _
    rw [if_pos habove, bind_run _ hkept, hs']
  · intro hsame
    rw [hhost] at hsame
    have hin : high * 4096 / 4096 ≤ high ∧ high < high * 4096 / 4096 + pageCount newSize := by
      unfold pageCount
      omega
    have hmapped : s₂.host.pages high = some .ordinary := if_pos hin
    rw [hsame, hfree] at hmapped
    cases hmapped

end Place

/-! ## Searches -/

section Searches
variable {α β : Type} {s s' : AllocState}

/-- A program that only looks at the bitmap. -/
def LooksAtBits (m : M α) : Prop :=
  ∀ s s' a t, s'.alloc.mappedPages = s.alloc.mappedPages → m s = .ok (a, t) → m s' = .ok (a, s')

theorem LooksAtBits.pure (a : α) : LooksAtBits (pure a : M α) := by
  intro s s' b t _ h
  cases h
  rfl

theorem LooksAtBits.bind {m : M α} {f : α → M β} (hm : LooksAtBits m) (hread : Hoare.Reads m)
    (hf : ∀ a, LooksAtBits (f a)) : LooksAtBits (m >>= f) := by
  intro s s' b t hbits h
  obtain ⟨a, s₁, hms, hrest⟩ := bind_ok h
  rw [hread _ _ _ hms] at hrest
  rw [bind_run f (hm _ s' _ _ hbits hms)]
  exact hf a _ _ _ _ hbits hrest

theorem looksAtBits_testPage (page : Nat) : LooksAtBits (testPage page) := by
  intro s s' b t hbits h
  by_cases hp : page < bitmapSize
  · rw [testPage_eq hp] at h ⊢
    cases h
    rw [hbits]
  · change (if page < bitmapSize then _ else throw Halt.outOfRange : M Bool) s = _ at h
    rw [if_neg hp] at h
    cases h

theorem looksAtBits_scanDown (start n offset : Nat) : LooksAtBits (scanDown start offset n) := by
  induction n generalizing offset with
  | zero => exact LooksAtBits.pure _
  | succ n ih =>
    refine LooksAtBits.bind (looksAtBits_testPage _) (reads_testPage _) fun used => ?_
    cases used with
    | true => exact LooksAtBits.pure _
    | false => exact ih _

theorem looksAtBits_findPageRange (pages fuel start : Nat) : LooksAtBits (findPageRange pages fuel start) := by
  induction fuel generalizing start with
  | zero => exact LooksAtBits.pure _
  | succ fuel ih =>
    unfold findPageRange
    by_cases hs : baseKey ≤ start ∧ start ≤ topKey
    · rw [if_pos hs]
      refine LooksAtBits.bind (looksAtBits_scanDown _ _ _) (reads_scanDown _ _ _) fun offset => ?_
      cases offset with
      | none => exact LooksAtBits.pure _
      | some offset => exact ih _
    · rw [if_neg hs]
      exact LooksAtBits.pure _

theorem looksAtBits_findLowerPage (pages bottomPage lastKey : Nat) :
    LooksAtBits (findLowerPage pages bottomPage lastKey) := by
  refine LooksAtBits.bind (looksAtBits_findPageRange _ _ _) (reads_findPageRange _ _ _) fun lowerPage => ?_
  by_cases hl : lowerPage = 0
  · rw [if_pos hl]
    exact LooksAtBits.bind (looksAtBits_findPageRange _ _ _) (reads_findPageRange _ _ _) fun _ => LooksAtBits.pure _
  · rw [if_neg hl]
    exact LooksAtBits.pure _

end Searches

/-! ## When a call breaks its flags -/

section Remap
variable (segsz : Int → Option Nat) (s : AllocState) (oldAddress oldSize newSize flags newAddress : Nat)

/-- The kernel can carry out a fixed move whose pages are in the bitmap. -/
structure FixedMoves : Prop where
  consistent : Consistent segsz (.mremap oldAddress oldSize newSize flags newAddress) (.ok newAddress)
  freed : SyscallHandler.isDontUnmap flags = false → InBitmap (oldAddress / 4096) (pagesLengthOf oldSize)
  used : InBitmap (newAddress / 4096) (pagesLengthOf newSize)

/-- The bitmap after the bits of a move are set. -/
def movedBits (bits : Nat → Bool) : Nat → Bool :=
  fill (if SyscallHandler.isDontUnmap flags then bits else fill bits false (oldAddress / 4096) (pagesLengthOf oldSize))
    true (newAddress / 4096) (pagesLengthOf newSize)

def fixedMove : AllocState :=
  { s with
    alloc := { s.alloc with mappedPages := movedBits oldAddress oldSize newSize flags newAddress s.alloc.mappedPages }
    host := s.host.apply segsz (.mremap oldAddress oldSize newSize flags newAddress) (.ok newAddress) }

/-- The second part fails or returns: its search does not leave the bitmap, or is not made. -/
def CanFail (alloc : MemAllocator32Bit) : Prop :=
  0xFFFFFFFF < newSize ∨ ∃ x, ∀ s : AllocState, s.alloc.mappedPages = alloc.mappedPages →
    findLowerPage (pagesLengthOf newSize) alloc.lastScanLocation topKey s = .ok (x, s)

/-- A fixed move is done and then the second part can fail, or it leaves all as it was and the second part can move it. -/
def FixedBreaks : Prop :=
  let moved := fixedMove segsz s oldAddress oldSize newSize flags newAddress
  FixedMoves segsz oldAddress oldSize newSize flags newAddress ∧
    (Unchanged s moved ∧ Relocatable s.alloc newSize ∨ ¬ Unchanged s moved ∧ CanFail newSize moved.alloc)

/-- The mapping cannot grow in place or the kernel may refuse this, and there is another place. -/
def GrowBreaks : Prop :=
  let behind := oldAddress / 4096 + pagesLengthOf oldSize
  let count := pagesLengthOf newSize - pagesLengthOf oldSize
  pagesLengthOf oldSize ≤ pagesLengthOf newSize ∧ Relocatable s.alloc newSize ∧
    (Blocked s.alloc.mappedPages behind count ∨ isMayMove flags = true ∧ Extends s.alloc.mappedPages behind count)

/-- The two ways to the second part of `mremap`. -/
def RemapBreaks : Prop :=
  if isRemapFixed flags then FixedBreaks segsz s oldAddress oldSize newSize flags newAddress
  else GrowBreaks s oldAddress oldSize newSize flags

variable {segsz s oldAddress oldSize newSize flags newAddress} {r : Int} {s' : AllocState}

/-! ### The second part -/

theorem moveMapping_of_error {m : Int} (h : mmap segsz 0 newSize 0 0x22 (-1) 0 s = .ok (m, s')) (hm : m < 0) :
    moveMapping segsz oldAddress oldSize newSize flags s = .ok (m, s') := by
  unfold moveMapping
  rw [bind_run _ h, if_pos hm]
  rfl

theorem moveMapping_unplaced (low : LowTaken s.alloc.mappedPages) (hsize : newSize < 2 ^ 64)
    (hnot : ¬ Relocatable s.alloc newSize) (real : RealErrors s.answers)
    (h : moveMapping segsz oldAddress oldSize newSize flags s = .ok (r, s')) :
    s'.alloc = s.alloc ∧ s'.host = s.host ∧ r < 0 := by
  obtain ⟨m, s₁, hmap, h⟩ := bind_ok h
  obtain ⟨hm, halloc, hhost⟩ := mmap_unplaced low hsize hnot real hmap
  rw [if_pos hm] at h
  cases h
  exact ⟨halloc, hhost, hm⟩

theorem canFail_of_moveMapping (h : moveMapping segsz oldAddress oldSize newSize flags s = .ok (r, s')) :
    CanFail newSize s.alloc := by
  by_cases hlarge : 0xFFFFFFFF < newSize
  · exact .inl hlarge
  · obtain ⟨m, s₁, hmap, -⟩ := bind_ok h
    rw [mmap_noHint (accepted_of_le (not_lt.mp hlarge)) (by decide) (by decide), allocateNoHint] at hmap
    obtain ⟨x, s₂, hlower, -⟩ := bind_ok hmap
    refine .inr ⟨x, fun t hbits => ?_⟩
    exact looksAtBits_findLowerPage _ _ _ _ _ _ _ hbits hlower

variable (segsz oldAddress oldSize flags) in
theorem moveMapping_fails (hsize : newSize < 2 ^ 64) (h : CanFail newSize s.alloc) :
    ∃ answers r s', RealErrors answers ∧
      moveMapping segsz oldAddress oldSize newSize flags { s with answers } = .ok (r, s') ∧
      r < 0 ∧ s'.alloc = s.alloc ∧ s'.host = s.host := by
  by_cases hlarge : 0xFFFFFFFF < newSize
  · obtain ⟨e, he, hmap⟩ : ∃ e < 0, mmap segsz 0 newSize 0 0x22 (-1) 0 { s with answers := [] } = .ok (e, _) :=
      mmap_refused (refused_of_lt hsize hlarge)
    exact ⟨[], e, _, fun e he => absurd he List.not_mem_nil, moveMapping_of_error hmap he, he, rfl, rfl⟩
  · obtain ⟨⟨bottom', page⟩, hrun⟩ := h.resolve_left hlarge
    let s₀ : AllocState := { s with answers := [.error 12] }
    obtain ⟨s', hs', halloc, hhost⟩ : ∃ s', allocateNoHint segsz newSize 0 (0x22 &&& 0xFFFFFFBF) (-1) 0 false (1 + 1)
        s.alloc.lastScanLocation false s₀ = .ok (-12, s') ∧ s'.alloc = s₀.alloc ∧ s'.host = s₀.host :=
      allocateNoHint_refused (hrun s₀ rfl) rfl 1
    have hmap : mmap segsz 0 newSize 0 0x22 (-1) 0 s₀ = .ok (-12, s') := by
      rw [mmap_noHint (accepted_of_le (not_lt.mp hlarge)) (by decide) (by decide)]
      exact hs'
    refine ⟨[.error 12], -12, s', ?_, moveMapping_of_error hmap (by decide), by decide, halloc, hhost⟩
    intro e he
    cases List.mem_singleton.1 he
    decide

variable (segsz oldAddress oldSize flags) in
theorem moveMapping_leaks (low : LowTaken s.alloc.mappedPages) (h : Relocatable s.alloc newSize)
    (room : HighRoom s.host newSize) :
    ∃ answers r s', RealErrors answers ∧
      moveMapping segsz oldAddress oldSize newSize flags { s with answers } = .ok (r, s') ∧
      r < 0 ∧ s'.host ≠ s.host := by
  obtain ⟨answers, s', real, hmap, hhost⟩ := mmap_leaks segsz low h room
  exact ⟨answers, -12, s', real, moveMapping_of_error hmap (by decide), by decide, hhost⟩

/-! ### The first part -/

theorem mremap_fixed (hfixed : isRemapFixed flags = true) :
    mremap segsz oldAddress oldSize newSize flags newAddress s =
      (call segsz (.mremap oldAddress oldSize newSize flags newAddress) >>= fun
        | .error _ => errnoResult
        | .ok a => do
          if SyscallHandler.isDontUnmap flags = false then setFreePages (oldAddress / 4096) (pagesLengthOf oldSize)
          setUsedPages (a / 4096) (pagesLengthOf newSize)
          moveMapping segsz oldAddress oldSize newSize flags) s := by
  exact congrFun (if_pos hfixed) s

theorem setMoved_run
    (hfreed : SyscallHandler.isDontUnmap flags = false → InBitmap (oldAddress / 4096) (pagesLengthOf oldSize))
    (hused : InBitmap (newAddress / 4096) (pagesLengthOf newSize)) :
    (do if SyscallHandler.isDontUnmap flags = false then setFreePages (oldAddress / 4096) (pagesLengthOf oldSize)
        setUsedPages (newAddress / 4096) (pagesLengthOf newSize)
        moveMapping segsz oldAddress oldSize newSize flags : M Int) s =
      moveMapping segsz oldAddress oldSize newSize flags { s with alloc :=
        { s.alloc with mappedPages := movedBits oldAddress oldSize newSize flags newAddress s.alloc.mappedPages } } := by
  unfold movedBits
  cases hkeep : SyscallHandler.isDontUnmap flags with
  | true =>
    exact bind_run _ (setPages_run true _ _ _ hused)
  | false =>
    rw [if_pos rfl, if_neg (by decide), setFreePages, bind_run _ (setPages_run false _ _ _ (hfreed hkeep))]
    exact bind_run _ (setPages_run true _ _ _ hused)

theorem setMoved_ok
    (h : (do if SyscallHandler.isDontUnmap flags = false then setFreePages (oldAddress / 4096) (pagesLengthOf oldSize)
             setUsedPages (newAddress / 4096) (pagesLengthOf newSize)
             moveMapping segsz oldAddress oldSize newSize flags : M Int) s = .ok (r, s')) :
    (SyscallHandler.isDontUnmap flags = false → InBitmap (oldAddress / 4096) (pagesLengthOf oldSize)) ∧
      InBitmap (newAddress / 4096) (pagesLengthOf newSize) := by
  cases hkeep : SyscallHandler.isDontUnmap flags with
  | true =>
    rw [hkeep, if_neg (by decide)] at h
    obtain ⟨_, _, hused, -⟩ := bind_ok h
    exact ⟨fun h => absurd h (by decide), setPages_ok _ _ _ _ hused⟩
  | false =>
    rw [hkeep, if_pos rfl] at h
    obtain ⟨_, _, hfreed, h⟩ := bind_ok h
    obtain ⟨_, _, hused, -⟩ := bind_ok h
    exact ⟨fun _ => setPages_ok _ _ _ _ hfreed, setPages_ok _ _ _ _ hused⟩

theorem mremap_moves (hfixed : isRemapFixed flags = true)
    (moves : FixedMoves segsz oldAddress oldSize newSize flags newAddress) (answers : List Answer) :
    mremap segsz oldAddress oldSize newSize flags newAddress { s with answers := .ok newAddress :: answers } =
      moveMapping segsz oldAddress oldSize newSize flags
        { fixedMove segsz s oldAddress oldSize newSize flags newAddress with answers } := by
  rw [mremap_fixed hfixed, bind_run _ (call_cons rfl moves.consistent)]
  exact setMoved_run moves.freed moves.used

theorem mremap_fixed_ok (hfixed : isRemapFixed flags = true)
    (h : mremap segsz oldAddress oldSize newSize flags newAddress s = .ok (r, s')) :
    (∃ e : Nat, .error e ∈ s.answers ∧ r = -(e : Int) ∧ Unchanged s s') ∨
      isMayMove flags = true ∧ FixedMoves segsz oldAddress oldSize newSize flags newAddress ∧
        ∃ answers, (∀ a ∈ answers, a ∈ s.answers) ∧
          moveMapping segsz oldAddress oldSize newSize flags
            { fixedMove segsz s oldAddress oldSize newSize flags newAddress with answers } = .ok (r, s') := by
  rw [mremap_fixed hfixed] at h
  obtain ⟨a, s₁, hcall, hrest⟩ := bind_ok h
  obtain ⟨rest, hanswers, hc, hs₁⟩ := call_ok hcall
  cases a with
  | error e =>
    subst hs₁
    cases hrest
    have hhost : s.host.apply segsz (.mremap oldAddress oldSize newSize flags newAddress) (.error e) = s.host := rfl
    exact .inl ⟨e, hanswers ▸ List.mem_cons_self, rfl, rfl, hhost⟩
  | ok a =>
    obtain ⟨-, -, -, -, -, hmove, -⟩ := id hc
    obtain ⟨hmay, rfl, -⟩ := hmove hfixed
    obtain ⟨hfreed, hused⟩ := setMoved_ok hrest
    refine .inr ⟨hmay, ⟨hc, hfreed, hused⟩, rest, fun a ha => hanswers ▸ List.mem_cons_of_mem _ ha, ?_⟩
    have hmove := (setMoved_run hfreed hused).symm.trans hrest
    rw [hs₁] at hmove
    exact hmove

theorem sameOutside_inPlace (host : Host) {a : Nat}
    (hc : Consistent segsz (.mremap oldAddress oldSize newSize (withoutMayMove flags) 0) (.ok a)) :
    a = oldAddress ∧ SameOutside host
      (host.apply segsz (.mremap oldAddress oldSize newSize (withoutMayMove flags) 0) (.ok a)) (oldAddress / 4096)
      (max (pageCount oldSize) (pageCount newSize)) := by
  obtain ⟨-, -, -, -, -, -, hstay⟩ := hc
  obtain ⟨rfl, hkeep⟩ := hstay (isMayMove_withoutMayMove flags)
  refine ⟨rfl, fun p hp => ?_⟩
  change (host.remap _ _ _ _ (SyscallHandler.isDontUnmap (withoutMayMove flags))).pages p = _
  unfold Host.remap
  split_ifs with hshrink hdont
  · exact if_neg (by omega)
  · rw [hkeep] at hdont
    cases hdont
  · exact (if_neg (by omega)).trans (if_neg (by omega))

theorem mremap_shrink (hfixed : isRemapFixed flags = false) (hlt : pagesLengthOf newSize < pagesLengthOf oldSize) :
    mremap segsz oldAddress oldSize newSize flags newAddress s =
      (call segsz (.mremap oldAddress oldSize newSize (withoutMayMove flags) 0) >>= fun
        | .error _ => errnoResult
        | .ok a => do
          setFreePages (a / 4096 + pagesLengthOf newSize) (pagesLengthOf oldSize - pagesLengthOf newSize)
          return (a : Int)) s := by
  have hnot : ¬ isRemapFixed flags = true := by
    rw [hfixed]
    exact Bool.false_ne_true
  exact congrFun ((if_neg hnot).trans (if_pos hlt)) s

theorem mremap_grow (hfixed : isRemapFixed flags = false) (hge : pagesLengthOf oldSize ≤ pagesLengthOf newSize) :
    mremap segsz oldAddress oldSize newSize flags newAddress s =
      (canExtend (oldAddress / 4096 + pagesLengthOf oldSize)
          (pagesLengthOf newSize - pagesLengthOf oldSize) >>= fun extend =>
        if extend then
          call segsz (.mremap oldAddress oldSize newSize (withoutMayMove flags) 0) >>= fun
            | .error _ =>
              if isMayMove flags then moveMapping segsz oldAddress oldSize newSize flags else errnoResult
            | .ok a => do
              setUsedPages (a / 4096) (pagesLengthOf newSize)
              return (a : Int)
        else moveMapping segsz oldAddress oldSize newSize flags) s := by
  have hnot : ¬ isRemapFixed flags = true := by
    rw [hfixed]
    exact Bool.false_ne_true
  exact congrFun ((if_neg hnot).trans (if_neg (not_lt.mpr hge))) s

/-! ### Both ways -/

theorem failed_unchanged {answers : List Answer} (real : RealErrors answers) {c : KernelCall} {e : Nat} {s₁ : AllocState}
    (hcall : call segsz c { s with answers } = .ok (.error e, s₁)) (h : errnoResult s₁ = .ok (r, s')) :
    r < 0 ∧ Unchanged s s' := by
  obtain ⟨rest, hanswers, -, hs₁⟩ := call_ok hcall
  have hmem : .error e ∈ answers := by
    change answers = _ at hanswers
    rw [hanswers]
    exact List.mem_cons_self
  have hneg : -(e : Int) < 0 := Int.neg_neg_of_pos (Int.natCast_pos.mpr (real e hmem))
  subst hs₁
  cases h
  exact ⟨hneg, rfl, apply_error s.host c e⟩

theorem inPlace_stays {answers : List Answer} {a : Nat} {s₁ : AllocState} {value : Bool} {page n : Nat}
    (hcall : call segsz (.mremap oldAddress oldSize newSize (withoutMayMove flags) 0) { s with answers } = .ok (.ok a, s₁))
    (h : (do
      setPages value page n
      return (a : Int) : M Int) s₁ = .ok (r, s')) :
    r = oldAddress ∧ SameOutside s.host s'.host (oldAddress / 4096) (max (pageCount oldSize) (pageCount newSize)) := by
  obtain ⟨rest, -, hc, hs₁⟩ := call_ok hcall
  obtain ⟨rfl, hout⟩ := sameOutside_inPlace s.host hc
  obtain ⟨⟨⟩, s₂, hset, hret⟩ := bind_ok h
  rw [setPages_run _ _ _ _ (setPages_ok _ _ _ _ hset)] at hset
  cases hret
  cases hset
  rw [hs₁]
  exact ⟨rfl, hout⟩

theorem respects_fixed (low : LowTaken s.alloc.mappedPages) (hsize : newSize < 2 ^ 64) (hfixed : isRemapFixed flags = true)
    (hnot : ¬ FixedBreaks segsz s oldAddress oldSize newSize flags newAddress) :
    RespectsFlags segsz s oldAddress oldSize newSize flags newAddress := by
  intro answers real r s' h
  rcases mremap_fixed_ok hfixed h with ⟨e, he, rfl, same⟩ | ⟨hmay, moves, rest, hrest, hmove⟩
  · exact ⟨fun _ => .inl (Int.neg_neg_of_pos (Int.natCast_pos.mpr (real e he))), fun _ => same⟩
  · refine ⟨fun hno => absurd (hno.symm.trans hmay) Bool.false_ne_true, fun _ => ?_⟩
    let moved : AllocState := { fixedMove segsz s oldAddress oldSize newSize flags newAddress with answers := rest }
    by_cases same : Unchanged s moved
    · have hnone : ¬ Relocatable moved.alloc newSize := by
        intro hrel
        unfold Relocatable at hrel
        rw [same.1] at hrel
        exact hnot ⟨moves, .inl ⟨same, hrel⟩⟩
      have low' : LowTaken moved.alloc.mappedPages := same.1.symm ▸ low
      have real' : RealErrors moved.answers := fun e he => real e (hrest _ he)
      obtain ⟨halloc, hhost, -⟩ := moveMapping_unplaced low' hsize hnone real' hmove
      exact ⟨(congrArg mappedPages halloc).trans same.1, hhost.trans same.2⟩
    · have hfail : CanFail newSize moved.alloc := canFail_of_moveMapping hmove
      exact absurd ⟨moves, .inr ⟨same, hfail⟩⟩ hnot

theorem respects_shrink (hfixed : isRemapFixed flags = false) (hlt : pagesLengthOf newSize < pagesLengthOf oldSize) :
    RespectsFlags segsz s oldAddress oldSize newSize flags newAddress := by
  intro answers real r s' h
  rw [mremap_shrink hfixed hlt] at h
  obtain ⟨a, s₁, hcall, hrest⟩ := bind_ok h
  cases a with
  | error e =>
    obtain ⟨hneg, same⟩ := failed_unchanged real hcall hrest
    exact ⟨fun _ => .inl hneg, fun _ => same⟩
  | ok a =>
    obtain ⟨hr, hout⟩ := inPlace_stays hcall hrest
    exact ⟨fun _ => .inr ⟨hr, hout⟩, fun hneg => absurd hneg (by omega)⟩

theorem respects_grow (low : LowTaken s.alloc.mappedPages) (hsize : newSize < 2 ^ 64) (hfixed : isRemapFixed flags = false)
    (hge : pagesLengthOf oldSize ≤ pagesLengthOf newSize) (hnot : ¬ GrowBreaks s oldAddress oldSize newSize flags) :
    RespectsFlags segsz s oldAddress oldSize newSize flags newAddress := by
  intro answers real r s' h
  have moved : ∀ s₁ : AllocState, s₁.alloc = s.alloc → s₁.host = s.host → RealErrors s₁.answers →
      moveMapping segsz oldAddress oldSize newSize flags s₁ = .ok (r, s') → ¬ Relocatable s.alloc newSize →
      (isMayMove flags = false → r < 0 ∨ r = oldAddress ∧
        SameOutside s.host s'.host (oldAddress / 4096) (max (pageCount oldSize) (pageCount newSize))) ∧
      (r < 0 → Unchanged s s') := by
    intro s₁ halloc hhost real₁ hmove hnone
    obtain ⟨halloc', hhost', hneg⟩ :=
      moveMapping_unplaced (halloc.symm ▸ low) hsize (halloc.symm ▸ hnone) real₁ hmove
    exact ⟨fun _ => .inl hneg, fun _ => ⟨by rw [halloc', halloc], hhost'.trans hhost⟩⟩
  rw [mremap_grow hfixed hge] at h
  rcases canExtend_spec (s := { s with answers }) (pagesLengthOf newSize - pagesLengthOf oldSize)
    (oldAddress / 4096 + pagesLengthOf oldSize) with ⟨extends', hrun⟩ | ⟨blocked, hrun⟩ | ⟨-, -, hrun⟩
  · rw [bind_run _ hrun, if_pos rfl] at h
    obtain ⟨a, s₁, hcall, hrest⟩ := bind_ok h
    cases a with
    | ok a =>
      obtain ⟨hr, hout⟩ := inPlace_stays hcall hrest
      exact ⟨fun _ => .inr ⟨hr, hout⟩, fun hneg => absurd hneg (by omega)⟩
    | error e =>
      split_ifs at hrest with hmay
      · have hnone : ¬ Relocatable s.alloc newSize := fun hrel => hnot ⟨hge, hrel, .inr ⟨hmay, extends'⟩⟩
        obtain ⟨rest, hanswers, -, hs₁⟩ := call_ok hcall
        change answers = _ at hanswers
        refine moved s₁ (by rw [hs₁]) ?_ ?_ hrest hnone
        · rw [hs₁]
          dsimp only
          exact apply_error s.host _ e
        · rw [hs₁]
          exact fun e' he' => real e' (hanswers ▸ List.mem_cons_of_mem _ he')
      · obtain ⟨hneg, same⟩ := failed_unchanged real hcall hrest
        exact ⟨fun _ => .inl hneg, fun _ => same⟩
  · rw [bind_run _ hrun, if_neg Bool.false_ne_true] at h
    exact moved { s with answers } rfl rfl real h fun hrel => hnot ⟨hge, hrel, .inl blocked⟩
  · change (canExtend _ _ { s with answers } >>= fun x => _) = _ at h
    rw [hrun] at h
    cases h

theorem breaks_of_run {answers : List Answer} (real : RealErrors answers)
    (h : mremap segsz oldAddress oldSize newSize flags newAddress { s with answers } = .ok (r, s')) (hneg : r < 0)
    (changed : ¬ Unchanged s s') : ¬ RespectsFlags segsz s oldAddress oldSize newSize flags newAddress :=
  fun respects => changed ((respects answers real r s' h).2 hneg)

theorem fixedBreaks_breaks (low : LowTaken s.alloc.mappedPages) (hsize : newSize < 2 ^ 64)
    (room : newSize ≤ 0xFFFFFFFF → HighRoom s.host newSize) (hfixed : isRemapFixed flags = true)
    (h : FixedBreaks segsz s oldAddress oldSize newSize flags newAddress) :
    ¬ RespectsFlags segsz s oldAddress oldSize newSize flags newAddress := by
  let moved : AllocState := fixedMove segsz s oldAddress oldSize newSize flags newAddress
  have hreal : ∀ answers, RealErrors answers → RealErrors (.ok newAddress :: answers) := by
    intro answers real e he
    rcases List.mem_cons.1 he with h | he
    · cases h
    · exact real e he
  obtain ⟨moves, ⟨same, hrel⟩ | ⟨changed, hfail⟩⟩ := h
  · have hrel' : Relocatable moved.alloc newSize := by
      unfold Relocatable
      rw [same.1]
      exact hrel
    have hroom : HighRoom moved.host newSize := same.2.symm ▸ room hrel.2.1
    have hlow : LowTaken moved.alloc.mappedPages := same.1.symm ▸ low
    obtain ⟨answers, r, s', real, hrun, hneg, hhost⟩ := moveMapping_leaks segsz oldAddress oldSize flags hlow hrel' hroom
    refine breaks_of_run (hreal answers real) ((mremap_moves hfixed moves answers).trans hrun) hneg ?_
    exact fun h => hhost (h.2.trans same.2.symm)
  · obtain ⟨answers, r, s', real, hrun, hneg, halloc, hhost⟩ :=
      moveMapping_fails segsz oldAddress oldSize flags hsize hfail
    refine breaks_of_run (hreal answers real) ((mremap_moves hfixed moves answers).trans hrun) hneg ?_
    exact fun h => changed ⟨(congrArg mappedPages halloc).symm.trans h.1, hhost.symm.trans h.2⟩

theorem Blocked.not_extends {bits : Nat → Bool} {page n : Nat} (h : Blocked bits page n) : ¬ Extends bits page n := by
  obtain ⟨i, hi, -, htaken, -⟩ := h
  exact fun free => Bool.false_ne_true ((free i hi).2.symm.trans htaken)

theorem growBreaks_breaks (low : LowTaken s.alloc.mappedPages)
    (room : newSize ≤ 0xFFFFFFFF → HighRoom s.host newSize) (hfixed : isRemapFixed flags = false)
    (h : GrowBreaks s oldAddress oldSize newSize flags) :
    ¬ RespectsFlags segsz s oldAddress oldSize newSize flags newAddress := by
  obtain ⟨hge, hrel, hway⟩ := h
  let s₀ : AllocState := { s with errno := 12 }
  let c : KernelCall := .mremap oldAddress oldSize newSize (withoutMayMove flags) 0
  rcases hway with blocked | ⟨hmay, extends'⟩
  · obtain ⟨answers, r, s', real, hmove, hneg, hhost⟩ :=
      moveMapping_leaks segsz oldAddress oldSize flags low hrel (room hrel.2.1)
    refine breaks_of_run real ?_ hneg fun h => hhost h.2
    rw [mremap_grow hfixed hge]
    rcases canExtend_spec (s := { s with answers }) (pagesLengthOf newSize - pagesLengthOf oldSize)
      (oldAddress / 4096 + pagesLengthOf oldSize) with ⟨extends', -⟩ | ⟨-, hrun⟩ | ⟨-, hnot, -⟩
    · exact absurd extends' blocked.not_extends
    · rw [bind_run _ hrun, if_neg Bool.false_ne_true, hmove]
    · exact absurd blocked hnot
  · obtain ⟨answers, r, s', real, hmove, hneg, hhost⟩ :=
      moveMapping_leaks segsz (s := s₀) oldAddress oldSize flags low hrel (room hrel.2.1)
    have real' : RealErrors (.error 12 :: answers) := by
      intro e he
      rcases List.mem_cons.1 he with h | he
      · cases h
        decide
      · exact real e he
    refine breaks_of_run real' ?_ hneg fun h => hhost h.2
    rw [mremap_grow hfixed hge]
    rcases canExtend_spec (s := { s with answers := .error 12 :: answers }) (pagesLengthOf newSize - pagesLengthOf oldSize)
      (oldAddress / 4096 + pagesLengthOf oldSize) with ⟨-, hrun⟩ | ⟨blocked, -⟩ | ⟨hnot, -, -⟩
    · have hcall : call segsz c { s with answers := .error 12 :: answers } =
          .ok (.error 12, { s with answers, errno := 12 }) := by
        have hc : Consistent segsz c (.error 12) := trivial
        rfl
      rw [bind_run _ hrun, if_pos rfl, bind_run _ hcall]
      change (if isMayMove flags then _ else _ : M Int) _ = _
      rw [if_pos hmay, hmove]
    · exact absurd extends' blocked.not_extends
    · exact absurd extends' hnot

end Remap

/-! ## The result -/

/-- `mremap` respects its flags and undoes what it did if and only if it does not reach its second part with a place to go
to. -/
theorem mremap_respects_iff (segsz : Int → Option Nat) (s : AllocState) (low : LowTaken s.alloc.mappedPages)
    (oldAddress oldSize newSize flags newAddress : Nat) (hsize : newSize < 2 ^ 64)
    (room : newSize ≤ 0xFFFFFFFF → HighRoom s.host newSize) :
    RespectsFlags segsz s oldAddress oldSize newSize flags newAddress ↔
      ¬ RemapBreaks segsz s oldAddress oldSize newSize flags newAddress := by
  unfold RemapBreaks
  cases hfixed : isRemapFixed flags with
  | true =>
    exact ⟨fun respects breaks => fixedBreaks_breaks low hsize room hfixed breaks respects,
      respects_fixed low hsize hfixed⟩
  | false =>
    rcases Nat.lt_or_ge (pagesLengthOf newSize) (pagesLengthOf oldSize) with hlt | hge
    · exact iff_of_true (respects_shrink hfixed hlt) fun breaks => absurd breaks.1 (not_le.mpr hlt)
    · exact ⟨fun respects breaks => growBreaks_breaks low room hfixed breaks respects,
        respects_grow low hsize hfixed hge⟩

/-- A page that is mapped and the one behind it as well. -/
def twoPages : AllocState where
  alloc := ⟨fun page => reserved page || (page = 100 || page = 101), fun _ => none, 300⟩
  host := ⟨fun page => if page = 100 ∨ page = 101 then some .ordinary else none⟩
  errno := 0
  answers := []

theorem twoPages_low : LowTaken twoPages.alloc.mappedPages := by
  intro page h
  simp [twoPages, reserved, h]

theorem mremap_respects_shrink : RespectsFlags (fun _ => none) twoPages 0x64000 0x2000 0x1000 0 0 := by
  refine (mremap_respects_iff (fun _ => none) twoPages twoPages_low 0x64000 0x2000 0x1000 0 0 (by decide) fun _ => ?_).2 ?_
  · exact ⟨2 ^ 20, le_rfl, by decide, rfl⟩
  · exact fun breaks => absurd breaks.1 (by decide)

/-- The first page is to grow in place, without `MREMAP_MAYMOVE`: it is moved. -/
theorem mremap_moves_unasked : ¬ RespectsFlags (fun _ => none) twoPages 0x64000 0x1000 0x2000 0 0 := by
  intro respects
  have moved : ∃ s', mremap (fun _ => none) 0x64000 0x1000 0x2000 0 0
      { twoPages with answers := [.ok 0x12A000, .ok 0x12A000] } = .ok (0x12A000, s') := ⟨_, rfl⟩
  obtain ⟨s', hrun⟩ := moved
  have real : RealErrors [.ok 0x12A000, .ok 0x12A000] := by
    intro e he
    simp at he
  rcases (respects _ real _ s' hrun).1 (by decide) with hneg | ⟨hsame, -⟩
  · exact absurd hneg (by decide)
  · exact absurd hsame (by decide)

end FexEmu.LinuxSyscalls.MemAllocator32Bit
