import FexEmu.LinuxSyscalls.PageSearch
/-!
# The search for a place ends

`mmap` and `shmat` without an address try one free run after the other. The cursor of `shmat` goes up although the search is
downwards.
-/
namespace FexEmu.LinuxSyscalls.MemAllocator32Bit

/-! ## What a search from a cursor finds -/

/-- `FindPageRange_TopDown` returns this page from a start: the one below the highest run, or zero. -/
def Found (bits : Nat → Bool) (pages start page : Nat) : Prop :=
  (∃ top, page = top - pages ∧ page ≠ 0 ∧ pages ≤ top ∧ baseKey ≤ top ∧ start ≤ topKey ∧
      HighestRun bits pages start top) ∨
    (page = 0 ∧ ∀ top, baseKey ≤ top → top ≤ start → start ≤ topKey → ¬ FreeRun bits pages top)

section Found
variable {bits : Nat → Bool} {pages start page : Nat}

theorem freeRun_zero (bits : Nat → Bool) (top : Nat) : FreeRun bits 0 top :=
  ⟨Nat.zero_le _, fun i hi => absurd hi (Nat.not_lt_zero i)⟩

theorem Found.bounds (h : Found bits pages start page) (hne : page ≠ 0) :
    baseKey ≤ page + pages ∧ page + pages ≤ start ∧ start ≤ topKey ∧ FreeRun bits pages (page + pages) := by
  rcases h with ⟨top, rfl, -, hle, hbase, htop, high⟩ | ⟨hzero, -⟩
  · rw [Nat.sub_add_cancel hle]
    exact ⟨hbase, high.le, htop, high.run⟩
  · exact absurd hzero hne

theorem Found.at_run (h : Found bits pages start page) (hbase : baseKey ≤ start) (htop : start ≤ topKey)
    (run : FreeRun bits pages start) : page ≠ 0 ∧ page + pages = start := by
  rcases h with ⟨top, rfl, hne, hle, -, -, high⟩ | ⟨-, hnone⟩
  · have hsame : ¬ top < start := fun hlt => high.highest start hlt le_rfl run
    have hts := high.le
    exact ⟨hne, by omega⟩
  · exact absurd run (hnone start hbase le_rfl htop)

theorem Found.eq_zero_iff (h : Found bits pages start page) (htop : start ≤ topKey) :
    page = 0 ↔ ∀ top, baseKey ≤ top → top ≤ start → ¬ FreeRun bits pages top := by
  constructor
  · rintro rfl top hbase hts
    rcases h with ⟨_, -, hne, -⟩ | ⟨-, hnone⟩
    · exact absurd rfl hne
    · exact hnone top hbase hts htop
  · intro hnone
    by_contra hne
    obtain ⟨hbase, hps, -, run⟩ := h.bounds hne
    exact hnone _ hbase hps run

theorem findPageRange_zero (s : AllocState) (hbase : baseKey ≤ start) (htop : start ≤ topKey) :
    findPageRange 0 (start + 1) start s = .ok (start, s) := by
  have hsub : sub64 start 0 = start := sub64_of_le (Nat.zero_le _) (by unfold topKey at htop; omega)
  rw [findPageRange, if_pos ⟨hbase, htop⟩]
  change Except.ok (sub64 start 0, s) = _
  rw [hsub]

theorem findPageRange_below (hbase : start < baseKey) (s : AllocState) :
    findPageRange pages (start + 1) start s = .ok (0, s) := by
  rw [findPageRange, if_neg fun hs => absurd hs.1 (not_le.mpr hbase)]
  rfl

theorem exists_found (low : LowTaken bits) (pages start : Nat) :
    ∃ page, Found bits pages start page ∧
      ∀ s : AllocState, s.alloc.mappedPages = bits → findPageRange pages (start + 1) start s = .ok (page, s) := by
  by_cases hbase : baseKey ≤ start
  · by_cases htop : start ≤ topKey
    · rcases Nat.eq_zero_or_pos pages with rfl | hpages
      · refine ⟨start, .inl ⟨start, rfl, ?_, Nat.zero_le _, hbase, htop, le_rfl, freeRun_zero bits start, ?_⟩, ?_⟩
        · unfold baseKey at hbase
          omega
        · omega
        · intro s _
          exact findPageRange_zero s hbase htop
      · by_cases hrun : ∃ top, HighestRun bits pages start top
        · obtain ⟨top, high⟩ := hrun
          have habove := high.run.above low hpages
          refine ⟨top - pages, .inl ⟨top, rfl, by omega, by omega, ?_, htop, high⟩, ?_⟩
          · unfold baseKey
            omega
          · rintro s rfl
            rcases findPageRange_spec low hpages (start + 1) start (Nat.lt_succ_self _) htop with
              ⟨top', hok, high'⟩ | ⟨-, hnone⟩
            · rw [hok, high'.unique high]
            · exact absurd high.run (hnone top high.le)
        · refine ⟨0, .inr ⟨rfl, ?_⟩, ?_⟩
          · intro top _ hts _ run
            let s : AllocState := ⟨⟨bits, fun _ => none, 0⟩, ⟨fun _ => none⟩, 0, []⟩
            rcases findPageRange_spec (s := s) low hpages (start + 1) start (Nat.lt_succ_self _) htop with
              ⟨top', -, high'⟩ | ⟨-, hnone⟩
            · exact hrun ⟨top', high'⟩
            · exact hnone top hts run
          · rintro s rfl
            rcases findPageRange_spec low hpages (start + 1) start (Nat.lt_succ_self _) htop with
              ⟨top', -, high'⟩ | ⟨hok, -⟩
            · exact absurd ⟨top', high'⟩ hrun
            · exact hok
    · refine ⟨0, .inr ⟨rfl, fun _ _ _ h => absurd h htop⟩, fun s _ => ?_⟩
      exact findPageRange_above (not_le.mp htop)
  · refine ⟨0, .inr ⟨rfl, fun _ h hts _ => absurd (h.trans hts) hbase⟩, fun s _ => ?_⟩
    exact findPageRange_below (not_le.mp hbase) s

end Found

/-! ## A turn -/

/-- `findLowerPage` leaves this cursor and finds this page. -/
def FoundLower (bits : Nat → Bool) (pages bottom lastKey bottom' page : Nat) : Prop :=
  (page ≠ 0 ∧ bottom' = bottom ∧ Found bits pages bottom page) ∨
    (Found bits pages bottom 0 ∧ bottom' = lastKey ∧ Found bits pages lastKey page)

section Turn
variable {bits : Nat → Bool} {pages bottom lastKey : Nat}

theorem exists_foundLower (low : LowTaken bits) (pages bottom lastKey : Nat) :
    ∃ bottom' page, FoundLower bits pages bottom lastKey bottom' page ∧
      ∀ s : AllocState, s.alloc.mappedPages = bits →
        findLowerPage pages bottom lastKey s = .ok ((bottom', page), s) := by
  obtain ⟨page, found, hrun⟩ := exists_found low pages bottom
  by_cases hzero : page = 0
  · subst hzero
    obtain ⟨page', found', hrun'⟩ := exists_found low pages lastKey
    refine ⟨lastKey, page', .inr ⟨found, rfl, found'⟩, fun s hs => ?_⟩
    change (findPageRange pages (bottom + 1) bottom s >>= fun x => _) = _
    rw [hrun s hs]
    change (findPageRange pages (lastKey + 1) lastKey s >>= fun x => _) = _
    rw [hrun' s hs]
    rfl
  · refine ⟨bottom, page, .inl ⟨hzero, rfl, found⟩, fun s hs => ?_⟩
    change (findPageRange pages (bottom + 1) bottom s >>= fun x => _) = _
    rw [hrun s hs]
    change (if page = 0 then _ else pure (bottom, page) : M (Nat × Nat)) s = _
    rw [if_neg hzero]
    rfl

theorem FoundLower.found {bottom' page : Nat} (h : FoundLower bits pages bottom lastKey bottom' page) :
    Found bits pages bottom' page := by
  rcases h with ⟨-, rfl, found⟩ | ⟨-, rfl, found⟩
  · exact found
  · exact found

end Turn

/-- The run has a state after it, or an answer was none that the kernel gives. -/
def Returned {α : Type} (r : Except Halt (α × AllocState)) : Prop := r = .error .inconsistent ∨ ∃ x, r = .ok x

/-- For every sequence of answers, the call returns after finitely many of them. -/
def Ends {α : Type} (m : M α) (s : AllocState) : Prop :=
  ∀ answers : Nat → Answer, ∃ n, Returned (m { s with answers := (List.range n).map answers })

def errnoAfter (errno : Nat) : Answer → Nat
  | .error e => e
  | .ok _ => errno

section Calls
variable {segsz : Int → Option Nat} {c : KernelCall} {s : AllocState} {α β : Type}

theorem returned_ok (x : α × AllocState) : Returned (.ok x) := .inr ⟨x, rfl⟩

theorem not_returned_noAnswer : ¬ Returned (.error .noAnswer : Except Halt (α × AllocState)) := by
  rintro (h | ⟨x, h⟩) <;> cases h

theorem returned_bind {m : M α} {f : α → M β} (h : Returned (m s))
    (hf : ∀ a s', m s = .ok (a, s') → Returned (f a s')) : Returned ((m >>= f) s) := by
  change Returned (m s >>= fun x => f x.1 x.2)
  rcases h with h | ⟨x, h⟩
  · rw [h]
    exact .inl rfl
  · rw [h]
    exact hf x.1 x.2 h

theorem call_nil (h : s.answers = []) : call segsz c s = .error .noAnswer := by
  rw [call, bind_run _ rfl, h]
  rfl

theorem call_cons {a : Answer} {rest : List Answer} (h : s.answers = a :: rest) (hc : Consistent segsz c a) :
    call segsz c s = .ok (a, { s with
      host := s.host.apply segsz c a, answers := rest, errno := errnoAfter s.errno a }) := by
  rw [call, bind_run _ rfl, h]
  dsimp only
  rw [if_pos hc]
  rfl

theorem call_inconsistent {a : Answer} {rest : List Answer} (h : s.answers = a :: rest) (hc : ¬ Consistent segsz c a) :
    call segsz c s = .error .inconsistent := by
  rw [call, bind_run _ rfl, h]
  dsimp only
  rw [if_neg hc]
  rfl

variable (segsz c) in
theorem returned_call (h : 1 ≤ s.answers.length) :
    Returned (call segsz c s) ∧ ∀ a s', call segsz c s = .ok (a, s') →
      s'.alloc = s.alloc ∧ s'.answers.length + 1 = s.answers.length := by
  cases hs : s.answers with
  | nil =>
    rw [hs] at h
    cases h
  | cons b rest =>
    by_cases hc : Consistent segsz c b
    · rw [call_cons hs hc]
      refine ⟨returned_ok _, fun a s' hok => ?_⟩
      cases hok
      exact ⟨rfl, rfl⟩
    · rw [call_inconsistent hs hc]
      exact ⟨.inl rfl, fun a s' hok => by cases hok⟩

theorem returned_setPages (value : Bool) (n : Nat) :
    ∀ page s, page + n ≤ bitmapSize → Returned (setPages value page n s) := by
  induction n with
  | zero =>
    intro page s _
    exact returned_ok _
  | succ n ih =>
    intro page s h
    refine returned_bind ?_ fun _ s' _ => ih (page + 1) s' (by omega)
    unfold setPage
    rw [if_pos (by omega)]
    exact returned_ok _

end Calls

/-! ## The turns of `mmap` -/

section AllocateNoHint
variable (segsz : Int → Option Nat) (length prot flags : Nat) (fd offset : Int) (map32Bit : Bool)

/-- What a turn does after a mapping that is refused. -/
def restartNoHint (fuel bottomPage lowerPage : Nat) (wrapped : Bool) : M Int := do
  let s ← get
  if add64 lowerPage (pagesLengthOf length) = topKey then
    allocateNoHint segsz length prot flags fd offset map32Bit fuel baseKey true
  else if wrapped ∧ s.alloc.lastScanLocation ≤ lowerPage then errnoResult
  else allocateNoHint segsz length prot flags fd offset map32Bit fuel (sub64 bottomPage 1) wrapped

/-- The page that the search of `mmap` starts from again. -/
def lastKeyOf (map32Bit : Bool) : Nat := if map32Bit then topKey32Bit else topKey

variable {segsz length prot flags fd offset map32Bit}
variable {s : AllocState} {bottom bottom' page : Nat} {wrapped : Bool}

theorem lastKeyOf_le (map32Bit : Bool) : lastKeyOf map32Bit ≤ topKey := by
  cases map32Bit
  · exact le_rfl
  · exact (by decide : topKey32Bit ≤ topKey)

theorem allocateNoHint_none
    (hlower : findLowerPage (pagesLengthOf length) bottom (lastKeyOf map32Bit) s = .ok ((bottom', 0), s)) (fuel : Nat) :
    allocateNoHint segsz length prot flags fd offset map32Bit (fuel + 1) bottom wrapped s = .ok (-eNOMEM, s) := by
  change (findLowerPage (pagesLengthOf length) bottom (lastKeyOf map32Bit) s >>= fun x => _) = _
  rw [hlower]
  rfl

theorem allocateNoHint_turn
    (hlower : findLowerPage (pagesLengthOf length) bottom (lastKeyOf map32Bit) s = .ok ((bottom', page), s))
    (hne : page ≠ 0) (fuel : Nat) :
    allocateNoHint segsz length prot flags fd offset map32Bit (fuel + 1) bottom wrapped s =
      (call segsz (.mmap (pageAddress page) length prot (flags ||| 0x100000) fd offset) >>= fun
        | .error e =>
          if e = eEXIST then restartNoHint segsz length prot flags fd offset map32Bit fuel bottom' page wrapped
          else errnoResult
        | .ok a =>
          if pageAddress topKey ≤ a then
            call segsz (.munmap a length) >>= fun _ =>
              restartNoHint segsz length prot flags fd offset map32Bit fuel bottom' page wrapped
          else do
            modifyAlloc fun alloc => { alloc with lastScanLocation := page }
            setUsedPages page (pagesLengthOf length)
            return (a : Int)) s := by
  change (findLowerPage (pagesLengthOf length) bottom (lastKeyOf map32Bit) s >>= fun x => _) = _
  rw [hlower]
  change (if page = 0 then _ else _ : M Int) s = _
  rw [if_neg hne]
  rfl

variable (segsz length prot flags fd offset map32Bit) in
/-- From this cursor, `n` answers suffice. -/
def EndsWithin (alloc : MemAllocator32Bit) (n bottom : Nat) (wrapped : Bool) : Prop :=
  ∀ s fuel, s.alloc = alloc → n ≤ s.answers.length → n < fuel →
    Returned (allocateNoHint segsz length prot flags fd offset map32Bit fuel bottom wrapped s)

variable {alloc : MemAllocator32Bit}

theorem FoundLower.bounds {bits : Nat → Bool} {pages lastKey : Nat} (h : FoundLower bits pages bottom lastKey bottom' page)
    (hne : page ≠ 0) :
    baseKey ≤ page + pages ∧ page + pages ≤ bottom' ∧ bottom' ≤ topKey ∧ FreeRun bits pages (page + pages) :=
  h.found.bounds hne

theorem add64_bound {pages : Nat} (h : page + pages ≤ topKey) : add64 page pages = page + pages := by
  apply add64_of_lt
  unfold topKey at h
  omega

theorem endsWithin_turn (low : LowTaken alloc.mappedPages) {n : Nat}
    (hnext : ∀ bottom' page,
      FoundLower alloc.mappedPages (pagesLengthOf length) bottom (lastKeyOf map32Bit) bottom' page →
      page ≠ 0 → if page + pagesLengthOf length = topKey
        then EndsWithin segsz length prot flags fd offset map32Bit alloc n baseKey true
        else wrapped = true ∧ alloc.lastScanLocation ≤ page ∨
          EndsWithin segsz length prot flags fd offset map32Bit alloc n (bottom' - 1) wrapped) :
    EndsWithin segsz length prot flags fd offset map32Bit alloc (n + 2) bottom wrapped := by
  intro s fuel hs hanswers hfuel
  obtain ⟨fuel, rfl⟩ : ∃ f, fuel = f + 1 := ⟨fuel - 1, by omega⟩
  obtain ⟨bottom', page, lower, hrun⟩ := exists_foundLower low (pagesLengthOf length) bottom (lastKeyOf map32Bit)
  have hlower := hrun s (by rw [hs])
  by_cases hne : page = 0
  · subst hne
    rw [allocateNoHint_none hlower]
    exact returned_ok _
  obtain ⟨hbase, hbottom, htop, -⟩ := lower.bounds hne
  have hnext := hnext bottom' page lower hne
  -- what follows a refused run: below it, or once from the top
  have restart : ∀ s', s'.alloc = alloc → n ≤ s'.answers.length →
      Returned (restartNoHint segsz length prot flags fd offset map32Bit fuel bottom' page wrapped s') := by
    intro s' hs' hn
    change Returned ((if add64 page (pagesLengthOf length) = topKey then _ else _ : M Int) s')
    rw [add64_bound (hbottom.trans htop)]
    by_cases hupper : page + pagesLengthOf length = topKey
    · rw [if_pos hupper] at hnext ⊢
      exact hnext s' fuel hs' hn (by omega)
    · rw [if_neg hupper] at hnext ⊢
      by_cases hend : wrapped = true ∧ s'.alloc.lastScanLocation ≤ page
      · rw [if_pos hend]
        exact returned_ok _
      · rw [if_neg hend, sub64_of_le (by unfold baseKey at hbase; omega) (by unfold topKey at htop; omega)]
        rcases hnext with hend' | hnext
        · rw [hs'] at hend
          exact absurd hend' hend
        · exact hnext s' fuel hs' hn (by omega)
  rw [allocateNoHint_turn hlower hne]
  obtain ⟨hcall, hafter⟩ := returned_call segsz
    (.mmap (pageAddress page) length prot (flags ||| 0x100000) fd offset) (s := s) (by omega)
  refine returned_bind hcall ?_
  intro a s' ha
  obtain ⟨hs', hlen⟩ := hafter a s' ha
  cases a with
  | error e =>
    dsimp only
    by_cases hexist : e = eEXIST
    · rw [if_pos hexist]
      exact restart s' (hs'.trans hs) (by omega)
    · rw [if_neg hexist]
      exact returned_ok _
  | ok a =>
    dsimp only
    -- the kernel may place it above the 32-bit range, and then the mapping is taken back
    by_cases habove : pageAddress topKey ≤ a
    · rw [if_pos habove]
      obtain ⟨hcall, hafter'⟩ := returned_call segsz (.munmap a length) (s := s') (by omega)
      refine returned_bind hcall ?_
      intro b s'' hb
      obtain ⟨hs'', hlen'⟩ := hafter' b s'' hb
      exact restart s'' (hs''.trans (hs'.trans hs)) (by omega)
    · rw [if_neg habove]
      refine returned_bind (returned_ok _) fun _ s'' _ => ?_
      refine returned_bind (returned_setPages true _ page s'' ?_) fun _ _ _ => returned_ok _
      have hfits := hbottom.trans htop
      unfold topKey at hfits
      unfold bitmapSize
      omega

theorem EndsWithin.mono {n m : Nat} (h : EndsWithin segsz length prot flags fd offset map32Bit alloc n bottom wrapped)
    (hle : n ≤ m) : EndsWithin segsz length prot flags fd offset map32Bit alloc m bottom wrapped :=
  fun s fuel hs hanswers hfuel => h s fuel hs (hle.trans hanswers) (lt_of_le_of_lt hle hfuel)

end AllocateNoHint

/-- The search wraps around at the top page and gives up at the lowest one. -/
structure GivesUp (alloc : MemAllocator32Bit) (pages : Nat) (map32Bit : Bool) : Prop where
  all : map32Bit = false
  top : FreeRun alloc.mappedPages pages topKey
  base : FreeRun alloc.mappedPages pages baseKey
  last : alloc.lastScanLocation ≤ baseKey - pages

/-- No run is free up to a page. -/
def NoRun (bits : Nat → Bool) (pages lastKey : Nat) : Prop :=
  ∀ top, baseKey ≤ top → top ≤ lastKey → ¬ FreeRun bits pages top

section Outcome
variable {segsz : Int → Option Nat} {length prot flags : Nat} {fd offset : Int} {map32Bit : Bool}
variable {alloc : MemAllocator32Bit}

theorem endsWithin_of_givesUp (low : LowTaken alloc.mappedPages) (h : GivesUp alloc (pagesLengthOf length) map32Bit) :
    EndsWithin segsz length prot flags fd offset map32Bit alloc 6 alloc.lastScanLocation false := by
  obtain ⟨rfl, top, base, last⟩ := h
  have hbaseTop : baseKey < topKey := by decide
  have fromBase : ∀ {bottom' page}, FoundLower alloc.mappedPages (pagesLengthOf length) baseKey topKey bottom' page →
      bottom' = baseKey ∧ page + pagesLengthOf length = baseKey := by
    intro bottom' page lower
    rcases lower with ⟨-, rfl, found⟩ | ⟨found, -, -⟩
    · exact ⟨rfl, (found.at_run le_rfl hbaseTop.le base).2⟩
    · exact absurd rfl (found.at_run le_rfl hbaseTop.le base).1
  have atBase : EndsWithin segsz length prot flags fd offset false alloc 2 baseKey true := by
    apply endsWithin_turn low
    intro bottom' page lower hne
    obtain ⟨-, hpage⟩ := fromBase lower
    rw [if_neg (by omega)]
    exact .inl ⟨rfl, by omega⟩
  have below : ∀ bottom < baseKey, EndsWithin segsz length prot flags fd offset false alloc 4 bottom false := by
    intro bottom hbottom
    apply endsWithin_turn low
    intro bottom' page lower hne
    rcases lower with ⟨-, -, found⟩ | ⟨-, -, found⟩
    · obtain ⟨hbase, hle, -, -⟩ := found.bounds hne
      omega
    · have hupper : page + pagesLengthOf length = topKey := (found.at_run hbaseTop.le le_rfl top).2
      rw [if_pos hupper]
      exact atBase
  rcases Nat.lt_or_ge alloc.lastScanLocation baseKey with hlt | hge
  · exact (below _ hlt).mono (by decide)
  · have hlast : alloc.lastScanLocation = baseKey := by omega
    rw [hlast]
    apply endsWithin_turn low
    intro bottom' page lower hne
    obtain ⟨rfl, hpage⟩ := fromBase lower
    rw [if_neg (by omega)]
    exact .inr (below _ (by decide))

theorem FoundLower.eq_zero {bits : Nat → Bool} {pages bottom lastKey bottom' page : Nat}
    (h : FoundLower bits pages bottom lastKey bottom' page) (hbound : bottom ≤ lastKey ∨ topKey < bottom)
    (none : NoRun bits pages lastKey) : page = 0 := by
  by_contra hne
  obtain ⟨hbase, hbottom, htop, run⟩ := h.bounds hne
  have hle : bottom' ≤ lastKey := by
    rcases h with ⟨-, rfl, -⟩ | ⟨-, rfl, -⟩
    · rcases hbound with hle | habove
      · exact hle
      · omega
    · exact le_rfl
  exact none _ hbase (hbottom.trans hle) run

theorem endsWithin_of_noRun (low : LowTaken alloc.mappedPages) {bottom : Nat} {wrapped : Bool}
    (hbound : bottom ≤ lastKeyOf map32Bit ∨ topKey < bottom)
    (none : NoRun alloc.mappedPages (pagesLengthOf length) (lastKeyOf map32Bit)) :
    EndsWithin segsz length prot flags fd offset map32Bit alloc 2 bottom wrapped := by
  apply endsWithin_turn low
  intro bottom' page lower hne
  exact absurd (lower.eq_zero hbound none) hne

/-- What stays true while the search goes on. -/
structure GoesOn (bits : Nat → Bool) (pages lastKey bottom : Nat) (wrapped : Bool) : Prop where
  bound : bottom ≤ lastKey ∨ topKey < bottom
  wrap : wrapped = true → bottom ≤ baseKey ∧ lastKey = topKey ∧ FreeRun bits pages topKey

theorem FoundLower.ne_zero {bits : Nat → Bool} {pages bottom lastKey bottom' page : Nat}
    (h : FoundLower bits pages bottom lastKey bottom' page) (hkey : lastKey ≤ topKey)
    (some : ¬ NoRun bits pages lastKey) : page ≠ 0 := by
  rcases h with ⟨hne, -, -⟩ | ⟨-, -, found⟩
  · exact hne
  · exact fun hzero => some ((found.eq_zero_iff hkey).1 hzero)

theorem GoesOn.next {bottom bottom' page : Nat} {wrapped : Bool}
    (on : GoesOn alloc.mappedPages (pagesLengthOf length) (lastKeyOf map32Bit) bottom wrapped)
    (lower : FoundLower alloc.mappedPages (pagesLengthOf length) bottom (lastKeyOf map32Bit) bottom' page) (hne : page ≠ 0)
    (hnot : ¬ GivesUp alloc (pagesLengthOf length) map32Bit) :
    if page + pagesLengthOf length = topKey
      then GoesOn alloc.mappedPages (pagesLengthOf length) (lastKeyOf map32Bit) baseKey true
      else ¬ (wrapped = true ∧ alloc.lastScanLocation ≤ page) ∧
        GoesOn alloc.mappedPages (pagesLengthOf length) (lastKeyOf map32Bit) (bottom' - 1) wrapped := by
  obtain ⟨hbase, hbottom, htop, run⟩ := lower.bounds hne
  have hkey := lastKeyOf_le map32Bit
  have hbound : bottom' ≤ lastKeyOf map32Bit := by
    rcases lower with ⟨-, rfl, -⟩ | ⟨-, rfl, -⟩
    · rcases on.bound with hle | habove
      · exact hle
      · omega
    · exact le_rfl
  split_ifs with hupper
  · rw [hupper] at run
    have hlowest : baseKey ≤ lastKeyOf map32Bit := by cases map32Bit <;> decide
    exact ⟨.inl hlowest, fun _ => ⟨le_rfl, by omega, run⟩⟩
  · have hwrap : wrapped = true → bottom' = baseKey ∧ page + pagesLengthOf length = baseKey ∧
        lastKeyOf map32Bit = topKey ∧ FreeRun alloc.mappedPages (pagesLengthOf length) topKey := by
      intro hw
      obtain ⟨hle, hlast, top⟩ := on.wrap hw
      rcases lower with ⟨-, rfl, -⟩ | ⟨-, -, found⟩
      · exact ⟨by omega, by omega, hlast, top⟩
      · rw [hlast] at found
        exact absurd (found.at_run (by decide) le_rfl top).2 hupper
    refine ⟨?_, .inl (by omega), fun hw => ?_⟩
    · rintro ⟨hw, hlast⟩
      obtain ⟨-, hpage, hkeyTop, top⟩ := hwrap hw
      rw [hpage] at run
      refine hnot ⟨?_, top, run, by omega⟩
      cases map32Bit
      · rfl
      · cases hkeyTop
    · obtain ⟨rfl, -, hlast, top⟩ := hwrap hw
      exact ⟨Nat.sub_le _ _, hlast, top⟩

theorem allocateNoHint_forever (low : LowTaken alloc.mappedPages)
    (some : ¬ NoRun alloc.mappedPages (pagesLengthOf length) (lastKeyOf map32Bit))
    (hnot : ¬ GivesUp alloc (pagesLengthOf length) map32Bit) (n : Nat) :
    ∀ bottom wrapped s, GoesOn alloc.mappedPages (pagesLengthOf length) (lastKeyOf map32Bit) bottom wrapped →
      s.alloc = alloc → s.answers = List.replicate n (.error eEXIST) →
      allocateNoHint segsz length prot flags fd offset map32Bit (n + 1) bottom wrapped s = .error .noAnswer := by
  induction n with
  | zero =>
    intro bottom wrapped s _ hs hanswers
    obtain ⟨bottom', page, lower, hrun⟩ := exists_foundLower low (pagesLengthOf length) bottom (lastKeyOf map32Bit)
    rw [allocateNoHint_turn (hrun s (by rw [hs])) (lower.ne_zero (lastKeyOf_le _) some)]
    change (call _ _ s >>= fun x => _) = _
    rw [call_nil hanswers]
    rfl
  | succ n ih =>
    intro bottom wrapped s on hs hanswers
    obtain ⟨bottom', page, lower, hrun⟩ := exists_foundLower low (pagesLengthOf length) bottom (lastKeyOf map32Bit)
    have hne := lower.ne_zero (lastKeyOf_le _) some
    obtain ⟨hbase, hbottom, htop, -⟩ := lower.bounds hne
    have next := on.next lower hne hnot
    rw [allocateNoHint_turn (hrun s (by rw [hs])) hne]
    change (call _ _ s >>= fun x => _) = _
    have hc : Consistent segsz (.mmap (pageAddress page) length prot (flags ||| 0x100000) fd offset) (.error eEXIST) :=
      trivial
    rw [call_cons hanswers hc]
    change (if add64 page (pagesLengthOf length) = topKey then _ else _ : M Int) _ = _
    rw [add64_bound (hbottom.trans htop)]
    by_cases hupper : page + pagesLengthOf length = topKey
    · rw [if_pos hupper] at next ⊢
      exact ih _ _ _ next hs rfl
    · rw [if_neg hupper] at next ⊢
      obtain ⟨hgo, next⟩ := next
      rw [if_neg (by rw [← hs] at hgo; exact hgo),
        sub64_of_le (by unfold baseKey at hbase; omega) (by unfold topKey at htop; omega)]
      exact ih _ _ _ next hs rfl

end Outcome

section Mmap
variable {segsz : Int → Option Nat} {addr length prot flags : Nat} {fd offset : Int} {s : AllocState}

/-- `mmap` returns an error before it searches. -/
def Refused (addr length : Nat) (fd offset : Int) : Prop :=
  addr % 4096 ≠ 0 ∨ (fd ≠ -1 ∧ offset % 4096 ≠ 0) ∨ 0xFFFFFFFF < add64 addr length

/-- The page that the search of `mmap` starts from. -/
def bottomPageOf (alloc : MemAllocator32Bit) (map32Bit : Bool) : Nat :=
  if map32Bit ∧ topKey32Bit ≤ alloc.lastScanLocation then topKey32Bit else alloc.lastScanLocation

theorem mmap_refused (h : Refused addr length fd offset) :
    ∃ e < 0, mmap segsz addr length prot flags fd offset s = .ok (e, s) := by
  unfold mmap
  by_cases haddr : addr % 4096 ≠ 0
  · rw [if_pos haddr]
    exact ⟨-eINVAL, by decide, rfl⟩
  · rw [if_neg haddr]
    by_cases hoff : fd ≠ -1 ∧ offset % 4096 ≠ 0
    · rw [if_pos hoff]
      exact ⟨-eINVAL, by decide, rfl⟩
    · have hhigh : 0xFFFFFFFF < add64 addr length := (h.resolve_left haddr).resolve_left hoff
      rw [if_neg hoff, if_pos hhigh]
      exact ⟨-eOVERFLOW, by decide, rfl⟩

theorem mmap_noHint (h : ¬ Refused addr length fd offset) (hfixed : isFixed flags = false)
    (hnoReplace : isFixedNoReplace flags = false) :
    mmap segsz addr length prot flags fd offset s =
      allocateNoHint segsz length prot (flags &&& 0xFFFFFFBF) fd offset (isMap32Bit flags) (s.answers.length + 1)
        (bottomPageOf s.alloc (isMap32Bit flags)) false s := by
  unfold Refused at h
  push Not at h
  obtain ⟨haddr, hoff, hhigh⟩ := h
  have hfree : ¬ ((isFixed flags || isFixedNoReplace flags) = true ∧ addr / 4096 < 16) := by
    rw [hfixed, hnoReplace]
    exact fun h => absurd h.1 (by decide)
  unfold mmap
  rw [if_neg (not_not.mpr haddr), if_neg fun h => h.2 (hoff h.1), if_neg (not_lt.mpr hhigh), if_neg hfree,
    if_pos (.inl (by rw [hfixed, hnoReplace]; rfl))]
  rfl

theorem bottomPageOf_goesOn (bits : Nat → Bool) (pages : Nat) (alloc : MemAllocator32Bit) (map32Bit : Bool) :
    GoesOn bits pages (lastKeyOf map32Bit) (bottomPageOf alloc map32Bit) false := by
  refine ⟨?_, fun h => by cases h⟩
  unfold bottomPageOf
  cases map32Bit with
  | false =>
    exact Nat.lt_or_ge topKey alloc.lastScanLocation |>.symm
  | true =>
    split_ifs with h
    · exact .inl le_rfl
    · exact .inl (Nat.le_of_lt (not_le.mp fun hle => h ⟨rfl, hle⟩))

/-- When a search for a place with `mmap` ends. -/
def MmapEnds (alloc : MemAllocator32Bit) (addr length flags : Nat) (fd offset : Int) : Prop :=
  Refused addr length fd offset ∨ NoRun alloc.mappedPages (pagesLengthOf length) (lastKeyOf (isMap32Bit flags)) ∨
    GivesUp alloc (pagesLengthOf length) (isMap32Bit flags)

theorem answers_const (a : Answer) (n : Nat) : (List.range n).map (fun _ => a) = List.replicate n a := by
  rw [List.map_const', List.length_range]

theorem mmap_ends_of_endsWithin (hfixed : isFixed flags = false) (hnoReplace : isFixedNoReplace flags = false) {n : Nat}
    (h : EndsWithin segsz length prot (flags &&& 0xFFFFFFBF) fd offset (isMap32Bit flags) s.alloc n
      (bottomPageOf s.alloc (isMap32Bit flags)) false) :
    Ends (mmap segsz addr length prot flags fd offset) s := by
  intro answers
  refine ⟨n, ?_⟩
  by_cases refused : Refused addr length fd offset
  · obtain ⟨e, -, he⟩ : ∃ e < 0, mmap segsz addr length prot flags fd offset
      { s with answers := (List.range n).map answers } = .ok (e, _) := mmap_refused refused
    rw [he]
    exact returned_ok _
  · rw [mmap_noHint refused hfixed hnoReplace]
    have hlen : ((List.range n).map answers).length = n := by rw [List.length_map, List.length_range]
    apply h
    · rfl
    · exact hlen.ge
    · exact Nat.lt_succ_of_le hlen.ge

theorem mmap_ends (low : LowTaken s.alloc.mappedPages) (hfixed : isFixed flags = false)
    (hnoReplace : isFixedNoReplace flags = false) :
    Ends (mmap segsz addr length prot flags fd offset) s ↔ MmapEnds s.alloc addr length flags fd offset := by
  have start (bits pages) := bottomPageOf_goesOn bits pages s.alloc (isMap32Bit flags)
  constructor
  · intro ends
    by_contra hnot
    unfold MmapEnds at hnot
    push Not at hnot
    obtain ⟨accepted, some, hnot⟩ := hnot
    obtain ⟨n, hn⟩ := ends fun _ => .error eEXIST
    rw [answers_const, mmap_noHint accepted hfixed hnoReplace] at hn
    let s' : AllocState := { s with answers := List.replicate n (.error eEXIST) }
    rw [List.length_replicate, allocateNoHint_forever low some hnot n _ _ s' (start _ _) rfl rfl] at hn
    exact not_returned_noAnswer hn
  · rintro (refused | none | givesUp)
    · intro answers
      obtain ⟨e, -, he⟩ : ∃ e < 0, mmap segsz addr length prot flags fd offset
        { s with answers := (List.range 0).map answers } = .ok (e, _) := mmap_refused refused
      exact ⟨0, he ▸ returned_ok _⟩
    · exact mmap_ends_of_endsWithin hfixed hnoReplace (endsWithin_of_noRun low (start (fun _ => true) 0).bound none)
    · apply mmap_ends_of_endsWithin hfixed hnoReplace (n := 6)
      have hbottom : bottomPageOf s.alloc (isMap32Bit flags) = s.alloc.lastScanLocation := by
        unfold bottomPageOf
        rw [givesUp.all, if_neg fun h => absurd h.1 (by decide)]
      rw [hbottom]
      exact endsWithin_of_givesUp low givesUp

end Mmap

/-! ## The turns of `shmat` -/

section ShmatSearch
variable {segsz : Int → Option Nat} {shmid : Int} {pages shmflg : Nat} {alloc : MemAllocator32Bit} {s : AllocState}

theorem shmatSearch_none {bottom bottom' : Nat} (hlower : findLowerPage pages bottom topKey s = .ok ((bottom', 0), s))
    (fuel : Nat) (wrapped : Bool) :
    shmatSearch segsz shmid pages shmflg (fuel + 1) bottom wrapped s = .ok ((-eNOMEM, none), s) := by
  change (findLowerPage pages bottom topKey s >>= fun x => _) = _
  rw [hlower]
  rfl

theorem shmatSearch_nil {bottom bottom' page : Nat}
    (hlower : findLowerPage pages bottom topKey s = .ok ((bottom', page), s)) (hne : page ≠ 0) (h : s.answers = [])
    (fuel : Nat) (wrapped : Bool) :
    shmatSearch segsz shmid pages shmflg (fuel + 1) bottom wrapped s = .error .noAnswer := by
  change (findLowerPage pages bottom topKey s >>= fun x => _) = _
  rw [hlower]
  change (if page = 0 then _ else _ : M (Int × Option Nat)) s = _
  rw [if_neg hne]
  change (call _ _ s >>= fun x => _) = _
  rw [call_nil h]
  rfl

theorem shmatSearch_error {bottom bottom' page e : Nat} {rest : List Answer}
    (hlower : findLowerPage pages bottom topKey s = .ok ((bottom', page), s)) (hne : page ≠ 0)
    (hfits : page + pages ≤ topKey) (h : s.answers = .error e :: rest) (fuel : Nat) (wrapped : Bool) :
    shmatSearch segsz shmid pages shmflg (fuel + 1) bottom wrapped s =
      (if page + pages = topKey then shmatSearch segsz shmid pages shmflg fuel topKey true
        else if wrapped ∧ s.alloc.lastScanLocation ≤ page then (do return (← errnoResult, none))
        else shmatSearch segsz shmid pages shmflg fuel (add64 bottom' pages) wrapped)
      { s with answers := rest, errno := e } := by
  have hc : Consistent segsz (.shmat shmid (pageAddress page) shmflg) (.error e) := trivial
  change (findLowerPage pages bottom topKey s >>= fun x => _) = _
  rw [hlower]
  change (if page = 0 then _ else _ : M (Int × Option Nat)) s = _
  rw [if_neg hne]
  change (call _ _ s >>= fun x => _) = _
  rw [call_cons h hc, ← add64_bound hfits]
  rfl

/-- The cursor stays at the top once the search has wrapped around. -/
def StaysAtTop (bits : Nat → Bool) (pages bottom : Nat) (wrapped : Bool) : Prop :=
  wrapped = true → bottom = topKey ∧ FreeRun bits pages topKey

theorem shmatSearch_forever (low : LowTaken alloc.mappedPages) (some : ¬ NoRun alloc.mappedPages pages topKey) (n : Nat) :
    ∀ bottom wrapped s, StaysAtTop alloc.mappedPages pages bottom wrapped → s.alloc = alloc →
      s.answers = List.replicate n (.error eEXIST) →
      shmatSearch segsz shmid pages shmflg (n + 1) bottom wrapped s = .error .noAnswer := by
  induction n with
  | zero =>
    intro bottom wrapped s _ hs hanswers
    obtain ⟨bottom', page, lower, hrun⟩ := exists_foundLower low pages bottom topKey
    exact shmatSearch_nil (hrun s (by rw [hs])) (lower.ne_zero le_rfl some) hanswers 0 wrapped
  | succ n ih =>
    intro bottom wrapped s top hs hanswers
    obtain ⟨bottom', page, lower, hrun⟩ := exists_foundLower low pages bottom topKey
    have hne := lower.ne_zero le_rfl some
    obtain ⟨hbase, hbottom, htop, run⟩ := lower.bounds hne
    rw [shmatSearch_error (hrun s (by rw [hs])) hne (hbottom.trans htop) hanswers]
    by_cases hupper : page + pages = topKey
    · rw [if_pos hupper]
      rw [hupper] at run
      exact ih _ _ _ (fun _ => ⟨rfl, run⟩) hs rfl
    · have hunwrapped : wrapped ≠ true := by
        intro hw
        obtain ⟨rfl, run⟩ := top hw
        rcases lower with ⟨-, rfl, found⟩ | ⟨-, rfl, found⟩
        · exact hupper (found.at_run (by decide) le_rfl run).2
        · exact hupper (found.at_run (by decide) le_rfl run).2
      rw [if_neg hupper, if_neg fun h => hunwrapped h.1]
      exact ih _ _ _ (fun hw => absurd hw hunwrapped) hs rfl

/-- When a search for a place with `shmat` ends. -/
def ShmatEnds (segsz : Int → Option Nat) (alloc : MemAllocator32Bit) (shmid : Int) : Prop :=
  ∀ size, segsz shmid = some size → NoRun alloc.mappedPages (pagesLengthOf size) topKey

theorem shmat_search {size : Nat} {rest : List Answer} (h : s.answers = .ok size :: rest) (hsize : segsz shmid = some size) :
    shmat segsz shmid 0 shmflg s =
      shmatSearch segsz shmid (pagesLengthOf size) shmflg (rest.length + 1) s.alloc.lastScanLocation false
        { s with answers := rest } := by
  have hc : Consistent segsz (.shmctlStat shmid) (.ok size) := hsize
  unfold shmat
  change (call _ _ s >>= fun x => _) = _
  rw [call_cons h hc]
  rfl

theorem returned_shmat (low : LowTaken s.alloc.mappedPages) (none : ShmatEnds segsz s.alloc shmid)
    (h : s.answers.length = 1) : Returned (shmat segsz shmid 0 shmflg s) := by
  obtain ⟨hcall, hafter⟩ := returned_call segsz (.shmctlStat shmid) (s := s) (by omega)
  obtain ⟨a, ha⟩ := List.length_eq_one_iff.1 h
  by_cases hsize : ∃ size, a = .ok size ∧ segsz shmid = some size
  · obtain ⟨size, rfl, hsize⟩ := hsize
    obtain ⟨bottom', page, lower, hrun⟩ := exists_foundLower low (pagesLengthOf size) s.alloc.lastScanLocation topKey
    have hzero : page = 0 := lower.eq_zero (Nat.lt_or_ge topKey _).symm (none size hsize)
    subst hzero
    have hlower : findLowerPage (pagesLengthOf size) s.alloc.lastScanLocation topKey { s with answers := [] } =
        .ok ((bottom', 0), { s with answers := [] }) := hrun _ rfl
    rw [shmat_search ha hsize, shmatSearch_none hlower]
    exact returned_ok _
  · unfold shmat
    refine returned_bind hcall ?_
    intro b s' hb
    by_cases hc : Consistent segsz (.shmctlStat shmid) a
    · rw [call_cons ha hc] at hb
      cases hb
      cases a with
      | error e => exact returned_ok _
      | ok size => exact absurd ⟨size, rfl, hc⟩ hsize
    · rw [call_inconsistent ha hc] at hb
      cases hb

theorem shmat_ends (low : LowTaken s.alloc.mappedPages) :
    Ends (shmat segsz shmid 0 shmflg) s ↔ ShmatEnds segsz s.alloc shmid := by
  constructor
  · intro ends size hsize
    by_contra some
    obtain ⟨n, hn⟩ := ends fun i => if i = 0 then .ok size else .error eEXIST
    cases n with
    | zero =>
      exact not_returned_noAnswer hn
    | succ n =>
      let s' : AllocState := { s with answers := List.replicate n (.error eEXIST) }
      have hanswers : (List.range (n + 1)).map (fun i => if i = 0 then (.ok size : Answer) else .error eEXIST) =
          .ok size :: List.replicate n (.error eEXIST) := by
        rw [List.range_succ_eq_map, List.map_cons, List.map_map, if_pos rfl, ← answers_const]
        rfl
      rw [hanswers, shmat_search rfl hsize, List.length_replicate,
        shmatSearch_forever low some n _ _ s' (fun h => by cases h) rfl rfl] at hn
      exact not_returned_noAnswer hn
  · intro none answers
    exact ⟨1, returned_shmat low none rfl⟩

end ShmatSearch

/-! ## The result -/

/-- A search of `mmap` ends if and only if it is refused, finds no free run, or wraps around and then finds the lowest page
free; a search of `shmat` if and only if the segment is gone or no run is free. -/
theorem placement_ends_iff (s : AllocState) (low : LowTaken s.alloc.mappedPages) (segsz : Int → Option Nat) :
    (∀ addr length prot flags fd offset, isFixed flags = false → isFixedNoReplace flags = false →
      (Ends (mmap segsz addr length prot flags fd offset) s ↔ MmapEnds s.alloc addr length flags fd offset)) ∧
    ∀ shmid shmflg, Ends (shmat segsz shmid 0 shmflg) s ↔ ShmatEnds segsz s.alloc shmid :=
  ⟨fun _ _ _ _ _ _ hfixed hnoReplace => mmap_ends low hfixed hnoReplace, fun _ _ => shmat_ends low⟩

/-- Only the pages below the lowest one are taken, and the cursor is there. -/
def lowCursor : AllocState := { init with alloc := ⟨fun page => page < 16, fun _ => none, 15⟩ }

/-- One page for `mmap`, which goes up to the top page and down to the lowest one while all mappings are refused, and a segment
that is too large for any run. -/
theorem placement_ends_refused :
    Ends (mmap (fun _ => some (2 ^ 32)) 0 4096 3 0x22 (-1) 0) lowCursor ∧
      Ends (shmat (fun _ => some (2 ^ 32)) 0 0 0) lowCursor := by
  have low : LowTaken lowCursor.alloc.mappedPages := fun page hpage => decide_eq_true hpage
  obtain ⟨hmmap, hshmat⟩ := placement_ends_iff lowCursor low (fun _ => some (2 ^ 32))
  have free : ∀ top, 16 ≤ top → top ≤ topKey → FreeRun lowCursor.alloc.mappedPages 1 top := by
    refine fun top hbase htop => ⟨Nat.le_add_left 1 top, fun i hi => ?_⟩
    obtain rfl := Nat.lt_one_iff.mp hi
    exact ⟨Nat.lt_succ_of_le htop, decide_eq_false (Nat.not_lt.mpr hbase)⟩
  constructor
  · refine (hmmap 0 4096 3 0x22 (-1) 0 (by decide) (by decide)).2 (.inr (.inr ⟨by decide, ?_, ?_, by decide⟩))
    · exact free topKey (by decide) le_rfl
    · exact free baseKey le_rfl (by decide)
  · refine (hshmat 0 0).2 fun size hsize top hbase htop run => ?_
    cases hsize
    have large := low.le (run.2 top (Nat.lt_of_le_of_lt htop (by decide)))
    omega

/-- One page in a new allocator, every mapping being refused: the search goes down and starts again for ever. -/
theorem placement_never_ends : ¬ Ends (mmap (fun _ => some 4096) 0 4096 3 0x22 (-1) 0) init := by
  rw [mmap_ends init_lowTaken (by decide) (by decide)]
  rintro ((h | ⟨h, -⟩ | h) | none | givesUp)
  · exact absurd h (by decide)
  · exact absurd h (by decide)
  · exact absurd h (by decide)
  · exact none 16 le_rfl (by decide) ⟨by decide, by decide⟩
  · exact absurd (givesUp.top.2 0 (by decide)).2 (by decide)

end FexEmu.LinuxSyscalls.MemAllocator32Bit
