import FexEmu.Utils.Allocator64Proofs
/-!
# The search of the 64-bit host allocator

Each scan of `CheckIfRangeFits` is complete for the runs on its own side of the page that it starts from.
-/
namespace FexEmu.Allocator64

/-! ## Reads -/

section Reads
variable (used : FlexBitSet)

def remainingBackwardReads (currentPage : Nat) : Nat → List Nat
  | 0 => []
  | remaining + 1 =>
    (currentPage - (remaining + 1)) ::
      if used.get (currentPage - (remaining + 1)) then [] else remainingBackwardReads currentPage remaining

def remainingForwardReads (currentPage : Nat) : Nat → List Nat
  | 0 => []
  | remaining + 1 =>
    (currentPage + remaining) ::
      if used.get (currentPage + remaining) then [] else remainingForwardReads currentPage remaining

def slideBackwardReads : Nat → List Nat
  | 0 => []
  | currentPage + 1 => currentPage :: if used.get currentPage then [] else slideBackwardReads currentPage

def backwardScanReads (numberOfPages : Nat) : Nat → Nat → List Nat
  | 0, _ => []
  | fuel + 1, currentPage =>
    if currentPage < numberOfPages then []
    else remainingBackwardReads used currentPage numberOfPages ++
      match remainingBackward used currentPage numberOfPages with
      | 0 => slideBackwardReads used (currentPage - numberOfPages)
      | remaining + 1 => backwardScanReads numberOfPages fuel (currentPage - (remaining + 1))

def forwardScanReads (numberOfPages lastPage : Nat) : Nat → Nat → List Nat
  | 0, _ => []
  | fuel + 1, currentPage =>
    if lastPage ≤ currentPage then []
    else remainingForwardReads used currentPage numberOfPages ++
      match remainingForward used currentPage numberOfPages with
      | 0 => []
      | remaining + 1 => forwardScanReads numberOfPages lastPage fuel (currentPage + (remaining + 1))

end Reads

/-- The pages whose bits `allocatedPage` reads. -/
def pagesRead (r : LiveVMARegion) (length : Nat) (startingPosition : Option Nat) : List Nat :=
  let numberOfPages := length / pageSize
  if length ≤ r.freeSpace then
    let lastAllocation := lastAllocation r startingPosition
    let lastPage := (r.slabInfo.pages + 2 ^ 64 - numberOfPages) % 2 ^ 64
    backwardScanReads r.usedPages numberOfPages (lastAllocation + 1) lastAllocation ++
      if backwardScan r.usedPages numberOfPages (lastAllocation + 1) lastAllocation = 0 then
        forwardScanReads r.usedPages numberOfPages lastPage (lastPage - lastAllocation + 1) lastAllocation
      else []
  else []

section Scans
variable {used : FlexBitSet} {n cur lastPage : Nat}

theorem remainingBackwardReads_lt (h : n ≤ cur) : ∀ p ∈ remainingBackwardReads used cur n, p < cur := by
  induction n with
  | zero => simp [remainingBackwardReads]
  | succ n ih =>
    intro p hp
    rw [remainingBackwardReads, List.mem_cons] at hp
    rcases hp with rfl | hp
    · omega
    · split at hp
      · cases hp
      · exact ih (by omega) p hp

theorem remainingForwardReads_lt : ∀ p ∈ remainingForwardReads used cur n, p < cur + n := by
  induction n with
  | zero => simp [remainingForwardReads]
  | succ n ih =>
    intro p hp
    rw [remainingForwardReads, List.mem_cons] at hp
    rcases hp with rfl | hp
    · omega
    · split at hp
      · cases hp
      · have := ih p hp
        omega

theorem slideBackwardReads_lt : ∀ p ∈ slideBackwardReads used cur, p < cur := by
  induction cur with
  | zero => simp [slideBackwardReads]
  | succ cur ih =>
    intro p hp
    rw [slideBackwardReads, List.mem_cons] at hp
    rcases hp with rfl | hp
    · omega
    · split at hp
      · cases hp
      · have := ih p hp
        omega

theorem backwardScanReads_lt (fuel : Nat) : ∀ p ∈ backwardScanReads used n fuel cur, p < cur := by
  induction fuel generalizing cur with
  | zero => simp [backwardScanReads]
  | succ fuel ih =>
    intro p hp
    rw [backwardScanReads] at hp
    split at hp
    case isTrue => cases hp
    case isFalse h =>
      rcases List.mem_append.1 hp with hp | hp
      · exact remainingBackwardReads_lt (by omega) p hp
      · split at hp
        · have := slideBackwardReads_lt p hp
          omega
        · have := ih p hp
          omega

theorem forwardScanReads_lt (fuel : Nat) : ∀ p ∈ forwardScanReads used n lastPage fuel cur, p + 1 < lastPage + n := by
  induction fuel generalizing cur with
  | zero => simp [forwardScanReads]
  | succ fuel ih =>
    intro p hp
    rw [forwardScanReads] at hp
    split at hp
    case isTrue => cases hp
    case isFalse h =>
      rcases List.mem_append.1 hp with hp | hp
      · have := remainingForwardReads_lt p hp
        omega
      · split at hp
        · cases hp
        · exact ih p hp

/-- A window is read up to its first used page. -/
theorem remainingBackwardReads_le {p : Nat} (hp : used.get p = true) (hlt : p < cur) (h : cur ≤ p + n) :
    (∀ i ∈ remainingBackwardReads used cur n, i ≤ p) ∧ 0 < remainingBackward used cur n ∧
      cur ≤ p + remainingBackward used cur n := by
  induction n with
  | zero => omega
  | succ n ih =>
    rw [remainingBackwardReads, remainingBackward]
    split
    case isTrue =>
      refine ⟨fun i hi => ?_, by omega⟩
      rw [List.mem_singleton] at hi
      omega
    case isFalse hfree =>
      have hne : p ≠ cur - (n + 1) := fun heq => hfree (heq ▸ hp)
      obtain ⟨hreads, hpos, hle⟩ := ih (by omega)
      refine ⟨fun i hi => ?_, hpos, hle⟩
      rcases List.mem_cons.1 hi with rfl | hi
      · omega
      · exact hreads i hi

/-- A scan that comes to a used page first goes on before it. -/
theorem backwardScanReads_le {p : Nat} (hp : used.get p = true) (hlt : p < cur) (h : cur ≤ p + n) (fuel : Nat) :
    ∀ i ∈ backwardScanReads used n fuel cur, i ≤ p := by
  cases fuel with
  | zero => simp [backwardScanReads]
  | succ fuel =>
    obtain ⟨hreads, hpos, hle⟩ := remainingBackwardReads_le hp hlt h
    obtain ⟨m, hm⟩ : ∃ m, remainingBackward used cur n = m + 1 := ⟨_, (Nat.succ_pred hpos.ne').symm⟩
    intro i hi
    rw [backwardScanReads] at hi
    split at hi
    case isTrue => cases hi
    case isFalse =>
      rw [hm] at hi hle
      rcases List.mem_append.1 hi with hi | hi
      · exact hreads i hi
      · have := backwardScanReads_lt _ i hi
        omega

/-- A window whose pages before `m` are free is read up to there. -/
theorem mem_remainingBackwardReads {m : Nat} (hlow : cur ≤ m + n) (hlt : m < cur)
    (hfree : ∀ p < m, cur ≤ p + n → used.get p = false) : m ∈ remainingBackwardReads used cur n := by
  induction n with
  | zero => omega
  | succ n ih =>
    rw [remainingBackwardReads, List.mem_cons]
    by_cases hm : m = cur - (n + 1)
    · exact .inl hm
    · right
      rw [hfree (cur - (n + 1)) (by omega) (by omega), if_neg Bool.false_ne_true]
      exact ih (by omega) fun p hp h => hfree p hp (by omega)

/-! ## The scans end -/

theorem backwardScan_fuel (hn : 0 < n) {fuel fuel' : Nat} (h : cur < fuel) (h' : cur < fuel') :
    backwardScan used n fuel cur = backwardScan used n fuel' cur := by
  induction fuel generalizing cur fuel' with
  | zero => omega
  | succ fuel ih =>
    obtain ⟨fuel', rfl⟩ : ∃ m, fuel' = m + 1 := ⟨fuel' - 1, by omega⟩
    rw [backwardScan, backwardScan]
    split
    case isTrue => rfl
    case isFalse hcur =>
      split
      · rfl
      · exact ih (by omega) (by omega)

theorem forwardScan_fuel {fuel fuel' : Nat} (h : lastPage - cur < fuel) (h' : lastPage - cur < fuel') :
    forwardScan used n lastPage fuel cur = forwardScan used n lastPage fuel' cur := by
  induction fuel generalizing cur fuel' with
  | zero => omega
  | succ fuel ih =>
    obtain ⟨fuel', rfl⟩ : ∃ m, fuel' = m + 1 := ⟨fuel' - 1, by omega⟩
    rw [forwardScan, forwardScan]
    split
    case isTrue => rfl
    case isFalse hcur =>
      split
      · rfl
      · exact ih (by omega) (by omega)

/-! ## Completeness -/

theorem remainingBackward_used (h : 0 < remainingBackward used cur n) :
    used.get (cur - remainingBackward used cur n) = true := by
  induction n with
  | zero => cases h
  | succ n ih =>
    rw [remainingBackward] at h ⊢
    split at h
    case isTrue hused =>
      rw [if_pos hused]
      exact hused
    case isFalse hused =>
      rw [if_neg hused]
      exact ih h

theorem remainingForward_used (h : 0 < remainingForward used cur n) :
    used.get (cur + remainingForward used cur n - 1) = true := by
  induction n with
  | zero => cases h
  | succ n ih =>
    rw [remainingForward] at h ⊢
    split at h
    case isTrue hused =>
      rw [if_pos hused]
      exact hused
    case isFalse hused =>
      rw [if_neg hused]
      exact ih h

theorem slideBackward_ne_zero (h0 : used.get 0 = true) (hcur : cur ≠ 0) : slideBackward used cur ≠ 0 := by
  induction cur with
  | zero => exact absurd rfl hcur
  | succ cur ih =>
    rw [slideBackward]
    split
    case isTrue => exact Nat.succ_ne_zero cur
    case isFalse hused =>
      apply ih
      rintro rfl
      exact hused h0

/-- Free pages one behind another. -/
def FreeAt (used : FlexBitSet) (q n : Nat) : Prop := ∀ i, q ≤ i → i < q + n → used.get i = false

theorem FreeAt.not_mem (h : FreeAt used cur n) {p : Nat} (hp : used.get p = true) : p < cur ∨ cur + n ≤ p := by
  by_contra hin
  rw [h p (by omega) (by omega)] at hp
  cases hp

theorem FreeAt.ne_zero (h : FreeAt used cur n) (hn : 0 < n) (h0 : used.get 0 = true) : cur ≠ 0 := by
  rcases h.not_mem h0 with h | h <;> omega

theorem backwardScan_complete (h0 : used.get 0 = true) (hn : 0 < n) {fuel q : Nat} (hfuel : cur < fuel)
    (hfree : FreeAt used q n) (hq : q + n ≤ cur) : backwardScan used n fuel cur ≠ 0 := by
  induction fuel generalizing cur with
  | zero => omega
  | succ fuel ih =>
    rw [backwardScan, if_neg (by omega)]
    rcases remainingBackward_spec used (show n ≤ cur by omega) with ⟨hzero, hall⟩ | ⟨hpos, hle⟩
    · rw [hzero]
      have hhere : FreeAt used (cur - n) n := fun i hi hlt => hall i hi (by omega)
      exact slideBackward_ne_zero h0 (hhere.ne_zero hn h0)
    · -- a run that ends behind the used page would have it
      have hused := remainingBackward_used hpos
      obtain ⟨m, hm⟩ : ∃ m, remainingBackward used cur n = m + 1 := ⟨_, (Nat.succ_pred hpos.ne').symm⟩
      rw [hm] at hused hle ⊢
      apply ih (by omega)
      rcases hfree.not_mem hused with h | h <;> omega

theorem forwardScan_complete (h0 : used.get 0 = true) (hn : 0 < n) {fuel q : Nat} (hfuel : lastPage - cur < fuel)
    (hfree : FreeAt used q n) (hq : cur ≤ q) (hlast : q < lastPage) : forwardScan used n lastPage fuel cur ≠ 0 := by
  induction fuel generalizing cur with
  | zero => omega
  | succ fuel ih =>
    rw [forwardScan, if_neg (by omega)]
    rcases remainingForward_spec used cur n with ⟨hzero, hall⟩ | ⟨hpos, hle⟩
    · rw [hzero]
      have hhere : FreeAt used cur n := hall
      exact hhere.ne_zero hn h0
    · have hused := remainingForward_used hpos
      obtain ⟨m, hm⟩ : ∃ m, remainingForward used cur n = m + 1 := ⟨_, (Nat.succ_pred hpos.ne').symm⟩
      rw [hm] at hused hle ⊢
      have hbefore := hfree.not_mem hused
      apply ih <;> omega

end Scans

/-! ## Regions -/

/-- So many free pages from a page on. -/
def FreeRun (r : LiveVMARegion) (q n : Nat) : Prop := q + n ≤ r.slabInfo.pages ∧ FreeAt r.usedPages q n

/-- A live region whose free space counts at least its free pages, and whose first page is taken. -/
structure Searchable (r : LiveVMARegion) : Prop where
  size : r.slabInfo.regionSize < 2 ^ 64
  first : r.usedPages.get 0 = true
  free_le : r.freeSpace ≤ r.slabInfo.regionSize
  le_free : 4096 * ((Finset.range r.slabInfo.pages).filter (fun i => r.usedPages.get i = false)).card ≤ r.freeSpace

/-- The search ends, reads bits of the region only and finds nothing but free pages, which it finds if there are any. -/
structure SearchOk (r : LiveVMARegion) (length : Nat) (startingPosition : Option Nat) : Prop where
  ends_backward : ∀ fuel, lastAllocation r startingPosition < fuel →
    backwardScan r.usedPages (length / pageSize) fuel (lastAllocation r startingPosition) =
      backwardScan r.usedPages (length / pageSize) (lastAllocation r startingPosition + 1)
        (lastAllocation r startingPosition)
  ends_forward : ∀ lastPage fuel, lastPage - lastAllocation r startingPosition < fuel →
    forwardScan r.usedPages (length / pageSize) lastPage fuel (lastAllocation r startingPosition) =
      forwardScan r.usedPages (length / pageSize) lastPage (lastPage - lastAllocation r startingPosition + 1)
        (lastAllocation r startingPosition)
  reads : ∀ p ∈ pagesRead r length startingPosition, p < r.slabInfo.pages
  free : allocatedPage r length startingPosition ≠ 0 →
    FreeRun r (allocatedPage r length startingPosition) (length / pageSize)
  complete : (∃ q, FreeRun r q (length / pageSize)) → allocatedPage r length startingPosition ≠ 0

/-- Where the scans look: before the page that they start from, or behind it but not up to the end of the region. -/
def Reached (r : LiveVMARegion) (startingPosition : Option Nat) (q n : Nat) : Prop :=
  q + n ≤ lastAllocation r startingPosition ∨ lastAllocation r startingPosition ≤ q ∧ q + n < r.slabInfo.pages

/-- The scans start in the region, or come back to it: the first page that they look at and find used is one of it. -/
def StartsInside (r : LiveVMARegion) (startingPosition : Option Nat) (n : Nat) : Prop :=
  lastAllocation r startingPosition ≤ r.slabInfo.pages ∨
    ∃ p < r.slabInfo.pages, lastAllocation r startingPosition ≤ p + n ∧ r.usedPages.get p = true

section Regions
variable {r : LiveVMARegion} {n q : Nat} {startingPosition : Option Nat}

theorem FreeRun.length_le (h : FreeRun r q n) (hr : Searchable r) : n * 4096 ≤ r.freeSpace := by
  have hsub : Finset.Ico q (q + n) ⊆ (Finset.range r.slabInfo.pages).filter (fun i => r.usedPages.get i = false) := by
    intro i hi
    obtain ⟨hq, hlt⟩ := Finset.mem_Ico.1 hi
    exact Finset.mem_filter.2 ⟨Finset.mem_range.2 (by have := h.1; omega), h.2 i hq hlt⟩
  have hcard := Finset.card_le_card hsub
  rw [Nat.card_Ico] at hcard
  have := hr.le_free
  omega

theorem Searchable.pages_eq (hr : Searchable r) (hn : n * 4096 ≤ r.freeSpace) :
    n ≤ r.slabInfo.pages ∧ (r.slabInfo.pages + 2 ^ 64 - n) % 2 ^ 64 = r.slabInfo.pages - n := by
  have := hr.free_le
  have := hr.size
  have hle : n ≤ r.slabInfo.pages := by
    unfold ReservedVMARegion.pages pageSize
    omega
  refine ⟨hle, ?_⟩
  have : r.slabInfo.pages < 2 ^ 64 := by
    unfold ReservedVMARegion.pages pageSize
    omega
  omega

theorem allocatedPage_eq (hr : Searchable r) (hn : n * 4096 ≤ r.freeSpace) :
    allocatedPage r (n * 4096) startingPosition =
      if backwardScan r.usedPages n (lastAllocation r startingPosition + 1) (lastAllocation r startingPosition) = 0 then
        forwardScan r.usedPages n (r.slabInfo.pages - n) (r.slabInfo.pages - n - lastAllocation r startingPosition + 1)
          (lastAllocation r startingPosition)
      else backwardScan r.usedPages n (lastAllocation r startingPosition + 1) (lastAllocation r startingPosition) := by
  have hpages : n * 4096 / pageSize = n := Nat.mul_div_cancel _ (by decide)
  unfold allocatedPage
  rw [if_pos hn, hpages, (hr.pages_eq hn).2]

theorem allocatedPage_eq_zero (hn : ¬ n * 4096 ≤ r.freeSpace) : allocatedPage r (n * 4096) startingPosition = 0 := by
  unfold allocatedPage
  rw [if_neg hn]

theorem allocatedPage_sound (hr : Searchable r) (hcur : n * 4096 ≤ r.freeSpace → StartsInside r startingPosition n)
    (h : allocatedPage r (n * 4096) startingPosition ≠ 0) :
    FreeRun r (allocatedPage r (n * 4096) startingPosition) n ∧
      Reached r startingPosition (allocatedPage r (n * 4096) startingPosition) n := by
  by_cases hn : n * 4096 ≤ r.freeSpace
  case neg => exact absurd (allocatedPage_eq_zero hn) h
  rw [allocatedPage_eq hr hn] at h ⊢
  split at h
  case isTrue hback =>
    rw [if_pos hback]
    obtain ⟨hle, hlt, hfree⟩ := forwardScan_spec _ h
    exact ⟨⟨by omega, hfree⟩, .inr ⟨hle, by omega⟩⟩
  case isFalse hback =>
    rw [if_neg hback]
    obtain ⟨hle, hfree, -⟩ := backwardScan_spec _ h
    refine ⟨⟨?_, hfree⟩, .inl hle⟩
    obtain hcur | ⟨p, hp, hnear, hused⟩ := hcur hn
    · omega
    · rcases FreeAt.not_mem hfree hused with h | h <;> omega

theorem allocatedPage_complete (hr : Searchable r) (hn : 0 < n) (hfree : FreeRun r q n)
    (hq : Reached r startingPosition q n) : allocatedPage r (n * 4096) startingPosition ≠ 0 := by
  rw [allocatedPage_eq hr (hfree.length_le hr)]
  split
  case isTrue hback =>
    rcases hq with hq | ⟨hq, hlast⟩
    · exact absurd hback (backwardScan_complete hr.first hn (by omega) hfree.2 hq)
    · exact forwardScan_complete hr.first hn (by omega) hfree.2 hq (by omega)
  case isFalse hback => exact hback

theorem pagesRead_lt (hr : Searchable r) (hcur : n * 4096 ≤ r.freeSpace → StartsInside r startingPosition n) :
    ∀ p ∈ pagesRead r (n * 4096) startingPosition, p < r.slabInfo.pages := by
  have hpages : n * 4096 / pageSize = n := Nat.mul_div_cancel _ (by decide)
  intro p hp
  unfold pagesRead at hp
  dsimp only at hp
  split at hp
  case isFalse => cases hp
  case isTrue hn =>
    obtain ⟨hle, hlast⟩ := hr.pages_eq hn
    rw [hpages] at hp
    rcases List.mem_append.1 hp with hp | hp
    · obtain hcur | ⟨p', hp', hnear, hused⟩ := hcur hn
      · have := backwardScanReads_lt _ p hp
        omega
      · by_cases hin : p' < lastAllocation r startingPosition
        · have := backwardScanReads_le hused hin hnear _ p hp
          omega
        · have := backwardScanReads_lt _ p hp
          omega
    · split at hp
      · have := forwardScanReads_lt _ p hp
        omega
      · cases hp

/-- A scan from behind the region that finds no used page of it at first looks at what is behind. -/
theorem startsInside_of_reads (hr : Searchable r) (hpos : 0 < n)
    (hreads : ∀ p ∈ pagesRead r (n * 4096) startingPosition, p < r.slabInfo.pages) (hn : n * 4096 ≤ r.freeSpace) :
    StartsInside r startingPosition n := by
  have hpages : n * 4096 / pageSize = n := Nat.mul_div_cancel _ (by decide)
  have hle := (hr.pages_eq hn).1
  unfold pagesRead at hreads
  dsimp only at hreads
  rw [if_pos hn, hpages, backwardScanReads] at hreads
  by_contra hnot
  obtain ⟨hcur, hfree⟩ := not_or.1 hnot
  have hread : max r.slabInfo.pages (lastAllocation r startingPosition - n) ∈
      remainingBackwardReads r.usedPages (lastAllocation r startingPosition) n := by
    refine mem_remainingBackwardReads (by omega) (by omega) fun p hp hnear => ?_
    by_contra hused
    exact hfree ⟨p, by omega, hnear, by simpa using hused⟩
  rw [if_neg (by omega)] at hreads
  have := hreads _ (List.mem_append_left _ (List.mem_append_left _ hread))
  omega

end Regions

/-! ## A fresh region -/

/-- A region of 8 GiB with 65 tracking pages, for which `MemSet` sets 512 bits. -/
def wideRegion : ReservedVMARegion := ⟨0x100000000, 0x200000000⟩

theorem get_wideRegion (i : Nat) : (initializeVMARegionUsed wideRegion).usedPages.get i = decide (i < 512) :=
  get_fresh (by decide) i

theorem wideRegion_searchable : Searchable (initializeVMARegionUsed wideRegion) where
  size := by decide
  first := get_wideRegion 0
  free_le := by decide
  le_free := by
    have hpages : (initializeVMARegionUsed wideRegion).slabInfo.pages = 0x200000 := rfl
    have hfree : (initializeVMARegionUsed wideRegion).freeSpace = 4096 * (0x200000 - 65) := by decide
    have hsub : (Finset.range 0x200000).filter (fun i => (initializeVMARegionUsed wideRegion).usedPages.get i = false) ⊆
        Finset.Ico 512 0x200000 := by
      intro i hi
      obtain ⟨hlt, hget⟩ := Finset.mem_filter.1 hi
      rw [get_wideRegion, decide_eq_false_iff_not] at hget
      exact Finset.mem_Ico.2 ⟨by omega, Finset.mem_range.1 hlt⟩
    have hcard := Finset.card_le_card hsub
    rw [Nat.card_Ico] at hcard
    rw [hpages, hfree]
    omega

theorem wideRegion_run {q n : Nat} (hn : 0 < n) :
    FreeRun (initializeVMARegionUsed wideRegion) q n ↔ 512 ≤ q ∧ q + n ≤ 0x200000 := by
  constructor
  · rintro ⟨hle, hfree⟩
    have hq := hfree q (Nat.le_refl q) (by omega)
    rw [get_wideRegion, decide_eq_false_iff_not] at hq
    exact ⟨by omega, hle⟩
  · rintro ⟨hq, hle⟩
    refine ⟨hle, fun i hi _ => ?_⟩
    rw [get_wideRegion, decide_eq_false_iff_not]
    omega

/-- All the pages that are free in it are not found, since the forward scan leaves out the end of the region. -/
theorem wideRegion_not_ok : ¬ SearchOk (initializeVMARegionUsed wideRegion) 0x1FFE00000 none := by
  intro h
  have hrun : FreeRun (initializeVMARegionUsed wideRegion) 512 0x1FFE00 := (wideRegion_run (by decide)).2 (by decide)
  have hfound := h.complete ⟨512, hrun⟩
  obtain ⟨hfree, hreached⟩ := @allocatedPage_sound _ 0x1FFE00 none wideRegion_searchable (fun _ => .inl (by decide)) hfound
  obtain ⟨hq, hle⟩ := (wideRegion_run (by decide)).1 hfree
  rcases hreached with hback | ⟨-, hlast⟩
  · have hstart : lastAllocation (initializeVMARegionUsed wideRegion) none = 65 := by decide
    omega
  · change _ < 0x200000 at hlast
    omega

/-! ## The search -/

/-- The search succeeds unless all runs of free pages lie over the page that it starts from or at the end of the region, or
that page is behind the region and no used one at its end brings the search back to it. -/
theorem search_ok_iff (r : LiveVMARegion) (length : Nat) (startingPosition : Option Nat) (hr : Searchable r)
    (hlength : pageSize ≤ length) (haligned : length % pageSize = 0) :
    SearchOk r length startingPosition ↔
      (length ≤ r.freeSpace → StartsInside r startingPosition (length / pageSize)) ∧
      ((∃ q, FreeRun r q (length / pageSize)) →
        ∃ q, FreeRun r q (length / pageSize) ∧ Reached r startingPosition q (length / pageSize)) := by
  obtain ⟨n, rfl⟩ : ∃ n, length = n * 4096 := ⟨length / pageSize, by unfold pageSize at *; omega⟩
  have hpages : n * 4096 / pageSize = n := Nat.mul_div_cancel _ (by decide)
  have hn : 0 < n := by
    unfold pageSize at hlength
    omega
  rw [hpages]
  constructor
  · intro h
    have hcur := startsInside_of_reads hr hn h.reads
    refine ⟨hcur, fun hfree => ?_⟩
    have hfound := h.complete (by rwa [hpages])
    exact ⟨_, allocatedPage_sound hr hcur hfound⟩
  · rintro ⟨hcur, h⟩
    constructor
    case ends_backward => exact fun fuel hfuel => backwardScan_fuel (by omega) hfuel (Nat.lt_succ_self _)
    case ends_forward => exact fun lastPage fuel hfuel => forwardScan_fuel hfuel (Nat.lt_succ_self _)
    case reads => exact pagesRead_lt hr hcur
    case free =>
      intro hfound
      rw [hpages]
      exact (allocatedPage_sound hr hcur hfound).1
    case complete =>
      rw [hpages]
      intro hfree
      obtain ⟨q, hq, hreached⟩ := h hfree
      exact allocatedPage_complete hr hn hq hreached

/-- One page is found right behind those that are used. -/
theorem search_ok_wideRegion : SearchOk (initializeVMARegionUsed wideRegion) 0x1000 none :=
  (search_ok_iff (initializeVMARegionUsed wideRegion) 0x1000 none wideRegion_searchable (by decide) (by decide)).2
    ⟨fun _ => .inl (by decide), fun _ => ⟨512, (wideRegion_run (by decide)).2 (by decide), .inr (by decide)⟩⟩

end FexEmu.Allocator64
