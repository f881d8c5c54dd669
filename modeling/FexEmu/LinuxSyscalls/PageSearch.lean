import FexEmu.LinuxSyscalls.LinuxAllocator
import FexEmu.LinuxSyscalls.VMATrackingProofs
/-!
# The search for free pages

`FindPageRange_TopDown` looks for a run of free pages from a start downwards. It returns the page below the run.
-/
namespace FexEmu.LinuxSyscalls.MemAllocator32Bit


/-! ## Runs of free pages -/

/-- The page exists and is not taken. -/
def Free (bits : Nat → Bool) (page : Nat) : Prop := page < bitmapSize ∧ bits page = false

instance (bits : Nat → Bool) (page : Nat) : Decidable (Free bits page) := inferInstanceAs (Decidable (_ ∧ _))

/-- The pages that end at top are free. -/
def FreeRun (bits : Nat → Bool) (pages top : Nat) : Prop := pages ≤ top + 1 ∧ ∀ i < pages, Free bits (top - i)

/-- The highest run up to a start. -/
structure HighestRun (bits : Nat → Bool) (pages start top : Nat) : Prop where
  le : top ≤ start
  run : FreeRun bits pages top
  highest : ∀ t, top < t → t ≤ start → ¬ FreeRun bits pages t

/-- The constructor takes the first sixteen pages. -/
def LowTaken (bits : Nat → Bool) : Prop := ∀ page < 16, bits page = true

section Runs
variable {bits : Nat → Bool} {pages start top : Nat}

theorem LowTaken.le (h : LowTaken bits) {page : Nat} (free : Free bits page) : 16 ≤ page := by
  by_contra low
  have taken := h page (by omega)
  rw [free.2] at taken
  cases taken

theorem no_run_between {o : Nat} (hos : o ≤ start) (ho : o < pages) (taken : bits (start - o) = true) {t : Nat}
    (ht : start - (o + 1) < t) (hts : t ≤ start) : ¬ FreeRun bits pages t := by
  intro run
  have free := run.2 (t - (start - o)) (by omega)
  rw [show t - (t - (start - o)) = start - o by omega] at free
  exact absurd (taken.symm.trans free.2) (by decide)

end Runs

/-! ## The scan -/

section Scan
variable {s : AllocState} {start : Nat}

theorem testPage_eq {page : Nat} (h : page < bitmapSize) : testPage page s = .ok (s.alloc.mappedPages page, s) := by
  change (if page < bitmapSize then pure (s.alloc.mappedPages page) else throw Halt.outOfRange : M Bool) s = _
  rw [if_pos h]
  rfl

theorem scanDown_spec (low : LowTaken s.alloc.mappedPages) (hstart : start ≤ topKey) (n : Nat) :
    ∀ offset, offset ≤ start → (∀ i < offset, Free s.alloc.mappedPages (start - i)) →
      (scanDown start offset n s = .ok (none, s) ∧ offset + n ≤ start ∧
        ∀ i < offset + n, Free s.alloc.mappedPages (start - i)) ∨
      ∃ o, scanDown start offset n s = .ok (some o, s) ∧ offset ≤ o ∧ o < offset + n ∧ o ≤ start ∧
        (∀ i < o, Free s.alloc.mappedPages (start - i)) ∧ s.alloc.mappedPages (start - o) = true := by
  induction n with
  | zero =>
    intro offset hoff hfree
    exact .inl ⟨rfl, hoff, hfree⟩
  | succ n ih =>
    intro offset hoff hfree
    have hpage : start - offset < bitmapSize := by
      unfold topKey bitmapSize at *
      omega
    have hsub : sub64 start offset = start - offset := by
      apply sub64_of_le hoff
      unfold topKey at hstart
      omega
    have hrun : scanDown start offset (n + 1) s =
        (if s.alloc.mappedPages (start - offset) then (pure (some offset) : M (Option Nat)) else scanDown start (offset + 1) n) s := by
      rw [scanDown, hsub]
      change (testPage (start - offset) s >>= fun x => _) = _
      rw [testPage_eq hpage]
      rfl
    cases htaken : s.alloc.mappedPages (start - offset) with
    | true =>
      rw [htaken] at hrun
      exact .inr ⟨offset, hrun, le_rfl, by omega, hoff, hfree, htaken⟩
    | false =>
      rw [htaken] at hrun
      have here : Free s.alloc.mappedPages (start - offset) := ⟨hpage, htaken⟩
      have hlow := low.le here
      have hnext : ∀ i < offset + 1, Free s.alloc.mappedPages (start - i) := by
        intro i hi
        rcases Nat.lt_succ_iff_lt_or_eq.1 hi with hlt | rfl
        · exact hfree i hlt
        · exact here
      rw [hrun]
      rcases ih (offset + 1) (by omega) hnext with ⟨hok, hle, hall⟩ | ⟨o, hok, hle, hlt, hos, hbefore, ht⟩
      · exact .inl ⟨hok, by omega, fun i hi => hall i (by omega)⟩
      · exact .inr ⟨o, hok, by omega, by omega, hos, hbefore, ht⟩

/-- The search finds the page below the highest run, or returns zero if there is none. -/
theorem findPageRange_spec (low : LowTaken s.alloc.mappedPages) {pages : Nat} (hpages : 0 < pages) (fuel : Nat) :
    ∀ start, start < fuel → start ≤ topKey →
      (∃ top, findPageRange pages fuel start s = .ok (top - pages, s) ∧ HighestRun s.alloc.mappedPages pages start top) ∨
      (findPageRange pages fuel start s = .ok (0, s) ∧ ∀ t ≤ start, ¬ FreeRun s.alloc.mappedPages pages t) := by
  induction fuel with
  | zero =>
    omega
  | succ fuel ih =>
    intro start hfuel htop
    by_cases hbase : baseKey ≤ start
    -- either all of the pages under start are free, or o of them and the next is taken
    · rcases scanDown_spec low htop pages 0 (Nat.zero_le _) (fun i hi => absurd hi (Nat.not_lt_zero i)) with
        ⟨hok, hle, hall⟩ | ⟨o, hok, -, hlt, hos, hbefore, htaken⟩
      · rw [Nat.zero_add] at hle hall
        have hsub : sub64 start pages = start - pages := sub64_of_le hle (by unfold topKey at htop; omega)
        refine .inl ⟨start, ?_, le_rfl, ⟨by omega, hall⟩, fun t h1 h2 => by omega⟩
        rw [findPageRange, if_pos ⟨hbase, htop⟩, bind_run _ hok, ← hsub]
        rfl
      -- the scan restarts under the taken page, which is in every run that is skipped
      · have hbetween : ∀ {t}, start - (o + 1) < t → t ≤ start → ¬ FreeRun s.alloc.mappedPages pages t :=
          fun h1 h2 => no_run_between hos (by omega) htaken h1 h2
        have hrest : findPageRange pages (fuel + 1) start s = findPageRange pages fuel (sub64 start (o + 1)) s := by
          rw [findPageRange, if_pos ⟨hbase, htop⟩, bind_run _ hok]
        rw [hrest]
        have hos' : o < start := by
          by_contra heq
          have hlow := low.le (hbefore (o - 1) (by unfold baseKey at hbase; omega))
          omega
        have hsub : sub64 start (o + 1) = start - (o + 1) := sub64_of_le hos' (by unfold topKey at htop; omega)
        rw [hsub]
        rcases ih (start - (o + 1)) (by omega) (by omega) with ⟨top, hfound, hhigh⟩ | ⟨hzero, hnone⟩
        · refine .inl ⟨top, hfound, by have := hhigh.le; omega, hhigh.run, ?_⟩
          intro t htt hts
          by_cases hin : t ≤ start - (o + 1)
          · exact hhigh.highest t htt hin
          · exact hbetween (by omega) hts
        · refine .inr ⟨hzero, ?_⟩
          intro t hts
          by_cases hin : t ≤ start - (o + 1)
          · exact hnone t hin
          · exact hbetween (by omega) hts
    · refine .inr ⟨?_, ?_⟩
      · rw [findPageRange, if_neg fun h => hbase h.1]
        rfl
      · intro t hts run
        have hlow := low.le (run.2 0 hpages)
        unfold baseKey at hbase
        omega

end Scan

/-! ## What is found -/

/-- The search returns the first of so many free pages that are not reserved, or zero if there are none up to the start. -/
def FindsFree (s : AllocState) (pages start : Nat) : Prop :=
  ∃ p, findPageRange pages (start + 1) start s = .ok (p, s) ∧
    (p ≠ 0 → (∀ q, p ≤ q → q < p + pages → Free s.alloc.mappedPages q) ∧ 16 ≤ p) ∧
    (p = 0 → ∀ t ≤ start, ¬ FreeRun s.alloc.mappedPages pages t)

/-- The page below the highest run is free as well; from a start above all pages, there is no run. -/
def PageBelowFree (bits : Nat → Bool) (pages start : Nat) : Prop :=
  if start ≤ topKey then ∀ top, HighestRun bits pages start top → Free bits (top - pages)
  else ∀ t ≤ start, ¬ FreeRun bits pages t

section Found
variable {s : AllocState} {pages start : Nat}

theorem findPageRange_above (h : topKey < start) : findPageRange pages (start + 1) start s = .ok (0, s) := by
  rw [findPageRange, if_neg fun hs => absurd hs.2 (not_le.mpr h)]
  rfl

theorem HighestRun.unique {bits : Nat → Bool} {top top' : Nat} (h : HighestRun bits pages start top)
    (h' : HighestRun bits pages start top') : top = top' := by
  rcases lt_trichotomy top top' with hlt | heq | hlt
  · exact absurd h'.run (h.highest top' hlt h'.le)
  · exact heq
  · exact absurd h.run (h'.highest top hlt h.le)

theorem FreeRun.above {bits : Nat → Bool} (low : LowTaken bits) {top : Nat} (run : FreeRun bits pages top)
    (hpages : 0 < pages) : pages + 15 ≤ top := by
  have hlow := low.le (run.2 (pages - 1) (by omega))
  omega

theorem findsFree_iff (low : LowTaken s.alloc.mappedPages) (hpages : 0 < pages) :
    FindsFree s pages start ↔ PageBelowFree s.alloc.mappedPages pages start := by
  unfold PageBelowFree
  split_ifs with htop
  · rcases findPageRange_spec low hpages (start + 1) start (Nat.lt_succ_self _) htop with ⟨top, hrun, high⟩ | ⟨hrun, hnone⟩
    · have habove := high.run.above low hpages
      constructor
      · rintro ⟨p, hp, hfree, -⟩ top' high'
        obtain rfl := high.unique high'
        obtain rfl : p = top - pages := congrArg Prod.fst (Except.ok.inj (hp.symm.trans hrun))
        exact (hfree (by omega)).1 _ le_rfl (by omega)
      · intro below
        refine ⟨top - pages, hrun, fun _ => ⟨?_, low.le (below top high)⟩, fun hzero => by omega⟩
        intro q hpq hqp
        by_cases hq : q = top - pages
        · exact hq ▸ below top high
        · have free := high.run.2 (top - q) (by omega)
          rwa [Nat.sub_sub_self (by omega)] at free
    · refine iff_of_true ⟨0, hrun, fun h => absurd rfl h, fun _ => hnone⟩ ?_
      intro top high
      exact absurd high.run (hnone top high.le)
  · have hrun : findPageRange pages (start + 1) start s = .ok (0, s) := findPageRange_above (not_le.mp htop)
    constructor
    · rintro ⟨p, hp, -, hnone⟩
      exact hnone (congrArg Prod.fst (Except.ok.inj (hp.symm.trans hrun)))
    · intro hnone
      exact ⟨0, hrun, fun h => absurd rfl h, fun _ => hnone⟩

end Found

/-- The search finds free pages if and only if the page below its run is free as well, or nothing is free up to a start above
all pages. -/
theorem findPageRange_finds_iff (s : AllocState) (low : LowTaken s.alloc.mappedPages) (pages : Nat) (hpages : 0 < pages)
    (start : Nat) : FindsFree s pages start ↔ PageBelowFree s.alloc.mappedPages pages start :=
  findsFree_iff low hpages

theorem init_lowTaken : LowTaken init.alloc.mappedPages := by
  intro page h
  simp [init, reserved, h]

theorem findPageRange_finds_second : FindsFree init 1 17 := by
  refine (findPageRange_finds_iff init init_lowTaken 1 (by decide) 17).2 ?_
  intro top high
  have run : FreeRun init.alloc.mappedPages 1 17 := ⟨by decide, by decide⟩
  have highest : HighestRun init.alloc.mappedPages 1 17 17 := ⟨le_rfl, run, fun t h1 h2 => absurd h1 (not_lt.mpr h2)⟩
  rw [high.unique highest]
  exact ⟨by decide, rfl⟩

/-- One page from the first free page on: the search returns the reserved page below it. -/
theorem findPageRange_returns_reserved : ¬ FindsFree init 1 16 := by
  rintro ⟨p, hp, hfree, -⟩
  have reserved : findPageRange 1 (16 + 1) 16 init = .ok (15, init) := rfl
  obtain rfl : p = 15 := congrArg Prod.fst (Except.ok.inj (hp.symm.trans reserved))
  exact absurd (hfree (by decide)).2 (by decide)

end FexEmu.LinuxSyscalls.MemAllocator32Bit
