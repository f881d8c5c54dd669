import FexEmu.Utils.Allocator64
/-!
# Regions of the 64-bit host allocator

What an allocation and a release do to the bits, the free space and the last page of one region.
-/
namespace FexEmu.Allocator64

/-! ## Scans -/

section Scans
variable {used : FlexBitSet} {n cur : Nat}

/-- All pages were free, or the first used one is that many pages from the end. -/
theorem remainingBackward_spec (used : FlexBitSet) (h : n ≤ cur) :
    (remainingBackward used cur n = 0 ∧ ∀ i, cur - n ≤ i → i < cur → used.get i = false) ∨
      (0 < remainingBackward used cur n ∧ remainingBackward used cur n ≤ n) := by
  induction n with
  | zero => exact .inl ⟨rfl, fun i _ _ => by omega⟩
  | succ n ih =>
    rw [remainingBackward]
    split
    · exact .inr ⟨Nat.succ_pos n, le_rfl⟩
    · case isFalse hfree =>
      rcases ih (by omega) with ⟨h0, hall⟩ | ⟨hpos, hle⟩
      · refine .inl ⟨h0, fun i hi hlt => ?_⟩
        by_cases he : i = cur - (n + 1)
        · rw [he]
          simpa using hfree
        · exact hall i (by omega) hlt
      · exact .inr ⟨hpos, by omega⟩

theorem remainingForward_spec (used : FlexBitSet) (cur n : Nat) :
    (remainingForward used cur n = 0 ∧ ∀ i, cur ≤ i → i < cur + n → used.get i = false) ∨
      (0 < remainingForward used cur n ∧ remainingForward used cur n ≤ n) := by
  induction n with
  | zero => exact .inl ⟨rfl, fun i _ _ => by omega⟩
  | succ n ih =>
    rw [remainingForward]
    split
    · exact .inr ⟨Nat.succ_pos n, le_rfl⟩
    · case isFalse hfree =>
      rcases ih with ⟨h0, hall⟩ | ⟨hpos, hle⟩
      · refine .inl ⟨h0, fun i hi hlt => ?_⟩
        by_cases he : i = cur + n
        · rw [he]
          simpa using hfree
        · exact hall i hi (by omega)
      · exact .inr ⟨hpos, by omega⟩

/-- The slide stops at the first page or after a used one, over free pages only. -/
theorem slideBackward_spec (used : FlexBitSet) (cur : Nat) : slideBackward used cur ≤ cur ∧
    (∀ i, slideBackward used cur ≤ i → i < cur → used.get i = false) ∧
    (slideBackward used cur ≠ 0 → used.get (slideBackward used cur - 1) = true) := by
  induction cur with
  | zero => exact ⟨le_rfl, fun i _ hi => by omega, fun h => absurd rfl h⟩
  | succ cur ih =>
    rw [slideBackward]
    split
    · case isTrue hu => exact ⟨le_rfl, fun i hi hlt => by omega, fun _ => hu⟩
    · case isFalse hu =>
      obtain ⟨hle, hfree, hstop⟩ := ih
      refine ⟨by omega, fun i hi hlt => ?_, hstop⟩
      by_cases he : i = cur
      · rw [he]
        simpa using hu
      · exact hfree i hi (by omega)

/-- The backward scan gives free pages before the start, right after a used page. -/
theorem backwardScan_spec (fuel : Nat) (h : backwardScan used n fuel cur ≠ 0) :
    backwardScan used n fuel cur + n ≤ cur ∧
    (∀ i, backwardScan used n fuel cur ≤ i → i < backwardScan used n fuel cur + n → used.get i = false) ∧
    used.get (backwardScan used n fuel cur - 1) = true := by
  induction fuel generalizing cur with
  | zero => exact absurd rfl h
  | succ fuel ih =>
    rw [backwardScan] at h ⊢
    split at h
    · exact absurd rfl h
    · case isFalse hn =>
      rw [if_neg hn]
      rcases remainingBackward_spec used (Nat.le_of_not_lt hn) with ⟨h0, hall⟩ | ⟨hpos, hle⟩
      · rw [h0] at h ⊢
        obtain ⟨hsle, hsfree, hstop⟩ := slideBackward_spec used (cur - n)
        refine ⟨by dsimp only; omega, fun i hi hlt => ?_, hstop h⟩
        by_cases hc : i < cur - n
        · exact hsfree i hi hc
        · dsimp only at hlt
          exact hall i (by omega) (by omega)
      · obtain ⟨m, hm⟩ : ∃ m, remainingBackward used cur n = m + 1 := ⟨_, (Nat.succ_pred hpos.ne').symm⟩
        rw [hm] at h ⊢
        obtain ⟨hle', hfree, hstop⟩ := ih h
        exact ⟨by dsimp only at hle' ⊢; omega, hfree, hstop⟩

theorem forwardScan_spec {lastPage : Nat} (fuel : Nat) (h : forwardScan used n lastPage fuel cur ≠ 0) :
    cur ≤ forwardScan used n lastPage fuel cur ∧ forwardScan used n lastPage fuel cur < lastPage ∧
    ∀ i, forwardScan used n lastPage fuel cur ≤ i → i < forwardScan used n lastPage fuel cur + n → used.get i = false := by
  induction fuel generalizing cur with
  | zero => exact absurd rfl h
  | succ fuel ih =>
    rw [forwardScan] at h ⊢
    split at h
    · exact absurd rfl h
    · case isFalse hn =>
      rw [if_neg hn]
      rcases remainingForward_spec used cur n with ⟨h0, hall⟩ | ⟨hpos, hle⟩
      · rw [h0]
        exact ⟨le_rfl, Nat.lt_of_not_le hn, hall⟩
      · obtain ⟨m, hm⟩ : ∃ m, remainingForward used cur n = m + 1 := ⟨_, (Nat.succ_pred hpos.ne').symm⟩
        rw [hm] at h ⊢
        obtain ⟨hle', hlt, hfree⟩ := ih h
        exact ⟨by dsimp only at hle' ⊢; omega, hlt, hfree⟩

end Scans

/-! ## Loops over the bits -/

section Bits
variable {used : FlexBitSet}

theorem get_setPages (b n i : Nat) : (setPages used b n).get i = (decide (b ≤ i ∧ i < b + n) || used.get i) := by
  induction n with
  | zero =>
    simp [setPages]
  | succ n ih =>
    rw [setPages, FlexBitSet.get_set, ih, ← Bool.or_assoc]
    congr 1
    rw [Bool.eq_iff_iff]
    simp only [Bool.or_eq_true, decide_eq_true_eq]
    omega

theorem get_clearPages (b n i : Nat) :
    (clearPages used b n).2.get i = (decide (¬ (b ≤ i ∧ i < b + n)) && used.get i) := by
  induction n with
  | zero =>
    simp [clearPages]
  | succ n ih =>
    simp only [clearPages, FlexBitSet.testAndClear, FlexBitSet.get_clear]
    rw [ih, ← Bool.and_assoc]
    congr 1
    rw [Bool.eq_iff_iff]
    simp only [Bool.and_eq_true, decide_eq_true_eq]
    omega

def usedPagesIn (used : FlexBitSet) (first last : Nat) : Finset Nat :=
  (Finset.Ico first last).filter (fun i => used.get i = true)

variable {first last b n : Nat}

theorem mem_usedPagesIn {i : Nat} : i ∈ usedPagesIn used first last ↔ (first ≤ i ∧ i < last) ∧ used.get i = true := by
  simp [usedPagesIn]

theorem usedPagesIn_setPages (hb : first ≤ b) (hn : b + n ≤ last) :
    usedPagesIn (setPages used b n) first last = usedPagesIn used first last ∪ Finset.Ico b (b + n) := by
  ext i
  simp only [mem_usedPagesIn, get_setPages, Finset.mem_union, Finset.mem_Ico, Bool.or_eq_true, decide_eq_true_eq]
  constructor
  · rintro ⟨hi, h | h⟩
    · exact .inr h
    · exact .inl ⟨hi, h⟩
  · rintro (⟨hi, h⟩ | h)
    · exact ⟨hi, .inr h⟩
    · exact ⟨by omega, .inl h⟩

theorem card_setPages_le (used : FlexBitSet) (hb : first ≤ b) (hn : b + n ≤ last) :
    (usedPagesIn (setPages used b n) first last).card ≤ (usedPagesIn used first last).card + n := by
  rw [usedPagesIn_setPages hb hn]
  refine (Finset.card_union_le _ _).trans ?_
  rw [Nat.card_Ico]
  omega

theorem card_setPages_eq (hb : first ≤ b) (hn : b + n ≤ last) (hfree : ∀ i, b ≤ i → i < b + n → used.get i = false) :
    (usedPagesIn (setPages used b n) first last).card = (usedPagesIn used first last).card + n := by
  have hdisj : Disjoint (usedPagesIn used first last) (Finset.Ico b (b + n)) := by
    rw [Finset.disjoint_left]
    intro i hi hmem
    obtain ⟨hbi, hin⟩ := Finset.mem_Ico.mp hmem
    have := (mem_usedPagesIn.mp hi).2
    rw [hfree i hbi hin] at this
    cases this
  rw [usedPagesIn_setPages hb hn, Finset.card_union_of_disjoint hdisj, Nat.card_Ico]
  omega

theorem clearPages_freed (b n : Nat) : (clearPages used b n).1 = (usedPagesIn used b (b + n)).card := by
  induction n with
  | zero => simp [clearPages, usedPagesIn]
  | succ n ih =>
    have hstep : usedPagesIn used b (b + (n + 1)) =
        if used.get (b + n) = true then insert (b + n) (usedPagesIn used b (b + n)) else usedPagesIn used b (b + n) := by
      ext i
      split <;> simp only [mem_usedPagesIn, Finset.mem_insert]
      · case isTrue hu =>
        constructor
        · rintro ⟨hi, h⟩
          by_cases he : i = b + n
          · exact .inl he
          · exact .inr ⟨by omega, h⟩
        · rintro (rfl | ⟨hi, h⟩)
          · exact ⟨by omega, hu⟩
          · exact ⟨by omega, h⟩
      · case isFalse hu =>
        constructor
        · rintro ⟨hi, h⟩
          have he : i ≠ b + n := by
            rintro rfl
            exact hu h
          exact ⟨by omega, h⟩
        · rintro ⟨hi, h⟩
          exact ⟨by omega, h⟩
    have hget : (clearPages used b n).2.get (b + n) = used.get (b + n) := by
      rw [get_clearPages]
      simp
    simp only [clearPages, FlexBitSet.testAndClear, hget]
    rw [hstep, ih]
    split
    · simp [mem_usedPagesIn]
    · rfl

theorem card_clearPages (used : FlexBitSet) (hb : first ≤ b) (hn : b + n ≤ last) :
    (usedPagesIn (clearPages used b n).2 first last).card + (clearPages used b n).1 =
      (usedPagesIn used first last).card := by
  have hdisj : Disjoint (usedPagesIn (clearPages used b n).2 first last) (usedPagesIn used b (b + n)) := by
    rw [Finset.disjoint_left]
    intro i hi hmem
    have h1 := (mem_usedPagesIn.mp hi).2
    have h2 := (mem_usedPagesIn.mp hmem).1
    rw [get_clearPages] at h1
    simp [h2] at h1
  have hunion : usedPagesIn used first last =
      usedPagesIn (clearPages used b n).2 first last ∪ usedPagesIn used b (b + n) := by
    ext i
    simp only [mem_usedPagesIn, get_clearPages, Finset.mem_union, Bool.and_eq_true, decide_eq_true_eq]
    constructor
    · rintro ⟨hi, h⟩
      by_cases hin : b ≤ i ∧ i < b + n
      · exact .inr ⟨hin, h⟩
      · exact .inl ⟨hi, hin, h⟩
    · rintro (⟨hi, -, h⟩ | ⟨hi, h⟩)
      · exact ⟨hi, h⟩
      · exact ⟨by omega, h⟩
  rw [clearPages_freed, hunion, Finset.card_union_of_disjoint hdisj]

end Bits

/-! ## Regions -/

/-- A region of whole pages among the user addresses, with room for its bitmap. -/
structure ReservedVMARegion.Ok (r : ReservedVMARegion) : Prop where
  base : r.base % pageSize = 0
  size : r.regionSize % pageSize = 0
  lower : LOWER_BOUND ≤ r.base
  upper : r.regionEnd ≤ 2 ^ 57
  tracking : sizeOfLiveRegion r.regionSize ≤ r.regionSize

/-- The pages of the header and the bitmap. -/
def ReservedVMARegion.trackingPages (r : ReservedVMARegion) : Nat := sizeOfLiveRegion r.regionSize / pageSize

/-- The tracking pages, and the pages behind them that `MemSet` sets with them. -/
def ReservedVMARegion.keptPages (r : ReservedVMARegion) : Nat := max r.trackingPages (FlexBitSet.memSetBits r.trackingPages)

def ReservedVMARegion.basePage (r : ReservedVMARegion) : Nat := r.base / pageSize

section Regions
variable {r : ReservedVMARegion}

theorem memSetBits_eq {n : Nat} (h : n ≤ 512) : FlexBitSet.memSetBits n = if n < 64 then 0 else 512 := by
  rw [FlexBitSet.memSetBits, FlexBitSet.alignUp_eq (by decide) (by omega)]
  split <;> omega

theorem keptPages_eq (h : r.trackingPages ≤ 512) :
    r.keptPages = if r.trackingPages < 64 then r.trackingPages else 512 := by
  rw [ReservedVMARegion.keptPages, memSetBits_eq h]
  split <;> omega

theorem trackingPages_le_keptPages : r.trackingPages ≤ r.keptPages := le_max_left _ _

theorem ReservedVMARegion.Ok.regionSize_lt (h : r.Ok) : r.regionSize < 2 ^ 57 := by
  have := h.upper
  have := h.lower
  simp only [ReservedVMARegion.regionEnd, LOWER_BOUND] at *
  omega

theorem ReservedVMARegion.Ok.regionSize_eq (h : r.Ok) : r.regionSize = r.pages * 4096 := by
  have := h.size
  simp only [ReservedVMARegion.pages, pageSize] at *
  omega

theorem ReservedVMARegion.Ok.base_eq (h : r.Ok) : r.base = r.basePage * 4096 := by
  have := h.base
  simp only [ReservedVMARegion.basePage, pageSize] at *
  omega

theorem ReservedVMARegion.Ok.getSizeWithFlexSet_eq (h : r.Ok) :
    getSizeWithFlexSet r.regionSize = 4096 + (r.pages / 8 + 63) / 64 * 64 := by
  have hlt := h.regionSize_lt
  simp only [getSizeWithFlexSet, FlexBitSet.size, FlexBitSet.minimumSizeBits, ReservedVMARegion.pages, pageSize]
  rw [FlexBitSet.alignUp_eq (by decide) (by omega)]
  omega

theorem ReservedVMARegion.Ok.sizeOfLiveRegion_bytes (h : r.Ok) :
    sizeOfLiveRegion r.regionSize = (getSizeWithFlexSet r.regionSize + 4095) / 4096 * 4096 := by
  refine FlexBitSet.alignUp_eq (by decide) ?_
  have hlt := h.regionSize_lt
  rw [h.getSizeWithFlexSet_eq]
  simp only [ReservedVMARegion.pages, pageSize]
  omega

theorem ReservedVMARegion.Ok.sizeOfLiveRegion_eq (h : r.Ok) : sizeOfLiveRegion r.regionSize = r.trackingPages * 4096 := by
  rw [ReservedVMARegion.trackingPages, h.sizeOfLiveRegion_bytes]
  simp only [pageSize]
  omega

theorem ReservedVMARegion.Ok.trackingPages_le (h : r.Ok) : r.trackingPages ≤ r.pages := by
  have h1 := h.sizeOfLiveRegion_eq
  have h2 := h.regionSize_eq
  have := h.tracking
  omega

theorem ReservedVMARegion.Ok.pages_lt (h : r.Ok) (ht : r.trackingPages ≤ 512) : r.pages < 2 ^ 32 := by
  have hsize := h.sizeOfLiveRegion_eq
  rw [h.sizeOfLiveRegion_bytes, h.getSizeWithFlexSet_eq] at hsize
  omega

end Regions

/-- The bits of the tracking pages are all set or all clear, and the mapped pages are among the used ones. -/
structure LiveOk (mapped : Nat → Bool) (r : LiveVMARegion) : Prop where
  kept : ∀ i < r.slabInfo.keptPages, r.usedPages.get i = decide (64 ≤ r.slabInfo.trackingPages)
  last : r.slabInfo.trackingPages ≤ r.lastPageAllocation
  last_le : r.lastPageAllocation ≤ r.slabInfo.pages
  mapped : ∀ i < r.slabInfo.pages, mapped (r.slabInfo.basePage + i) = true → r.usedPages.get i = true
  free : r.freeSpace + 4096 * (usedPagesIn r.usedPages r.slabInfo.keptPages r.slabInfo.pages).card ≤
    4096 * (r.slabInfo.pages - r.slabInfo.trackingPages)

/-- The used pages are exactly the mapped ones, and the free space is exact. -/
structure Exact (mapped : Nat → Bool) (r : LiveVMARegion) : Prop where
  used : ∀ i, r.slabInfo.trackingPages ≤ i → i < r.slabInfo.pages →
    (r.usedPages.get i = true ↔ mapped (r.slabInfo.basePage + i) = true)
  free : r.freeSpace + 4096 * (r.slabInfo.trackingPages +
    (usedPagesIn r.usedPages r.slabInfo.trackingPages r.slabInfo.pages).card) = r.slabInfo.regionSize

/-- The pages of a range get the value. -/
def markPages (mapped : Nat → Bool) (first n : Nat) (value : Bool) : Nat → Bool :=
  fun p => if first ≤ p ∧ p < first + n then value else mapped p

section Live
variable {mapped : Nat → Bool} {r : LiveVMARegion} {n q : Nat}

section Fresh
variable {r : ReservedVMARegion}

theorem get_fresh (ht : r.trackingPages ≤ 512) (i : Nat) :
    (initializeVMARegionUsed r).usedPages.get i = decide (i < FlexBitSet.memSetBits r.trackingPages) := by
  have h0 : FlexBitSet.get (fun _ => 0) i = false := by simp [FlexBitSet.get_eq]
  change FlexBitSet.get (FlexBitSet.memSet _ r.trackingPages) i = _
  rw [FlexBitSet.get_memSet _ (by omega), h0, Bool.or_false]

theorem freeSpace_fresh (hr : r.Ok) :
    (initializeVMARegionUsed r).freeSpace = 4096 * (r.pages - r.trackingPages) := by
  have hle := hr.trackingPages_le
  have hsize := hr.regionSize_eq
  have hlt := hr.regionSize_lt
  change (r.regionSize + 2 ^ 64 - sizeOfLiveRegion r.regionSize) % 2 ^ 64 = _
  rw [hr.sizeOfLiveRegion_eq]
  omega

theorem usedPagesIn_fresh (ht : r.trackingPages ≤ 512) {first last : Nat}
    (hfirst : FlexBitSet.memSetBits r.trackingPages ≤ first) :
    usedPagesIn (initializeVMARegionUsed r).usedPages first last = ∅ := by
  ext i
  simp only [mem_usedPagesIn, get_fresh ht, decide_eq_true_eq, Finset.notMem_empty, iff_false, not_and]
  omega

theorem liveOk_fresh (hr : r.Ok) (ht : r.trackingPages ≤ 512)
    (hfree : ∀ i < r.pages, mapped (r.basePage + i) = false) : LiveOk mapped (initializeVMARegionUsed r) := by
  have hlast : (initializeVMARegionUsed r).lastPageAllocation = r.trackingPages := Nat.mod_eq_of_lt (by
    change r.trackingPages < 2 ^ 32
    omega)
  refine ⟨fun i hi => ?_, hlast.ge, hlast.le.trans hr.trackingPages_le, fun i hi hm => ?_, ?_⟩
  · change i < r.keptPages at hi
    change _ = decide (64 ≤ r.trackingPages)
    rw [keptPages_eq ht] at hi
    rw [get_fresh ht, memSetBits_eq ht]
    split at hi
    · case isTrue hlow => simp [hlow]
    · case isFalse hhigh => simp [hhigh, hi, Nat.le_of_not_lt hhigh]
  · change mapped (r.basePage + i) = true at hm
    rw [hfree i hi] at hm
    cases hm
  · change _ + 4096 * (usedPagesIn (initializeVMARegionUsed r).usedPages r.keptPages r.pages).card ≤
      4096 * (r.pages - r.trackingPages)
    have hkept : FlexBitSet.memSetBits r.trackingPages ≤ r.keptPages := le_max_right _ _
    rw [usedPagesIn_fresh ht hkept, freeSpace_fresh hr]
    simp

/-- `MemSet` sets no bit, or exactly those of the tracking pages. -/
theorem exact_fresh (hr : r.Ok) (ht : r.trackingPages < 64 ∨ r.trackingPages = 512)
    (hfree : ∀ i < r.pages, mapped (r.basePage + i) = false) : Exact mapped (initializeVMARegionUsed r) := by
  have ht512 : r.trackingPages ≤ 512 := by omega
  have hbits : FlexBitSet.memSetBits r.trackingPages ≤ r.trackingPages := by
    rw [memSetBits_eq ht512]
    split <;> omega
  have hle := hr.trackingPages_le
  refine ⟨fun i hi hlt => ?_, ?_⟩
  · change r.trackingPages ≤ i at hi
    change _ ↔ mapped (r.basePage + i) = true
    rw [get_fresh ht512, hfree i hlt, decide_eq_true_eq]
    simp
    omega
  · change _ + 4096 * (r.trackingPages +
      (usedPagesIn (initializeVMARegionUsed r).usedPages r.trackingPages r.pages).card) = r.regionSize
    rw [usedPagesIn_fresh ht512 hbits, freeSpace_fresh hr, hr.regionSize_eq, Finset.card_empty]
    omega

end Fresh

/-- The pages of an allocation are free pages of the region behind those that are kept. -/
theorem LiveOk.allocatedPage (h : LiveOk mapped r) (hr : r.slabInfo.Ok) (ht : r.slabInfo.trackingPages ≤ 512)
    (hn : 0 < n) {start : Option Nat}
    (hstart : ∀ a, start = some a → r.slabInfo.base + r.slabInfo.keptPages * 4096 ≤ a ∧ a ≤ r.slabInfo.regionEnd)
    (hq : allocatedPage r (n * 4096) start = q) (hne : q ≠ 0) :
    r.slabInfo.keptPages ≤ q ∧ q + n ≤ r.slabInfo.pages ∧ (∀ i, q ≤ i → i < q + n → r.usedPages.get i = false) ∧
      n * 4096 ≤ r.freeSpace := by
  have hkept := keptPages_eq ht
  have htk := trackingPages_le_keptPages (r := r.slabInfo)
  have hsize := hr.regionSize_eq
  have hlt := hr.regionSize_lt
  rw [Allocator64.allocatedPage] at hq
  split at hq
  · case isTrue hfree =>
    have hfs := h.free
    have hnp : n * 4096 / pageSize = n := Nat.mul_div_cancel _ (by decide)
    rw [hnp] at hq
    generalize hl : lastAllocation r start = lastAllocation at hq
    have hlast : r.slabInfo.trackingPages ≤ lastAllocation ∧ lastAllocation ≤ r.slabInfo.pages := by
      subst hl
      cases start with
      | none => exact ⟨h.last, h.last_le⟩
      | some a =>
        have := hstart a rfl
        simp only [lastAllocation, pageSize, ReservedVMARegion.regionEnd] at *
        omega
    have hlp : (r.slabInfo.pages + 2 ^ 64 - n) % 2 ^ 64 = r.slabInfo.pages - n := by omega
    rw [hlp] at hq
    -- a free page is behind the kept ones if those are used, and so is the page after a used one if they are not
    have hhigh : 64 ≤ r.slabInfo.trackingPages → r.usedPages.get q = false → r.slabInfo.keptPages ≤ q := by
      intro h64 hqf
      by_contra hlow
      rw [h.kept q (by omega)] at hqf
      simp [h64] at hqf
    dsimp only at hq
    split at hq
    · case isTrue =>
      have hne' := hne
      rw [← hq] at hne'
      obtain ⟨hge, hltp, hall⟩ := forwardScan_spec _ hne'
      rw [hq] at hge hltp hall
      refine ⟨?_, by omega, hall, hfree⟩
      by_cases h64 : 64 ≤ r.slabInfo.trackingPages
      · exact hhigh h64 (hall q le_rfl (by omega))
      · rw [hkept, if_pos (by omega)]
        omega
    · case isFalse =>
      have hne' := hne
      rw [← hq] at hne'
      obtain ⟨hle, hall, hstop⟩ := backwardScan_spec _ hne'
      rw [hq] at hle hall hstop
      refine ⟨?_, by omega, hall, hfree⟩
      by_cases h64 : 64 ≤ r.slabInfo.trackingPages
      · exact hhigh h64 (hall q le_rfl (by omega))
      · by_contra hlow
        rw [h.kept (q - 1) (by omega)] at hstop
        simp [h64] at hstop
  · exact absurd hq.symm hne

theorem LiveOk.trackPages (h : LiveOk mapped r) (hr : r.slabInfo.Ok) (ht : r.slabInfo.trackingPages ≤ 512)
    (hk : r.slabInfo.keptPages ≤ q) (hq : q + n ≤ r.slabInfo.pages) (hfree : n * 4096 ≤ r.freeSpace) :
    LiveOk (markPages mapped (r.slabInfo.basePage + q) n true) (trackPages r (r.slabInfo.base + q * 4096) (n * 4096)) := by
  have hsize := hr.regionSize_eq
  have hlt := hr.regionSize_lt
  have hpages := hr.pages_lt ht
  have hfs := h.free
  have htk := trackingPages_le_keptPages (r := r.slabInfo)
  have hbegin : (r.slabInfo.base + q * 4096 - r.slabInfo.base) / pageSize = q := by
    simp only [pageSize]
    omega
  have hnp : n * 4096 / pageSize = n := Nat.mul_div_cancel _ (by decide)
  have hlast : (q + n) % 2 ^ 32 = q + n := Nat.mod_eq_of_lt (by omega)
  have hspace : (r.freeSpace + 2 ^ 64 - n * 4096) % 2 ^ 64 = r.freeSpace - n * 4096 := by omega
  simp only [Allocator64.trackPages, hbegin, hnp, hlast, hspace]
  refine ⟨fun i hi => ?_, by dsimp only at *; omega, hq, fun i hi hm => ?_, ?_⟩
  · dsimp only at hi ⊢
    rw [get_setPages, h.kept i hi]
    have : ¬ (q ≤ i ∧ i < q + n) := by omega
    simp [this]
  · dsimp only at hi hm ⊢
    rw [get_setPages]
    by_cases hin : q ≤ i ∧ i < q + n
    · simp [hin]
    · rw [markPages, if_neg (by omega)] at hm
      simp [h.mapped i hi hm]
  · dsimp only
    have := card_setPages_le r.usedPages hk hq
    omega

theorem LiveOk.untrackPages (h : LiveOk mapped r) (hr : r.slabInfo.Ok) (ht : r.slabInfo.trackingPages ≤ 512)
    (hk : r.slabInfo.keptPages ≤ q) (hq : q + n < r.slabInfo.pages) :
    LiveOk (markPages mapped (r.slabInfo.basePage + q) n false) (untrackPages r (r.slabInfo.base + q * 4096) (n * 4096)) := by
  have hsize := hr.regionSize_eq
  have hlt := hr.regionSize_lt
  have hfs := h.free
  have hpages := hr.pages_lt ht
  have htk := trackingPages_le_keptPages (r := r.slabInfo)
  have hbegin : (r.slabInfo.base + q * 4096 - r.slabInfo.base) / pageSize % 2 ^ 32 = q := by
    simp only [pageSize]
    omega
  have hnp : n * 4096 / pageSize = n := Nat.mul_div_cancel _ (by decide)
  have hcard := card_clearPages r.usedPages hk hq.le
  have hspace : (r.freeSpace + (clearPages r.usedPages q n).1 * 4096) % 2 ^ 64 =
      r.freeSpace + (clearPages r.usedPages q n).1 * 4096 := Nat.mod_eq_of_lt (by omega)
  simp only [Allocator64.untrackPages, hbegin, hnp, hspace]
  refine ⟨fun i hi => ?_, ?_, ?_, fun i hi hm => ?_, ?_⟩
  · dsimp only at hi ⊢
    rw [get_clearPages, h.kept i hi]
    have : ¬ (q ≤ i ∧ i < q + n) := by omega
    simp [this]
  · exact le_min h.last (htk.trans hk)
  · exact (min_le_left _ _).trans h.last_le
  · dsimp only at hi hm ⊢
    rw [markPages] at hm
    split at hm
    · cases hm
    · rw [get_clearPages, h.mapped i hi hm]
      simp
      omega
  · dsimp only
    omega

theorem Exact.trackPages (h : Exact mapped r) (hr : r.slabInfo.Ok) (hk : r.slabInfo.trackingPages ≤ q)
    (hq : q + n ≤ r.slabInfo.pages) (hfree : ∀ i, q ≤ i → i < q + n → r.usedPages.get i = false) :
    Exact (markPages mapped (r.slabInfo.basePage + q) n true) (trackPages r (r.slabInfo.base + q * 4096) (n * 4096)) := by
  have hlt := hr.regionSize_lt
  have hsize := hr.regionSize_eq
  have hfs := h.free
  have hbegin : (r.slabInfo.base + q * 4096 - r.slabInfo.base) / pageSize = q := by
    simp only [pageSize]
    omega
  have hnp : n * 4096 / pageSize = n := Nat.mul_div_cancel _ (by decide)
  have hcard := card_setPages_eq hk hq hfree
  -- the free pages are part of the free space, since the count of used ones cannot pass the region
  have hroom : (usedPagesIn (setPages r.usedPages q n) r.slabInfo.trackingPages r.slabInfo.pages).card ≤
      r.slabInfo.pages - r.slabInfo.trackingPages := by
    refine (Finset.card_filter_le _ _).trans ?_
    rw [Nat.card_Ico]
  have hspace : (r.freeSpace + 2 ^ 64 - n * 4096) % 2 ^ 64 = r.freeSpace - n * 4096 := by omega
  simp only [Allocator64.trackPages, hbegin, hnp, hspace]
  refine ⟨fun i hi hlt => ?_, ?_⟩
  · dsimp only at hi hlt ⊢
    rw [get_setPages, markPages]
    by_cases hin : q ≤ i ∧ i < q + n
    · rw [if_pos (by omega)]
      simp [hin]
    · rw [if_neg (by omega)]
      simpa [hin] using h.used i hi hlt
  · dsimp only
    omega

theorem Exact.untrackPages (h : Exact mapped r) (hr : r.slabInfo.Ok) (ht : r.slabInfo.trackingPages ≤ 512)
    (hk : r.slabInfo.trackingPages ≤ q) (hq : q + n < r.slabInfo.pages) :
    Exact (markPages mapped (r.slabInfo.basePage + q) n false)
      (untrackPages r (r.slabInfo.base + q * 4096) (n * 4096)) := by
  have hlt := hr.regionSize_lt
  have hpages := hr.pages_lt ht
  have hfs := h.free
  have hbegin : (r.slabInfo.base + q * 4096 - r.slabInfo.base) / pageSize % 2 ^ 32 = q := by
    simp only [pageSize]
    omega
  have hnp : n * 4096 / pageSize = n := Nat.mul_div_cancel _ (by decide)
  have hcard := card_clearPages r.usedPages hk hq.le
  have hspace : (r.freeSpace + (clearPages r.usedPages q n).1 * 4096) % 2 ^ 64 =
      r.freeSpace + (clearPages r.usedPages q n).1 * 4096 := Nat.mod_eq_of_lt (by omega)
  simp only [Allocator64.untrackPages, hbegin, hnp, hspace]
  refine ⟨fun i hi hlt => ?_, ?_⟩
  · dsimp only at hi hlt ⊢
    rw [get_clearPages, markPages]
    by_cases hin : q ≤ i ∧ i < q + n
    · rw [if_pos (by omega)]
      simp [hin]
    · rw [if_neg (by omega)]
      simpa [hin] using h.used i hi hlt
  · dsimp only
    omega

theorem trackPages_slabInfo (offset length : Nat) : (trackPages r offset length).slabInfo = r.slabInfo := by
  cases r
  rfl

theorem untrackPages_slabInfo (addr length : Nat) : (untrackPages r addr length).slabInfo = r.slabInfo := by
  cases r
  rfl

theorem LiveOk.congr (h : LiveOk mapped r) {mapped' : Nat → Bool}
    (hm : ∀ i < r.slabInfo.pages, mapped' (r.slabInfo.basePage + i) = mapped (r.slabInfo.basePage + i)) : LiveOk mapped' r :=
  ⟨h.kept, h.last, h.last_le, fun i hi hi' => h.mapped i hi (hm i hi ▸ hi'), h.free⟩

theorem Exact.congr (h : Exact mapped r) {mapped' : Nat → Bool}
    (hm : ∀ i < r.slabInfo.pages, mapped' (r.slabInfo.basePage + i) = mapped (r.slabInfo.basePage + i)) : Exact mapped' r :=
  ⟨fun i hi hlt => by rw [hm i hlt]; exact h.used i hi hlt, h.free⟩

end Live

end FexEmu.Allocator64
