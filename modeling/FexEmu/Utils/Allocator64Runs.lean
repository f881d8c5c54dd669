import FexEmu.Utils.Allocator64Proofs
/-!
# Runs of the 64-bit host allocator

Calls of `Mmap` and `Munmap` in any order, with the pages of the ranges that were returned and not unmapped since.
-/
namespace FexEmu.Allocator64
open List (mem_of_getElem? mem_singleton mem_map)

/-! ## Calls -/

/-- The calls of a run. -/
inductive Call
  | mmap (c : MmapCall)
  | munmap (addr length : Nat)

/-- The allocator and the pages that are mapped for a client. -/
structure World where
  allocator : Allocator
  mapped : Nat → Bool

def pagesOf (length : Nat) : Nat := alignUp length pageSize / pageSize

def World.step (w : World) : Call → World
  | .mmap c =>
    match mmap w.allocator c with
    | (s, .ok addr) => ⟨s, markPages w.mapped (addr / pageSize) (pagesOf c.length) true⟩
    | (s, .handed (.ok addr)) => ⟨s, markPages w.mapped (addr / pageSize) (pagesOf c.length) true⟩
    | (s, _) => ⟨s, w.mapped⟩
  | .munmap addr length =>
    match munmap w.allocator addr length with
    | (s, .error _) => ⟨s, w.mapped⟩
    | (s, _) => ⟨s, markPages w.mapped (addr / pageSize) (pagesOf length) false⟩

/-- All regions are reserved, and nothing is mapped. -/
def World.initial (regions : List ReservedVMARegion) : World := ⟨⟨regions, []⟩, fun _ => false⟩

def Allocator.regions (s : Allocator) : List ReservedVMARegion := s.reservedRegions ++ s.liveRegions.map (·.slabInfo)

/-- Two regions have no page in common. -/
def ReservedVMARegion.Apart (r r' : ReservedVMARegion) : Prop := r.regionEnd ≤ r'.base ∨ r'.regionEnd ≤ r.base

/-- The regions do not meet. -/
structure RegionsOk (regions : List ReservedVMARegion) : Prop where
  ok : ∀ r ∈ regions, r.Ok
  apart : regions.Pairwise ReservedVMARegion.Apart

/-! ## The invariant -/

/-- Every live region has `P`, and nothing is mapped in a reserved one. -/
structure Inv (P : (Nat → Bool) → LiveVMARegion → Prop) (regions : List ReservedVMARegion) (w : World) : Prop where
  perm : w.allocator.regions.Perm regions
  live : ∀ r ∈ w.allocator.liveRegions, P w.mapped r
  reserved : ∀ r ∈ w.allocator.reservedRegions, ∀ i < r.pages, w.mapped (r.basePage + i) = false

/-- What a property of a region has to have for the invariant. -/
structure RegionProp (P : (Nat → Bool) → LiveVMARegion → Prop) (regions : List ReservedVMARegion) : Prop where
  fresh : ∀ mapped, ∀ r ∈ regions, (∀ i < r.pages, mapped (r.basePage + i) = false) →
    P mapped (initializeVMARegionUsed r)
  congr : ∀ mapped mapped' r, P mapped r →
    (∀ i < r.slabInfo.pages, mapped' (r.slabInfo.basePage + i) = mapped (r.slabInfo.basePage + i)) → P mapped' r

section Invariant
variable {P : (Nat → Bool) → LiveVMARegion → Prop} {regions : List ReservedVMARegion} {w : World} {i : Nat}

theorem Inv.mem_live (h : Inv P regions w) {r : LiveVMARegion} (hr : r ∈ w.allocator.liveRegions) : r.slabInfo ∈ regions :=
  h.perm.mem_iff.mp (List.mem_append_right _ (List.mem_map_of_mem hr))

variable {r : ReservedVMARegion} {mapped : Nat → Bool}

theorem Inv.mem_reserved (h : Inv P regions w) (hr : r ∈ w.allocator.reservedRegions) : r ∈ regions :=
  h.perm.mem_iff.mp (List.mem_append_left _ hr)

theorem apart_symm : ∀ r r' : ReservedVMARegion, r.Apart r' → r'.Apart r := fun _ _ h => h.symm

theorem Inv.apart (h : Inv P regions w) (hok : RegionsOk regions) : w.allocator.regions.Pairwise ReservedVMARegion.Apart :=
  (h.perm.pairwise_iff (fun h => apart_symm _ _ h)).mpr hok.apart

theorem Inv.makeRegionActive (h : Inv P regions w) (hP : RegionProp P regions)
    (hr : w.allocator.reservedRegions[i]? = some r) :
    Inv P regions ⟨w.allocator.makeRegionActive i r, w.mapped⟩ := by
  have hmem := mem_of_getElem? hr
  refine ⟨?_, fun l hl => ?_, fun l hl => h.reserved l (List.mem_of_mem_eraseIdx hl)⟩
  · refine List.Perm.trans ?_ h.perm
    simp only [Allocator.regions, Allocator.makeRegionActive, List.map_append, List.map_cons, List.map_nil]
    have herase : w.allocator.reservedRegions.Perm (r :: w.allocator.reservedRegions.eraseIdx i) := by
      obtain ⟨hi, he⟩ := List.getElem?_eq_some_iff.mp hr
      rw [← he]
      exact (List.getElem_cons_eraseIdx_perm hi).symm
    refine List.Perm.trans ?_ (herase.symm.append_right _)
    rw [← List.append_assoc]
    exact (List.perm_append_singleton _ _)
  · rcases List.mem_append.mp hl with hl | hl
    · exact h.live l hl
    · rw [mem_singleton.mp hl]
      exact hP.fresh _ r (h.mem_reserved hmem) (h.reserved r hmem)

theorem ReservedVMARegion.Apart.pages {l : ReservedVMARegion} (h : r.Apart l) (hr : r.Ok) (hl : l.Ok) {j : Nat}
    (hj : j < l.pages) : ¬ (r.basePage ≤ l.basePage + j ∧ l.basePage + j < r.basePage + r.pages) := by
  have h1 := hr.base_eq
  have h2 := hr.regionSize_eq
  have h3 := hl.base_eq
  have h4 := hl.regionSize_eq
  simp only [ReservedVMARegion.Apart, ReservedVMARegion.regionEnd] at h
  omega

theorem Inv.modify (h : Inv P regions w) (hok : RegionsOk regions) (hP : RegionProp P regions) {r : LiveVMARegion}
    (hr : w.allocator.liveRegions[i]? = some r) {f : LiveVMARegion → LiveVMARegion} (hslab : (f r).slabInfo = r.slabInfo)
    (hPr : P mapped (f r))
    (hm : ∀ p, ¬ (r.slabInfo.basePage ≤ p ∧ p < r.slabInfo.basePage + r.slabInfo.pages) → mapped p = w.mapped p) :
    Inv P regions ⟨{ w.allocator with liveRegions := w.allocator.liveRegions.modify i f }, mapped⟩ := by
  have hrok : r.slabInfo.Ok := hok.ok _ (h.mem_live (mem_of_getElem? hr))
  have hapart := List.pairwise_append.mp (h.apart hok)
  have hlist : (w.allocator.liveRegions.modify i f).map (·.slabInfo) = w.allocator.liveRegions.map (·.slabInfo) := by
    refine List.ext_getElem? fun j => ?_
    by_cases hj : i = j
    · subst hj
      simp [hr, hslab]
    · simp [hj]
  refine ⟨?_, fun l hl => ?_, fun l hl j hj => ?_⟩
  · simp only [Allocator.regions, hlist]
    exact h.perm
  · obtain ⟨j, hj⟩ := List.mem_iff_getElem?.mp hl
    rw [List.getElem?_modify] at hj
    by_cases hij : i = j
    · subst hij
      simp only [hr, ↓reduceIte, Option.map_eq_map, Option.map_some, Option.some.injEq] at hj
      subst hj
      exact hPr
    · simp only [hij, ↓reduceIte, Option.map_eq_map, Option.map_id_fun', id_eq] at hj
      have hjl := mem_of_getElem? hj
      have hrl : r.slabInfo.Apart l.slabInfo := by
        have hpw := List.pairwise_iff_getElem.mp hapart.2.1
        obtain ⟨hi', hie⟩ := List.getElem?_eq_some_iff.mp hr
        obtain ⟨hj', hje⟩ := List.getElem?_eq_some_iff.mp hj
        rcases Nat.lt_or_gt_of_ne hij with hlt | hgt
        · have := hpw i j (by simpa using hi') (by simpa using hj') hlt
          simpa [hie, hje] using this
        · have := hpw j i (by simpa using hj') (by simpa using hi') hgt
          exact apart_symm _ _ (by simpa [hie, hje] using this)
      refine hP.congr _ _ _ (h.live l hjl) fun k hk => ?_
      exact hm _ (hrl.pages hrok (hok.ok _ (h.mem_live hjl)) hk)
  · have hrl : r.slabInfo.Apart l :=
      apart_symm _ _ (hapart.2.2 l hl r.slabInfo (List.mem_map_of_mem (mem_of_getElem? hr)))
    rw [← h.reserved l hl j hj]
    exact hm _ (hrl.pages hrok (hok.ok _ (h.mem_reserved hl)) hj)

theorem Inv.outside (h : Inv P regions w) (hP : RegionProp P regions)
    (hm : ∀ r ∈ regions, ∀ i < r.pages, mapped (r.basePage + i) = w.mapped (r.basePage + i)) :
    Inv P regions ⟨w.allocator, mapped⟩ := by
  refine ⟨h.perm, fun l hl => ?_, fun l hl j hj => ?_⟩
  · exact hP.congr _ _ _ (h.live l hl) (hm _ (h.mem_live hl))
  · exact (hm l (h.mem_reserved hl) j hj).trans (h.reserved l hl j hj)

/-- Some regions become active. -/
inductive Activates : Allocator → Allocator → Prop
  | refl (s : Allocator) : Activates s s
  | step {s s' : Allocator} {i : Nat} {r : ReservedVMARegion} : s.reservedRegions[i]? = some r →
      Activates (s.makeRegionActive i r) s' → Activates s s'

theorem Inv.activates (hP : RegionProp P regions) {s s' : Allocator} (ha : Activates s s')
    (h : Inv P regions ⟨s, mapped⟩) : Inv P regions ⟨s', mapped⟩ := by
  induction ha with
  | refl => exact h
  | step hr _ ih => exact ih (h.makeRegionActive hP hr)

end Invariant

/-! ## What the parts of Mmap do -/

section Parts
variable {k : Kernel} {length : Nat}

variable {s s' : Allocator} {offset offset' : Nat}

theorem Activates.trans {s'' : Allocator} (h : Activates s s') (h' : Activates s' s'') : Activates s s'' := by
  induction h with
  | refl => exact h'
  | step hr _ ih => exact .step hr (ih h')

theorem getElem?_of_findIdx? {α : Type} {p : α → Bool} {l : List α} {i : Nat} (h : l.findIdx? p = some i) :
    ∃ a, l[i]? = some a ∧ p a = true := by
  obtain ⟨hi, hp, -⟩ := List.findIdx?_eq_some_iff_getElem.mp h
  exact ⟨l[i], List.getElem?_eq_getElem hi, hp⟩

theorem lookupRegion_spec {addr addrEnd : Nat} {i : Option Nat} (h : lookupRegion s addr addrEnd = (s', i)) :
    Activates s s' ∧ ∀ j, i = some j → ∃ r, s'.liveRegions[j]? = some r := by
  unfold lookupRegion at h
  split at h
  · case h_1 j hj =>
    cases h
    obtain ⟨r, hr, -⟩ := getElem?_of_findIdx? hj
    refine ⟨.refl _, fun j' hj' => ?_⟩
    cases hj'
    exact ⟨r, hr⟩
  · split at h
    · cases h
      exact ⟨.refl _, fun j hj => by cases hj⟩
    · split at h
      · cases h
        exact ⟨.refl _, fun j hj => by cases hj⟩
      · case h_2 r hr =>
        cases h
        refine ⟨.step hr (.refl _), fun j hj => ?_⟩
        cases hj
        exact ⟨_, List.getElem?_concat_length⟩

theorem checkIfRangeFits_placed {r : LiveVMARegion} {start : Option Nat}
    (h : checkIfRangeFits k r length start offset = (offset', .placed)) :
    allocatedPage r length start ≠ 0 ∧ offset' = r.slabInfo.base + allocatedPage r length start * 4096 ∧
      k.mmapFixed offset' length = none := by
  unfold checkIfRangeFits at h
  dsimp only at h
  split at h
  · cases h
  · case isFalse hne =>
    split at h
    · cases h
    · case h_2 hk =>
      cases h
      exact ⟨hne, rfl, hk⟩

theorem checkIfRangeFits_eq (hk : ∀ a, k.mmapFixed a length = none) (r : LiveVMARegion) (start : Option Nat) (offset : Nat) :
    checkIfRangeFits k r length start offset =
      if allocatedPage r length start = 0 then (offset, .none)
      else (r.slabInfo.base + allocatedPage r length start * 4096, .placed) := by
  unfold checkIfRangeFits
  dsimp only
  rw [hk]
  rfl

theorem placeLive_some {l : List LiveVMARegion} {j i : Nat} (h : placeLive k length l j offset = (offset', some i)) :
    ∃ r, j ≤ i ∧ l[i - j]? = some r ∧ allocatedPage r length none ≠ 0 ∧
      offset' = r.slabInfo.base + allocatedPage r length none * 4096 ∧ k.mmapFixed offset' length = none := by
  induction l generalizing j offset with
  | nil => cases h
  | cons r rest ih =>
    rw [placeLive] at h
    split at h
    · case h_1 hf =>
      cases h
      obtain ⟨hne, ho, hk⟩ := checkIfRangeFits_placed hf
      exact ⟨r, le_rfl, by simp, hne, ho, hk⟩
    · obtain ⟨r', hj, hr', hrest⟩ := ih h
      refine ⟨r', by omega, ?_, hrest⟩
      have : i - j = (i - (j + 1)) + 1 := by omega
      rw [this, List.getElem?_cons_succ]
      exact hr'

theorem placeLive_none (hk : ∀ a, k.mmapFixed a length = none) {l : List LiveVMARegion} {j : Nat}
    (h : placeLive k length l j offset = (offset', none)) :
    offset' = offset ∧ ∀ r ∈ l, allocatedPage r length none = 0 := by
  induction l generalizing j offset with
  | nil =>
    cases h
    exact ⟨rfl, fun r hr => by cases hr⟩
  | cons r rest ih =>
    rw [placeLive, checkIfRangeFits_eq hk] at h
    by_cases h0 : allocatedPage r length none = 0
    · rw [if_pos h0] at h
      obtain ⟨ho, hall⟩ := ih h
      refine ⟨ho, fun r' hr' => ?_⟩
      rcases List.mem_cons.mp hr' with rfl | hr'
      · exact h0
      · exact hall r' hr'
    · rw [if_neg h0] at h
      cases h

theorem placeAgain_spec {fuel : Nat} {i : Option Nat} (h : placeAgain k length fuel s offset = (s', offset', i)) :
    Activates s s' ∧ (∀ j, i = some j → ∃ r, s'.liveRegions[j]? = some r ∧ allocatedPage r length none ≠ 0 ∧
      offset' = r.slabInfo.base + allocatedPage r length none * 4096 ∧ k.mmapFixed offset' length = none) ∧
      ((∀ a, k.mmapFixed a length = none) → i = none →
        offset' = offset ∧ (fuel ≠ 0 → ∀ r ∈ s.liveRegions, allocatedPage r length none = 0)) := by
  induction fuel generalizing s offset with
  | zero =>
    cases h
    exact ⟨.refl _, fun j hj => (by cases hj), fun _ _ => ⟨rfl, fun h0 => absurd rfl h0⟩⟩
  | succ fuel ih =>
    rw [placeAgain] at h
    split at h
    · case h_1 o j hj =>
      cases h
      obtain ⟨r, -, hr, hrest⟩ := placeLive_some hj
      refine ⟨.refl _, fun j' hj' => ?_, fun _ hn => by cases hn⟩
      cases hj'
      exact ⟨r, hr, hrest⟩
    · case h_2 o hnone =>
      dsimp only at h
      have hstop : (∀ a, k.mmapFixed a length = none) → o = offset ∧ ∀ r ∈ s.liveRegions, allocatedPage r length none = 0 :=
        fun hk => placeLive_none hk hnone
      split at h
      · cases h
        exact ⟨.refl _, fun j hj => (by cases hj), fun hk _ => ⟨(hstop hk).1, fun _ => (hstop hk).2⟩⟩
      · split at h
        · cases h
          exact ⟨.refl _, fun j hj => (by cases hj), fun hk _ => ⟨(hstop hk).1, fun _ => (hstop hk).2⟩⟩
        · case h_2 r hr =>
          obtain ⟨ha, hsome, hn⟩ := ih h
          exact ⟨.step hr ha, hsome, fun hk hi => ⟨(hn hk hi).1.trans (hstop hk).1, fun _ => (hstop hk).2⟩⟩

end Parts

/-! ## Mmap -/

/-- The call is neither handed to the kernel nor rejected for its arguments. -/
def MmapCall.Served (c : MmapCall) : Prop :=
  ¬ (c.addr ≠ 0 ∧ c.addr < LOWER_BOUND) ∧ c.addr % pageSize = 0 ∧ ¬ (c.fd ≠ -1 ∧ c.offset % pageSize ≠ 0) ∧
    c.addr + c.length < 2 ^ 64

def MmapCall.region (c : MmapCall) (s : Allocator) : Option LiveVMARegion :=
  (c.lookup s).2.bind ((c.lookup s).1.liveRegions[·]?)

/-- The page that the scans find from the address of the call on. -/
def MmapCall.hintPage (c : MmapCall) (r : LiveVMARegion) : Nat :=
  allocatedPage r (alignUp c.length pageSize) (some c.addr)

/-- A range of pages is in no region. -/
def Outside (regions : List ReservedVMARegion) (first n : Nat) : Prop :=
  ∀ r ∈ regions, ∀ i < r.pages, ¬ (first ≤ r.basePage + i ∧ r.basePage + i < first + n)

/-- A mapping that is handed to the kernel stays out of the regions, an address in one is behind its kept pages, a fixed
range fits into its region, the kernel grants what the allocator chose, and some live region has room if the pages found
for a hint are elsewhere. -/
structure MmapOk (regions : List ReservedVMARegion) (s : Allocator) (c : MmapCall) : Prop where
  handed : c.addr ≠ 0 → c.addr < LOWER_BOUND → ∀ addr, c.kernel.mmap = .ok addr →
    Outside regions (addr / pageSize) (pagesOf c.length)
  address : c.Served → ∀ r, c.region s = some r →
    r.slabInfo.base + r.slabInfo.keptPages * pageSize ≤ c.addr ∧ c.addr < r.slabInfo.regionEnd
  fixed : c.Served → c.mapFixed = true → c.mapFixedNoReplace = false → ∀ r, c.region s = some r →
    c.addr + alignUp c.length pageSize ≤ r.slabInfo.regionEnd ∧ alignUp c.length pageSize ≤ r.freeSpace
  kernel : c.Served → c.fixed = false → ∀ addr, c.kernel.mmapFixed addr (alignUp c.length pageSize) = none
  hint : c.Served → c.fixed = false → ∀ r, c.region s = some r →
    c.hintPage r = 0 ∨ r.slabInfo.base + c.hintPage r * pageSize = c.addr ∨
      ∃ r' ∈ (c.lookup s).1.liveRegions, allocatedPage r' (alignUp c.length pageSize) none ≠ 0

/-- Where the allocator maps a call: at a run that its search returns, or where `MAP_FIXED` asks for it. -/
def Placed (c : MmapCall) (s : Allocator) (r : LiveVMARegion) (offset : Nat) : Prop :=
  c.kernel.mmapFixed offset (alignUp c.length pageSize) = none ∧
    ((∃ start q, (start = none ∨ (start = some c.addr ∧ c.region s = some r)) ∧
      allocatedPage r (alignUp c.length pageSize) start = q ∧ q ≠ 0 ∧ offset = r.slabInfo.base + q * 4096) ∨
    (c.mapFixed = true ∧ c.mapFixedNoReplace = false ∧ c.region s = some r ∧ offset = c.addr))

/-- What a call can do. -/
inductive MmapOutcome (c : MmapCall) (s : Allocator) : Allocator × Result → Prop
  | handed : c.addr ≠ 0 → c.addr < LOWER_BOUND → MmapOutcome c s (s, .handed c.kernel.mmap)
  | error {s' : Allocator} {e : Error} : Activates s s' → MmapOutcome c s (s', .error e)
  | placed {s' : Allocator} {i offset : Nat} {r : LiveVMARegion} : c.Served → Activates s s' →
      s'.liveRegions[i]? = some r → Placed c s r offset →
      MmapOutcome c s (s'.track i offset (alignUp c.length pageSize), .ok offset)

section Mmap
variable {regions : List ReservedVMARegion} {s : Allocator} {c : MmapCall}

theorem lookup_spec : Activates s (c.lookup s).1 ∧ ∀ j, (c.lookup s).2 = some j →
    ∃ r, (c.lookup s).1.liveRegions[j]? = some r ∧ c.region s = some r := by
  have hspec : Activates s (c.lookup s).1 ∧ ∀ j, (c.lookup s).2 = some j → ∃ r, (c.lookup s).1.liveRegions[j]? = some r := by
    unfold MmapCall.lookup
    split
    · exact lookupRegion_spec rfl
    · exact ⟨.refl _, fun j hj => by cases hj⟩
  refine ⟨hspec.1, fun j hj => ?_⟩
  obtain ⟨r, hr⟩ := hspec.2 j hj
  exact ⟨r, hr, by rw [MmapCall.region, hj, Option.bind_some, hr]⟩

theorem mmapFixed_outcome (hserved : c.Served) {s' : Allocator} {e : Except Error Nat}
    (h : mmapFixed c (c.lookup s).1 (alignUp c.length pageSize) (c.lookup s).2 = (s', e)) (hfixed : c.fixed = true) :
    MmapOutcome c s (s', .ofExcept e) := by
  obtain ⟨hact, hreg⟩ := lookup_spec (s := s) (c := c)
  cases hi : (c.lookup s).2 with
  | none =>
    rw [hi] at h
    cases h
    exact .error hact
  | some i =>
    obtain ⟨r, hr, hregion⟩ := hreg i hi
    simp only [hi, mmapFixed, hr] at h
    split at h
    · split at h
      · case isTrue hfits =>
        cases h
        obtain ⟨hne, ho, hk⟩ := checkIfRangeFits_placed hfits
        exact .placed hserved hact hr ⟨hk, .inl ⟨_, _, .inr ⟨rfl, hregion⟩, rfl, hne, ho⟩⟩
      · cases h
        exact .error hact
    · case isFalse hno =>
      split at h
      · cases h
        exact .error hact
      · case h_2 hk =>
        cases h
        have hmf : c.mapFixed = true := by simpa [MmapCall.fixed, hno] using hfixed
        exact .placed hserved hact hr ⟨hk, .inr ⟨hmf, by simpa using hno, hregion, rfl⟩⟩

theorem mmapAnywhere_outcome (hserved : c.Served) (hok : MmapOk regions s c) (hfixed : c.fixed = false) {s' : Allocator}
    {e : Except Error Nat}
    (h : mmapAnywhere c (c.lookup s).1 (alignUp c.length pageSize) (c.lookup s).2 = (s', e)) :
    MmapOutcome c s (s', .ofExcept e) := by
  obtain ⟨hact, hreg⟩ := lookup_spec (s := s) (c := c)
  have hk := hok.kernel hserved hfixed
  -- the search over all live regions, after a try at the address that left some offset behind
  have hagain : ∀ offset, (offset = 0 ∨ ∃ r' ∈ (c.lookup s).1.liveRegions,
      allocatedPage r' (alignUp c.length pageSize) none ≠ 0) →
      finishMmap (alignUp c.length pageSize) (placeAgain c.kernel (alignUp c.length pageSize)
        ((c.lookup s).1.reservedRegions.length + 1) (c.lookup s).1 offset) = (s', e) →
      MmapOutcome c s (s', .ofExcept e) := by
    intro offset hoff hfin
    generalize hp : placeAgain c.kernel (alignUp c.length pageSize) ((c.lookup s).1.reservedRegions.length + 1)
      (c.lookup s).1 offset = placed at hfin
    obtain ⟨s'', offset', j⟩ := placed
    obtain ⟨ha, hsome, hnone⟩ := placeAgain_spec hp
    cases j with
    | some i =>
      cases hfin
      obtain ⟨r, hr, hne, ho, hkr⟩ := hsome i rfl
      exact .placed hserved (hact.trans ha) hr ⟨hkr, .inl ⟨_, _, .inl rfl, rfl, hne, ho⟩⟩
    | none =>
      obtain ⟨ho, hall⟩ := hnone hk rfl
      rcases hoff with h0 | ⟨r', hr', hne⟩
      · rw [finishMmap, ho, h0, if_pos rfl] at hfin
        cases hfin
        exact .error (hact.trans ha)
      · exact absurd (hall (Nat.succ_ne_zero _) r' hr') hne
  cases hi : (c.lookup s).2 with
  | none =>
    rw [hi, mmapAnywhere, tryHint] at h
    exact hagain 0 (.inl rfl) h
  | some i =>
    obtain ⟨r, hr, hregion⟩ := hreg i hi
    have hhint := hok.hint hserved hfixed r hregion
    rw [hi, mmapAnywhere] at h
    simp only [tryHint, hr, checkIfRangeFits_eq hk] at h
    by_cases h0 : allocatedPage r (alignUp c.length pageSize) (some c.addr) = 0
    · simp only [h0, ↓reduceIte] at h
      exact hagain 0 (.inl rfl) h
    · simp only [h0, ↓reduceIte] at h
      split at h
      · case h_1 o j hj =>
        split at hj
        · case isTrue ho =>
          cases hj
          cases h
          exact .placed hserved hact hr ⟨hk _, .inl ⟨_, _, .inr ⟨rfl, hregion⟩, rfl, h0, rfl⟩⟩
        · cases hj
      · case h_2 o hj =>
        split at hj
        · cases hj
        · case isFalse ho =>
          cases hj
          rcases hhint with h0' | haddr | hroom
          · exact absurd h0' h0
          · exact absurd haddr ho
          · exact hagain _ (.inr hroom) h

theorem mmap_outcome (hok : MmapOk regions s c) : MmapOutcome c s (mmap s c) := by
  unfold mmap
  split
  · case isTrue h => exact .handed h.1 h.2
  · case isFalse hh =>
    split
    · exact .error (.refl _)
    · case isFalse ha =>
      split
      · exact .error (.refl _)
      · case isFalse ho =>
        split
        · exact .error (.refl _)
        · case isFalse hl =>
          have hserved : c.Served := ⟨hh, not_not.mp ha, ho, Nat.lt_of_not_le hl⟩
          split
          · case isTrue hf => exact mmapFixed_outcome hserved rfl hf
          · case isFalse hf => exact mmapAnywhere_outcome hserved hok (by simpa using hf) rfl

end Mmap

/-! ## Munmap -/

/-- The calls that `Munmap` does not refuse. -/
def MunmapServed (addr length : Nat) : Prop :=
  LOWER_BOUND ≤ addr ∧ addr % pageSize = 0 ∧ length % pageSize = 0 ∧ addr + length < 2 ^ 64

/-- The region that `Munmap` takes a range to be in. -/
def UnmapsIn (addr length : Nat) (r : LiveVMARegion) : Prop :=
  r.slabInfo.base ≤ addr ∧ addr + length < r.slabInfo.regionEnd

/-- The calls of `Munmap` that stay out of the pages that a region keeps. -/
structure MunmapOk (regions : List ReservedVMARegion) (s : Allocator) (addr length : Nat) : Prop where
  handed : addr < LOWER_BOUND → Outside regions (addr / pageSize) (pagesOf length)
  address : MunmapServed addr length → ∀ r ∈ s.liveRegions, UnmapsIn addr length r →
    r.slabInfo.base + r.slabInfo.keptPages * pageSize ≤ addr

/-- All that Munmap can do. -/
inductive MunmapOutcome (s : Allocator) (addr length : Nat) : Allocator × MunmapResult → Prop
  | handed : addr < LOWER_BOUND → MunmapOutcome s addr length (s, .handed)
  | error {e : Error} : MunmapOutcome s addr length (s, .error e)
  | ignored : MunmapServed addr length → (∀ r ∈ s.liveRegions, ¬ UnmapsIn addr length r) →
      MunmapOutcome s addr length (s, .ok)
  | unmapped {i : Nat} {r : LiveVMARegion} : MunmapServed addr length → s.liveRegions[i]? = some r →
      UnmapsIn addr length r →
      MunmapOutcome s addr length ({ s with liveRegions := s.liveRegions.modify i (untrackPages · addr length) }, .ok)

theorem alignUp_of_aligned {length : Nat} (h : length % pageSize = 0) (hlt : length < 2 ^ 64) :
    alignUp length pageSize = length := by
  rw [alignUp, h, Nat.sub_zero, Nat.mod_self, Nat.add_zero, Nat.mod_eq_of_lt hlt]

theorem munmap_outcome (s : Allocator) (addr length : Nat) : MunmapOutcome s addr length (munmap s addr length) := by
  unfold munmap
  split
  · case isTrue h => exact .handed h
  · case isFalse hh =>
    split
    · exact .error
    · case isFalse ha =>
      split
      · exact .error
      · case isFalse hlen =>
        split
        · exact .error
        · case isFalse ho =>
          have hserved : MunmapServed addr length := by
            refine ⟨Nat.le_of_not_lt hh, not_not.mp ha, not_not.mp hlen, Nat.lt_of_not_le ho⟩
          dsimp only
          rw [alignUp_of_aligned hserved.2.2.1 (by have := hserved.2.2.2; omega)]
          split
          · case h_1 hnone =>
            refine .ignored hserved fun r hr hin => ?_
            have := List.findIdx?_eq_none_iff.mp hnone r hr
            simp [UnmapsIn] at hin this
            omega
          · case h_2 i hi =>
            obtain ⟨r, hr, hp⟩ := getElem?_of_findIdx? hi
            exact .unmapped hserved hr (by simpa [UnmapsIn] using hp)

/-- The states that calls lead to. -/
inductive Reachable (allowed : World → Call → Prop) (start : World) : World → Prop
  | refl : Reachable allowed start start
  | step {w : World} (call : Call) : Reachable allowed start w → allowed w call → Reachable allowed start (w.step call)

theorem Reachable.induction {allowed : World → Call → Prop} {start w : World} {I : World → Prop}
    (h : Reachable allowed start w) (hstart : I start) (hstep : ∀ w call, I w → allowed w call → I (w.step call)) : I w := by
  induction h with
  | refl => exact hstart
  | step _ _ ha ih => exact hstep _ _ ih ha

theorem pagesOf_mul (length : Nat) : pagesOf length * 4096 = alignUp length pageSize := by
  have hmod : alignUp length pageSize % 4096 = 0 := by
    simp only [alignUp, pageSize]
    omega
  simp only [pagesOf, pageSize] at *
  omega

theorem inv_initial {P : (Nat → Bool) → LiveVMARegion → Prop} (regions : List ReservedVMARegion) :
    Inv P regions (World.initial regions) := by
  refine ⟨?_, fun r hr => ?_, fun _ _ _ _ => rfl⟩
  · simp [Allocator.regions, World.initial]
  · cases hr

/-! ### No memory in use is handed out -/

/-- The call does not come to a defect. -/
def CallOk (regions : List ReservedVMARegion) (w : World) : Call → Prop
  | .mmap c => MmapOk regions w.allocator c
  | .munmap addr length => MunmapOk regions w.allocator addr length

/-- A range of a region behind its bitmap, of which nothing was mapped. -/
def HandedOut (regions : List ReservedVMARegion) (mapped : Nat → Bool) (addr n : Nat) : Prop :=
  ∃ r ∈ regions, r.base + r.trackingPages * pageSize ≤ addr ∧ addr + n * pageSize ≤ r.regionEnd ∧
    ∀ p, addr / pageSize ≤ p → p < addr / pageSize + n → mapped p = false

section Safe
variable {regions : List ReservedVMARegion} {w : World}

theorem regionProp_liveOk (hok : RegionsOk regions) (ht : ∀ r ∈ regions, r.trackingPages ≤ 512) : RegionProp LiveOk regions :=
  ⟨fun _ r hr hfree => liveOk_fresh (hok.ok r hr) (ht r hr) hfree, fun _ _ _ h hm => h.congr hm⟩

/-- The pages of a successful call, in its region. -/
structure PlacedAt (c : MmapCall) (s : Allocator) (r : LiveVMARegion) (offset q : Nat) : Prop where
  eq : offset = r.slabInfo.base + q * 4096
  kept : r.slabInfo.keptPages ≤ q
  inRegion : q + pagesOf c.length ≤ r.slabInfo.pages
  space : pagesOf c.length * 4096 ≤ r.freeSpace
  free : (c.mapFixed = true ∧ c.mapFixedNoReplace = false ∧ c.region s = some r ∧ offset = c.addr) ∨
    ∀ i, q ≤ i → i < q + pagesOf c.length → r.usedPages.get i = false

variable {c : MmapCall} {s : Allocator} {r : LiveVMARegion} {offset q i : Nat} {mapped : Nat → Bool}
    {P : (Nat → Bool) → LiveVMARegion → Prop}

theorem Placed.at (h : Placed c s r offset) (hserved : c.Served) (hc : MmapOk regions s c) (hlive : LiveOk mapped r)
    (hr : r.slabInfo.Ok) (ht : r.slabInfo.trackingPages ≤ 512) : ∃ q, PlacedAt c s r offset q := by
  obtain ⟨hk, hplaced⟩ := h
  have hpages := pagesOf_mul c.length
  have hpos : 0 < pagesOf c.length := by
    rcases Nat.eq_zero_or_pos (pagesOf c.length) with h0 | h0
    · rw [← hpages, h0] at hk
      exact absurd hk (c.kernel.zero offset)
    · exact h0
  rcases hplaced with ⟨start, q, hstart, hq, hne, rfl⟩ | ⟨hf, hnr, hregion, rfl⟩
  · rw [← hpages] at hq
    obtain ⟨h1, h2, h3, h4⟩ := hlive.allocatedPage hr ht hpos (fun a (ha : start = some a) => by
      rcases hstart with rfl | ⟨rfl, hregion⟩
      · cases ha
      · cases ha
        have := hc.address hserved r hregion
        simp only [pageSize] at this
        omega) hq hne
    exact ⟨q, rfl, h1, h2, h4, .inr h3⟩
  · obtain ⟨hend, hspace⟩ := hc.fixed hserved hf hnr r hregion
    obtain ⟨hlow, hhigh⟩ := hc.address hserved r hregion
    have hb := hr.base_eq
    have hs := hr.regionSize_eq
    have haddr := hserved.2.1
    simp only [pageSize, ReservedVMARegion.regionEnd] at *
    refine ⟨(c.addr - r.slabInfo.base) / 4096, ?_, ?_, ?_, ?_, .inl ⟨hf, hnr, hregion, rfl⟩⟩ <;> omega

theorem PlacedAt.page (h : PlacedAt c s r offset q) (hr : r.slabInfo.Ok) :
    offset / pageSize = r.slabInfo.basePage + q := by
  have := h.eq
  have := hr.base_eq
  simp only [pageSize]
  omega

theorem PlacedAt.unmapped (h : PlacedAt c s r offset q)
    (hlive : LiveOk mapped r) (hfixed : c.mapFixed = false ∨ c.mapFixedNoReplace = true)
    (hi : q ≤ i) (hlt : i < q + pagesOf c.length) : mapped (r.slabInfo.basePage + i) = false := by
  rcases h.free with ⟨hf, hnr, -⟩ | hfree
  · rw [hf, hnr] at hfixed
    simp at hfixed
  · by_contra hm
    have := hlive.mapped i (by have := h.inRegion; omega) (by simpa using hm)
    rw [hfree i hi hlt] at this
    cases this

theorem PlacedAt.handedOut (h : PlacedAt c s r offset q)
    (hr : r.slabInfo.Ok) (hlive : LiveOk mapped r) (hfixed : c.mapFixed = false) :
    r.slabInfo.base + r.slabInfo.trackingPages * pageSize ≤ offset ∧
      offset + pagesOf c.length * pageSize ≤ r.slabInfo.regionEnd ∧
      ∀ p, offset / pageSize ≤ p → p < offset / pageSize + pagesOf c.length → mapped p = false := by
  have htk := trackingPages_le_keptPages (r := r.slabInfo)
  have hkept := h.kept
  have hin := h.inRegion
  have hsize := hr.regionSize_eq
  have heq := h.eq
  refine ⟨?_, ?_, fun p hp hlt => ?_⟩
  · simp only [pageSize]
    omega
  · simp only [pageSize, ReservedVMARegion.regionEnd]
    omega
  · rw [h.page hr] at hp hlt
    obtain ⟨i, rfl⟩ := Nat.exists_eq_add_of_le (show r.slabInfo.basePage ≤ p by omega)
    exact h.unmapped hlive (.inl hfixed) (by omega) (by omega)

theorem Inv.placed
    (h : Inv P regions ⟨s, mapped⟩) (hok : RegionsOk regions) (hP : RegionProp P regions) {s₀ : Allocator}
    (hr : s.liveRegions[i]? = some r) (hq : PlacedAt c s₀ r offset q)
    (hPr : P (markPages mapped (r.slabInfo.basePage + q) (pagesOf c.length) true)
      (trackPages r (r.slabInfo.base + q * 4096) (pagesOf c.length * 4096))) :
    Inv P regions ⟨s.track i offset (alignUp c.length pageSize),
      markPages mapped (offset / pageSize) (pagesOf c.length) true⟩ := by
  have hrok : r.slabInfo.Ok := hok.ok _ (h.mem_live (mem_of_getElem? hr))
  rw [hq.page hrok, ← pagesOf_mul, hq.eq]
  have := hq.inRegion
  refine h.modify (f := (trackPages · (r.slabInfo.base + q * 4096) (pagesOf c.length * 4096))) hok hP hr
    (trackPages_slabInfo _ _) hPr fun p hp => ?_
  rw [markPages, if_neg (by omega)]

theorem Inv.unmapped (h : Inv P regions w) (hok : RegionsOk regions)
    (hP : RegionProp P regions) {addr length : Nat} (hserved : MunmapServed addr length)
    (hr : w.allocator.liveRegions[i]? = some r) (hin : UnmapsIn addr length r)
    (hkept : r.slabInfo.base + r.slabInfo.keptPages * pageSize ≤ addr)
    (hPr : ∀ q n, r.slabInfo.keptPages ≤ q → q + n < r.slabInfo.pages →
      P (markPages w.mapped (r.slabInfo.basePage + q) n false) (untrackPages r (r.slabInfo.base + q * 4096) (n * 4096))) :
    Inv P regions ⟨{ w.allocator with liveRegions := w.allocator.liveRegions.modify i (untrackPages · addr length) },
      markPages w.mapped (addr / pageSize) (pagesOf length) false⟩ := by
  have hrok : r.slabInfo.Ok := hok.ok _ (h.mem_live (mem_of_getElem? hr))
  have hb := hrok.base_eq
  have hs := hrok.regionSize_eq
  have hlen : pagesOf length * 4096 = length := by
    rw [pagesOf_mul, alignUp_of_aligned hserved.2.2.1 (by have := hserved.2.2.2; omega)]
  obtain ⟨-, ha, hl, -⟩ := hserved
  obtain ⟨hlow, hhigh⟩ := hin
  simp only [pageSize, ReservedVMARegion.regionEnd] at *
  obtain ⟨q, rfl⟩ : ∃ q, addr = r.slabInfo.base + q * 4096 := ⟨(addr - r.slabInfo.base) / 4096, by omega⟩
  have hpage : (r.slabInfo.base + q * 4096) / 4096 = r.slabInfo.basePage + q := by omega
  have hPr' := hPr q (pagesOf length) (by omega) (by omega)
  rw [hlen] at hPr'
  rw [hpage]
  refine h.modify (f := (untrackPages · (r.slabInfo.base + q * 4096) length)) hok hP hr
    (untrackPages_slabInfo _ _) hPr' fun p hp => ?_
  rw [markPages, if_neg (by omega)]

theorem Inv.markOutside (h : Inv P regions w) (hP : RegionProp P regions)
    {first n : Nat} (hout : Outside regions first n) (value : Bool) :
    Inv P regions ⟨w.allocator, markPages w.mapped first n value⟩ := by
  refine h.outside hP fun r hr i hi => ?_
  rw [markPages, if_neg (hout r hr i hi)]

theorem Inv.unmark (h : Inv LiveOk regions w) (first n : Nat) :
    Inv LiveOk regions ⟨w.allocator, markPages w.mapped first n false⟩ := by
  have hle : ∀ p, markPages w.mapped first n false p = true → w.mapped p = true := by
    intro p hp
    rw [markPages] at hp
    split at hp
    · cases hp
    · exact hp
  refine ⟨h.perm, fun r hr => ?_, fun r hr i hi => ?_⟩
  · have hl := h.live r hr
    exact ⟨hl.kept, hl.last, hl.last_le, fun i hi hm => hl.mapped i hi (hle _ hm), hl.free⟩
  · by_contra hm
    have := hle _ (by simpa using hm)
    rw [h.reserved r hr i hi] at this
    cases this

theorem Inv.step (hok : RegionsOk regions) (ht : ∀ r ∈ regions, r.trackingPages ≤ 512) (call : Call)
    (h : Inv LiveOk regions w) (hc : CallOk regions w call) : Inv LiveOk regions (w.step call) := by
  have hP := regionProp_liveOk hok ht
  cases call with
  | mmap c =>
    have hout := mmap_outcome hc
    rw [World.step]
    generalize mmap w.allocator c = result at hout
    cases hout with
    | handed h0 hlow =>
      cases hk : c.kernel.mmap with
      | error e => exact h
      | ok addr => exact h.markOutside hP (hc.handed h0 hlow addr hk) true
    | error ha => exact Inv.activates hP ha h
    | placed hserved ha hr hplaced =>
      have h' := Inv.activates hP ha h
      have hmem := mem_of_getElem? hr
      have hrok := hok.ok _ (h'.mem_live hmem)
      have hrt := ht _ (h'.mem_live hmem)
      obtain ⟨q, hq⟩ := hplaced.at hserved hc (h'.live _ hmem) hrok hrt
      exact h'.placed hok hP hr hq ((h'.live _ hmem).trackPages hrok hrt hq.kept hq.inRegion hq.space)
  | munmap addr length =>
    have hout := munmap_outcome w.allocator addr length
    rw [World.step]
    generalize munmap w.allocator addr length = result at hout
    cases hout with
    | handed hlow => exact h.markOutside hP (hc.handed hlow) false
    | error => exact h
    | ignored => exact h.unmark _ _
    | unmapped hserved hr hin =>
      have hmem := mem_of_getElem? hr
      have hrok := hok.ok _ (h.mem_live hmem)
      have hrt := ht _ (h.mem_live hmem)
      exact h.unmapped hok hP hserved hr hin (hc.address hserved _ hmem hin)
        fun q n hk hq => (h.live _ hmem).untrackPages hrok hrt hk hq

end Safe

/-- With regions of at most 512 tracking pages and no slip, what `Mmap` returns without `MAP_FIXED` are pages of one region
that are neither tracking pages nor mapped. -/
theorem mmap_handedOut (regions : List ReservedVMARegion) (hok : RegionsOk regions)
    (ht : ∀ r ∈ regions, r.trackingPages ≤ 512) (w : World)
    (hw : Reachable (CallOk regions) (World.initial regions) w) (c : MmapCall) (hc : CallOk regions w (.mmap c))
    (s : Allocator) (addr : Nat) (hm : mmap w.allocator c = (s, .ok addr)) (hfixed : c.mapFixed = false) :
    HandedOut regions w.mapped addr (pagesOf c.length) := by
  have h := hw.induction (inv_initial regions) fun w call hw hcall => hw.step hok ht call hcall
  have hout := mmap_outcome hc
  rw [hm] at hout
  generalize hres : ((s, .ok addr) : Allocator × Result) = result at hout
  cases hout with
  | handed => cases hres
  | error => cases hres
  | placed hserved ha hr hplaced =>
    cases hres
    have h' := Inv.activates (regionProp_liveOk hok ht) ha h
    have hmem := mem_of_getElem? hr
    have hrok := hok.ok _ (h'.mem_live hmem)
    have hrt := ht _ (h'.mem_live hmem)
    obtain ⟨q, hq⟩ := hplaced.at hserved hc (h'.live _ hmem) hrok hrt
    exact ⟨_, h'.mem_live hmem, hq.handedOut hrok (h'.live _ hmem) hfixed⟩

def anywhere (length : Nat) : MmapCall where
  addr := 0
  length := length
  mapFixed := false
  mapFixedNoReplace := false
  fd := -1
  offset := 0
  kernel := ⟨fun _ length => if length = 0 then some 22 else none, fun _ => by simp, .error 12⟩

theorem mmapOk_anywhere {regions : List ReservedVMARegion} {s : Allocator} {length : Nat}
    (h : alignUp length pageSize ≠ 0) : MmapOk regions s (anywhere length) := by
  have hregion : (anywhere length).region s = none := by
    simp [MmapCall.region, MmapCall.lookup, anywhere, MmapCall.fixed]
  refine ⟨fun h0 => absurd rfl h0, fun _ r hr => ?_, fun _ hf => ?_, fun _ _ addr => if_neg h, fun _ _ r hr => ?_⟩
  · cases hr
  · cases hf
  · cases hr

/-- A region of 16 pages, two of them tracking pages. -/
def smallRegion : ReservedVMARegion := ⟨0x100000000, 0x10000⟩

theorem smallRegion_ok : RegionsOk [smallRegion] := by
  refine ⟨fun r hr => ?_, List.pairwise_singleton _ _⟩
  rw [mem_singleton.mp hr]
  exact ⟨by decide, by decide, by decide, by decide, by decide⟩

def afterMmap : World := (World.initial [smallRegion]).step (.mmap (anywhere 0x2000))

def afterMunmap : World := afterMmap.step (.munmap 0x100002000 0x1000)

theorem unmapsIn_afterMmap {r : LiveVMARegion} (hr : r ∈ afterMmap.allocator.liveRegions) :
    r.slabInfo = smallRegion ∧ UnmapsIn 0x100002000 0x1000 r := by
  have hslab : r.slabInfo = smallRegion := by
    have := List.mem_map_of_mem (f := (·.slabInfo)) hr
    exact mem_singleton.mp this
  exact ⟨hslab, by rw [UnmapsIn, hslab]; decide⟩

theorem munmapOk_afterMmap : MunmapOk [smallRegion] afterMmap.allocator 0x100002000 0x1000 := by
  refine ⟨fun h => absurd h (by decide), fun _ r hr _ => ?_⟩
  rw [(unmapsIn_afterMmap hr).1]
  decide

/-- The page that was unmapped is handed out again. -/
theorem mmap_handedOut_again : (mmap afterMunmap.allocator (anywhere 0x1000)).2 = .ok 0x100002000 ∧
    HandedOut [smallRegion] afterMunmap.mapped 0x100002000 1 := by
  have hresult : (mmap afterMunmap.allocator (anywhere 0x1000)).2 = .ok 0x100002000 := by decide
  have hrun : Reachable (CallOk [smallRegion]) (World.initial [smallRegion]) afterMunmap :=
    .step (.munmap 0x100002000 0x1000) (.step (.mmap (anywhere 0x2000)) .refl (mmapOk_anywhere (by decide)))
      munmapOk_afterMmap
  refine ⟨hresult, mmap_handedOut [smallRegion] smallRegion_ok (by decide) afterMunmap hrun (anywhere 0x1000)
    (mmapOk_anywhere (by decide)) _ 0x100002000 (Prod.ext rfl hresult) rfl⟩

/-- A region of 64 GiB, the first 513 pages of it are tracking pages. -/
def largeRegion : ReservedVMARegion := ⟨0x100000000, 0x1000000000⟩

theorem largeRegion_ok : RegionsOk [largeRegion] := by
  refine ⟨fun r hr => ?_, List.pairwise_singleton _ _⟩
  rw [mem_singleton.mp hr]
  exact ⟨by decide, by decide, by decide, by decide, by decide⟩

/-- `MemSet` sets 512 bits for it, and the first call returns the last tracking page. -/
theorem mmap_trackingPage : ¬ ∀ regions, RegionsOk regions → ∀ w,
    Reachable (fun _ _ => True) (World.initial regions) w → ∀ c s addr, mmap w.allocator c = (s, .ok addr) →
    c.mapFixed = false → HandedOut regions w.mapped addr (pagesOf c.length) := by
  intro hall
  have hresult : (mmap (World.initial [largeRegion]).allocator (anywhere 0x1000)).2 = .ok 0x100200000 := by decide
  obtain ⟨r, hr, hlow, -⟩ := hall [largeRegion] largeRegion_ok (World.initial [largeRegion]) .refl (anywhere 0x1000) _
    0x100200000 (Prod.ext rfl hresult) rfl
  rw [mem_singleton.mp hr] at hlow
  exact absurd hlow (by decide)

/-! ### The accounting is exact -/

/-- A fixed range is free as well, and a range unmapped from a region with mapped pages begins in it and ends before its end.
-/
def CallExact (regions : List ReservedVMARegion) (w : World) : Call → Prop
  | .mmap c => MmapOk regions w.allocator c ∧
      (c.Served → c.mapFixed = true → c.mapFixedNoReplace = false → c.region w.allocator ≠ none →
        ∀ p, c.addr / pageSize ≤ p → p < c.addr / pageSize + pagesOf c.length → w.mapped p = false)
  | .munmap addr length => MunmapOk regions w.allocator addr length ∧
      (MunmapServed addr length → ∀ r ∈ w.allocator.liveRegions, UnmapsIn addr length r ∨
        ∀ i < r.slabInfo.pages, addr / pageSize ≤ r.slabInfo.basePage + i →
          r.slabInfo.basePage + i < addr / pageSize + pagesOf length → w.mapped (r.slabInfo.basePage + i) = false)

section Accounting
variable {regions : List ReservedVMARegion} {w : World}

/-- What a live region has in a run with exact accounting. -/
def ExactOk (mapped : Nat → Bool) (r : LiveVMARegion) : Prop := LiveOk mapped r ∧ Exact mapped r

theorem regionProp_exactOk (hok : RegionsOk regions) (ht : ∀ r ∈ regions, r.trackingPages < 64 ∨ r.trackingPages = 512) :
    RegionProp ExactOk regions :=
  ⟨fun _ r hr hfree => ⟨liveOk_fresh (hok.ok r hr) (by have := ht r hr; omega) hfree, exact_fresh (hok.ok r hr) (ht r hr) hfree⟩,
    fun _ _ _ h hm => ⟨h.1.congr hm, h.2.congr hm⟩⟩

theorem PlacedAt.free_of_exact {c : MmapCall} {s : Allocator} {r : LiveVMARegion} {offset q : Nat}
    (h : PlacedAt c s r offset q) (hr : r.slabInfo.Ok) {mapped : Nat → Bool} (hexact : Exact mapped r)
    (hfixed : c.mapFixed = true → c.mapFixedNoReplace = false → c.region s ≠ none →
      ∀ p, c.addr / pageSize ≤ p → p < c.addr / pageSize + pagesOf c.length → mapped p = false) :
    ∀ i, q ≤ i → i < q + pagesOf c.length → r.usedPages.get i = false := by
  rcases h.free with ⟨hf, hnr, hregion, heq⟩ | hfree
  · intro i hi hlt
    have htk := trackingPages_le_keptPages (r := r.slabInfo)
    have hkept := h.kept
    have hin := h.inRegion
    have hpage := h.page hr
    rw [heq] at hpage
    have hm := hfixed hf hnr (by rw [hregion]; simp) (r.slabInfo.basePage + i) (by omega) (by omega)
    by_contra hu
    have := (hexact.used i (by omega) (by omega)).mp (by simpa using hu)
    rw [hm] at this
    cases this
  · exact hfree

theorem Inv.ignored (h : Inv ExactOk regions w) (hP : RegionProp ExactOk regions) {first n : Nat}
    (hno : ∀ r ∈ w.allocator.liveRegions, ∀ i < r.slabInfo.pages, first ≤ r.slabInfo.basePage + i →
      r.slabInfo.basePage + i < first + n → w.mapped (r.slabInfo.basePage + i) = false) :
    Inv ExactOk regions ⟨w.allocator, markPages w.mapped first n false⟩ := by
  refine h.outside hP fun r hr i hi => ?_
  rw [markPages]
  split
  · case isTrue hin =>
    rcases List.mem_append.mp (h.perm.mem_iff.mpr hr) with hres | hlive
    · exact (h.reserved r hres i hi).symm
    · obtain ⟨l, hl, rfl⟩ := mem_map.mp hlive
      exact (hno l hl i hi hin.1 hin.2).symm
  · rfl

theorem Inv.stepExact (hok : RegionsOk regions) (ht : ∀ r ∈ regions, r.trackingPages < 64 ∨ r.trackingPages = 512)
    (call : Call) (h : Inv ExactOk regions w) (hc : CallExact regions w call) : Inv ExactOk regions (w.step call) := by
  have hP := regionProp_exactOk hok ht
  have ht512 : ∀ r ∈ regions, r.trackingPages ≤ 512 := by
    intro r hr
    have := ht r hr
    omega
  cases call with
  | mmap c =>
    have hout := mmap_outcome hc.1
    rw [World.step]
    generalize mmap w.allocator c = result at hout
    cases hout with
    | handed h0 hlow =>
      cases hk : c.kernel.mmap with
      | error e => exact h
      | ok addr => exact h.markOutside hP (hc.1.handed h0 hlow addr hk) true
    | error ha => exact Inv.activates hP ha h
    | placed hserved ha hr hplaced =>
      have h' := Inv.activates hP ha h
      have hmem := mem_of_getElem? hr
      have hrok := hok.ok _ (h'.mem_live hmem)
      have hrt := ht512 _ (h'.mem_live hmem)
      obtain ⟨hlive, hexact⟩ := h'.live _ hmem
      obtain ⟨q, hq⟩ := hplaced.at hserved hc.1 hlive hrok hrt
      have hfree := hq.free_of_exact hrok hexact (hc.2 hserved)
      exact h'.placed hok hP hr hq ⟨hlive.trackPages hrok hrt hq.kept hq.inRegion hq.space,
        hexact.trackPages hrok (trackingPages_le_keptPages.trans hq.kept) hq.inRegion hfree⟩
  | munmap addr length =>
    have hout := munmap_outcome w.allocator addr length
    rw [World.step]
    generalize munmap w.allocator addr length = result at hout
    cases hout with
    | handed hlow => exact h.markOutside hP (hc.1.handed hlow) false
    | error => exact h
    | ignored hserved hno =>
      exact h.ignored hP fun r hr => (hc.2 hserved r hr).resolve_left (hno r hr)
    | unmapped hserved hr hin =>
      have hmem := mem_of_getElem? hr
      have hrok := hok.ok _ (h.mem_live hmem)
      have hrt := ht512 _ (h.mem_live hmem)
      obtain ⟨hlive, hexact⟩ := h.live _ hmem
      exact h.unmapped hok hP hserved hr hin (hc.1.address hserved _ hmem hin) fun q n hk hq =>
        ⟨hlive.untrackPages hrok hrt hk hq,
          hexact.untrackPages hrok hrt (trackingPages_le_keptPages.trans hk) hq⟩

end Accounting

/-- Where `MemSet` sets no bit or those of the tracking pages, and calls keep the accounting: in every live region the used
pages behind the tracking pages are the mapped ones, and the free space is what they leave. -/
theorem accounting_exact (regions : List ReservedVMARegion) (hok : RegionsOk regions)
    (ht : ∀ r ∈ regions, r.trackingPages < 64 ∨ r.trackingPages = 512) (w : World)
    (hw : Reachable (CallExact regions) (World.initial regions) w) : ∀ r ∈ w.allocator.liveRegions, Exact w.mapped r := by
  have h := hw.induction (inv_initial regions) fun w call hw hcall => hw.stepExact hok ht call hcall
  exact fun r hr => (h.live r hr).2

/-- The free space of the region after the first of two pages was unmapped. -/
theorem accounting_exact_again : ∃ r ∈ afterMunmap.allocator.liveRegions, r.freeSpace = 13 * 4096 ∧
    Exact afterMunmap.mapped r := by
  have hrun : Reachable (CallExact [smallRegion]) (World.initial [smallRegion]) afterMunmap := by
    refine .step (.munmap 0x100002000 0x1000) (.step (.mmap (anywhere 0x2000)) .refl ?_) ?_
    · exact ⟨mmapOk_anywhere (by decide), fun _ hf => by cases hf⟩
    · exact ⟨munmapOk_afterMmap, fun _ r hr => .inl (unmapsIn_afterMmap hr).2⟩
  have hfree : afterMunmap.allocator.liveRegions.map (·.freeSpace) = [13 * 4096] := by decide
  obtain ⟨r, hr, hspace⟩ := mem_map.mp (hfree ▸ List.mem_singleton_self (13 * 4096))
  exact ⟨r, hr, hspace, accounting_exact [smallRegion] smallRegion_ok (by decide) afterMunmap hrun r hr⟩

def fixedPage : MmapCall := { anywhere 0x1000 with addr := 0x100004000, mapFixed := true }

/-- The second mapping of the page is subtracted from the free space again. -/
theorem accounting_fixedTwice : ¬ ∀ regions, RegionsOk regions → ∀ w,
    Reachable (fun _ _ => True) (World.initial regions) w → ∀ r ∈ w.allocator.liveRegions, Exact w.mapped r := by
  intro hall
  have hfacts : (((World.initial [smallRegion]).step (.mmap fixedPage)).step (.mmap fixedPage)).allocator.liveRegions.map
      (fun r => (r.slabInfo, r.freeSpace, (usedPagesIn r.usedPages 2 16).card)) = [(smallRegion, 12 * 4096, 1)] := by
    decide
  obtain ⟨r, hr, hrf⟩ := mem_map.mp (hfacts ▸ List.mem_singleton_self (smallRegion, 12 * 4096, 1))
  obtain ⟨hslab, hspace, hcard⟩ : r.slabInfo = smallRegion ∧ r.freeSpace = 12 * 4096 ∧
      (usedPagesIn r.usedPages 2 16).card = 1 := by simpa using hrf
  have hexact := (hall [smallRegion] smallRegion_ok _ (.step _ (.step _ .refl trivial) trivial) r hr).free
  have htracking : smallRegion.trackingPages = 2 := by decide
  have hpages : smallRegion.pages = 16 := by decide
  rw [hslab, htracking, hpages, hspace, hcard] at hexact
  exact absurd hexact (by decide)

end FexEmu.Allocator64
