import FexEmu.LinuxSyscalls.VMATrackingProofs
/-!
# Detaching shared memory

`shmdt` of Linux looks for the fragments of an attachment. `ClearShmUnsafe` follows it with the segment in place of the
attachment.
-/
namespace FexEmu.LinuxSyscalls.VMATracking

/-! ## What is unmapped -/

/-- The entry is shared memory that would start at base. -/
def StartsAt (base k : Nat) (e : VMAEntry) : Prop := base ≤ k ∧ k - base = e.offset ∧ isShm e.resource = true

/-- The first entry that shmdt at base finds. -/
structure First (D : Nat → Option VMAEntry) (base k : Nat) (e : VMAEntry) : Prop where
  found : D k = some e
  starts : StartsAt base k e
  least : ∀ j f, D j = some f → j < k → ¬ StartsAt base j f

def segmentLength (t : VMATracking) (r : Option MRID) : Nat :=
  ((r.bind t.mappedResources).map MappedResource.length).getD 0

/-- A later entry of the segment of `e` that ends within its size. -/
def Within (t : VMATracking) (base k : Nat) (e : VMAEntry) (j : Nat) (f : VMAEntry) : Prop :=
  k < j ∧ f.resource = e.resource ∧ j + f.length - base ≤ t.segmentLength e.resource

/-- What `shmdt` unmaps: `attach` tells the attachment that an entry is a fragment of. -/
def Unmapped {A : Type} (t : VMATracking) (attach : Nat → A) (base j : Nat) (f : VMAEntry) : Prop :=
  ∃ k e, First t.data base k e ∧ (j = k ∨ t.Within base k e j f ∧ attach j = attach k ∧ j - base = f.offset)

/-- What `ClearShmUnsafe` erases. -/
def Erased (t : VMATracking) (base j : Nat) (f : VMAEntry) : Prop :=
  ∃ k e, First t.data base k e ∧ (j = k ∨ t.Within base k e j f)

/-- `ClearShmUnsafe` erases what `shmdt` unmaps, and leaves all other entries. -/
def DetachesRight {A : Type} (t : VMATracking) (attach : Nat → A) (base : Nat) : Prop :=
  ∀ j f, (t.clearShmUnsafe base).1.data j = some f ↔ t.data j = some f ∧ ¬ t.Unmapped attach base j f

/-- What ClearShmUnsafe takes for one attach is one attach. -/
def OneAttachment {A : Type} (t : VMATracking) (attach : Nat → A) (base : Nat) : Prop :=
  ∀ k e, First t.data base k e → ∀ j f, t.data j = some f → t.Within base k e j f →
    attach j = attach k ∧ j - base = f.offset

/-! ## The search -/

section Search
variable {t : VMATracking} {base : Nat}

theorem First.unique {D : Nat → Option VMAEntry} {k k' : Nat} {e e' : VMAEntry} (h : First D base k e)
    (h' : First D base k' e') : k = k' ∧ e = e' := by
  have same : k = k' := by
    rcases lt_trichotomy k k' with hlt | heq | hlt
    · exact absurd h.starts (h'.least k e h.found hlt)
    · exact heq
    · exact absurd h'.starts (h.least k' e' h'.found hlt)
  subst same
  exact ⟨rfl, Option.some.inj (h.found.symm.trans h'.found)⟩

theorem startsAt_iff {k : Nat} {e : VMAEntry} (hkeyed : e.base = k) (hk : k < 2 ^ 64) :
    (base ≤ k ∧ (sub64 e.base base = e.offset && isShm e.resource) = true) ↔ StartsAt base k (unlinked e) := by
  apply and_congr_right
  intro hle
  rw [hkeyed, sub64_of_le hle hk, Bool.and_eq_true, decide_eq_true_eq]
  rfl

theorem search_spec (ht : Layout t.data) (k : Nat) (e : VMAEntry) :
    (t.vmas.entries.filter (fun e => base ≤ e.1)).find? (fun e => sub64 e.2.base base = e.2.offset && isShm e.2.resource) =
      some (k, e) ↔ t.vmas.find? k = some e ∧ First t.data base k (unlinked e) := by
  have keyed : ∀ {j f}, t.vmas.find? j = some f → f.base = j ∧ j < 2 ^ 64 := by
    intro j f hf
    have hd := data_eq_some.mpr ⟨f, hf, rfl⟩
    have hbound := ht.bounded hd
    have hkeyed := ht.keyed hd
    exact ⟨hkeyed, by omega⟩
  rw [OrderedMap.find?_eq_some_iff_min (t.vmas.sorted.filter _)]
  simp only [List.mem_filter, Prod.forall, OrderedMap.mem_entries, decide_eq_true_eq, and_assoc]
  apply and_congr_right
  intro hk
  obtain ⟨hkeyed, hlt⟩ := keyed hk
  constructor
  · rintro ⟨hle, hp, hleast⟩
    refine ⟨data_eq_some.mpr ⟨e, hk, rfl⟩, (startsAt_iff hkeyed hlt).1 ⟨hle, hp⟩, ?_⟩
    intro j f hj hjk starts
    obtain ⟨f', hf', rfl⟩ := data_eq_some.mp hj
    obtain ⟨hbj, hpj⟩ := (startsAt_iff (keyed hf').1 (keyed hf').2).2 starts
    exact absurd (hleast j f' ⟨hf', hbj⟩ hjk) (by simp [hpj])
  · rintro ⟨-, starts, hleast⟩
    obtain ⟨hle, hp⟩ := (startsAt_iff hkeyed hlt).2 starts
    refine ⟨hle, hp, ?_⟩
    rintro j f ⟨hf, hbj⟩ hjk
    rw [← Bool.not_eq_true]
    intro hpj
    exact hleast j (unlinked f) (data_eq_some.mpr ⟨f, hf, rfl⟩) hjk ((startsAt_iff (keyed hf).1 (keyed hf).2).1 ⟨hbj, hpj⟩)

end Search

/-! ## The loop -/

section Loop
variable {t : VMATracking} {base shmLength k : Nat} {r : MRID}

theorem above_data {j : Nat} {f : VMAEntry} (h : t.vmas.above k = some (j, f)) :
    t.data j = some (unlinked f) ∧ k < j ∧ ∀ i g, t.data i = some g → k < i → j ≤ i := by
  obtain ⟨hj, hkj, hmin⟩ := (OrderedMap.above_eq_some _ _ _ _).mp h
  refine ⟨data_eq_some.mpr ⟨f, hj, rfl⟩, hkj, ?_⟩
  intro i g hi hki
  obtain ⟨g', hg', -⟩ := data_eq_some.mp hi
  exact hmin i g' hg' hki

theorem above_none_data (h : t.vmas.above k = none) {j : Nat} {f : VMAEntry} (hj : t.data j = some f) : j ≤ k := by
  obtain ⟨f', hf', -⟩ := data_eq_some.mp hj
  exact (OrderedMap.above_eq_none _ _).mp h j f' hf'

def keysAbove (t : VMATracking) (k : Nat) : Finset Nat := ((t.vmas.entries.map Prod.fst).toFinset).filter (k < ·)

theorem mem_keysAbove {j : Nat} : j ∈ t.keysAbove k ↔ t.data j ≠ none ∧ k < j := by
  unfold keysAbove
  rw [Finset.mem_filter, List.mem_toFinset, List.mem_map]
  apply and_congr_left
  intro _
  constructor
  · rintro ⟨⟨i, f⟩, hf, rfl⟩
    have hd := data_eq_some.mpr ⟨f, (OrderedMap.mem_entries _ _ _).mp hf, rfl⟩
    exact hd ▸ Option.some_ne_none _
  · intro hj
    obtain ⟨f, hf⟩ := Option.ne_none_iff_exists'.1 hj
    obtain ⟨f', hf', -⟩ := data_eq_some.mp hf
    exact ⟨(j, f'), (OrderedMap.mem_entries _ _ _).mpr hf', rfl⟩

theorem detached_data (t : VMATracking) (k : Nat) (r : MRID) (j : Nat) (f : VMAEntry) :
    (if (t.vma k).resource = some r then removeMapping none t k (t.vma k) else t).data j = some f ↔
      t.data j = some f ∧ ¬ (j = k ∧ f.resource = some r) := by
  have owner : ∀ g, t.data k = some g → g.resource = (t.vma k).resource := by
    intro g hg
    obtain ⟨g', hg', rfl⟩ := data_eq_some.mp hg
    rw [vma, hg']
    rfl
  by_cases hjk : j = k
  · subst hjk
    split_ifs with hr
    · rw [data_removeMapping, Function.update_self]
      refine iff_of_false nofun ?_
      rintro ⟨hf, hno⟩
      exact hno ⟨rfl, (owner f hf).trans hr⟩
    · refine (and_iff_left_of_imp ?_).symm
      rintro hf ⟨-, hfr⟩
      exact hr ((owner f hf).symm.trans hfr)
  · have same : (if (t.vma k).resource = some r then removeMapping none t k (t.vma k) else t).data j = t.data j := by
      split_ifs
      · rw [data_removeMapping, Function.update_of_ne hjk]
      · rfl
    rw [same]
    exact (and_iff_left fun h => hjk h.1).symm

theorem layout_of_subset {D D' : Nat → Option VMAEntry} (h : Layout D) (hsub : ∀ j f, D' j = some f → D j = some f) :
    Layout D' :=
  ⟨fun hk => h.keyed (hsub _ _ hk), fun hk => h.bounded (hsub _ _ hk),
    fun hk hj hkj => h.disjoint (hsub _ _ hk) (hsub _ _ hj) hkj⟩

theorem clearShmLoop_data : ∀ (fuel k : Nat) (t : VMATracking), Layout t.data → base ≤ k → (t.keysAbove k).card < fuel →
    ∀ j f, (clearShmLoop base shmLength r fuel k t).data j = some f ↔
      t.data j = some f ∧ ¬ (f.resource = some r ∧ (j = k ∨ k < j ∧ j + f.length - base ≤ shmLength)) := by
  intro fuel
  induction fuel with
  | zero =>
    omega
  | succ fuel ih =>
    intro k t ht hbk hfuel j f
    have hdetached := detached_data t k r
    unfold clearShmLoop
    dsimp only
    generalize (if (t.vma k).resource = some r then removeMapping none t k (t.vma k) else t) = t' at hdetached ⊢
    have hlay := layout_of_subset ht fun j f hj => ((hdetached j f).1 hj).1
    cases ha : t'.vmas.above k with
    | none =>
      -- nothing is left above
      rw [hdetached]
      refine and_congr_right (fun hj => not_congr ?_)
      have hle : k < j → False := fun hkj => absurd (above_none_data ha ((hdetached j f).2 ⟨hj, by omega⟩)) (by omega)
      tauto
    | some x =>
      obtain ⟨next, e⟩ := x
      obtain ⟨hnext, hkn, hmin⟩ := above_data ha
      have hkeyed := hlay.keyed hnext
      have hbound := hlay.bounded hnext
      change e.base = next at hkeyed
      change 0 < e.length ∧ next + e.length < 2 ^ 64 at hbound
      dsimp only
      rw [hkeyed, add64_of_lt hbound.2, sub64_of_le (by omega) hbound.2]
      have hbehind : ∀ {j f}, t.data j = some f → k < j → t'.data j = some f ∧ next ≤ j := by
        intro j f hj hkj
        have hj' := (hdetached j f).2 ⟨hj, by omega⟩
        exact ⟨hj', hmin j f hj' hkj⟩
      by_cases hin : next + e.length - base ≤ shmLength
      · rw [if_pos hin]
        -- the loop goes on from the next entry, so that fewer are above
        have hfewer : (t'.keysAbove next).card < (t.keysAbove k).card := by
          apply Finset.card_lt_card
          refine (Finset.ssubset_iff_of_subset ?_).2 ⟨next, ?_, ?_⟩
          · intro i hi
            obtain ⟨hi, hni⟩ := mem_keysAbove.1 hi
            obtain ⟨g, hg⟩ := Option.ne_none_iff_exists'.1 hi
            exact mem_keysAbove.2 ⟨by simp [((hdetached i g).1 hg).1], by omega⟩
          · exact mem_keysAbove.2 ⟨by simp [((hdetached next _).1 hnext).1], hkn⟩
          · exact fun hself => absurd (mem_keysAbove.1 hself).2 (lt_irrefl _)
        rw [ih next t' hlay (by omega) (by omega), hdetached, and_assoc]
        refine and_congr_right (fun hj => ?_)
        have hsame : j = next → j + f.length - base ≤ shmLength := by
          rintro rfl
          obtain rfl := Option.some.inj (((hdetached j _).1 hnext).1.symm.trans hj)
          exact hin
        have hle : k < j → next ≤ j := fun hkj => (hbehind hj hkj).2
        by_cases hr : f.resource = some r
        · by_cases hjn : j = next
          · exact iff_of_false (fun h => h.2 ⟨hr, .inl hjn⟩) (fun h => h ⟨hr, .inr ⟨by omega, hsame hjn⟩⟩)
          · have hcase : next < j ↔ k < j := ⟨fun h => by omega, fun h => by have := hle h; omega⟩
            simp [hr, hjn, hcase]
        · simp [hr]
      · rw [if_neg hin, hdetached]
        refine and_congr_right (fun hj => not_congr ?_)
        -- the next entry ends behind the segment, and so do all above it
        have hout : k < j → ¬ j + f.length - base ≤ shmLength := by
          intro hkj
          obtain ⟨hj', hle⟩ := hbehind hj hkj
          rcases Nat.lt_or_eq_of_le hle with hlt | rfl
          · have hd := hlay.disjoint hnext hj' hlt
            change next + e.length ≤ j at hd
            omega
          · obtain rfl := Option.some.inj (hnext.symm.trans hj')
            exact hin
        tauto

end Loop

/-! ## The operation -/

section Operation
variable {A : Type} {t : VMATracking} {attach : Nat → A} {base : Nat}

theorem card_keysAbove_lt {k : Nat} (hk : t.data k ≠ none) : (t.keysAbove k).card < t.vmas.entries.length := by
  have hin : k ∈ (t.vmas.entries.map Prod.fst).toFinset := by
    obtain ⟨f, hf⟩ := Option.ne_none_iff_exists'.1 hk
    obtain ⟨f', hf', -⟩ := data_eq_some.mp hf
    exact List.mem_toFinset.2 (List.mem_map.2 ⟨(k, f'), (OrderedMap.mem_entries _ _ _).mpr hf', rfl⟩)
  calc (t.keysAbove k).card < ((t.vmas.entries.map Prod.fst).toFinset).card := by
        apply Finset.card_lt_card
        refine (Finset.ssubset_iff_of_subset (Finset.filter_subset _ _)).2 ⟨k, hin, ?_⟩
        exact fun hself => absurd (Finset.mem_filter.1 hself).2 (lt_irrefl _)
    _ ≤ (t.vmas.entries.map Prod.fst).length := List.toFinset_card_le _
    _ = t.vmas.entries.length := List.length_map _

theorem isShm_some {r : Option MRID} (h : isShm r = true) : ∃ s, r = some s := by
  cases r with
  | none => simp [isShm] at h
  | some s => exact ⟨s, rfl⟩

theorem clearShmUnsafe_data (ht : Layout t.data) (j : Nat) (f : VMAEntry) :
    (t.clearShmUnsafe base).1.data j = some f ↔ t.data j = some f ∧ ¬ t.Erased base j f := by
  unfold clearShmUnsafe
  cases hs : (t.vmas.entries.filter (fun e => base ≤ e.1)).find? (fun e =>
      sub64 e.2.base base = e.2.offset && isShm e.2.resource) with
  | none =>
    refine (and_iff_left_of_imp ?_).symm
    rintro - ⟨k, e, first, -⟩
    obtain ⟨e', he', rfl⟩ := data_eq_some.mp first.found
    rw [(search_spec ht k e').2 ⟨he', first⟩] at hs
    cases hs
  | some x =>
    obtain ⟨k, e⟩ := x
    obtain ⟨hk, first⟩ := (search_spec ht k e).1 hs
    obtain ⟨r, hr⟩ : ∃ r, e.resource = some r := isShm_some first.starts.2.2
    dsimp only
    rw [hr]
    have hkeys : t.data k ≠ none := by simp [first.found]
    rw [clearShmLoop_data _ k t ht first.starts.1 (card_keysAbove_lt hkeys)]
    refine and_congr_right (fun hj => not_congr ?_)
    have hsegment : t.segmentLength e.resource = ((t.mappedResources r).map MappedResource.length).getD 0 := by
      rw [hr]
      rfl
    constructor
    · rintro ⟨hf, rfl | ⟨hkj, hin⟩⟩
      · exact ⟨j, _, first, .inl rfl⟩
      · exact ⟨k, _, first, .inr ⟨hkj, hf.trans hr.symm, hin.trans_eq hsegment.symm⟩⟩
    · rintro ⟨k', e', first', h⟩
      obtain ⟨rfl, rfl⟩ := first.unique first'
      rcases h with rfl | ⟨hkj, hf, hin⟩
      · obtain rfl := Option.some.inj (first.found.symm.trans hj)
        exact ⟨hr, .inl rfl⟩
      · exact ⟨hf.trans hr, .inr ⟨hkj, hin.trans_eq hsegment⟩⟩

theorem unmapped_iff {k j : Nat} {e f : VMAEntry} (first : First t.data base k e) :
    t.Unmapped attach base j f ↔ j = k ∨ t.Within base k e j f ∧ attach j = attach k ∧ j - base = f.offset := by
  constructor
  · rintro ⟨k', e', first', h⟩
    obtain ⟨rfl, rfl⟩ := first.unique first'
    exact h
  · exact fun h => ⟨k, e, first, h⟩

theorem oneAttachment_of_detachesRight (ht : Layout t.data) (right : t.DetachesRight attach base) :
    t.OneAttachment attach base := by
  intro k e first j f hj within
  have gone : ¬ (t.clearShmUnsafe base).1.data j = some f := fun h =>
    ((clearShmUnsafe_data ht j f).1 h).2 ⟨k, e, first, .inr within⟩
  have unmapped : t.Unmapped attach base j f := by
    by_contra h
    exact gone ((right j f).2 ⟨hj, h⟩)
  rcases (unmapped_iff first).1 unmapped with rfl | h
  · exact absurd within.1 (lt_irrefl _)
  · exact h.2

theorem detachesRight_of_oneAttachment (ht : Layout t.data) (one : t.OneAttachment attach base) :
    t.DetachesRight attach base := by
  intro j f
  rw [clearShmUnsafe_data ht]
  refine and_congr_right (fun hj => not_congr ?_)
  constructor
  · rintro ⟨k, e, first, h⟩
    exact ⟨k, e, first, h.imp_right fun within => ⟨within, one k e first j f hj within⟩⟩
  · rintro ⟨k, e, first, h⟩
    exact ⟨k, e, first, h.imp_right And.left⟩

end Operation

/-- What is erased is what `shmdt` unmaps if and only if, of the segment and within its size, nothing is left of another
attachment or at another place. -/
theorem clearShmUnsafe_unmaps_iff {A : Type} (t : VMATracking) (ht : Layout t.data) (attach : Nat → A) (base : Nat) :
    t.DetachesRight attach base ↔ t.OneAttachment attach base :=
  ⟨oneAttachment_of_detachesRight ht, detachesRight_of_oneAttachment ht⟩

/-! ### Two attachments -/

def segment : MRID := ⟨shmDev, 7⟩

def attachAt (t : VMATracking) (base : Nat) : VMATracking :=
  (t.emplaceResource segment ⟨none, 0x4000⟩).setUnsafe (some segment) base 0 0x4000 ⟨true⟩ ⟨true, true, false⟩

/-- The first page of an attachment, and the first page of another one behind it. -/
def twoAttachments : VMATracking :=
  (((empty.attachAt 0x1000).clearUnsafe 0x2000 0x3000 none).attachAt 0x2000).clearUnsafe 0x3000 0x3000 none

theorem layout_attachAt {t : VMATracking} (h : Layout t.data) {base : Nat} (hwrap : base + 0x4000 < 2 ^ 64) :
    Layout (t.attachAt base).data := by
  have registered : Layout (t.emplaceResource segment ⟨none, 0x4000⟩).data := h
  exact (setUnsafe_layout registered (some segment) (by decide) hwrap 0 ⟨true⟩ ⟨true, true, false⟩).1

theorem twoAttachments_layout : Layout twoAttachments.data :=
  (clearUnsafe_cleared (layout_attachAt (clearUnsafe_cleared (layout_attachAt layout_empty (by decide)) (by decide) none).1
    (by decide)) (by decide) none).1

def page (base : Nat) : VMAEntry := ⟨some segment, none, none, base, 0, 0x1000, ⟨true⟩, ⟨true, true, false⟩⟩

theorem twoAttachments_first (base : Nat) (h : twoAttachments.data base = some (page base)) :
    First twoAttachments.data base base (page base) where
  found := h
  starts := ⟨le_rfl, Nat.sub_self base, rfl⟩
  least _ _ _ hlt starts := absurd starts.1 (not_le.mpr hlt)

/-- An attachment with a page unmapped in it, and another one above. -/
def splitAttachment : VMATracking := ((empty.attachAt 0x1000).clearUnsafe 0x2000 0x1000 none).attachAt 0x8000

theorem splitAttachment_layout : Layout splitAttachment.data :=
  layout_attachAt (clearUnsafe_cleared (layout_attachAt layout_empty (by decide)) (by decide) none).1 (by decide)

theorem splitAttachment_keys {j : Nat} {f : VMAEntry} (h : splitAttachment.data j = some f) :
    j = 0x1000 ∨ j = 0x3000 ∨ j = 0x8000 := by
  have keys : splitAttachment.vmas.entries.map Prod.fst = [0x1000, 0x3000, 0x8000] := rfl
  obtain ⟨f', hf', -⟩ := data_eq_some.mp h
  have mem := List.mem_map_of_mem (f := Prod.fst) ((OrderedMap.mem_entries _ _ _).mpr hf')
  rw [keys] at mem
  simpa using mem

/-- Both entries of the attachment go, and the other one stays. -/
theorem clearShmUnsafe_unmaps_split : splitAttachment.DetachesRight (fun k => decide (k < 0x8000)) 0x1000 ∧
    (splitAttachment.clearShmUnsafe 0x1000).1.vmas.entries.map Prod.fst = [0x8000] := by
  refine ⟨(clearShmUnsafe_unmaps_iff splitAttachment splitAttachment_layout _ 0x1000).2 ?_, rfl⟩
  have lower : First splitAttachment.data 0x1000 0x1000 (page 0x1000) :=
    ⟨rfl, ⟨le_rfl, rfl, rfl⟩, fun _ _ _ hlt starts => absurd starts.1 (not_le.mpr hlt)⟩
  intro k e first j f hj within
  obtain ⟨rfl, rfl⟩ := first.unique lower
  rcases splitAttachment_keys hj with rfl | rfl | rfl
  · exact absurd within.1 (lt_irrefl _)
  · cases hj
    exact ⟨rfl, rfl⟩
  · cases hj
    exact absurd within.2.2 (by decide)

/-- The first page goes with the other attachment. -/
theorem clearShmUnsafe_erases_other : ¬ twoAttachments.DetachesRight (fun k => decide (k = 0x1000)) 0x1000 := by
  intro right
  have first := twoAttachments_first 0x1000 rfl
  have second : twoAttachments.data 0x2000 = some (page 0x2000) := rfl
  have within : twoAttachments.Within 0x1000 0x1000 (page 0x1000) 0x2000 (page 0x2000) := ⟨by decide, rfl, by decide⟩
  have one := oneAttachment_of_detachesRight twoAttachments_layout right _ _ first _ _ second within
  exact absurd one.1 (by decide)

end FexEmu.LinuxSyscalls.VMATracking
