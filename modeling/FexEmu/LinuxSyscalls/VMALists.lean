import FexEmu.Data.IntrusiveList
import FexEmu.LinuxSyscalls.VMATrackingProofs
/-!
# The lists of the resources

The entries of a resource form one list from `FirstVMA` on. `Inv` says so next to the layout of the mappings.
-/
namespace FexEmu.LinuxSyscalls.VMATracking

open IntrusiveList
open Function (update_eq_self update_of_ne update_self update)

/-! ## The links -/

def next (t : VMATracking) (k : Nat) : Option Nat := (t.vma k).resourceNextVMA

def prev (t : VMATracking) (k : Nat) : Option Nat := (t.vma k).resourcePrevVMA

def owner (t : VMATracking) (k : Nat) : Option MRID := (t.vma k).resource

/-- The lists of the resources are the entries of `VMAs` with this resource. -/
def Mirrors (t : VMATracking) : Prop := Owned t.firstVMA t.next t.prev t.owner

theorem owner_eq_data (t : VMATracking) (k : Nat) : t.owner k = (t.data k).bind VMAEntry.resource := by
  unfold owner vma data
  cases t.vmas.find? k <;> rfl

variable {t t' : VMATracking} {k j new top base : Nat} {e : VMAEntry} {r : MRID}

theorem vma_of_find (h : t.vmas.find? k = some e) : t.vma k = e := by
  rw [vma, h, Option.getD_some]

theorem find_of_owner (h : t.owner k = some r) : t.vmas.find? k = some (t.vma k) := by
  unfold owner at h
  cases hf : t.vmas.find? k with
  | some e => rw [vma_of_find hf]
  | none =>
    rw [vma, hf] at h
    cases h

theorem find_of_data (h : t.data k = none) : t.vmas.find? k = none :=
  Option.map_eq_none_iff.mp h

section links
variable {t : VMATracking} {k : Nat}

variable {e : VMAEntry}

theorem vma_modify (h : t.vmas.find? k = some e) (f : VMAEntry → VMAEntry) :
    ({ t with vmas := t.vmas.modify k f } : VMATracking).vma = update t.vma k (f e) := by
  funext j
  unfold vma
  rw [OrderedMap.find?_modify]
  by_cases hj : j = k
  · subst hj
    rw [if_pos rfl, update_self, h]
    rfl
  · rw [if_neg hj, update_of_ne hj]

theorem modify_field {α : Type} (g : VMAEntry → α) (f : VMAEntry → VMAEntry) (h : ∀ e, g (f e) = g e) (j : Nat) :
    g (({ t with vmas := t.vmas.modify k f } : VMATracking).vma j) = g (t.vma j) := by
  unfold vma
  rw [OrderedMap.find?_modify]
  by_cases hj : j = k
  · subst hj
    rw [if_pos rfl]
    cases t.vmas.find? j with
    | none => rfl
    | some e => exact h e
  · rw [if_neg hj]

@[simp] theorem prev_setNext (n : Option Nat) : (t.setNext k n).prev = t.prev :=
  funext (modify_field VMAEntry.resourcePrevVMA _ (fun _ => rfl))

@[simp] theorem next_setPrev (p : Option Nat) : (t.setPrev k p).next = t.next :=
  funext (modify_field VMAEntry.resourceNextVMA _ (fun _ => rfl))

@[simp] theorem next_setLength (n : Nat) : (t.setLength k n).next = t.next :=
  funext (modify_field VMAEntry.resourceNextVMA _ (fun _ => rfl))

@[simp] theorem prev_setLength (n : Nat) : (t.setLength k n).prev = t.prev :=
  funext (modify_field VMAEntry.resourcePrevVMA _ (fun _ => rfl))

@[simp] theorem owner_setLength (n : Nat) : (t.setLength k n).owner = t.owner :=
  funext (modify_field VMAEntry.resource _ (fun _ => rfl))

@[simp] theorem next_setProt (p : VMAProt) : (t.setProt k p).next = t.next :=
  funext (modify_field VMAEntry.resourceNextVMA _ (fun _ => rfl))

@[simp] theorem prev_setProt (p : VMAProt) : (t.setProt k p).prev = t.prev :=
  funext (modify_field VMAEntry.resourcePrevVMA _ (fun _ => rfl))

@[simp] theorem owner_setProt (p : VMAProt) : (t.setProt k p).owner = t.owner :=
  funext (modify_field VMAEntry.resource _ (fun _ => rfl))

theorem next_setNext (h : t.vmas.find? k = some e) (n : Option Nat) :
    (t.setNext k n).next = update t.next k n := by
  funext j
  unfold next setNext
  rw [vma_modify h]
  by_cases hj : j = k
  · subst hj
    rw [update_self, update_self]
  · rw [update_of_ne hj, update_of_ne hj]

theorem prev_setPrev (h : t.vmas.find? k = some e) (p : Option Nat) :
    (t.setPrev k p).prev = update t.prev k p := by
  funext j
  unfold prev setPrev
  rw [vma_modify h]
  by_cases hj : j = k
  · subst hj
    rw [update_self, update_self]
  · rw [update_of_ne hj, update_of_ne hj]

theorem vma_emplaceVMA (h : t.vmas.find? k = none) (e : VMAEntry) :
    (t.emplaceVMA k e).vma = update t.vma k e := by
  funext j
  unfold vma emplaceVMA
  rw [OrderedMap.find?_emplace, h]
  by_cases hj : j = k
  · subst hj
    rw [if_pos rfl, update_self]
    rfl
  · rw [if_neg hj, update_of_ne hj]

theorem vma_eraseVMA : (t.eraseVMA k).vma = update t.vma k default := by
  funext j
  unfold vma eraseVMA
  rw [OrderedMap.find?_erase]
  by_cases hj : j = k
  · subst hj
    rw [if_pos rfl, update_self]
    rfl
  · rw [if_neg hj, update_of_ne hj]

theorem owner_of_data {t' : VMATracking} (h : t'.data = t.data) : t'.owner = t.owner := by
  funext j
  rw [owner_eq_data, owner_eq_data, h]

theorem firstVMA_setFirst {r : MRID} (h : (t.mappedResources r).isSome) (f : Option Nat) :
    (t.setFirst r f).firstVMA = update t.firstVMA r f := by
  funext s
  unfold firstVMA setFirst
  by_cases hs : s = r
  · subst hs
    obtain ⟨m, hm⟩ := Option.isSome_iff_exists.mp h
    dsimp only
    rw [update_self, update_self, hm]
    rfl
  · dsimp only
    rw [update_of_ne hs, update_of_ne hs]

theorem registered_setFirst (r s : MRID) (f : Option Nat) :
    ((t.setFirst r f).mappedResources s).isSome = (t.mappedResources s).isSome := by
  unfold setFirst
  by_cases hs : s = r
  · subst hs
    simp
  · simp [update_of_ne hs]

end links

/-- The mappings are laid out, the lists mirror them, and a resource is registered if its list is not empty or it is kept. -/
structure Inv (t : VMATracking) (kept : Option MRID) : Prop where
  layout : Layout t.data
  mirrors : Mirrors t
  resources : ∀ r, (t.mappedResources r).isSome ↔ (∃ k, t.owner k = some r) ∨ kept = some r

variable {t : VMATracking} {kept : Option MRID} {k : Nat} {cur : VMAEntry}

theorem Inv.registered (h : Inv t kept) (hk : t.owner k = some r) : (t.mappedResources r).isSome :=
  (h.resources r).mpr (Or.inl ⟨k, hk⟩)

theorem owner_of_find (hk : t.vmas.find? k = some cur) (hr : cur.resource = some r) : t.owner k = some r := by
  rw [owner, vma_of_find hk, hr]

/-! ### List operations -/

theorem find_of_link (hm : Mirrors t) (hk : t.owner k = some r) :
    (∀ j, t.prev k = some j → t.vmas.find? j = some (t.vma j)) ∧
    (∀ j, t.next k = some j → t.vmas.find? j = some (t.vma j)) :=
  ⟨fun _ hj => find_of_owner (hm.owner_prev hk hj), fun _ hj => find_of_owner (hm.owner_next hk hj)⟩

theorem next_linkNext {p : Option Nat} (h : ∀ j, p = some j → t.vmas.find? j = some (t.vma j)) (n : Option Nat) :
    (t.linkNext p n).next = setAt t.next p n := by
  cases p with
  | none => rfl
  | some p => exact next_setNext (h p rfl) n

theorem prev_linkPrev {n : Option Nat} (h : ∀ j, n = some j → t.vmas.find? j = some (t.vma j)) (p : Option Nat) :
    (t.linkPrev n p).prev = setAt t.prev n p := by
  cases n with
  | none => rfl
  | some n => exact prev_setPrev (h n rfl) p

@[simp] theorem prev_linkNext (p n : Option Nat) : (t.linkNext p n).prev = t.prev := by
  cases p with
  | none => rfl
  | some p => exact prev_setNext n

@[simp] theorem next_linkPrev (n p : Option Nat) : (t.linkPrev n p).next = t.next := by
  cases n with
  | none => rfl
  | some n => exact next_setPrev p

@[simp] theorem mappedResources_linkNext (p n : Option Nat) : (t.linkNext p n).mappedResources = t.mappedResources := by
  cases p <;> rfl

@[simp] theorem mappedResources_linkPrev (n p : Option Nat) : (t.linkPrev n p).mappedResources = t.mappedResources := by
  cases n <;> rfl

@[simp] theorem firstVMA_linkNext (p n : Option Nat) : (t.linkNext p n).firstVMA = t.firstVMA := by
  cases p <;> rfl

@[simp] theorem firstVMA_linkPrev (n p : Option Nat) : (t.linkPrev n p).firstVMA = t.firstVMA := by
  cases n <;> rfl

theorem find_isSome_of_data (h : t'.data = t.data) (j : Nat) : (t'.vmas.find? j).isSome = (t.vmas.find? j).isSome := by
  have hj := congrFun h j
  unfold data at hj
  have hsome := congrArg Option.isSome hj
  rwa [Option.isSome_map, Option.isSome_map] at hsome

theorem find_eq_vma (h : t'.data = t.data) (hj : t.vmas.find? j = some (t.vma j)) :
    t'.vmas.find? j = some (t'.vma j) := by
  have hsome := find_isSome_of_data h j
  rw [hj, Option.isSome_some] at hsome
  obtain ⟨e, he⟩ := Option.isSome_iff_exists.mp hsome
  rw [he, vma_of_find he]

section listOps
variable {r : MRID} (h : Inv t kept) (hk : t.owner k = some r)
include h hk

theorem listRemove_links :
    let t' := (t.listRemove k r).1
    t'.firstVMA = update t.firstVMA r (if t.firstVMA r = some k then t.next k else t.firstVMA r) ∧
    t'.next = setAt t.next (t.prev k) (t.next k) ∧ t'.prev = setAt t.prev (t.next k) (t.prev k) ∧
    (∀ s, (t'.mappedResources s).isSome = (t.mappedResources s).isSome) ∧
    (t.listRemove k r).2 = (t'.firstVMA r).isNone := by
  intro t'
  obtain ⟨hprev, hnext⟩ := find_of_link h.mirrors hk
  have hreg := h.registered hk
  have hn : ((t.linkNext (t.prev k) (t.next k)).linkPrev (t.next k) (t.prev k)).next =
      setAt t.next (t.prev k) (t.next k) := by
    rw [next_linkPrev, next_linkNext hprev]
  have hp : ((t.linkNext (t.prev k) (t.next k)).linkPrev (t.next k) (t.prev k)).prev =
      setAt t.prev (t.next k) (t.prev k) := by
    rw [prev_linkPrev, prev_linkNext]
    intro j hj
    exact find_eq_vma (data_linkNext t _ _) (hnext j hj)
  have ht' : t' = if t.firstVMA r = some k then
      ((t.linkNext (t.prev k) (t.next k)).linkPrev (t.next k) (t.prev k)).setFirst r (t.next k)
      else (t.linkNext (t.prev k) (t.next k)).linkPrev (t.next k) (t.prev k) := by
    show (t.listRemove k r).1 = _
    unfold listRemove
    simp only [firstVMA_linkPrev, firstVMA_linkNext]
    rfl
  refine ⟨?_, ?_, ?_, ?_, rfl⟩ <;> rw [ht'] <;> by_cases hf : t.firstVMA r = some k
  · rw [if_pos hf, if_pos hf, firstVMA_setFirst (by simpa using hreg), firstVMA_linkPrev, firstVMA_linkNext]
  · rw [if_neg hf, if_neg hf, firstVMA_linkPrev, firstVMA_linkNext, update_eq_self]
  · rw [if_pos hf]
    exact hn
  · rw [if_neg hf]
    exact hn
  · rw [if_pos hf]
    exact hp
  · rw [if_neg hf]
    exact hp
  · intro s
    rw [if_pos hf, registered_setFirst]
    simp
  · rw [if_neg hf]
    simp

end listOps

section links
variable {r : MRID} (new : Nat) (hnext : ∀ j, t.next k = some j → t.vmas.find? j = some (t.vma j))
include hnext

theorem listReplace_links (hprev : ∀ j, t.prev k = some j → t.vmas.find? j = some (t.vma j)) (hself : t.prev k ≠ some k)
    (hreg : (t.mappedResources r).isSome) :
    (t.listReplace k r new).firstVMA =
      update t.firstVMA r (if t.prev k = none then some new else t.firstVMA r) ∧
    (t.listReplace k r new).next = setAt t.next (t.prev k) (some new) ∧
    (t.listReplace k r new).prev = setAt t.prev (t.next k) (some new) ∧
    ∀ s, ((t.listReplace k r new).mappedResources s).isSome = (t.mappedResources s).isSome := by
  unfold listReplace
  by_cases hp : t.prev k = none
  · rw [if_pos (show (t.vma k).resourcePrevVMA = none from hp), if_pos hp, hp]
    refine ⟨?_, ?_, ?_, ?_⟩
    · rw [firstVMA_linkPrev, firstVMA_setFirst hreg]
    · rw [next_linkPrev]
      rfl
    · exact prev_linkPrev (t := t.setFirst r (some new)) hnext _
    · intro s
      rw [mappedResources_linkPrev, registered_setFirst]
  · rw [if_neg (show ¬ (t.vma k).resourcePrevVMA = none from hp), if_neg hp]
    have hkeep : (t.linkNext (t.prev k) (some new)).next k = t.next k := by
      rw [next_linkNext hprev, setAt_of_ne hself]
    refine ⟨?_, ?_, ?_, ?_⟩
    · rw [firstVMA_linkPrev, update_eq_self]
      exact firstVMA_linkNext _ _
    · rw [next_linkPrev]
      exact next_linkNext hprev _
    · change ((t.linkNext (t.prev k) (some new)).linkPrev ((t.linkNext (t.prev k) (some new)).next k) (some new)).prev = _
      rw [hkeep, prev_linkPrev, prev_linkNext]
      intro j hj
      exact find_eq_vma (data_linkNext t _ _) (hnext j hj)
    · intro s
      rw [mappedResources_linkPrev]
      exact congrArg Option.isSome (congrFun (mappedResources_linkNext _ _) s)

theorem listInsertAfter_links (hk : t.vmas.find? k = some (t.vma k)) :
    (t.listInsertAfter k new).firstVMA = t.firstVMA ∧
    (t.listInsertAfter k new).next = update t.next k (some new) ∧
    (t.listInsertAfter k new).prev = setAt t.prev (t.next k) (some new) ∧
    (t.listInsertAfter k new).mappedResources = t.mappedResources := by
  have hfind := find_eq_vma (data_linkPrev t (t.next k) (some new)) hk
  refine ⟨?_, ?_, ?_, ?_⟩
  · exact firstVMA_linkPrev _ _
  · exact (next_setNext hfind _).trans (congrArg (fun f => update f k (some new)) (next_linkPrev _ _))
  · exact (prev_setNext _).trans (prev_linkPrev hnext _)
  · exact mappedResources_linkPrev _ _

end links

theorem listPrepend_links (new : Nat) (hreg : (t.mappedResources r).isSome)
    (hfirst : ∀ j, t.firstVMA r = some j → t.vmas.find? j = some (t.vma j)) :
    (t.listPrepend r new).firstVMA = update t.firstVMA r (some new) ∧
    (t.listPrepend r new).next = t.next ∧
    (t.listPrepend r new).prev = setAt t.prev (t.firstVMA r) (some new) ∧
    ∀ s, ((t.listPrepend r new).mappedResources s).isSome = (t.mappedResources s).isSome := by
  unfold listPrepend
  refine ⟨?_, ?_, ?_, ?_⟩
  · rw [firstVMA_setFirst (by simpa using hreg), firstVMA_linkPrev]
  · exact next_linkPrev _ _
  · exact prev_linkPrev hfirst _
  · intro s
    rw [registered_setFirst, mappedResources_linkPrev]

/-! ### Removing a mapping -/

theorem layout_erase {D : Nat → Option VMAEntry} (h : Layout D) (k : Nat) : Layout (update D k none) := by
  have hold : ∀ {j f}, update D k none j = some f → D j = some f := by
    intro j f hj
    by_cases hjk : j = k
    · subst hjk
      rw [update_self] at hj
      cases hj
    · rwa [update_of_ne hjk] at hj
  exact ⟨fun hj => h.keyed (hold hj), fun hj => h.bounded (hold hj), fun hi hj => h.disjoint (hold hi) (hold hj)⟩

theorem owner_update {o : Option VMAEntry} (h : t'.data = update t.data k o) :
    t'.owner = update t.owner k (o.bind VMAEntry.resource) := by
  funext j
  rw [owner_eq_data, h]
  by_cases hj : j = k
  · subst hj
    rw [update_self, update_self]
  · rw [update_of_ne hj, update_of_ne hj, owner_eq_data]

theorem mirrors_eraseVMA {first : MRID → Option Nat} {next' prev' : Nat → Option Nat}
    (h : Owned first next' prev' (update t.owner k none)) (hdata : t'.data = t.data)
    (hfirst : t'.firstVMA = first) (hnext : t'.next = next') (hprev : t'.prev = prev') : Mirrors (t'.eraseVMA k) := by
  have howner : (t'.eraseVMA k).owner = update t.owner k none := by
    rw [owner_update (data_eraseVMA t' k), owner_of_data hdata]
    rfl
  refine h.of_unowned hfirst (fun j o => by rw [howner]) ?_
  intro j o hj
  have hjk : j ≠ k := by
    rintro rfl
    rw [update_self] at hj
    cases hj
  unfold next prev at *
  rw [vma_eraseVMA, update_of_ne hjk]
  exact ⟨congrFun hnext j, congrFun hprev j⟩

theorem removeMapping_inv (h : Inv t kept) (hk : t.vmas.find? k = some cur) : Inv (removeMapping kept t k cur) kept := by
  have hdata := data_removeMapping t k kept cur
  have howner : (removeMapping kept t k cur).owner = update t.owner k none := owner_update hdata
  refine ⟨hdata ▸ layout_erase h.layout k, ?_, ?_⟩
  · unfold removeMapping
    cases hr : cur.resource with
    | none =>
      have hno : t.owner k = none := by rw [owner, vma_of_find hk, hr]
      have hown : Owned t.firstVMA t.next t.prev (update t.owner k none) := by
        rw [← hno, update_eq_self]
        exact h.mirrors
      exact mirrors_eraseVMA hown rfl rfl rfl rfl
    | some r =>
      have hkr := owner_of_find hk hr
      obtain ⟨hfirst, hnext, hprev, -, hempty⟩ := listRemove_links h hkr
      have hrem := h.mirrors.remove hkr
      dsimp only
      split_ifs with hc
      · refine mirrors_eraseVMA hrem ?_ ?_ hnext hprev
        · rw [data_eraseResource, data_listRemove]
        · -- the list of the erased resource is empty already
          rw [← hfirst]
          funext s
          by_cases hs : s = r
          · subst hs
            have hnone : (t.listRemove k s).1.firstVMA s = none := by
              exact Option.isNone_iff_eq_none.mp hc.1
            rw [hnone]
            simp [firstVMA, eraseResource]
          · simp [firstVMA, eraseResource, update_of_ne hs]
      · exact mirrors_eraseVMA hrem (data_listRemove _ _ _) hfirst hnext hprev
  · intro s
    rw [howner]
    have hothers : (∃ j, t.owner j = some s ∧ j ≠ k) ↔ ∃ j, update t.owner k none j = some s := by
      constructor
      · rintro ⟨j, hj, hjk⟩
        exact ⟨j, by rw [update_of_ne hjk, hj]⟩
      · rintro ⟨j, hj⟩
        by_cases hjk : j = k
        · subst hjk
          rw [update_self] at hj
          cases hj
        · rw [update_of_ne hjk] at hj
          exact ⟨j, hj, hjk⟩
    rw [← hothers]
    unfold removeMapping
    cases hr : cur.resource with
    | none =>
      have hno : t.owner k = none := by rw [owner, vma_of_find hk, hr]
      refine (h.resources s).trans (or_congr_left ?_)
      constructor
      · rintro ⟨j, hj⟩
        refine ⟨j, hj, ?_⟩
        rintro rfl
        rw [hno] at hj
        cases hj
      · rintro ⟨j, hj, -⟩
        exact ⟨j, hj⟩
    | some r =>
      have hkr := owner_of_find hk hr
      obtain ⟨hfirst, hnext, hprev, hsome, hempty⟩ := listRemove_links h hkr
      have hnone := (h.mirrors.remove hkr).first_eq_none r
      rw [← hfirst] at hnone
      by_cases hs : s = r
      · subst hs
        have hexists : (t.listRemove k s).1.firstVMA s = none ↔ ¬ ∃ j, t.owner j = some s ∧ j ≠ k := by
          rw [hnone, hothers, not_exists]
        dsimp only
        split_ifs with hc
        · rw [hempty, Option.isNone_iff_eq_none, hexists] at hc
          have herased : (((t.listRemove k s).1.eraseResource s).eraseVMA k).mappedResources s = none :=
            update_self ..
          rw [herased]
          simp only [Option.isSome_none, Bool.false_eq_true, false_iff, not_or]
          exact ⟨hc.1, fun hx => hc.2 hx.symm⟩
        · have hkeep : (((t.listRemove k s).1.eraseVMA k).mappedResources s).isSome := (hsome s).trans (h.registered hkr)
          rw [hempty, Option.isNone_iff_eq_none, hexists] at hc
          refine iff_of_true hkeep ?_
          by_contra hno
          rw [not_or] at hno
          exact hc ⟨hno.1, fun hx => hno.2 hx.symm⟩
      · have hsame : ((t.listRemove k r).1.mappedResources s).isSome ↔
            (∃ j, t.owner j = some s ∧ j ≠ k) ∨ kept = some s := by
          rw [hsome s, h.resources s]
          refine or_congr_left ?_
          constructor
          · rintro ⟨j, hj⟩
            refine ⟨j, hj, ?_⟩
            rintro rfl
            exact hs (Option.some.inj (hj.symm.trans hkr))
          · rintro ⟨j, hj, -⟩
            exact ⟨j, hj⟩
        dsimp only
        split_ifs with hc
        · have hne : (((t.listRemove k r).1.eraseResource r).eraseVMA k).mappedResources s =
              (t.listRemove k r).1.mappedResources s := update_of_ne hs _ _
          rw [hne]
          exact hsame
        · exact hsame

/-! ### Splitting a mapping -/

theorem emplaced_owned (hm : Mirrors t) (hnew : t.vmas.find? new = none) (e : VMAEntry) :
    Owned (t.emplaceVMA new e).firstVMA (t.emplaceVMA new e).next (t.emplaceVMA new e).prev t.owner := by
  refine hm.of_unowned rfl (fun _ _ => Iff.rfl) ?_
  intro j o hj
  have hjn : j ≠ new := by
    rintro rfl
    rw [find_of_owner hj] at hnew
    cases hnew
  unfold next prev
  rw [vma_emplaceVMA hnew, update_of_ne hjn]
  exact ⟨rfl, rfl⟩

theorem find_emplaceVMA (hnew : t.vmas.find? new = none) (e : VMAEntry)
    (hj : t.vmas.find? j = some (t.vma j)) : (t.emplaceVMA new e).vmas.find? j = some ((t.emplaceVMA new e).vma j) := by
  have hjn : j ≠ new := by
    rintro rfl
    rw [hj] at hnew
    cases hnew
  rw [vma_emplaceVMA hnew, update_of_ne hjn, ← hj]
  unfold emplaceVMA
  rw [OrderedMap.find?_emplace, if_neg hjn]

theorem vma_emplaceVMA_of_ne (hnew : t.vmas.find? new = none) (e : VMAEntry) (hj : j ≠ new) :
    (t.emplaceVMA new e).vma j = t.vma j := by
  rw [vma_emplaceVMA hnew, update_of_ne hj]

theorem owner_emplaceVMA (hnew : t.vmas.find? new = none) (e : VMAEntry) :
    (t.emplaceVMA new e).owner = update t.owner new e.resource := by
  funext j
  unfold owner
  rw [vma_emplaceVMA hnew]
  by_cases hj : j = new
  · subst hj
    rw [update_self, update_self]
  · rw [update_of_ne hj, update_of_ne hj]

theorem insertAfter_mirrors (hm : Mirrors t) (hk : t.vmas.find? k = some cur)
    (hnew : t.vmas.find? new = none) (hres : e.resource = cur.resource) (hprev : e.resourcePrevVMA = some k)
    (hnext : e.resourceNextVMA = cur.resourceNextVMA) :
    let t' := if cur.resource.isSome then (t.emplaceVMA new e).listInsertAfter k new else t.emplaceVMA new e
    Mirrors t' ∧ t'.mappedResources = t.mappedResources ∧ t'.owner = update t.owner new cur.resource := by
  intro t'
  have hvk : t.vma k = cur := vma_of_find hk
  have hkn : k ≠ new := by
    rintro rfl
    rw [hk] at hnew
    cases hnew
  have howner : t'.owner = update t.owner new cur.resource := by
    rw [← hres, ← owner_emplaceVMA hnew e]
    refine owner_of_data ?_
    show (if cur.resource.isSome then (t.emplaceVMA new e).listInsertAfter k new else t.emplaceVMA new e).data = _
    split <;> simp
  have hfree : t.owner new = none := by
    rw [owner_eq_data, data, hnew]
    rfl
  refine ⟨?_, ?_, howner⟩
  · cases hr : cur.resource with
    | none =>
      have ht' : t' = t.emplaceVMA new e := by
        show (if cur.resource.isSome then _ else _) = _
        rw [hr]
        rfl
      have hsame : update t.owner new cur.resource = t.owner := by
        rw [hr, ← hfree, update_eq_self]
      unfold Mirrors
      rw [howner, hsame, ht']
      exact emplaced_owned hm hnew e
    | some r =>
      have hkr : t.owner k = some r := owner_of_find hk hr
      have ht' : t' = (t.emplaceVMA new e).listInsertAfter k new := by
        show (if cur.resource.isSome then _ else _) = _
        rw [hr]
        rfl
      have hnk : (t.emplaceVMA new e).next k = cur.resourceNextVMA := by
        rw [next, vma_emplaceVMA_of_ne hnew e hkn, hvk]
      have hnn : (t.emplaceVMA new e).next new = (t.emplaceVMA new e).next k := by
        rw [hnk, next, vma_emplaceVMA hnew, update_self, hnext]
      have hpn : (t.emplaceVMA new e).prev new = some k := by
        rw [prev, vma_emplaceVMA hnew, update_self, hprev]
      -- the neighbour whose link changes is in the map
      have hpresent : ∀ j, (t.emplaceVMA new e).next k = some j →
          (t.emplaceVMA new e).vmas.find? j = some ((t.emplaceVMA new e).vma j) := by
        intro j hj
        refine find_emplaceVMA hnew e (find_of_owner (hm.owner_next hkr ?_))
        rw [next, hvk, ← hnk, hj]
      obtain ⟨h1, h2, h3, -⟩ := listInsertAfter_links new hpresent (find_emplaceVMA hnew e (hvk ▸ hk))
      have hins := (emplaced_owned hm hnew e).insertAfter hkr hfree hnn hpn
      unfold Mirrors
      rw [howner, hr, ht', h1, h2, h3]
      exact hins
  · show (if cur.resource.isSome then (t.emplaceVMA new e).listInsertAfter k new
      else t.emplaceVMA new e).mappedResources = _
    split
    · exact mappedResources_linkPrev _ _
    · rfl

/-- A free key that takes the place of `k`: the trailing part (4) of a clear. -/
theorem replace_mirrors (h : Inv t kept) (hk : t.vmas.find? k = some cur)
    (hnew : t.vmas.find? new = none) (hres : e.resource = cur.resource)
    (hprev : e.resourcePrevVMA = cur.resourcePrevVMA) (hnext : e.resourceNextVMA = cur.resourceNextVMA)
    (hr : cur.resource = some r) :
    Mirrors (((t.emplaceVMA new e).listReplace k r new).eraseVMA k) ∧
    ∀ s, ((((t.emplaceVMA new e).listReplace k r new).eraseVMA k).mappedResources s).isSome =
      (t.mappedResources s).isSome := by
  have hm := h.mirrors
  have hvk : t.vma k = cur := vma_of_find hk
  have hkr : t.owner k = some r := owner_of_find hk hr
  have hkn : k ≠ new := by
    rintro rfl
    rw [hk] at hnew
    cases hnew
  have hfree : t.owner new = none := by
    rw [owner_eq_data, data, hnew]
    rfl
  have hvk' : (t.emplaceVMA new e).vma k = cur := by rw [vma_emplaceVMA_of_ne hnew e hkn, hvk]
  have hvn : (t.emplaceVMA new e).vma new = e := by rw [vma_emplaceVMA hnew, update_self]
  have hnk : (t.emplaceVMA new e).next k = t.next k := by rw [next, next, hvk', hvk]
  have hpk : (t.emplaceVMA new e).prev k = t.prev k := by rw [prev, prev, hvk', hvk]
  have hnn : (t.emplaceVMA new e).next new = (t.emplaceVMA new e).next k := by rw [next, next, hvn, hvk', hnext]
  have hpn : (t.emplaceVMA new e).prev new = (t.emplaceVMA new e).prev k := by rw [prev, prev, hvn, hvk', hprev]
  have hself : (t.emplaceVMA new e).prev k ≠ some k := by
    rw [hpk]
    intro hloop
    obtain ⟨c, hc, hmem⟩ := hm r
    obtain ⟨l, rest, rfl, hkl, -, hp, -, -, -⟩ := hc.around ((hmem k).mpr hkr)
    exact hkl (List.mem_of_getLast? (hp.symm.trans hloop))
  obtain ⟨h1, h2, h3, h4⟩ := listReplace_links new
    (fun j hj => find_emplaceVMA hnew e (find_of_owner (hm.owner_next hkr (hnk ▸ hj))))
    (fun j hj => find_emplaceVMA hnew e (find_of_owner (hm.owner_prev hkr (hpk ▸ hj)))) hself (h.registered hkr)
  have hrep := (emplaced_owned hm hnew e).replace hkr hfree hnn hpn
  have hdata : ((t.emplaceVMA new e).listReplace k r new).data = (t.emplaceVMA new e).data := data_listReplace _ _ _ _
  refine ⟨?_, fun s => h4 s⟩
  have hown : update (update t.owner new (some r)) k none =
      update (t.emplaceVMA new e).owner k none := by
    rw [owner_emplaceVMA hnew, hres, hr]
  rw [hown] at hrep
  exact mirrors_eraseVMA hrep hdata h1 h2 h3

/-! ## `ClearUnsafe` keeps the lists -/

theorem resources_of_split
    (h : ∀ r, (t.mappedResources r).isSome ↔ (∃ j, t.owner j = some r) ∨ kept = some r) (hk : t.vmas.find? k = some cur)
    (hnew : t.vmas.find? new = none) (hreg : ∀ s, (t'.mappedResources s).isSome = (t.mappedResources s).isSome)
    (howner : t'.owner = update t.owner new cur.resource) (r : MRID) :
    (t'.mappedResources r).isSome ↔ (∃ j, t'.owner j = some r) ∨ kept = some r := by
  rw [hreg, h r, howner]
  refine or_congr_left ?_
  constructor
  · rintro ⟨j, hj⟩
    refine ⟨j, ?_⟩
    rw [update_of_ne]
    · exact hj
    · rintro rfl
      rw [find_of_owner hj] at hnew
      cases hnew
  · rintro ⟨j, hj⟩
    by_cases hjn : j = new
    · subst hjn
      rw [update_self] at hj
      exact ⟨k, owner_of_find hk hj⟩
    · rw [update_of_ne hjn] at hj
      exact ⟨j, hj⟩

theorem resources_of_replace (h : Inv t kept) (hk : t.vmas.find? k = some cur)
    (hnew : t.vmas.find? new = none) (hreg : ∀ s, (t'.mappedResources s).isSome = (t.mappedResources s).isSome)
    (howner : t'.owner = update (update t.owner new cur.resource) k none) (r : MRID) :
    (t'.mappedResources r).isSome ↔ (∃ j, t'.owner j = some r) ∨ kept = some r := by
  have hkn : new ≠ k := by
    rintro rfl
    rw [hk] at hnew
    cases hnew
  rw [hreg, h.resources r, howner]
  refine or_congr_left ?_
  constructor
  · rintro ⟨j, hj⟩
    by_cases hjk : j = k
    · refine ⟨new, ?_⟩
      rw [update_of_ne hkn, update_self, ← hj, hjk, owner, vma_of_find hk]
    · refine ⟨j, ?_⟩
      rw [update_of_ne hjk, update_of_ne]
      · exact hj
      · rintro rfl
        rw [find_of_owner hj] at hnew
        cases hnew
  · rintro ⟨j, hj⟩
    by_cases hjk : j = k
    · subst hjk
      rw [update_self] at hj
      cases hj
    · rw [update_of_ne hjk] at hj
      by_cases hjn : j = new
      · subst hjn
        rw [update_self] at hj
        exact ⟨k, owner_of_find hk hj⟩
      · rw [update_of_ne hjn] at hj
        exact ⟨j, hj⟩

theorem inv_setLength_links (h : Inv t kept) (n : Nat) :
    Mirrors (t.setLength k n) ∧ ∀ r, ((t.setLength k n).mappedResources r).isSome ↔
      (∃ j, (t.setLength k n).owner j = some r) ∨ kept = some r := by
  refine ⟨?_, ?_⟩
  · unfold Mirrors
    rw [next_setLength, prev_setLength, owner_setLength]
    exact h.mirrors
  · intro r
    rw [owner_setLength]
    exact h.resources r

theorem find_setLength (hk : t.vmas.find? k = some cur) (n : Nat) :
    (t.setLength k n).vmas.find? k = some { cur with length := n } := by
  unfold setLength
  rw [OrderedMap.find?_modify, if_pos rfl, hk]
  rfl

theorem find_setLength_none (hj : t.vmas.find? j = none) (n : Nat) : (t.setLength k n).vmas.find? j = none := by
  unfold setLength
  rw [OrderedMap.find?_modify]
  by_cases hjk : j = k
  · rw [if_pos hjk, ← hjk, hj]
    rfl
  · rw [if_neg hjk, hj]

theorem clearFirst_inv (h : Inv t kept) (hk : t.vmas.find? k = some cur) (hnew : t.vmas.find? top = none)
    (ht' : t' = match cur.resource with
      | some r => (t.emplaceVMA top (trailingPart top cur cur.resourcePrevVMA)).listReplace k r top
      | none => t.emplaceVMA top (trailingPart top cur cur.resourcePrevVMA)) :
    Mirrors (t'.eraseVMA k) ∧ ∀ r, ((t'.eraseVMA k).mappedResources r).isSome ↔
      (∃ j, (t'.eraseVMA k).owner j = some r) ∨ kept = some r := by
  have hdata : t'.data = (t.emplaceVMA top (trailingPart top cur cur.resourcePrevVMA)).data := by
    rw [ht']
    cases cur.resource with
    | none => rfl
    | some r => exact data_listReplace _ _ _ _
  have howner : (t'.eraseVMA k).owner = update (update t.owner top cur.resource) k none := by
    rw [owner_update (data_eraseVMA t' k), owner_of_data hdata, owner_emplaceVMA hnew]
    rfl
  have hmain : Mirrors (t'.eraseVMA k) ∧
      ∀ s, ((t'.eraseVMA k).mappedResources s).isSome = (t.mappedResources s).isSome := by
    cases hr : cur.resource with
    | some r =>
      rw [hr] at ht'
      rw [ht']
      exact replace_mirrors (e := trailingPart top cur cur.resourcePrevVMA) h hk hnew rfl rfl rfl hr
    | none =>
      rw [hr] at ht'
      rw [ht']
      have hno : t.owner k = none := by rw [owner, vma_of_find hk, hr]
      have hfree : t.owner top = none := by
        rw [owner_eq_data, data, hnew]
        rfl
      have hown : update (t.emplaceVMA top (trailingPart top cur cur.resourcePrevVMA)).owner k none = t.owner := by
        have hres : (trailingPart top cur cur.resourcePrevVMA).resource = none := hr
        rw [owner_emplaceVMA hnew, hres]
        funext j
        by_cases hjk : j = k
        · rw [hjk, update_self, hno]
        · rw [update_of_ne hjk]
          by_cases hjt : j = top
          · rw [hjt, update_self, hfree]
          · rw [update_of_ne hjt]
      refine ⟨mirrors_eraseVMA ?_ rfl rfl rfl rfl, fun _ => rfl⟩
      rw [hown]
      exact emplaced_owned h.mirrors hnew _
  exact ⟨hmain.1, resources_of_replace h hk hnew hmain.2 howner⟩

theorem clearMapping_inv (h : Inv t kept) (hk : t.vmas.find? k = some cur) (hktop : k < top)
    (hbase : base < k + cur.length) (hbt : base ≤ top) (htop : top < 2 ^ 64) :
    Inv (clearMapping base top kept t k cur) kept := by
  obtain ⟨hd, hkeyed, hwrap⟩ := h.layout.entry hk
  have hlayout : Layout (clearMapping base top kept t k cur).data := by
    rw [data_clearMapping h.layout hd hktop hbase hbt htop]
    exact layout_cut h.layout hd hbase hktop hbt
  have hmapTop : add64 cur.base cur.length = k + cur.length := by rw [hkeyed, add64_of_lt hwrap]
  have htopfree : top < k + cur.length → t.vmas.find? top = none := by
    intro hlt
    refine find_of_data ?_
    cases hdt : t.data top with
    | none => rfl
    | some f =>
      have hdis := h.layout.disjoint hd hdt hktop
      change k + cur.length ≤ top at hdis
      omega
  unfold clearMapping at hlayout ⊢
  simp only [hmapTop] at hlayout ⊢
  by_cases hfirst : cur.base < base <;> by_cases htrail : top < k + cur.length <;>
    simp only [hfirst, htrail, decide_true, decide_false] at hlayout ⊢
  · -- (2): the trailing part comes behind the trimmed mapping
    obtain ⟨hm, hres⟩ := inv_setLength_links (k := k) h (sub64 base cur.base)
    obtain ⟨hm', hreg, howner⟩ := insertAfter_mirrors (e := trailingPart top cur (some k)) hm
      (find_setLength hk (sub64 base cur.base)) (find_setLength_none (htopfree htrail) _) rfl rfl rfl
    refine ⟨hlayout, hm', ?_⟩
    exact resources_of_split hres (find_setLength hk _) (find_setLength_none (htopfree htrail) _)
      (fun s => by rw [hreg]) howner
  · -- (1): the mapping is trimmed
    obtain ⟨hm, hres⟩ := inv_setLength_links (k := k) h (sub64 base cur.base)
    exact ⟨hlayout, hm, hres⟩
  · -- (4): the trailing part takes its place
    obtain ⟨hm, hres⟩ := clearFirst_inv h hk (htopfree htrail) rfl
    exact ⟨hlayout, hm, hres⟩
  · -- (3): the mapping goes
    exact removeMapping_inv h hk

theorem clearLoop_inv (hbt : base ≤ top) (htop : top < 2 ^ 64) :
    ∀ (fuel c : Nat) (t : VMATracking), c ≤ top → Inv t kept → Inv (clearLoop base top kept fuel c t) kept := by
  intro fuel
  induction fuel with
  | zero => exact fun c t _ h => h
  | succ fuel ih =>
    intro c t hc h
    unfold clearLoop
    cases hb : t.vmas.below c with
    | none => exact h
    | some x =>
      obtain ⟨k, cur⟩ := x
      obtain ⟨hk, hkc, -⟩ := (OrderedMap.below_eq_some _ _ _ _).mp hb
      obtain ⟨hd, hkeyed, hwrap⟩ := h.layout.entry hk
      dsimp only
      rw [hkeyed, add64_of_lt hwrap]
      by_cases hend : k + cur.length ≤ base
      · rw [if_pos hend]
        exact h
      · rw [if_neg hend]
        exact ih k _ (by omega) (clearMapping_inv h hk (by omega) (by omega) hbt htop)

theorem clearUnsafe_inv (h : Inv t kept) {length : Nat} (hwrap : base + length < 2 ^ 64) :
    Inv (t.clearUnsafe base length kept) kept := by
  unfold clearUnsafe
  rw [add64_of_lt hwrap]
  exact clearLoop_inv (by omega) hwrap _ _ t le_rfl h

/-! ## `SetUnsafe` keeps the lists -/

theorem setUnsafe_inv {resource : Option MRID} (h : Inv t resource) {length : Nat} (hpos : 0 < length)
    (hwrap : base + length < 2 ^ 64) (offset : Nat) (flags : VMAFlags) (prot : VMAProt) :
    Inv (t.setUnsafe resource base offset length flags prot) resource := by
  have hlayout := (setUnsafe_layout h.layout resource hpos hwrap offset flags prot).1
  have hc := clearUnsafe_inv h hwrap
  have hfree := find_of_data (clearUnsafe_free h.layout hpos hwrap resource)
  unfold setUnsafe at hlayout ⊢
  generalize t.clearUnsafe base length resource = t1 at *
  have hnone : t1.owner base = none := by
    rw [owner_eq_data, data, hfree]
    rfl
  cases resource with
  | none =>
    dsimp only at hlayout ⊢
    have howner : (t1.emplaceVMA base ⟨none, none, none, base, offset, length, flags, prot⟩).owner = t1.owner := by
      rw [owner_emplaceVMA hfree, ← hnone, update_eq_self]
    refine ⟨hlayout, ?_, ?_⟩
    · unfold Mirrors
      rw [Option.bind_none, howner]
      exact emplaced_owned hc.mirrors hfree _
    · intro r
      rw [Option.bind_none, howner]
      exact hc.resources r
  | some r =>
    dsimp only at hlayout ⊢
    rw [Option.bind_some] at hlayout ⊢
    generalize he : (⟨some r, none, t1.firstVMA r, base, offset, length, flags, prot⟩ : VMAEntry) = e at *
    -- clearing keeps the resource that is about to get the entry, even without any left
    have hreg : (t1.mappedResources r).isSome := (hc.resources r).mpr (Or.inr rfl)
    have hvma : (t1.emplaceVMA base e).vma base = e := by rw [vma_emplaceVMA hfree, update_self]
    obtain ⟨h1, h2, h3, h4⟩ := listPrepend_links (t := t1.emplaceVMA base e) base hreg
      (fun j hj => find_emplaceVMA hfree e (find_of_owner (hc.mirrors.owner_first hj)))
    have hpre := (emplaced_owned hc.mirrors hfree e).prepend (o := r) hnone
      (by rw [next, hvma, ← he]; rfl) (by rw [prev, hvma, ← he])
    have howner : ((t1.emplaceVMA base e).listPrepend r base).owner = update t1.owner base (some r) := by
      rw [owner_of_data (data_listPrepend _ _ _), owner_emplaceVMA hfree, ← he]
    refine ⟨hlayout, ?_, ?_⟩
    · unfold Mirrors
      rw [howner, h1, h2, h3]
      exact hpre
    · intro s
      rw [h4, howner]
      by_cases hs : s = r
      · subst hs
        exact iff_of_true hreg (Or.inr rfl)
      · refine (hc.resources s).trans (or_congr_left ?_)
        constructor
        · rintro ⟨j, hj⟩
          refine ⟨j, ?_⟩
          rw [update_of_ne]
          · exact hj
          · rintro rfl
            rw [hnone] at hj
            cases hj
        · rintro ⟨j, hj⟩
          by_cases hjb : j = base
          · subst hjb
            rw [update_self] at hj
            exact absurd (Option.some.inj hj).symm hs
          · rw [update_of_ne hjb] at hj
            exact ⟨j, hj⟩

end FexEmu.LinuxSyscalls.VMATracking
