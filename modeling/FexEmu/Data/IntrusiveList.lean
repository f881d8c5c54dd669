import Mathlib.Tactic
/-!
# Intrusive doubly linked lists

Each node of one store has an owner, and the nodes of an owner form one list from its first node on.
-/
namespace FexEmu.IntrusiveList

open Function (update_of_ne update_self update)
open List (mem_append_right mem_cons_of_mem nodup_cons)
open Option (or_none some_or)

variable {κ ρ : Type}

/-! ## Segments -/

/-- The nodes `l` are linked in this order, between the nodes `p` and `q`. -/
def Segment (next prev : κ → Option κ) : Option κ → List κ → Option κ → Prop
  | _, [], _ => True
  | p, k :: ks, q => prev k = p ∧ next k = ks.head?.or q ∧ Segment next prev (some k) ks q

variable {next prev : κ → Option κ} {p q : Option κ} {l r : List κ}

theorem segment_append :
    Segment next prev p (l ++ r) q ↔
      Segment next prev p l (r.head?.or q) ∧ Segment next prev (l.getLast?.or p) r q := by
  induction l generalizing p with
  | nil => simp [Segment]
  | cons k ks ih =>
    have hhead : (ks ++ r).head?.or q = ks.head?.or (r.head?.or q) := by cases ks <;> simp
    have hlast : ((k :: ks).getLast?).or p = ks.getLast?.or (some k) := by
      cases ks with
      | nil => simp
      | cons a as => simp [List.getLast?_cons]
    rw [List.cons_append, Segment, Segment, hhead, ih, hlast, and_assoc, and_assoc]

theorem segment_congr {next' prev' : κ → Option κ} (h : ∀ k ∈ l, next' k = next k ∧ prev' k = prev k)
    (hs : Segment next prev p l q) : Segment next' prev' p l q := by
  induction l generalizing p with
  | nil => trivial
  | cons k ks ih =>
    obtain ⟨hp, hn, hks⟩ := hs
    obtain ⟨hn', hp'⟩ := h k List.mem_cons_self
    exact ⟨hp'.trans hp, hn'.trans hn, ih (fun j hj => h j (mem_cons_of_mem _ hj)) hks⟩

section
variable [DecidableEq κ]

theorem segment_setNext {x : κ} (hx : x ∉ l) (hs : Segment next prev p (l ++ [x]) q) (q' : Option κ) :
    Segment (update next x q') prev p (l ++ [x]) q' := by
  rw [segment_append] at hs ⊢
  refine ⟨?_, hs.2.1, ?_, trivial⟩
  · refine segment_congr ?_ hs.1
    intro k hk
    have hkx : k ≠ x := fun h => hx (h ▸ hk)
    exact ⟨update_of_ne hkx _ _, rfl⟩
  · simp

theorem segment_setPrev {x : κ} (hx : x ∉ l) (hs : Segment next prev p (x :: l) q) (p' : Option κ) :
    Segment next (update prev x p') p' (x :: l) q := by
  refine ⟨update_self .., hs.2.1, ?_⟩
  refine segment_congr ?_ hs.2.2
  intro k hk
  have hkx : k ≠ x := fun h => hx (h ▸ hk)
  exact ⟨rfl, update_of_ne hkx _ _⟩

end

/-! ## Families of lists -/

/-- The list of the nodes `c`, without repetition. -/
structure IsList (first : Option κ) (next prev : κ → Option κ) (c : List κ) : Prop where
  nodup : c.Nodup
  first_eq : first = c.head?
  links : Segment next prev none c none

/-- Each owner's list holds the nodes it owns. -/
def Owned (first : ρ → Option κ) (next prev : κ → Option κ) (owner : κ → Option ρ) : Prop :=
  ∀ o, ∃ c, IsList (first o) next prev c ∧ ∀ k, k ∈ c ↔ owner k = some o

variable {first first' : ρ → Option κ} {next' prev' : κ → Option κ} {owner owner' : κ → Option ρ}

/-- A change inside of one owner's list leaves the other lists. -/
theorem Owned.of_changed [DecidableEq ρ] (h : Owned first next prev owner) (o : ρ)
    (hfirst : ∀ o', o' ≠ o → first' o' = first o')
    (howner : ∀ k o', o' ≠ o → (owner' k = some o' ↔ owner k = some o'))
    (hlinks : ∀ k o', o' ≠ o → owner k = some o' → next' k = next k ∧ prev' k = prev k)
    (ho : ∃ c, IsList (first' o) next' prev' c ∧ ∀ k, k ∈ c ↔ owner' k = some o) :
    Owned first' next' prev' owner' := by
  intro o'
  by_cases ho' : o' = o
  · subst ho'
    exact ho
  · obtain ⟨c, hc, hmem⟩ := h o'
    refine ⟨c, ⟨hc.nodup, (hfirst o' ho').trans hc.first_eq, ?_⟩, ?_⟩
    · refine segment_congr ?_ hc.links
      intro k hk
      exact hlinks k o' ho' ((hmem k).mp hk)
    · intro k
      rw [hmem, howner k o' ho']

theorem Owned.of_unowned (h : Owned first next prev owner) (hfirst : first' = first)
    (howner : ∀ k o, owner' k = some o ↔ owner k = some o)
    (hlinks : ∀ k o, owner k = some o → next' k = next k ∧ prev' k = prev k) : Owned first' next' prev' owner' := by
  intro o
  obtain ⟨c, hc, hmem⟩ := h o
  refine ⟨c, ⟨hc.nodup, ?_, ?_⟩, ?_⟩
  · rw [hfirst]
    exact hc.first_eq
  · refine segment_congr ?_ hc.links
    intro k hk
    exact hlinks k o ((hmem k).mp hk)
  · intro k
    rw [hmem, howner]

/-! ## Operations -/

variable [DecidableEq κ]

/-- The link of a node that may be absent. -/
def setAt (f : κ → Option κ) (k : Option κ) (v : Option κ) : κ → Option κ :=
  match k with
  | some k => update f k v
  | none => f

variable {j k : κ} {o : ρ}

theorem setAt_of_ne {f : κ → Option κ} {k v : Option κ} (h : k ≠ some j) : setAt f k v j = f j := by
  cases k with
  | none => rfl
  | some k =>
    have hjk : j ≠ k := fun hj => h (hj ▸ rfl)
    exact update_of_ne hjk _ _

omit [DecidableEq κ] in
theorem IsList.around {f : Option κ} {c : List κ} (h : IsList f next prev c) (hk : k ∈ c) :
    ∃ l r, c = l ++ k :: r ∧ k ∉ l ∧ k ∉ r ∧ prev k = l.getLast? ∧ next k = r.head? ∧
      Segment next prev none l (some k) ∧ Segment next prev (some k) r none := by
  obtain ⟨l, r, rfl⟩ := List.append_of_mem hk
  have hn := List.nodup_append.mp h.nodup
  obtain ⟨hl, hp, hnx, hr⟩ := segment_append.mp h.links
  refine ⟨l, r, rfl, ?_, (nodup_cons.mp hn.2.1).1, by simpa using hp, by simpa using hnx, by simpa using hl, hr⟩
  intro hkl
  exact hn.2.2 k hkl k List.mem_cons_self rfl

theorem segment_relinkNext (hn : l.Nodup) (hs : Segment next prev none l q) (q' : Option κ) :
    Segment (setAt next l.getLast? q') prev none l q' := by
  rcases List.eq_nil_or_concat l with rfl | ⟨l', x, rfl⟩
  · trivial
  · rw [List.concat_eq_append] at hn hs ⊢
    rw [List.getLast?_concat]
    have hx : x ∉ l' := by
      intro hx
      exact (List.nodup_append.mp hn).2.2 x hx x (by simp) rfl
    exact segment_setNext hx hs q'

theorem segment_relinkPrev (hn : r.Nodup) (hs : Segment next prev p r none) (p' : Option κ) :
    Segment next (setAt prev r.head? p') p' r none := by
  cases r with
  | nil => trivial
  | cons x r => exact segment_setPrev (nodup_cons.mp hn).1 hs p'

omit [DecidableEq κ] in
theorem getLast?_ne_of_notMem {l : List κ} (h : k ∉ l) : l.getLast? ≠ some k := fun hl =>
  h (List.mem_of_getLast? hl)

omit [DecidableEq κ] in
theorem head?_ne_of_notMem {l : List κ} (h : k ∉ l) : l.head? ≠ some k := fun hl => h (List.mem_of_head? hl)

omit [DecidableEq κ] in
theorem Owned.owner_prev (h : Owned first next prev owner) (hk : owner k = some o)
    (hj : prev k = some j) : owner j = some o := by
  obtain ⟨c, hc, hmem⟩ := h o
  obtain ⟨l, r, rfl, -, -, hp, -, -, -⟩ := hc.around ((hmem k).mpr hk)
  exact (hmem j).mp (List.mem_append_left _ (List.mem_of_getLast? (hp.symm.trans hj)))

omit [DecidableEq κ] in
theorem Owned.owner_next (h : Owned first next prev owner) (hk : owner k = some o)
    (hj : next k = some j) : owner j = some o := by
  obtain ⟨c, hc, hmem⟩ := h o
  obtain ⟨l, r, rfl, -, -, -, hn, -, -⟩ := hc.around ((hmem k).mpr hk)
  exact (hmem j).mp (mem_append_right _ (mem_cons_of_mem _ (List.mem_of_head? (hn.symm.trans hj))))

omit [DecidableEq κ] in
theorem Owned.owner_first (h : Owned first next prev owner) (hk : first o = some k) : owner k = some o := by
  obtain ⟨c, hc, hmem⟩ := h o
  exact (hmem k).mp (List.mem_of_head? (hc.first_eq.symm.trans hk))

omit [DecidableEq κ] in
theorem Owned.first_eq_none (h : Owned first next prev owner) (o : ρ) : first o = none ↔ ∀ k, owner k ≠ some o := by
  obtain ⟨c, hc, hmem⟩ := h o
  rw [hc.first_eq, List.head?_eq_none_iff, List.eq_nil_iff_forall_not_mem]
  exact forall_congr' (fun k => not_congr (hmem k))

theorem segment_relink (hn : (l ++ r).Nodup) (hl : Segment next prev none l q) (hr : Segment next prev p r none)
    (q' p' : Option κ) :
    Segment (setAt next l.getLast? q') (setAt prev r.head? p') none l q' ∧
    Segment (setAt next l.getLast? q') (setAt prev r.head? p') p' r none := by
  obtain ⟨hnl, hnr, hdis⟩ := List.nodup_append.mp hn
  constructor
  · refine segment_congr ?_ (segment_relinkNext hnl hl q')
    intro k hk
    refine ⟨rfl, setAt_of_ne (head?_ne_of_notMem ?_)⟩
    exact fun hkr => hdis k hk k hkr rfl
  · refine segment_congr ?_ (segment_relinkPrev hnr hr p')
    intro k hk
    refine ⟨setAt_of_ne (getLast?_ne_of_notMem ?_), rfl⟩
    exact fun hkl => hdis k hkl k hk rfl

theorem update_iff {j k : κ} {o : ρ} {v : Option ρ} (hk : owner k ≠ some o) (hv : v ≠ some o) :
    update owner k v j = some o ↔ owner j = some o := by
  rcases eq_or_ne j k with rfl | hj
  · rw [update_self]
    exact iff_of_false hv hk
  · rw [update_of_ne hj]

section
variable [DecidableEq ρ] {o : ρ} {k : κ} (h : Owned first next prev owner) (hk : owner k = some o)
include h hk

theorem Owned.remove :
    Owned (update first o (if first o = some k then next k else first o))
      (setAt next (prev k) (next k)) (setAt prev (next k) (prev k)) (update owner k none) := by
  obtain ⟨c, hc, hmem⟩ := h o
  obtain ⟨l, r, rfl, hkl, hkr, hp, hnx, hl, hr⟩ := hc.around ((hmem k).mpr hk)
  have hn : (l ++ r).Nodup := (nodup_cons.mp (List.nodup_middle.mp hc.nodup)).2
  refine h.of_changed o ?_ ?_ ?_ ⟨l ++ r, ⟨hn, ?_, ?_⟩, ?_⟩
  · exact fun o' ho' => update_of_ne ho' _ _
  · intro j o' ho'
    exact update_iff (by simp [hk, ho'.symm]) (by simp)
  · intro j o' ho' hj
    have hjc : j ∉ l ++ k :: r := mt (hmem j).1 (by simp [hj, ho'])
    rw [hp, hnx]
    refine ⟨setAt_of_ne (getLast?_ne_of_notMem ?_), setAt_of_ne (head?_ne_of_notMem ?_)⟩
    · exact fun hx => hjc (List.mem_append_left _ hx)
    · exact fun hx => hjc (mem_append_right _ (mem_cons_of_mem _ hx))
  · rw [update_self, hc.first_eq, hnx]
    cases l with
    | nil => simp
    | cons a l =>
      have hak : a ≠ k := fun hx => hkl (hx ▸ List.mem_cons_self)
      simp [hak]
  · rw [hp, hnx]
    have hseg := segment_relink hn hl hr r.head? l.getLast?
    rw [segment_append, or_none, or_none]
    exact hseg
  · intro j
    by_cases hj : j = k
    · subst hj
      simp [hkl, hkr]
    · rw [update_of_ne hj, ← hmem]
      simp [hj]

variable {new : κ} (hnew : owner new = none)
include hnew

theorem Owned.replace (hnn : next new = next k) (hnp : prev new = prev k) :
    Owned (update first o (if prev k = none then some new else first o))
      (setAt next (prev k) (some new)) (setAt prev (next k) (some new))
      (update (update owner new (some o)) k none) := by
  obtain ⟨c, hc, hmem⟩ := h o
  obtain ⟨l, r, rfl, hkl, hkr, hp, hnx, hl, hr⟩ := hc.around ((hmem k).mpr hk)
  have hn : (l ++ r).Nodup := (nodup_cons.mp (List.nodup_middle.mp hc.nodup)).2
  have hnewc : new ∉ l ++ k :: r := by
    rw [hmem, hnew]
    exact fun hx => nomatch hx
  have hnewk : new ≠ k := fun hx => hnewc (hx ▸ by simp)
  have hnewl : new ∉ l := fun hx => hnewc (List.mem_append_left _ hx)
  have hnewr : new ∉ r := fun hx => hnewc (mem_append_right _ (mem_cons_of_mem _ hx))
  refine h.of_changed o ?_ ?_ ?_ ⟨l ++ new :: r, ⟨?_, ?_, ?_⟩, ?_⟩
  · exact fun o' ho' => update_of_ne ho' _ _
  · intro j o' ho'
    rw [update_iff (by simp [update_of_ne hnewk.symm, hk, ho'.symm]) (by simp),
      update_iff (by simp [hnew]) (by simp [ho'.symm])]
  · intro j o' ho' hj
    have hjc : j ∉ l ++ k :: r := mt (hmem j).1 (by simp [hj, ho'])
    rw [hp, hnx]
    refine ⟨setAt_of_ne (getLast?_ne_of_notMem ?_), setAt_of_ne (head?_ne_of_notMem ?_)⟩
    · exact fun hx => hjc (List.mem_append_left _ hx)
    · exact fun hx => hjc (mem_append_right _ (mem_cons_of_mem _ hx))
  · exact List.nodup_middle.mpr (nodup_cons.mpr ⟨by simp [hnewl, hnewr], hn⟩)
  · rw [update_self, hc.first_eq, hp]
    cases l with
    | nil => simp
    | cons a l => simp [List.getLast?_cons]
  · rw [hp, hnx]
    have hseg := segment_relink hn hl hr (some new) (some new)
    rw [segment_append, List.head?_cons, some_or, or_none]
    refine ⟨hseg.1, ?_, ?_, hseg.2⟩
    · rw [setAt_of_ne (head?_ne_of_notMem hnewr), hnp, hp]
    · rw [setAt_of_ne (getLast?_ne_of_notMem hnewl), hnn, hnx, or_none]
  · intro j
    by_cases hj : j = k
    · subst hj
      simp [hkl, hkr, Ne.symm hnewk]
    · rw [update_of_ne hj]
      by_cases hjn : j = new
      · subst hjn
        simp
      · rw [update_of_ne hjn, ← hmem]
        simp [hj, hjn]

theorem Owned.insertAfter (hnn : next new = next k) (hnp : prev new = some k) :
    Owned first (update next k (some new)) (setAt prev (next k) (some new))
      (update owner new (some o)) := by
  obtain ⟨c, hc, hmem⟩ := h o
  obtain ⟨l, r, rfl, hkl, hkr, hp, hnx, hl, hr⟩ := hc.around ((hmem k).mpr hk)
  have hnewc : new ∉ l ++ k :: r := by
    rw [hmem, hnew]
    exact fun hx => nomatch hx
  have hnewk : new ≠ k := fun hx => hnewc (hx ▸ by simp)
  have hnewr : new ∉ r := fun hx => hnewc (mem_append_right _ (mem_cons_of_mem _ hx))
  have hcode : l ++ k :: r = (l ++ [k]) ++ r := by simp
  have hn := hc.nodup
  rw [hcode] at hn
  refine h.of_changed o ?_ ?_ ?_ ⟨l ++ k :: new :: r, ⟨?_, ?_, ?_⟩, ?_⟩
  · exact fun _ _ => rfl
  · intro j o' ho'
    exact update_iff (by simp [hnew]) (by simp [ho'.symm])
  · intro j o' ho' hj
    have hjc : j ∉ l ++ k :: r := mt (hmem j).1 (by simp [hj, ho'])
    rw [hnx]
    refine ⟨update_of_ne ?_ _ _, setAt_of_ne (head?_ne_of_notMem ?_)⟩
    · rintro rfl
      exact hjc (by simp)
    · exact fun hx => hjc (mem_append_right _ (mem_cons_of_mem _ hx))
  · have hcode' : l ++ k :: new :: r = (l ++ [k]) ++ new :: r := by simp
    rw [hcode']
    exact List.nodup_middle.mpr (nodup_cons.mpr ⟨by simpa using hnewc, hn⟩)
  · rw [hc.first_eq]
    cases l <;> simp
  · have hlk : Segment next prev none (l ++ [k]) r.head? := by
      rw [segment_append]
      exact ⟨by simpa using hl, by simpa using hp, by simpa using hnx, trivial⟩
    have hseg := segment_relink hn hlk hr (some new) (some new)
    rw [List.getLast?_concat] at hseg
    have hcode' : l ++ k :: new :: r = (l ++ [k]) ++ new :: r := by simp
    rw [hcode', hnx, segment_append, List.head?_cons, some_or, or_none, List.getLast?_concat]
    refine ⟨hseg.1, ?_, ?_, hseg.2⟩
    · rw [setAt_of_ne (head?_ne_of_notMem hnewr), hnp]
    · rw [update_of_ne hnewk, hnn, hnx, or_none]
  · intro j
    by_cases hjn : j = new
    · subst hjn
      simp
    · rw [update_of_ne hjn, ← hmem]
      simp [hjn]

end

theorem Owned.prepend [DecidableEq ρ] (h : Owned first next prev owner) {new : κ} (hnew : owner new = none)
    (hnn : next new = first o) (hnp : prev new = none) :
    Owned (update first o (some new)) next (setAt prev (first o) (some new))
      (update owner new (some o)) := by
  obtain ⟨c, hc, hmem⟩ := h o
  have hnewc : new ∉ c := by
    rw [hmem, hnew]
    exact fun hx => nomatch hx
  refine h.of_changed o ?_ ?_ ?_ ⟨new :: c, ⟨?_, ?_, ?_⟩, ?_⟩
  · exact fun o' ho' => update_of_ne ho' _ _
  · intro j o' ho'
    exact update_iff (by simp [hnew]) (by simp [ho'.symm])
  · intro j o' ho' hj
    have hjc : j ∉ c := mt (hmem j).1 (by simp [hj, ho'])
    rw [hc.first_eq]
    exact ⟨rfl, setAt_of_ne (head?_ne_of_notMem hjc)⟩
  · exact nodup_cons.mpr ⟨hnewc, hc.nodup⟩
  · rw [update_self, List.head?_cons]
  · refine ⟨?_, ?_, ?_⟩
    · rw [hc.first_eq, setAt_of_ne (head?_ne_of_notMem hnewc), hnp]
    · rw [hnn, hc.first_eq, or_none]
    · rw [hc.first_eq]
      exact segment_relinkPrev hc.nodup hc.links (some new)
  · intro j
    by_cases hjn : j = new
    · subst hjn
      simp
    · rw [update_of_ne hjn, ← hmem]
      simp [hjn]

end FexEmu.IntrusiveList
