import Mathlib.Tactic
/-!
# Ordered maps

A finite map as the list of its entries in the order of their keys. Every operation is described by the value at each key.
-/
namespace FexEmu
open List (find?_eq_none find?_some mem_cons mem_cons_self pairwise_cons find?_cons_of_pos find?_cons_of_neg pairwise_append)

/-- The entries are in strict order of their keys. -/
structure OrderedMap (κ α : Type) [LinearOrder κ] where
  entries : List (κ × α)
  sorted : entries.Pairwise (fun a b => a.1 < b.1)

namespace OrderedMap

variable {κ α : Type} [LinearOrder κ]

def empty : OrderedMap κ α := ⟨[], List.Pairwise.nil⟩

def find? (m : OrderedMap κ α) (k : κ) : Option α := (m.entries.find? (fun e => e.1 = k)).map Prod.snd

theorem mem_entries (m : OrderedMap κ α) (k : κ) (v : α) : (k, v) ∈ m.entries ↔ m.find? k = some v := by
  unfold find?
  constructor
  · intro h
    cases hf : m.entries.find? (fun e => decide (e.1 = k)) with
    | none =>
      have hno := find?_eq_none.mp hf (k, v) h
      simp at hno
    | some e =>
      have hk : e.1 = k := by simpa using find?_some hf
      have he : e ∈ m.entries := List.mem_of_find?_eq_some hf
      -- two entries of one key are the same entry
      have hnodup : (m.entries.map Prod.fst).Nodup := by
        rw [List.Nodup, List.pairwise_map]
        exact m.sorted.imp (fun h => ne_of_lt h)
      rw [List.inj_on_of_nodup_map hnodup he h hk, Option.map_some]
  · intro h
    obtain ⟨e, he, rfl⟩ := Option.map_eq_some_iff.mp h
    have hk : e.1 = k := by simpa using find?_some he
    rw [← hk]
    exact List.mem_of_find?_eq_some he

@[simp] theorem find?_empty (k : κ) : (empty : OrderedMap κ α).find? k = none := rfl

/-! ## Updates -/

def insertEntry (k : κ) (v : α) : List (κ × α) → List (κ × α)
  | [] => [(k, v)]
  | e :: es => if k < e.1 then (k, v) :: e :: es else if e.1 = k then e :: es else e :: insertEntry k v es

variable {l : List (κ × α)} {x : κ × α}

theorem mem_insertEntry {k : κ} {v : α} (hx : x ∈ insertEntry k v l) : x = (k, v) ∨ x ∈ l := by
  induction l with
  | nil => exact Or.inl (List.mem_singleton.mp hx)
  | cons e es ih =>
    unfold insertEntry at hx
    split_ifs at hx with h1 h2
    · exact mem_cons.mp hx
    · exact Or.inr hx
    · rcases mem_cons.mp hx with rfl | hx
      · exact Or.inr mem_cons_self
      · exact (ih hx).imp id (List.mem_cons_of_mem e)

theorem insertEntry_sorted (k : κ) (v : α) (h : l.Pairwise (fun a b => a.1 < b.1)) :
    (insertEntry k v l).Pairwise (fun a b => a.1 < b.1) := by
  induction l with
  | nil => exact List.pairwise_singleton _ _
  | cons e es ih =>
    obtain ⟨he, hes⟩ := pairwise_cons.mp h
    unfold insertEntry
    split_ifs with h1 h2
    · refine pairwise_cons.mpr ⟨?_, h⟩
      intro x hx
      rcases mem_cons.mp hx with rfl | hx
      · exact h1
      · exact h1.trans (he x hx)
    · exact h
    · refine pairwise_cons.mpr ⟨?_, ih hes⟩
      intro x hx
      rcases mem_insertEntry hx with rfl | hx
      · exact lt_of_le_of_ne (not_lt.mp h1) h2
      · exact he x hx

/-- A new entry, unless the key has one. -/
def emplace (m : OrderedMap κ α) (k : κ) (v : α) : OrderedMap κ α :=
  ⟨insertEntry k v m.entries, insertEntry_sorted k v m.sorted⟩

def erase (m : OrderedMap κ α) (k : κ) : OrderedMap κ α :=
  ⟨m.entries.filter (fun e => e.1 ≠ k), m.sorted.filter _⟩

def modifyEntry (k : κ) (f : α → α) (e : κ × α) : κ × α := if e.1 = k then (e.1, f e.2) else e

theorem modifyEntry_fst (k : κ) (f : α → α) (e : κ × α) : (modifyEntry k f e).1 = e.1 := by
  unfold modifyEntry
  split <;> rfl

def modify (m : OrderedMap κ α) (k : κ) (f : α → α) : OrderedMap κ α :=
  ⟨m.entries.map (modifyEntry k f), by
    rw [List.pairwise_map]
    exact m.sorted.imp (fun h => by rwa [modifyEntry_fst, modifyEntry_fst])⟩

theorem find?_insertEntry {k : κ} {v : α} (h : l.Pairwise (fun a b => a.1 < b.1)) (j : κ) :
    ((insertEntry k v l).find? (fun e => e.1 = j)).map Prod.snd =
      if j = k then some (((l.find? (fun e => e.1 = k)).map Prod.snd).getD v)
      else (l.find? (fun e => e.1 = j)).map Prod.snd := by
  induction l with
  | nil => by_cases hj : j = k <;> simp [insertEntry, hj, eq_comm]
  | cons e es ih =>
    obtain ⟨he, hes⟩ := pairwise_cons.mp h
    unfold insertEntry
    by_cases h1 : k < e.1
    · -- before the first entry: the key has no entry yet
      have hno : (e :: es).find? (fun e => decide (e.1 = k)) = none := by
        rw [find?_eq_none]
        intro x hx
        have hkx : k < x.1 := by
          rcases mem_cons.mp hx with rfl | hx
          · exact h1
          · exact h1.trans (he x hx)
        simpa using ne_of_gt hkx
      rw [if_pos h1, hno]
      by_cases hj : j = k
      · rw [find?_cons_of_pos (by simpa using hj.symm), if_pos hj]
        rfl
      · rw [find?_cons_of_neg (by simpa using Ne.symm hj), if_neg hj]
    · by_cases h2 : e.1 = k
      · rw [if_neg h1, if_pos h2]
        by_cases hj : j = k
        · rw [if_pos hj, find?_cons_of_pos (by simpa [hj] using h2),
            find?_cons_of_pos (by simpa using h2)]
          rfl
        · rw [if_neg hj]
      · rw [if_neg h1, if_neg h2]
        by_cases hj : e.1 = j
        · have hjk : j ≠ k := hj ▸ h2
          rw [find?_cons_of_pos (by simpa using hj), if_neg hjk, find?_cons_of_pos (by simpa using hj)]
        · rw [find?_cons_of_neg (by simpa using hj), ih hes, find?_cons_of_neg (by simpa using h2),
            find?_cons_of_neg (by simpa using hj)]

theorem find?_emplace (m : OrderedMap κ α) (k : κ) (v : α) (j : κ) :
    (m.emplace k v).find? j = if j = k then some ((m.find? k).getD v) else m.find? j :=
  find?_insertEntry m.sorted j

theorem find?_erase (m : OrderedMap κ α) (k j : κ) : (m.erase k).find? j = if j = k then none else m.find? j := by
  unfold find? erase
  rw [List.find?_filter]
  split_ifs with h
  · rw [find?_eq_none.mpr]
    · rfl
    · intro e _
      simp only [h, ne_eq, decide_not, Bool.not_eq_true', decide_eq_false_iff_not, decide_eq_true_eq]
      exact fun hc => hc.1 hc.2
  · congr 2
    funext e
    by_cases he : e.1 = j
    · simp [he, h]
    · simp [he]

theorem find?_modify (m : OrderedMap κ α) (k : κ) (f : α → α) (j : κ) :
    (m.modify k f).find? j = if j = k then (m.find? k).map f else m.find? j := by
  unfold find? modify
  have hkey : ∀ e : κ × α, (decide ((modifyEntry k f e).1 = j)) = decide (e.1 = j) := by
    intro e
    rw [modifyEntry_fst]
  rw [List.find?_map, Function.comp_def]
  simp only [hkey, Option.map_map]
  split_ifs with h
  · subst h
    cases hf : m.entries.find? (fun e => decide (e.1 = j)) with
    | none => rfl
    | some e =>
      have he : e.1 = j := by simpa using find?_some hf
      simp [modifyEntry, he]
  · cases hf : m.entries.find? (fun e => decide (e.1 = j)) with
    | none => rfl
    | some e =>
      have he : e.1 = j := by simpa using find?_some hf
      simp [modifyEntry, he, h]

/-! ## Lookups by bound -/

def below (m : OrderedMap κ α) (c : κ) : Option (κ × α) := (m.entries.filter (fun e => e.1 < c)).getLast?

/-- The last entry up to the bound: the one an iterator at `upper_bound` steps back to. -/
def upTo (m : OrderedMap κ α) (c : κ) : Option (κ × α) := (m.entries.filter (fun e => e.1 ≤ c)).getLast?

/-- The first entry behind a key: the next one. -/
def above (m : OrderedMap κ α) (k : κ) : Option (κ × α) := m.entries.find? (fun e => k < e.1)

theorem getLast?_eq_some_iff_max (h : l.Pairwise (fun a b => a.1 < b.1)) :
    l.getLast? = some x ↔ x ∈ l ∧ ∀ y ∈ l, y.1 ≤ x.1 := by
  constructor
  · intro hx
    obtain ⟨l', rfl⟩ := List.getLast?_eq_some_iff.mp hx
    refine ⟨by simp, ?_⟩
    intro y hy
    rcases List.mem_append.mp hy with hy | hy
    · exact le_of_lt ((pairwise_append.mp h).2.2 y hy x (by simp))
    · rw [List.mem_singleton.mp hy]
  · rintro ⟨hx, hmax⟩
    obtain ⟨l', r, rfl⟩ := List.append_of_mem hx
    cases r with
    | nil => simp
    | cons y r =>
      have hlt := (pairwise_cons.mp (pairwise_append.mp h).2.1).1 y mem_cons_self
      have hle := hmax y (by simp)
      exact absurd hlt (not_lt.mpr hle)

theorem below_eq_some (m : OrderedMap κ α) (c k : κ) (v : α) :
    m.below c = some (k, v) ↔
      m.find? k = some v ∧ k < c ∧ ∀ j w, m.find? j = some w → j < c → j ≤ k := by
  unfold below
  rw [getLast?_eq_some_iff_max (m.sorted.filter _)]
  simp only [List.mem_filter, mem_entries, decide_eq_true_eq, and_imp, Prod.forall, and_assoc]

theorem below_eq_none (m : OrderedMap κ α) (c : κ) : m.below c = none ↔ ∀ j w, m.find? j = some w → c ≤ j := by
  unfold below
  simp only [List.getLast?_eq_none_iff, List.filter_eq_nil_iff, decide_eq_true_eq, Prod.forall, mem_entries, not_lt]

theorem upTo_eq_some (m : OrderedMap κ α) (c k : κ) (v : α) :
    m.upTo c = some (k, v) ↔
      m.find? k = some v ∧ k ≤ c ∧ ∀ j w, m.find? j = some w → j ≤ c → j ≤ k := by
  unfold upTo
  rw [getLast?_eq_some_iff_max (m.sorted.filter _)]
  simp only [List.mem_filter, mem_entries, decide_eq_true_eq, and_imp, Prod.forall, and_assoc]

theorem find?_eq_some_iff_min (h : l.Pairwise (fun a b => a.1 < b.1)) {p : κ × α → Bool} :
    l.find? p = some x ↔ x ∈ l ∧ p x = true ∧ ∀ y ∈ l, y.1 < x.1 → p y = false := by
  constructor
  · intro hx
    obtain ⟨hpx, before, after, rfl, hbefore⟩ := List.find?_eq_some_iff_append.mp hx
    refine ⟨by simp, hpx, ?_⟩
    intro y hy hyx
    rcases List.mem_append.mp hy with hy | hy
    · simpa using hbefore y hy
    · rcases mem_cons.mp hy with rfl | hy
      · exact absurd hyx (lt_irrefl _)
      · exact absurd hyx (not_lt.mpr ((pairwise_cons.mp (pairwise_append.mp h).2.1).1 y hy).le)
  · rintro ⟨hx, hpx, hmin⟩
    obtain ⟨before, after, rfl⟩ := List.append_of_mem hx
    refine List.find?_eq_some_iff_append.mpr ⟨hpx, before, after, rfl, ?_⟩
    intro y hy
    have hlt := (pairwise_append.mp h).2.2 y hy x mem_cons_self
    simp [hmin y (List.mem_append_left _ hy) hlt]

theorem above_eq_some (m : OrderedMap κ α) (k j : κ) (v : α) :
    m.above k = some (j, v) ↔ m.find? j = some v ∧ k < j ∧ ∀ i w, m.find? i = some w → k < i → j ≤ i := by
  unfold above
  rw [find?_eq_some_iff_min m.sorted]
  simp only [Prod.forall, mem_entries, decide_eq_true_eq, decide_eq_false_iff_not]
  refine and_congr_right (fun _ => and_congr_right (fun _ => forall₂_congr (fun i w => forall_congr' (fun _ => ?_))))
  exact ⟨fun h hk => not_lt.mp (fun hlt => h hlt hk), fun h hlt hk => absurd (h hk) (not_le.mpr hlt)⟩

theorem above_eq_none (m : OrderedMap κ α) (k : κ) : m.above k = none ↔ ∀ j w, m.find? j = some w → j ≤ k := by
  unfold above
  simp only [find?_eq_none, decide_eq_true_eq, Prod.forall, mem_entries, not_lt]

end OrderedMap

end FexEmu
