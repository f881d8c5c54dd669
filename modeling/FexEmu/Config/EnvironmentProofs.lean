import FexEmu.Config.LayersProofs
/-!
# Environment variables of the layers, proofs

A merge of two lists has one string for each name, with the value of the higher one.
-/
namespace FexEmu.Config

variable {h : Host} {layers : LayerType → Option LayerOptions} {o : ConfigOption}

/-! ## Splitting strings -/

theorem span_of_not_mem {key value : List Char} (hkey : '=' ∉ key) :
    (key ++ '=' :: value).span (fun c => decide (c ≠ '=')) = (key, '=' :: value) := by
  have hall : ∀ c ∈ key, decide (c ≠ '=') = true := by
    intro c hc
    exact decide_eq_true fun heq => hkey (heq ▸ hc)
  rw [List.span_eq_takeWhile_dropWhile, List.takeWhile_append_of_pos hall, List.dropWhile_append_of_pos hall]
  simp

theorem span_of_not_mem_all {s : List Char} (hs : '=' ∉ s) : s.span (fun c => decide (c ≠ '=')) = (s, []) := by
  have hall : ∀ c ∈ s, decide (c ≠ '=') = true := by
    intro c hc
    exact decide_eq_true fun heq => hs (heq ▸ hc)
  rw [List.span_eq_takeWhile_dropWhile, List.takeWhile_eq_self_iff.mpr hall, List.dropWhile_eq_nil_iff.mpr hall]

theorem toList_join (name value : String) : (name ++ "=" ++ value).toList = name.toList ++ '=' :: value.toList := by
  simp

theorem splitFirst_join {name value : String} (hname : '=' ∉ name.toList) :
    splitFirst (name ++ "=" ++ value) = some (name, value) := by
  rw [splitFirst, toList_join, span_of_not_mem hname]
  simp

theorem splitLast_join {name value : String} (hvalue : '=' ∉ value.toList) :
    splitLast (name ++ "=" ++ value) = some (name, value) := by
  have hrev : (name ++ "=" ++ value).toList.reverse = value.toList.reverse ++ '=' :: name.toList.reverse := by
    simp
  rw [splitLast, hrev, span_of_not_mem (by simpa using hvalue)]
  simp

theorem splitFirst_some {s name value : String} (hs : splitFirst s = some (name, value)) :
    s = name ++ "=" ++ value ∧ '=' ∉ name.toList := by
  by_cases hmem : '=' ∈ s.toList
  · obtain ⟨key, rest, heq, hkey⟩ := List.eq_append_cons_of_mem hmem
    rw [splitFirst, heq, span_of_not_mem hkey] at hs
    obtain ⟨rfl, rfl⟩ := Prod.mk.inj (Option.some.inj hs)
    refine ⟨String.toList_inj.mp ?_, by simpa using hkey⟩
    rw [toList_join, heq, String.toList_ofList, String.toList_ofList]
  · rw [splitFirst, span_of_not_mem_all hmem] at hs
    cases hs

theorem splitLast_some {s name value : String} (hs : splitLast s = some (name, value)) :
    s = name ++ "=" ++ value ∧ '=' ∉ value.toList := by
  by_cases hmem : '=' ∈ s.toList.reverse
  · obtain ⟨key, rest, heq, hkey⟩ := List.eq_append_cons_of_mem hmem
    rw [splitLast, heq, span_of_not_mem hkey] at hs
    obtain ⟨rfl, rfl⟩ := Prod.mk.inj (Option.some.inj hs)
    refine ⟨String.toList_inj.mp ?_, by simpa using hkey⟩
    rw [toList_join, ← List.reverse_reverse s.toList, heq, String.toList_ofList, String.toList_ofList]
    simp
  · rw [splitLast, span_of_not_mem_all hmem] at hs
    cases hs

/-! ## Maps -/

section Map
variable {l l' : List (String × String)} {key value : String}

theorem find_append : find (l ++ l') key = (find l key).or (find l' key) := by
  rw [find, List.find?_append, find, find]
  cases l.find? fun e => e.1 = key <;> rfl

theorem find_eq_none : find l key = none ↔ ∀ e ∈ l, e.1 ≠ key := by
  simp [find]

theorem mem_of_find (hl : find l key = some value) : (key, value) ∈ l := by
  obtain ⟨e, he, rfl⟩ := Option.map_eq_some_iff.mp hl
  have hkey : e.1 = key := by simpa using List.find?_some he
  exact hkey ▸ List.mem_of_find?_eq_some he

theorem find_of_mem (hl : (l.map Prod.fst).Nodup) (hmem : (key, value) ∈ l) : find l key = some value := by
  cases hfind : find l key with
  | none => exact absurd rfl (find_eq_none.mp hfind _ hmem)
  | some value' =>
    have heq := List.inj_on_of_nodup_map hl (mem_of_find hfind) hmem rfl
    rw [(Prod.mk.inj heq).2]

theorem find_perm (hl : (l.map Prod.fst).Nodup) (hperm : l'.Perm l) : find l' key = find l key := by
  have hl' : (l'.map Prod.fst).Nodup := ((hperm.map Prod.fst).nodup_iff).mpr hl
  cases hfind : find l key with
  | none => exact find_eq_none.mpr fun e he => find_eq_none.mp hfind e (hperm.mem_iff.mp he)
  | some value => exact find_of_mem hl' (hperm.mem_iff.mpr (mem_of_find hfind))

theorem filter_of_nodup (hl : (l.map Prod.fst).Nodup) (key : String) :
    l.filter (fun e => e.1 = key) = ((find l key).map fun value => (key, value)).toList := by
  induction l with
  | nil => rfl
  | cons e l ih =>
    obtain ⟨hnot, hl⟩ := List.nodup_cons.mp hl
    have hcons : find (e :: l) key = if e.1 = key then some e.2 else find l key := by
      unfold find
      by_cases heq : e.1 = key
      · simp [heq]
      · simp [heq]
    rw [hcons, List.filter_cons]
    by_cases heq : e.1 = key
    · have hnone : find l key = none :=
        find_eq_none.mpr fun e' he' heq' => hnot (heq.trans heq'.symm ▸ List.mem_map_of_mem he')
      simp only [heq, decide_true, if_true, ih hl, hnone, Option.map_none, Option.toList_none, Option.map_some,
        Option.toList_some]
      rw [← heq]
    · simp only [heq, decide_false, if_false, Bool.false_eq_true]
      exact ih hl

theorem nodup_of_filter (hl : ∀ key, (l.filter (fun e => e.1 = key)).length ≤ 1) : (l.map Prod.fst).Nodup := by
  rw [List.nodup_iff_count_le_one]
  intro key
  have hcount : (l.map Prod.fst).count key = (l.filter (fun e => e.1 = key)).length := by
    rw [List.count, List.countP_map, List.countP_eq_length_filter]
    congr 1
  rw [hcount]
  exact hl key

theorem find_insertOrAssign (e : String × String) :
    find (insertOrAssign l e) key = if key = e.1 then some e.2 else find l key := by
  rw [insertOrAssign, find_append]
  by_cases heq : key = e.1
  · subst heq
    have hnone : find (l.filter fun e' => e'.1 ≠ e.1) e.1 = none :=
      find_eq_none.mpr fun e' he' => by simpa using (List.mem_filter.mp he').2
    rw [hnone, if_pos rfl]
    simp [find]
  · rw [if_neg heq]
    have hfilter : find (l.filter fun e' => e'.1 ≠ e.1) key = find l key := by
      unfold find
      rw [List.find?_filter]
      congr 1
      refine List.find?_congr fun e' _ => ?_
      by_cases he' : e'.1 = key
      · simp [he', heq]
      · simp [he']
    have hlast : find [e] key = none := find_eq_none.mpr fun e' he' h0 => heq (by
      rw [List.mem_singleton] at he'
      rw [← h0, he'])
    rw [hfilter, hlast, Option.or_none]

theorem nodup_insertOrAssign (hl : (l.map Prod.fst).Nodup) (e : String × String) :
    ((insertOrAssign l e).map Prod.fst).Nodup := by
  rw [insertOrAssign, List.map_append, List.map_singleton, List.nodup_append]
  refine ⟨(List.filter_sublist.map Prod.fst).nodup hl, List.nodup_singleton _, ?_⟩
  intro a ha b hb
  obtain ⟨e', he', rfl⟩ := List.mem_map.mp ha
  rw [List.mem_singleton] at hb
  rw [hb]
  simpa using (List.mem_filter.mp he').2

theorem find_foldl_insertOrAssign (entries : List (String × String)) : ∀ l,
    find (entries.foldl insertOrAssign l) key = (find entries.reverse key).or (find l key) := by
  induction entries with
  | nil => intro l; rfl
  | cons e entries ih =>
    intro l
    rw [List.foldl_cons, ih, List.reverse_cons, find_append, find_insertOrAssign]
    by_cases heq : key = e.1
    · subst heq
      cases find entries.reverse e.1 <;> simp [find]
    · have hlast : find [e] key = none := find_eq_none.mpr fun e' he' h0 => heq (by
        rw [List.mem_singleton] at he'
        rw [← h0, he'])
      rw [if_neg heq, hlast, Option.or_none]

theorem nodup_foldl_insertOrAssign (entries : List (String × String)) : ∀ l, (l.map Prod.fst).Nodup →
    ((entries.foldl insertOrAssign l).map Prod.fst).Nodup := by
  induction entries with
  | nil => intro l hl; exact hl
  | cons e entries ih => intro l hl; exact ih _ (nodup_insertOrAssign hl e)

end Map

/-! ## Merging the lists of the layers -/

theorem name_of_mem_definitions {values : List String} {e : String × String} (he : e ∈ definitions values) :
    '=' ∉ e.1.toList := by
  obtain ⟨s, -, hs⟩ := List.mem_filterMap.mp he
  exact (splitFirst_some hs).2

theorem definitions_join {l : List (String × String)} (hl : ∀ e ∈ l, '=' ∉ e.1.toList) :
    definitions (l.map fun e => e.1 ++ "=" ++ e.2) = l := by
  induction l with
  | nil => rfl
  | cons e l ih =>
    rw [definitions, List.map_cons, List.filterMap_cons, splitFirst_join (hl e List.mem_cons_self)]
    exact congrArg (e :: ·) (ih fun e' he' => hl e' (List.mem_cons_of_mem _ he'))

theorem definitions_append (a b : List String) : definitions (a ++ b) = definitions a ++ definitions b :=
  List.filterMap_append

section Merge
variable {old new : LayerValue}

theorem mem_of_mem_foldl {e : String × String} (entries : List (String × String)) : ∀ l,
    e ∈ entries.foldl insertOrAssign l → e ∈ entries ∨ e ∈ l := by
  induction entries with
  | nil => intro l he; exact .inr he
  | cons e' entries ih =>
    intro l he
    obtain he | he := ih _ he
    · exact .inl (List.mem_cons_of_mem _ he)
    · obtain he | he := List.mem_append.mp he
      · exact .inr (List.mem_filter.mp he).1
      · rw [List.mem_singleton] at he
        exact .inl (he ▸ List.mem_cons_self)

theorem nodup_lookupMap (old new : LayerValue) : ((lookupMap old new).map Prod.fst).Nodup :=
  nodup_foldl_insertOrAssign _ [] List.nodup_nil

theorem definitions_mergeEnv (h : Host) (old new : LayerValue) :
    definitions ((mergeEnv h new (some old)).elim [] LayerValue.toList) = h.iterate (lookupMap old new) := by
  rw [mergeEnv, toList_valueOf, definitions_join]
  intro e he
  obtain he | he := mem_of_mem_foldl _ _ ((h.iterate_perm _).mem_iff.mp he)
  · exact name_of_mem_definitions he
  · cases he

theorem nodup_mergeEnv (h : Host) (old new : LayerValue) :
    ((h.iterate (lookupMap old new)).map Prod.fst).Nodup :=
  (((h.iterate_perm _).map Prod.fst).nodup_iff).mpr (nodup_lookupMap old new)

theorem find_lookupMap (old new : LayerValue) (name : String) :
    find (lookupMap old new) name = (valueIn new.toList name).or (valueIn old.toList name) := by
  rw [lookupMap, find_foldl_insertOrAssign, ← definitions, definitions_append, List.reverse_append, find_append]
  exact Option.or_none

theorem find_reverse {l : List (String × String)} (hl : (l.map Prod.fst).Nodup) (name : String) :
    find l.reverse name = find l name := find_perm hl l.reverse_perm

theorem valueIn_mergeEnv (h : Host) (old new : LayerValue) (name : String) :
    valueIn ((mergeEnv h new (some old)).elim [] LayerValue.toList) name =
      (valueIn new.toList name).or (valueIn old.toList name) := by
  rw [valueIn, definitions_mergeEnv, find_reverse (nodup_mergeEnv h old new),
    find_perm (nodup_lookupMap old new) (h.iterate_perm _), find_lookupMap]

theorem valueIn_eq_none_iff {values : List String} : (∀ name, valueIn values name = none) ↔ definitions values = [] := by
  constructor
  · intro hall
    refine List.eq_nil_iff_forall_not_mem.mpr fun e he => ?_
    exact find_eq_none.mp (hall e.1) e (List.mem_reverse.mpr he) rfl
  · intro hnil name
    rw [valueIn, hnil]
    rfl

end Merge

/-- What a number of layers leave in the meta layer, from the lowest one up. -/
def merged (h : Host) (values : List LayerValue) : Option LayerValue := values.foldl (fun old v => mergeEnv h v old) none

theorem merged_concat (values : List LayerValue) (last : LayerValue) :
    merged h (values ++ [last]) = mergeEnv h last (merged h values) := List.foldl_concat ..

/-- The highest value of a name among a number of layers. -/
def highestIn (values : List LayerValue) (name : String) : Option String :=
  (values.filterMap fun v => valueIn v.toList name).getLast?

theorem highestIn_concat (values : List LayerValue) (last : LayerValue) (name : String) :
    highestIn (values ++ [last]) name = (valueIn last.toList name).or (highestIn values name) := by
  rw [highestIn, List.filterMap_append, List.filterMap_cons, List.filterMap_nil]
  cases valueIn last.toList name with
  | none => simp [highestIn]
  | some value => simp

theorem highestIn_eq_none_iff {values : List LayerValue} :
    (∀ name, highestIn values name = none) ↔ ∀ v ∈ values, definitions v.toList = [] := by
  constructor
  · intro hall v hv
    refine valueIn_eq_none_iff.mp fun name => ?_
    have hnil : values.filterMap (fun v => valueIn v.toList name) = [] := List.getLast?_eq_none_iff.mp (hall name)
    exact List.filterMap_eq_nil_iff.mp hnil v hv
  · intro hall name
    rw [highestIn, List.getLast?_eq_none_iff, List.filterMap_eq_nil_iff]
    exact fun v hv => valueIn_eq_none_iff.mpr (hall v hv) name

/-- The values are those of the highest layers, and the layers leave nothing exactly if an even number of them defines
nothing. -/
theorem merged_spec (values : List LayerValue) :
    (∀ name, valueIn ((merged h values).elim [] LayerValue.toList) name = highestIn values name) ∧
      (merged h values = none ↔ Even values.length ∧ ∀ v ∈ values, definitions v.toList = []) := by
  induction values using List.reverseRecOn with
  | nil => exact ⟨fun _ => rfl, iff_of_true rfl ⟨⟨0, rfl⟩, by simp⟩⟩
  | append_singleton values last ih =>
    obtain ⟨hvalues, hnone⟩ := ih
    rw [merged_concat]
    cases hm : merged h values with
    | none =>
      have hempty := hnone.mp hm
      refine ⟨fun name => ?_, ?_⟩
      · rw [highestIn_concat, highestIn_eq_none_iff.mpr hempty.2 name, Option.or_none]
        rfl
      · refine iff_of_false (by simp [mergeEnv]) fun heven => ?_
        rw [List.length_append, List.length_singleton, Nat.even_add_one] at heven
        exact heven.1 hempty.1
    | some old =>
      have hold : ∀ name, valueIn old.toList name = highestIn values name := by
        intro name
        rw [← hvalues name, hm]
        rfl
      have hall : ∀ name, valueIn ((mergeEnv h last (some old)).elim [] LayerValue.toList) name =
          highestIn (values ++ [last]) name := by
        intro name
        rw [valueIn_mergeEnv, highestIn_concat, hold]
      refine ⟨hall, ?_⟩
      have hiff : mergeEnv h last (some old) = none ↔
          definitions ((mergeEnv h last (some old)).elim [] LayerValue.toList) = [] := by
        rw [definitions_mergeEnv, mergeEnv]
        cases h.iterate (lookupMap old last) <;> simp [valueOf]
      rw [hiff, ← valueIn_eq_none_iff]
      simp only [hall, highestIn_eq_none_iff]
      refine ⟨fun hbroken => ⟨?_, hbroken⟩, fun hb => hb.2⟩
      rw [List.length_append, List.length_singleton, Nat.even_add_one]
      intro heven
      have := hnone.mpr ⟨heven, fun v hv => hbroken v (List.mem_append_left _ hv)⟩
      rw [hm] at this
      cases this

theorem oneEach_iff {m : LayerOptions} (hm : m o = merged h (settings layers o)) :
    OneEach layers m o ↔ NamesOnce layers o := by
  have hhighest : ∀ name, highestValue layers o name = highestIn (settings layers o) name := fun _ => rfl
  unfold OneEach NamesOnce
  simp only [hhighest, hm]
  generalize settings layers o = values
  rcases List.eq_nil_or_concat values with hnil | ⟨lower, last, hlast⟩
  · subst hnil
    refine iff_of_true (fun name => rfl) fun lower last heq => ?_
    simp at heq
  · rw [List.concat_eq_append] at hlast
    subst hlast
    obtain ⟨hvalues, hnone⟩ := merged_spec (h := h) lower
    have hconcat := (merged_spec (h := h) (lower ++ [last])).1
    have honly : (∀ lower' last', lower ++ [last] = lower' ++ [last'] → Even lower'.length →
        (∀ v ∈ lower', definitions v.toList = []) → ((definitions last'.toList).map Prod.fst).Nodup) ↔
        (merged h lower = none → ((definitions last.toList).map Prod.fst).Nodup) := by
      rw [hnone]
      constructor
      · exact fun hall hlower => hall lower last rfl hlower.1 hlower.2
      · intro hall lower' last' heq heven hbroken
        obtain ⟨rfl, hl⟩ := List.append_inj' heq rfl
        cases hl
        exact hall ⟨heven, hbroken⟩
    rw [honly, merged_concat]
    cases hlower : merged h lower with
    | none =>
      have hfind : ∀ name, valueIn last.toList name = highestIn (lower ++ [last]) name := by
        intro name
        rw [← hconcat name, merged_concat, hlower]
        rfl
      simp only [mergeEnv, Option.elim_some, true_implies, ← hfind]
      constructor
      · intro hall
        refine nodup_of_filter fun key => ?_
        rw [hall key]
        cases valueIn last.toList key <;> simp
      · intro hnodup name
        rw [filter_of_nodup hnodup, valueIn, find_reverse hnodup]
    | some old =>
      refine iff_of_true (fun name => ?_) (by simp)
      rw [← hconcat name, merged_concat, hlower, definitions_mergeEnv, filter_of_nodup (nodup_mergeEnv h old last), valueIn,
        definitions_mergeEnv, find_reverse (nodup_mergeEnv h old last)]

end FexEmu.Config
