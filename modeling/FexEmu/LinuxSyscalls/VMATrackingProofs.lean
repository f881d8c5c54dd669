import FexEmu.LinuxSyscalls.VMATracking
/-!
# The VMA tracker is a map of addresses

The operations are first described without the links (`data`). `ClearUnsafe` cuts the range out of one mapping after the
other, from the top down.
-/
namespace FexEmu.LinuxSyscalls.VMATracking
open Function (update update_self update_of_ne update_eq_self)

/-! ## The entries without their links -/

def unlinked (e : VMAEntry) : VMAEntry := { e with resourcePrevVMA := none, resourceNextVMA := none }

/-- Where the mappings are, and of what. -/
def data (t : VMATracking) (k : Nat) : Option VMAEntry := (t.vmas.find? k).map unlinked

section data
variable (t : VMATracking) (k : Nat)

theorem data_modify (f g : VMAEntry → VMAEntry) (hfg : ∀ e, unlinked (f e) = g (unlinked e)) :
    ({ t with vmas := t.vmas.modify k f } : VMATracking).data = update t.data k ((t.data k).map g) := by
  funext j
  unfold data
  rw [OrderedMap.find?_modify]
  by_cases hj : j = k
  · subst hj
    rw [if_pos rfl, update_self, Option.map_map, Option.map_map]
    congr 1
    funext e
    exact hfg e
  · rw [if_neg hj, update_of_ne hj]

@[simp] theorem data_setPrev (p : Option Nat) : (t.setPrev k p).data = t.data := by
  unfold setPrev
  rw [data_modify t k (fun e => { e with resourcePrevVMA := p }) id (fun _ => rfl), Option.map_id, id_eq,
    update_eq_self]

@[simp] theorem data_setNext (n : Option Nat) : (t.setNext k n).data = t.data := by
  unfold setNext
  rw [data_modify t k (fun e => { e with resourceNextVMA := n }) id (fun _ => rfl), Option.map_id, id_eq,
    update_eq_self]

theorem data_setLength (length : Nat) :
    (t.setLength k length).data = update t.data k ((t.data k).map (fun e => { e with length := length })) :=
  data_modify t k _ (fun e => { e with length := length }) (fun _ => rfl)

theorem data_setProt (prot : VMAProt) :
    (t.setProt k prot).data = update t.data k ((t.data k).map (fun e => { e with prot := prot })) :=
  data_modify t k _ (fun e => { e with prot := prot }) (fun _ => rfl)

theorem data_emplaceVMA (e : VMAEntry) :
    (t.emplaceVMA k e).data = update t.data k (some ((t.data k).getD (unlinked e))) := by
  funext j
  unfold data emplaceVMA
  rw [OrderedMap.find?_emplace]
  by_cases hj : j = k
  · subst hj
    rw [if_pos rfl, update_self]
    cases t.vmas.find? j <;> rfl
  · rw [if_neg hj, update_of_ne hj]

theorem data_eraseVMA : (t.eraseVMA k).data = update t.data k none := by
  funext j
  unfold data eraseVMA
  rw [OrderedMap.find?_erase]
  by_cases hj : j = k
  · subst hj
    rw [if_pos rfl, update_self, Option.map_none]
  · rw [if_neg hj, update_of_ne hj]

@[simp] theorem data_setFirst (r : MRID) (f : Option Nat) : (t.setFirst r f).data = t.data := rfl

@[simp] theorem data_eraseResource (r : MRID) : (t.eraseResource r).data = t.data := rfl

@[simp] theorem data_emplaceResource (r : MRID) (m : MappedResource) : (t.emplaceResource r m).data = t.data := rfl

@[simp] theorem data_linkNext (p n : Option Nat) : (t.linkNext p n).data = t.data := by
  cases p with
  | none => rfl
  | some p => exact data_setNext t p n

@[simp] theorem data_linkPrev (n p : Option Nat) : (t.linkPrev n p).data = t.data := by
  cases n with
  | none => rfl
  | some n => exact data_setPrev t n p

@[simp] theorem data_listRemove (r : MRID) : (t.listRemove k r).1.data = t.data := by
  unfold listRemove
  dsimp only
  split <;> simp

@[simp] theorem data_listReplace (r : MRID) (new : Nat) : (t.listReplace k r new).data = t.data := by
  unfold listReplace
  split <;> simp

@[simp] theorem data_listInsertAfter (new : Nat) : (t.listInsertAfter k new).data = t.data := by
  simp [listInsertAfter]

@[simp] theorem data_listPrepend (r : MRID) : (t.listPrepend r k).data = t.data := by
  simp [listPrepend]

theorem data_removeMapping (preserved : Option MRID) (cur : VMAEntry) :
    (removeMapping preserved t k cur).data = update t.data k none := by
  unfold removeMapping
  rw [data_eraseVMA]
  congr 1
  cases cur.resource with
  | none => rfl
  | some r =>
    dsimp only
    split <;> simp

end data

variable {t : VMATracking} {k j a b top base length : Nat} {e f : VMAEntry} {D : Nat → Option VMAEntry}

theorem data_eq_some : t.data k = some e ↔ ∃ e', t.vmas.find? k = some e' ∧ unlinked e' = e := by
  unfold data
  rw [Option.map_eq_some_iff]

theorem below_data {c : Nat} (h : t.vmas.below c = some (k, e)) :
    t.data k = some (unlinked e) ∧ k < c ∧ ∀ j f, t.data j = some f → j < c → j ≤ k := by
  obtain ⟨hk, hc, hmax⟩ := (OrderedMap.below_eq_some _ _ _ _).mp h
  refine ⟨data_eq_some.mpr ⟨e, hk, rfl⟩, hc, ?_⟩
  intro j f hj hjc
  obtain ⟨f', hf', -⟩ := data_eq_some.mp hj
  exact hmax j f' hf' hjc

theorem below_none_data {c : Nat} (h : t.vmas.below c = none) (hj : t.data j = some f) : c ≤ j := by
  obtain ⟨f', hf', -⟩ := data_eq_some.mp hj
  exact (OrderedMap.below_eq_none _ _).mp h j f' hf'

/-! ## Disjoint mappings -/

/-- The mappings are keyed by their base, do not wrap and do not overlap. -/
structure Layout (D : Nat → Option VMAEntry) : Prop where
  keyed : ∀ {k e}, D k = some e → e.base = k
  bounded : ∀ {k e}, D k = some e → 0 < e.length ∧ k + e.length < 2 ^ 64
  disjoint : ∀ {k e j f}, D k = some e → D j = some f → k < j → k + e.length ≤ j

theorem Layout.entry (h : Layout t.data) (hk : t.vmas.find? k = some e) :
    t.data k = some (unlinked e) ∧ e.base = k ∧ k + e.length < 2 ^ 64 := by
  have hd : t.data k = some (unlinked e) := data_eq_some.mpr ⟨e, hk, rfl⟩
  have hkeyed := h.keyed hd
  have hwrap := (h.bounded hd).2
  exact ⟨hd, hkeyed, hwrap⟩

/-- What an address is mapped to. -/
structure Mapping where
  resource : Option MRID
  offset : Nat
  flags : VMAFlags
  prot : VMAProt
deriving DecidableEq, Repr

def mappingAt (e : VMAEntry) (a : Nat) : Mapping := ⟨e.resource, sub64 (add64 e.offset a) e.base, e.flags, e.prot⟩

/-- The address is inside an entry. -/
def MapsTo (D : Nat → Option VMAEntry) (a : Nat) (m : Mapping) : Prop :=
  ∃ k e, D k = some e ∧ k ≤ a ∧ a < k + e.length ∧ m = mappingAt e a

theorem layout_empty : Layout empty.data where
  keyed h := absurd h (by simp [data, empty])
  bounded h := absurd h (by simp [data, empty])
  disjoint h := absurd h (by simp [data, empty])

theorem trailing_offset {o : Nat} (hb : b < 2 ^ 64) (ht : top < 2 ^ 64) :
    sub64 (add64 (add64 (sub64 o b) top) a) top = sub64 (add64 o a) b := by
  unfold sub64 add64
  omega

theorem Layout.unique (h : Layout D) (hk : D k = some e)
    (hj : D j = some f) (hka : k ≤ a) (hae : a < k + e.length) (hja : j ≤ a) (haf : a < j + f.length) : k = j := by
  rcases lt_trichotomy k j with hlt | heq | hlt
  · have hd := h.disjoint hk hj hlt
    omega
  · exact heq
  · have hd := h.disjoint hj hk hlt
    omega

theorem lookupVMAUnsafe_of_mem (h : Layout t.data)
    (hk : t.vmas.find? k = some e) (hka : k ≤ a) (hae : a < k + e.length) : t.lookupVMAUnsafe a = some (k, e) := by
  have hd : t.data k = some (unlinked e) := data_eq_some.mpr ⟨e, hk, rfl⟩
  -- every entry that starts in between would overlap this one
  have hu : t.vmas.upTo a = some (k, e) := by
    rw [OrderedMap.upTo_eq_some]
    refine ⟨hk, hka, ?_⟩
    intro j f hj hja
    by_contra hlt
    have hdis := h.disjoint hd (data_eq_some.mpr ⟨f, hj, rfl⟩) (by omega)
    change k + e.length ≤ j at hdis
    omega
  have hb := (h.bounded hd).2
  change k + e.length < 2 ^ 64 at hb
  have hin : k ≤ a ∧ a < add64 k e.length := by
    rw [add64_of_lt hb]
    exact ⟨hka, hae⟩
  unfold lookupVMAUnsafe
  rw [hu]
  exact if_pos hin

theorem lookupVMAUnsafe_mapsTo (h : Layout t.data) (a : Nat) (m : Mapping) :
    (t.lookupVMAUnsafe a).map (fun e => mappingAt e.2 a) = some m ↔ MapsTo t.data a m := by
  constructor
  · intro hl
    unfold lookupVMAUnsafe at hl
    cases hu : t.vmas.upTo a with
    | none => simp [hu] at hl
    | some x =>
      obtain ⟨k, e⟩ := x
      rw [hu] at hl
      obtain ⟨hk, -, -⟩ := (OrderedMap.upTo_eq_some _ _ _ _).mp hu
      have hd : t.data k = some (unlinked e) := data_eq_some.mpr ⟨e, hk, rfl⟩
      have hb := h.bounded hd
      change 0 < e.length ∧ k + e.length < 2 ^ 64 at hb
      by_cases hin : k ≤ a ∧ a < add64 k e.length
      · rw [add64_of_lt hb.2] at hin
        have hm : mappingAt e a = m := by simpa [hin, add64_of_lt hb.2] using hl
        exact ⟨k, unlinked e, hd, hin.1, hin.2, hm.symm⟩
      · simp [hin] at hl
  · rintro ⟨k, e, hk, hka, hae, rfl⟩
    obtain ⟨e', he', rfl⟩ := data_eq_some.mp hk
    rw [lookupVMAUnsafe_of_mem h he' hka hae]
    rfl

/-! ## Cutting a range out of a mapping -/

def cut (D : Nat → Option VMAEntry) (k : Nat) (e : VMAEntry) (base top : Nat) : Nat → Option VMAEntry := fun j =>
  if j = k then (if k < base then some { e with length := base - k } else none)
  else if j = top ∧ top < k + e.length then
    some { e with base := top, offset := add64 (sub64 e.offset k) top, length := k + e.length - top }
  else D j

section cut
variable {D : Nat → Option VMAEntry} {k base top : Nat} {e : VMAEntry}

theorem cut_cases {j : Nat} {f : VMAEntry} (h : cut D k e base top j = some f) :
    (j = k ∧ k < base ∧ f = { e with length := base - k }) ∨
    (j = top ∧ top < k + e.length ∧
      f = { e with base := top, offset := add64 (sub64 e.offset k) top, length := k + e.length - top }) ∨
    (j ≠ k ∧ D j = some f) := by
  unfold cut at h
  by_cases hjk : j = k
  · rw [if_pos hjk] at h
    by_cases hkb : k < base
    · rw [if_pos hkb] at h
      exact Or.inl ⟨hjk, hkb, (Option.some.inj h).symm⟩
    · rw [if_neg hkb] at h
      cases h
  · rw [if_neg hjk] at h
    by_cases hjt : j = top ∧ top < k + e.length
    · rw [if_pos hjt] at h
      exact Or.inr (Or.inl ⟨hjt.1, hjt.2, (Option.some.inj h).symm⟩)
    · rw [if_neg hjt] at h
      exact Or.inr (Or.inr ⟨hjk, h⟩)

theorem layout_cut (hD : Layout D) (hk : D k = some e) (hbase : base < k + e.length) (hktop : k < top)
    (hbt : base ≤ top) : Layout (cut D k e base top) := by
  obtain ⟨hpos, hwrap⟩ := hD.bounded hk
  have hkeyed := hD.keyed hk
  refine ⟨?_, ?_, ?_⟩
  · intro j f hj
    rcases cut_cases hj with ⟨rfl, -, rfl⟩ | ⟨rfl, -, rfl⟩ | ⟨-, hj⟩
    · exact hkeyed
    · rfl
    · exact hD.keyed hj
  · intro j f hj
    rcases cut_cases hj with ⟨rfl, hb, rfl⟩ | ⟨rfl, ht, rfl⟩ | ⟨-, hj⟩
    · exact ⟨by simp only; omega, by simp only; omega⟩
    · exact ⟨by simp only; omega, by simp only; omega⟩
    · exact hD.bounded hj
  · intro i f j g hi hj hij
    rcases cut_cases hi with ⟨rfl, hb, rfl⟩ | ⟨rfl, ht, rfl⟩ | ⟨hik, hi'⟩ <;>
      rcases cut_cases hj with ⟨rfl, hb', rfl⟩ | ⟨rfl, ht', rfl⟩ | ⟨hjk, hj'⟩
    · omega
    · simp only; omega
    · have hd := hD.disjoint hk hj' hij
      simp only; omega
    · omega
    · omega
    · have hd := hD.disjoint hk hj' (by omega)
      simp only; omega
    · exact hD.disjoint hi' hk hij
    · -- an entry before the trailing part is before the mapping it comes from
      rcases Nat.lt_or_gt_of_ne hik with hlt | hgt
      · have hd := hD.disjoint hi' hk hlt
        omega
      · have hd := hD.disjoint hk hi' hgt
        omega
    · exact hD.disjoint hi' hj' hij

theorem mapsTo_cut (hD : Layout D) (hk : D k = some e) (hbase : base < k + e.length) (hktop : k < top) (a : Nat)
    (m : Mapping) :
    MapsTo (cut D k e base top) a m ↔ MapsTo D a m ∧ ¬ (k ≤ a ∧ a < k + e.length ∧ base ≤ a ∧ a < top) := by
  obtain ⟨hpos, hwrap⟩ := hD.bounded hk
  have hkeyed := hD.keyed hk
  constructor
  · rintro ⟨j, f, hj, hja, haf, rfl⟩
    rcases cut_cases hj with ⟨rfl, hb, rfl⟩ | ⟨rfl, ht, rfl⟩ | ⟨hjk, hj⟩
    · simp only at haf
      refine ⟨⟨j, e, hk, hja, by omega, rfl⟩, by omega⟩
    · simp only at haf
      refine ⟨⟨k, e, hk, by omega, by omega, ?_⟩, by omega⟩
      unfold mappingAt
      rw [hkeyed, trailing_offset (by omega) (by omega)]
    · refine ⟨⟨j, f, hj, hja, haf, rfl⟩, ?_⟩
      rintro ⟨hka, hae, -, -⟩
      exact hjk (hD.unique hj hk hja haf hka hae)
  · rintro ⟨⟨j, f, hj, hja, haf, rfl⟩, hout⟩
    by_cases hjk : j = k
    · subst hjk
      obtain rfl : e = f := Option.some.inj (hk.symm.trans hj)
      by_cases hab : a < base
      · refine ⟨j, { e with length := base - j }, ?_, hja, by simp only; omega, rfl⟩
        unfold cut
        rw [if_pos rfl, if_pos (by omega)]
      · have hat : top ≤ a := by
          by_contra hlt
          exact hout ⟨hja, haf, by omega, by omega⟩
        refine ⟨top, { e with base := top, offset := add64 (sub64 e.offset j) top, length := j + e.length - top },
          ?_, hat, by simp only; omega, ?_⟩
        · unfold cut
          rw [if_neg (by omega), if_pos ⟨rfl, by omega⟩]
        · unfold mappingAt
          rw [hkeyed, trailing_offset (by omega) (by omega)]
    · refine ⟨j, f, ?_, hja, haf, rfl⟩
      unfold cut
      rw [if_neg hjk, if_neg ?_]
      · exact hj
      · -- nothing starts inside of the mapping that is cut
        rintro ⟨rfl, ht⟩
        have hd := hD.disjoint hk hj hktop
        omega

end cut

/-! ## `ClearUnsafe` -/

theorem data_clearMapping {preserved : Option MRID} {cur : VMAEntry}
    (ht : Layout t.data) (hk : t.data k = some (unlinked cur)) (hktop : k < top) (hbase : base < k + cur.length)
    (hbt : base ≤ top) (htop : top < 2 ^ 64) :
    (clearMapping base top preserved t k cur).data = cut t.data k (unlinked cur) base top := by
  have hkeyed := ht.keyed hk
  have hwrap := (ht.bounded hk).2
  change cur.base = k at hkeyed
  have hmapTop : add64 k cur.length = k + cur.length := add64_of_lt hwrap
  have htopfree : top < k + cur.length → t.data top = none := by
    intro hlt
    cases hd : t.data top with
    | none => rfl
    | some f =>
      have hdis := ht.disjoint hk hd hktop
      change k + cur.length ≤ top at hdis
      omega
  have hsub : k < base → sub64 base k = base - k := fun h => sub64_of_le h.le (by omega)
  have htail : top < k + cur.length → sub64 (k + cur.length) top = k + cur.length - top := fun h => sub64_of_le h.le hwrap
  funext j
  unfold clearMapping cut
  have hlen : (unlinked cur).length = cur.length := rfl
  simp only [hkeyed, hmapTop, hlen]
  -- the entry keeps a part before the range, one behind it, both or none
  by_cases hfirst : k < base <;> by_cases htrail : top < k + cur.length
  · simp only [hfirst, htrail, decide_true, if_true]
    have hlist : ∀ s : VMATracking, (if cur.resource.isSome then s.listInsertAfter k top else s).data = s.data := by
      split <;> simp
    rw [hlist, data_emplaceVMA, data_setLength, hk]
    by_cases hjt : j = top
    · subst hjt
      rw [update_self, update_of_ne (by omega), htopfree htrail]
      simp [trailingPart, unlinked, hmapTop, hkeyed, htail htrail, Nat.ne_of_gt hktop]
    · rw [update_of_ne hjt]
      by_cases hjk : j = k
      · subst hjk
        simp [unlinked, hsub hfirst]
      · simp [hjk, hjt]
  · simp only [hfirst, htrail, decide_true, decide_false, if_true, and_false, if_false]
    rw [data_setLength, hk]
    by_cases hjk : j = k
    · subst hjk
      simp [unlinked, hsub hfirst]
    · simp [hjk]
  · simp only [hfirst, htrail, decide_true, decide_false, if_false, and_true]
    rw [data_eraseVMA]
    have hlist : ∀ d, d = (t.emplaceVMA top (trailingPart top cur cur.resourcePrevVMA)).data → update d k none j = _ :=
      fun d hd => congrArg (fun d => update d k none j) hd
    refine (hlist _ (by split <;> simp)).trans ?_
    rw [data_emplaceVMA]
    by_cases hjk : j = k
    · subst hjk
      simp
    · rw [update_of_ne hjk, if_neg hjk]
      by_cases hjt : j = top
      · subst hjt
        rw [update_self, htopfree htrail]
        simp [trailingPart, unlinked, hmapTop, hkeyed, htail htrail]
      · simp [hjt]
  · simp only [hfirst, htrail, decide_false, if_false, and_false]
    rw [data_removeMapping]
    by_cases hjk : j = k
    · subst hjk
      simp
    · simp [hjk]

/-- The map `D'` is `D` without the addresses from `c` to `top` that are in the range. -/
def Cleared (D : Nat → Option VMAEntry) (base c top : Nat) (D' : Nat → Option VMAEntry) : Prop :=
  Layout D' ∧ ∀ a m, MapsTo D' a m ↔ MapsTo D a m ∧ ¬ (base ≤ a ∧ c ≤ a ∧ a < top)

theorem clearLoop_cleared {preserved : Option MRID} (hbt : base ≤ top) (htop : top < 2 ^ 64) :
    ∀ (fuel c : Nat) (t : VMATracking), c ≤ fuel → c ≤ top → Cleared D base c top t.data →
      Cleared D base 0 top (clearLoop base top preserved fuel c t).data := by
  intro fuel
  induction fuel with
  | zero =>
    intro c t hc _ h
    obtain rfl : c = 0 := by omega
    exact h
  | succ fuel ih =>
    rintro c t hc hct ⟨hlay, hmaps⟩
    unfold clearLoop
    cases hb : t.vmas.below c with
    | none =>
      -- no mapping is left below the cursor
      refine ⟨hlay, ?_⟩
      intro a m
      rw [hmaps]
      refine and_congr_right (fun hm => not_congr ?_)
      constructor
      · rintro ⟨h1, -, h3⟩
        exact ⟨h1, Nat.zero_le a, h3⟩
      · rintro ⟨h1, -, h3⟩
        refine ⟨h1, ?_, h3⟩
        by_contra hac
        obtain ⟨j, f, hj, hja, -, -⟩ := (hmaps a m).mpr ⟨hm, fun hx => hac hx.2.1⟩
        have hcj := below_none_data hb hj
        omega
    | some x =>
      obtain ⟨k, cur⟩ := x
      obtain ⟨hk, hkc, hmax⟩ := below_data hb
      have hkeyed := hlay.keyed hk
      have hbound := hlay.bounded hk
      change cur.base = k at hkeyed
      change 0 < cur.length ∧ k + cur.length < 2 ^ 64 at hbound
      have hmapTop : add64 cur.base cur.length = k + cur.length := by rw [hkeyed, add64_of_lt hbound.2]
      -- an address below the cursor is in the mapping at `k` or before it
      have hbelow : ∀ a m, a < c → MapsTo t.data a m → a < k + cur.length := by
        rintro a m hac ⟨j, f, hj, hja, haf, -⟩
        rcases Nat.lt_or_eq_of_le (hmax j f hj (by omega)) with hjk | rfl
        · have hd := hlay.disjoint hj hk hjk
          omega
        · obtain rfl := Option.some.inj (hk.symm.trans hj)
          exact haf
      dsimp only
      rw [hmapTop]
      by_cases hend : k + cur.length ≤ base
      · rw [if_pos hend]
        refine ⟨hlay, ?_⟩
        intro a m
        rw [hmaps]
        refine and_congr_right (fun hm => not_congr ?_)
        constructor
        · rintro ⟨h1, -, h3⟩
          exact ⟨h1, Nat.zero_le a, h3⟩
        · rintro ⟨h1, -, h3⟩
          refine ⟨h1, ?_, h3⟩
          by_contra hac
          have hlt := hbelow a m (by omega) ((hmaps a m).mpr ⟨hm, fun hx => hac hx.2.1⟩)
          omega
      · rw [if_neg hend]
        refine ih k _ (by omega) (by omega) ?_
        rw [data_clearMapping hlay hk (by omega) (by omega) hbt htop]
        have hcut : base < k + (unlinked cur).length := not_le.mp hend
        refine ⟨layout_cut hlay hk hcut (by omega) hbt, ?_⟩
        intro a m
        rw [mapsTo_cut hlay hk hcut (by omega), hmaps, and_assoc]
        refine and_congr_right (fun hm => ?_)
        have hlen : (unlinked cur).length = cur.length := rfl
        constructor
        · rintro ⟨h1, h2⟩ ⟨h3, h4, h5⟩
          by_cases hac : c ≤ a
          · exact h1 ⟨h3, hac, h5⟩
          · have hlt := hbelow a m (by omega) ((hmaps a m).mpr ⟨hm, h1⟩)
            exact h2 ⟨h4, hlt, h3, h5⟩
        · intro h
          exact ⟨fun hx => h ⟨hx.1, by omega, hx.2.2⟩, fun hx => h ⟨hx.2.2.1, hx.1, hx.2.2.2⟩⟩

theorem clearUnsafe_cleared (h : Layout t.data) (hwrap : base + length < 2 ^ 64) (preserved : Option MRID) :
    Cleared t.data base 0 (base + length) (t.clearUnsafe base length preserved).data := by
  unfold clearUnsafe
  rw [add64_of_lt hwrap]
  refine clearLoop_cleared (by omega) hwrap _ _ t le_rfl le_rfl ⟨h, ?_⟩
  intro a m
  constructor
  · exact fun hm => ⟨hm, by omega⟩
  · exact fun hm => hm.1

/-! ## `SetUnsafe` -/

theorem data_setUnsafe (t : VMATracking) (resource : Option MRID) (base offset length : Nat) (flags : VMAFlags)
    (prot : VMAProt) :
    (t.setUnsafe resource base offset length flags prot).data =
      update (t.clearUnsafe base length resource).data base
        (some (((t.clearUnsafe base length resource).data base).getD
          ⟨resource, none, none, base, offset, length, flags, prot⟩)) := by
  unfold setUnsafe
  cases resource with
  | none => exact data_emplaceVMA _ _ _
  | some r =>
    rw [data_listPrepend, data_emplaceVMA]
    rfl

theorem Layout.outside (h : Layout D) (hpos : 0 < length)
    (hfree : ∀ a m, base ≤ a → a < base + length → ¬ MapsTo D a m) (hj : D j = some f) :
    j + f.length ≤ base ∨ base + length ≤ j := by
  have hb := h.bounded hj
  by_contra hno
  exact hfree (max j base) (mappingAt f (max j base)) (le_max_right _ _) (by omega)
    ⟨j, f, hj, le_max_left _ _, by omega, rfl⟩

theorem update_cases (h : update D k (some e) j = some f) : (j = k ∧ f = e) ∨ (j ≠ k ∧ D j = some f) := by
  by_cases hj : j = k
  · subst hj
    rw [update_self] at h
    exact Or.inl ⟨rfl, (Option.some.inj h).symm⟩
  · rw [update_of_ne hj] at h
    exact Or.inr ⟨hj, h⟩

theorem layout_put (h : Layout D) (hbase : e.base = k) (hpos : 0 < e.length) (hwrap : k + e.length < 2 ^ 64)
    (hout : ∀ j f, D j = some f → j + f.length ≤ k ∨ k + e.length ≤ j) : Layout (update D k (some e)) := by
  refine ⟨?_, ?_, ?_⟩
  · intro j f hj
    rcases update_cases hj with ⟨rfl, rfl⟩ | ⟨-, hj⟩
    · exact hbase
    · exact h.keyed hj
  · intro j f hj
    rcases update_cases hj with ⟨rfl, rfl⟩ | ⟨-, hj⟩
    · exact ⟨hpos, hwrap⟩
    · exact h.bounded hj
  · intro i f j g hi hj hij
    rcases update_cases hi with ⟨rfl, rfl⟩ | ⟨-, hi'⟩ <;> rcases update_cases hj with ⟨rfl, rfl⟩ | ⟨-, hj'⟩
    · omega
    · rcases hout j g hj' with h1 | h1
      · omega
      · exact h1
    · rcases hout i f hi' with h1 | h1
      · exact h1
      · omega
    · exact h.disjoint hi' hj' hij

theorem mapsTo_put (hpos : 0 < e.length)
    (hout : ∀ j f, D j = some f → j + f.length ≤ k ∨ k + e.length ≤ j) (a : Nat) (m : Mapping) :
    MapsTo (update D k (some e)) a m ↔
      (k ≤ a ∧ a < k + e.length ∧ m = mappingAt e a) ∨ (¬ (k ≤ a ∧ a < k + e.length) ∧ MapsTo D a m) := by
  constructor
  · rintro ⟨j, f, hj, hja, haf, rfl⟩
    rcases update_cases hj with ⟨rfl, rfl⟩ | ⟨-, hj⟩
    · exact Or.inl ⟨hja, haf, rfl⟩
    · refine Or.inr ⟨?_, ⟨j, f, hj, hja, haf, rfl⟩⟩
      rcases hout j f hj with h1 | h1 <;> omega
  · rintro (⟨h1, h2, rfl⟩ | ⟨hno, j, f, hj, hja, haf, rfl⟩)
    · exact ⟨k, _, update_self .., h1, h2, rfl⟩
    · refine ⟨j, f, ?_, hja, haf, rfl⟩
      rw [update_of_ne ?_]
      · exact hj
      · rintro rfl
        rcases hout j f hj with h1 | h1 <;> omega

theorem clearUnsafe_outside (h : Layout t.data) (hpos : 0 < length)
    (hwrap : base + length < 2 ^ 64) (preserved : Option MRID)
    (hj : (t.clearUnsafe base length preserved).data j = some f) : j + f.length ≤ base ∨ base + length ≤ j := by
  obtain ⟨hlay, hmaps⟩ := clearUnsafe_cleared h hwrap preserved
  refine hlay.outside hpos ?_ hj
  intro a m h1 h2 hm
  exact ((hmaps a m).mp hm).2 ⟨h1, Nat.zero_le a, h2⟩

theorem clearUnsafe_free (h : Layout t.data) (hpos : 0 < length)
    (hwrap : base + length < 2 ^ 64) (preserved : Option MRID) :
    (t.clearUnsafe base length preserved).data base = none := by
  cases hd : (t.clearUnsafe base length preserved).data base with
  | none => rfl
  | some f =>
    have hb := (clearUnsafe_cleared h hwrap preserved).1.bounded hd
    rcases clearUnsafe_outside h hpos hwrap preserved hd with h1 | h1 <;> omega

theorem setUnsafe_layout (h : Layout t.data) (resource : Option MRID)
    (hpos : 0 < length) (hwrap : base + length < 2 ^ 64) (offset : Nat) (flags : VMAFlags) (prot : VMAProt) :
    Layout (t.setUnsafe resource base offset length flags prot).data ∧
    ∀ a m, MapsTo (t.setUnsafe resource base offset length flags prot).data a m ↔
      (base ≤ a ∧ a < base + length ∧ m = ⟨resource, sub64 (add64 offset a) base, flags, prot⟩) ∨
      (¬ (base ≤ a ∧ a < base + length) ∧ MapsTo t.data a m) := by
  obtain ⟨hlay, hmaps⟩ := clearUnsafe_cleared h hwrap resource
  have hfree := clearUnsafe_free h hpos hwrap resource
  have hout := fun j f => clearUnsafe_outside (j := j) (f := f) h hpos hwrap resource
  rw [data_setUnsafe, hfree, Option.getD_none]
  refine ⟨layout_put hlay rfl hpos hwrap hout, ?_⟩
  intro a m
  refine (mapsTo_put hpos hout a m).trans (or_congr Iff.rfl (and_congr_right ?_))
  intro hno
  rw [hmaps]
  exact and_iff_left fun hx => hno ⟨hx.1, hx.2.2⟩

/-! ## Histories -/

/-- A call of `SetUnsafe` or `ClearUnsafe`. -/
inductive MapOp
  | set (resource : Option MRID) (base offset length : Nat) (flags : VMAFlags) (prot : VMAProt)
  | clear (base length : Nat) (preserved : Option MRID)

/-- The range is not empty and does not wrap. -/
def MapOp.Valid : MapOp → Prop
  | set _ base _ length _ _ => 0 < length ∧ base + length < 2 ^ 64
  | clear base length _ => 0 < length ∧ base + length < 2 ^ 64

def MapOp.apply (t : VMATracking) : MapOp → VMATracking
  | set resource base offset length flags prot => t.setUnsafe resource base offset length flags prot
  | clear base length preserved => t.clearUnsafe base length preserved

/-- The tracker's purpose: a map of addresses. -/
abbrev AddressMap := Nat → Option Mapping

def AddressMap.empty : AddressMap := fun _ => none

/-- `Set` overwrites its range, `Clear` erases it. -/
def MapOp.applyAddresses (m : AddressMap) : MapOp → AddressMap
  | set resource base offset length flags prot => fun a =>
    if base ≤ a ∧ a < base + length then some ⟨resource, sub64 (add64 offset a) base, flags, prot⟩ else m a
  | clear base length _ => fun a => if base ≤ a ∧ a < base + length then none else m a

/-- The tracker holds the address map. -/
def Refines (t : VMATracking) (m : AddressMap) : Prop := Layout t.data ∧ ∀ a x, MapsTo t.data a x ↔ m a = some x

theorem refines_apply {m : AddressMap} (h : Refines t m) (op : MapOp) (hop : op.Valid) :
    Refines (op.apply t) (op.applyAddresses m) := by
  cases op with
  | set resource base offset length flags prot =>
    obtain ⟨hlay, hmaps⟩ := setUnsafe_layout h.1 resource hop.1 hop.2 offset flags prot
    refine ⟨hlay, ?_⟩
    intro a x
    show MapsTo (t.setUnsafe resource base offset length flags prot).data a x ↔ _
    rw [hmaps, h.2]
    unfold MapOp.applyAddresses
    by_cases hin : base ≤ a ∧ a < base + length
    · simp [hin, eq_comm]
    · simp only [hin, not_false_eq_true, true_and, if_false]
      constructor
      · rintro (⟨h1, h2, -⟩ | hm)
        · exact absurd ⟨h1, h2⟩ hin
        · exact hm
      · exact Or.inr
  | clear base length preserved =>
    obtain ⟨hlay, hmaps⟩ := clearUnsafe_cleared h.1 hop.2 preserved
    refine ⟨hlay, ?_⟩
    intro a x
    show MapsTo (t.clearUnsafe base length preserved).data a x ↔ _
    rw [hmaps, h.2]
    unfold MapOp.applyAddresses
    by_cases hin : base ≤ a ∧ a < base + length
    · simp [hin]
    · simp only [hin, if_false]
      constructor
      · exact And.left
      · exact fun hm => ⟨hm, fun hx => hin ⟨hx.1, hx.2.2⟩⟩

theorem refines_run {m : AddressMap} (ops : List MapOp) (hops : ∀ op ∈ ops, op.Valid)
    (h : Refines t m) : Refines (ops.foldl MapOp.apply t) (ops.foldl MapOp.applyAddresses m) := by
  induction ops generalizing t m with
  | nil => exact h
  | cons op ops ih =>
    exact ih (fun o ho => hops o (List.mem_cons_of_mem _ ho)) (refines_apply h op (hops op List.mem_cons_self))

/-- After any history the entries are disjoint and keyed by their base, and `LookupVMAUnsafe` gives what the address map
holds. -/
theorem vmaTracking_refines_addressMap (ops : List MapOp) (hops : ∀ op ∈ ops, op.Valid) :
    (∀ k e, (ops.foldl MapOp.apply empty).vmas.find? k = some e → e.base = k) ∧
    (∀ k e j f, (ops.foldl MapOp.apply empty).vmas.find? k = some e →
      (ops.foldl MapOp.apply empty).vmas.find? j = some f → k < j → k + e.length ≤ j) ∧
    ∀ a, ((ops.foldl MapOp.apply empty).lookupVMAUnsafe a).map (fun e => mappingAt e.2 a) =
      ops.foldl MapOp.applyAddresses AddressMap.empty a := by
  have hinit : Refines empty AddressMap.empty := by
    refine ⟨layout_empty, ?_⟩
    simp [MapsTo, data, empty, AddressMap.empty]
  obtain ⟨hlay, hmaps⟩ := refines_run ops hops hinit
  refine ⟨?_, ?_, ?_⟩
  · intro k e hk
    have hd : (ops.foldl MapOp.apply empty).data k = some (unlinked e) := data_eq_some.mpr ⟨e, hk, rfl⟩
    have hkeyed := hlay.keyed hd
    exact hkeyed
  · intro k e j f hk hj hkj
    have hd : (ops.foldl MapOp.apply empty).data k = some (unlinked e) := data_eq_some.mpr ⟨e, hk, rfl⟩
    have hdisjoint := hlay.disjoint hd (data_eq_some.mpr ⟨f, hj, rfl⟩) hkj
    exact hdisjoint
  · intro a
    apply Option.ext
    intro m
    rw [lookupVMAUnsafe_mapsTo hlay, hmaps]

/-- A mapping of three pages with its middle page cleared: the third page keeps its offset. -/
theorem vmaTracking_refines_addressMap_split :
    let ops := [MapOp.set (some ⟨1, 1⟩) 0x1000 0x5000 0x3000 ⟨true⟩ ⟨true, true, false⟩, MapOp.clear 0x2000 0x1000 none]
    ((ops.foldl MapOp.apply empty).lookupVMAUnsafe 0x3800).map (fun e => mappingAt e.2 0x3800) =
      some ⟨some ⟨1, 1⟩, 0x7800, ⟨true⟩, ⟨true, true, false⟩⟩ := by
  intro ops
  have hops : ∀ op ∈ ops, op.Valid := by
    intro op hop
    simp only [ops, List.mem_cons, List.not_mem_nil, or_false] at hop
    rcases hop with rfl | rfl <;> simp [MapOp.Valid]
  rw [(vmaTracking_refines_addressMap ops hops).2.2 0x3800]
  rfl

end FexEmu.LinuxSyscalls.VMATracking
