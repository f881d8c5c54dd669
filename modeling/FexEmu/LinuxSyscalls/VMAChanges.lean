import FexEmu.LinuxSyscalls.VMATrackingProofs
/-!
# Changing protections

`ChangeUnsafe` puts the part of a mapping that starts before the range back with the length of the whole range, even if the
mapping ends before it.
-/
namespace FexEmu.LinuxSyscalls.VMATracking
open Function (update update_of_ne update_self)

/-! ## One mapping -/

/-- What is put back of the mapping at `k`. -/
def middle (k : Nat) (e : VMAEntry) (base top : Nat) (prot : VMAProt) : VMAEntry :=
  if k < base then { e with base := base, offset := add64 (sub64 e.offset k) base, length := top - base, prot := prot }
  else { e with prot := prot, length := if top < k + e.length then top - k else e.length }

section Mapping
variable {t : VMATracking} {base top k c : Nat} {prot : VMAProt} {cur m : VMAEntry}

theorem data_splitFirst_unlinked (hk : t.data k = some (unlinked cur)) (hkeyed : cur.base = k) (hkb : k < base) (hbt : base < top)
    (htop : top < 2 ^ 64) (hfree : t.data base = none) :
    (splitFirst base top prot t k cur).data =
      update (update t.data k (some { unlinked cur with length := base - k })) base
        (some (middle k (unlinked cur) base top prot)) := by
  have hlist : ∀ s : VMATracking, (if cur.resource.isSome then s.listInsertAfter k base else s).data = s.data := by
    split <;> simp
  have hfirst : sub64 base k = base - k := sub64_of_le hkb.le (by omega)
  have hlength : sub64 top base = top - base := sub64_of_le hbt.le htop
  unfold splitFirst
  rw [hlist, data_emplaceVMA, data_setLength, hk, update_of_ne (by omega), hfree, hkeyed, hfirst, hlength]
  simp [middle, unlinked, hkb]

theorem data_splitTrailing (hc : t.data c = some m) (hkeyed : cur.base = k) (hbase : m.base = c) (hct : c < top)
    (hcur : m.resource = cur.resource) (hwrap : k + cur.length < 2 ^ 64) (htrail : top < k + cur.length)
    (hfree : t.data top = none) :
    (splitTrailing top t c cur).data =
      update (update t.data c (some { m with length := top - c })) top
        (some { unlinked cur with base := top, offset := add64 (sub64 cur.offset k) top, length := k + cur.length - top }) := by
  obtain ⟨e, he, hm⟩ := data_eq_some.mp hc
  have hvma : t.vma c = e := by rw [vma, he, Option.getD_some]
  have hb : e.base = c := by rw [← hbase, ← hm]; rfl
  have hr : e.resource = cur.resource := by rw [← hcur, ← hm]; rfl
  have hlist : ∀ s : VMATracking, (if e.resource.isSome then s.listInsertAfter c top else s).data = s.data := by
    split <;> simp
  have hlength : sub64 (k + cur.length) top = k + cur.length - top := sub64_of_le htrail.le hwrap
  have hfirst : sub64 top c = top - c := sub64_of_le hct.le (by omega)
  have hset : t.setLength c (top - c) = t.setLength c (sub64 top (t.vma c).base) := by rw [hvma, hb, hfirst]
  have hsetvma : (t.setLength c (top - c)).vma c = { e with length := top - c } := by
    simp [vma, setLength, OrderedMap.find?_modify, he]
  unfold splitTrailing
  dsimp only
  rw [← hset, hsetvma]
  rw [hlist, data_emplaceVMA, data_setLength, hc, update_of_ne (by omega), hfree, hkeyed, add64_of_lt hwrap, hlength, hr]
  simp [unlinked]

variable (prot) in
theorem data_changeMapping (ht : Layout t.data) (hk : t.data k = some (unlinked cur)) (hktop : k < top)
    (hbase : base < k + cur.length) (hbt : base < top) (htop : top < 2 ^ 64) :
    (changeMapping base top prot t k cur).data =
      update (cut t.data k (unlinked cur) base top) (max k base) (some (middle k (unlinked cur) base top prot)) := by
  have hkeyed := ht.keyed hk
  change cur.base = k at hkeyed
  have hwrap : k + cur.length < 2 ^ 64 := (ht.bounded hk).2
  have hlen : (unlinked cur).length = cur.length := rfl
  -- no entry starts inside of another one
  have hfree : ∀ a, k < a → a < k + cur.length → t.data a = none := by
    intro a hka hae
    cases hd : t.data a with
    | none => rfl
    | some f =>
      have hdis := ht.disjoint hk hd hka
      omega
  unfold changeMapping
  simp only [hkeyed, add64_of_lt hwrap]
  -- the entry is split at the start of the range if it starts before, and at its end if it goes on behind
  by_cases hfirst : k < base
  · have hbasefree := hfree base hfirst hbase
    have hsplit : (splitFirst base top prot t k cur).data = _ := data_splitFirst_unlinked hk hkeyed hfirst hbt htop hbasefree
    simp only [hfirst, decide_true, if_true, max_eq_right hfirst.le]
    by_cases htrail : top < k + cur.length
    · rw [if_pos htrail]
      have hmiddle : (splitFirst base top prot t k cur).data base = some (middle k (unlinked cur) base top prot) := by
        rw [hsplit, update_self]
      have htopfree : (splitFirst base top prot t k cur).data top = none := by
        rw [hsplit, update_of_ne (by omega), update_of_ne (by omega)]
        exact hfree top hktop htrail
      rw [data_splitTrailing hmiddle hkeyed (by simp [middle, hfirst]) hbt (by simp [middle, hfirst, unlinked]) hwrap htrail htopfree,
        hsplit]
      funext j
      by_cases hjb : j = base
      · subst hjb
        simp [middle, hfirst, update_of_ne (Nat.ne_of_lt hbt)]
      · by_cases hjt : j = top
        · subst hjt
          simp [cut, hjb, Nat.ne_of_gt hktop, htrail, unlinked]
        · by_cases hjk : j = k
          · subst hjk
            simp [cut, hfirst, hjb, hjt]
          · simp [cut, hjb, hjt, hjk]
    · rw [if_neg htrail, hsplit]
      congr 1
      funext j
      by_cases hjk : j = k
      · subst hjk
        simp [cut, hfirst]
      · simp [cut, hjk, hlen, htrail]
  · simp only [hfirst, decide_false, Bool.false_eq_true, if_false, max_eq_left (not_lt.mp hfirst)]
    have hset : (t.setProt k prot).data = update t.data k (some { unlinked cur with prot := prot }) := by
      rw [data_setProt, hk, Option.map_some]
    by_cases htrail : top < k + cur.length
    · rw [if_pos htrail]
      have hmiddle : (t.setProt k prot).data k = some { unlinked cur with prot := prot } := by
        rw [hset, update_self]
      have htopfree : (t.setProt k prot).data top = none := by
        rw [hset, update_of_ne (by omega)]
        exact hfree top hktop htrail
      rw [data_splitTrailing hmiddle hkeyed hkeyed hktop rfl hwrap htrail htopfree, hset]
      funext j
      by_cases hjk : j = k
      · subst hjk
        simp [middle, hfirst, hlen, htrail, update_of_ne (Nat.ne_of_lt hktop)]
      · by_cases hjt : j = top
        · subst hjt
          simp [cut, hjk, htrail, unlinked]
        · simp [cut, hjk, hjt]
    · rw [if_neg htrail, hset]
      funext j
      by_cases hjk : j = k
      · subst hjk
        simp [middle, hfirst, hlen, htrail]
      · simp [cut, hjk, hlen, htrail]

end Mapping

/-! ## Addresses -/

def changedMapping (base top : Nat) (prot : VMAProt) (a : Nat) (m : Mapping) : Mapping :=
  if base ≤ a ∧ a < top then { m with prot := prot } else m

/-- The mapping does not start before the range and end inside of it. -/
def EndsBehind (k : Nat) (e : VMAEntry) (base top : Nat) : Prop := k < base → top ≤ k + e.length

section Addresses
variable {D : Nat → Option VMAEntry} {k base top : Nat} {e : VMAEntry} {prot : VMAProt}

theorem middle_length (hktop : k < top) (hbt : base < top) (hbehind : EndsBehind k e base top) :
    max k base + (middle k e base top prot).length = min top (k + e.length) := by
  unfold middle
  by_cases hfirst : k < base
  · have := hbehind hfirst
    rw [if_pos hfirst]
    dsimp only
    omega
  · rw [if_neg hfirst]
    dsimp only
    split <;> omega

theorem mappingAt_middle (hkeyed : e.base = k) (hk : k < 2 ^ 64) (hbase : base < 2 ^ 64) (a : Nat) :
    mappingAt (middle k e base top prot) a = { mappingAt e a with prot := prot } := by
  unfold middle mappingAt
  split
  · rw [hkeyed, trailing_offset hk hbase]
  · rfl

variable (prot) in
theorem change_layout (hD : Layout D) (hk : D k = some e) (hbase : base < k + e.length) (hktop : k < top) (hbt : base < top)
    (hbehind : EndsBehind k e base top) :
    Layout (update (cut D k e base top) (max k base) (some (middle k e base top prot))) ∧
    ∀ a m, MapsTo (update (cut D k e base top) (max k base) (some (middle k e base top prot))) a m ↔
      ∃ m₀, MapsTo D a m₀ ∧ m = if k ≤ a ∧ a < k + e.length then changedMapping base top prot a m₀ else m₀ := by
  obtain ⟨hpos, hwrap⟩ := hD.bounded hk
  have hkeyed := hD.keyed hk
  have hlength : max k base + (middle k e base top prot).length = min top (k + e.length) := middle_length hktop hbt hbehind
  have hpart : 0 < (middle k e base top prot).length := by omega
  have hcut := layout_cut hD hk hbase hktop hbt.le
  have hout : ∀ j f, cut D k e base top j = some f →
      j + f.length ≤ max k base ∨ max k base + (middle k e base top prot).length ≤ j := by
    intro j f hj
    refine hcut.outside hpart ?_ hj
    intro a m h1 h2 hm
    exact ((mapsTo_cut hD hk hbase hktop a m).mp hm).2 (by omega)
  have hstart : (middle k e base top prot).base = max k base := by
    unfold middle
    split <;> simp only <;> omega
  refine ⟨layout_put hcut hstart hpart (by omega) hout, ?_⟩
  intro a m
  rw [mapsTo_put hpart hout, mapsTo_cut hD hk hbase hktop, mappingAt_middle hkeyed (by omega) (by omega)]
  have inside : max k base ≤ a ∧ a < max k base + (middle k e base top prot).length ↔
      k ≤ a ∧ a < k + e.length ∧ base ≤ a ∧ a < top := by omega
  constructor
  · rintro (⟨h1, h2, rfl⟩ | ⟨-, hm, hno⟩)
    · obtain ⟨hka, hae, hba, hat⟩ := inside.1 ⟨h1, h2⟩
      refine ⟨mappingAt e a, ⟨k, e, hk, hka, hae, rfl⟩, ?_⟩
      rw [if_pos ⟨hka, hae⟩, changedMapping, if_pos ⟨hba, hat⟩]
    · refine ⟨m, hm, ?_⟩
      split
      · rename_i hin
        rw [changedMapping, if_neg fun hr => hno ⟨hin.1, hin.2, hr.1, hr.2⟩]
      · rfl
  · rintro ⟨m₀, hm, rfl⟩
    by_cases hin : k ≤ a ∧ a < k + e.length ∧ base ≤ a ∧ a < top
    · obtain ⟨h1, h2⟩ := inside.2 hin
      refine .inl ⟨h1, h2, ?_⟩
      rw [if_pos ⟨hin.1, hin.2.1⟩, changedMapping, if_pos hin.2.2]
      obtain ⟨j, f, hj, hja, haf, rfl⟩ := hm
      obtain rfl := hD.unique hj hk hja haf hin.1 hin.2.1
      rw [Option.some.inj (hk.symm.trans hj)]
    · refine .inr ⟨fun h => hin (inside.1 h), ?_⟩
      have same : (if k ≤ a ∧ a < k + e.length then changedMapping base top prot a m₀ else m₀) = m₀ := by
        split
        · rename_i hcur
          rw [changedMapping, if_neg fun hr => hin ⟨hcur.1, hcur.2, hr.1, hr.2⟩]
        · rfl
      rw [same]
      exact ⟨hm, hin⟩

end Addresses

/-! ## The loop -/

/-- What the loop makes of the layout: the entries below c stay, from c on the range has the new protection. -/
structure Changed (D : Nat → Option VMAEntry) (base c top : Nat) (prot : VMAProt) (D' : Nat → Option VMAEntry) : Prop where
  layout : Layout D'
  below : ∀ j < c, D' j = D j
  maps : ∀ a m, MapsTo D' a m ↔ ∃ m₀, MapsTo D a m₀ ∧ m = changedMapping (max base c) top prot a m₀

/-- No mapping of another protection starts before the range and ends inside of it. -/
def NoneEndsInside (D : Nat → Option VMAEntry) (base top : Nat) (prot : VMAProt) : Prop :=
  ∀ k e, D k = some e → base < k + e.length → e.prot ≠ prot → EndsBehind k e base top

section Loop
variable {D D' : Nat → Option VMAEntry} {t : VMATracking} {base top c k : Nat} {prot : VMAProt} {cur : VMAEntry}

theorem Changed.lower (h : Changed D base c top prot D') {b : Nat} (hb : b ≤ c)
    (none : ∀ a m, max base b ≤ a → a < c → ¬ MapsTo D' a m) : Changed D base b top prot D' := by
  refine ⟨h.layout, fun j hj => h.below j (by omega), ?_⟩
  intro a m
  rw [h.maps]
  apply exists_congr
  intro m₀
  apply and_congr_right
  intro hm
  have same : changedMapping (max base c) top prot a m₀ = changedMapping (max base b) top prot a m₀ := by
    unfold changedMapping
    by_cases hin : max base b ≤ a ∧ a < c
    · exact absurd ((h.maps a _).2 ⟨m₀, hm, rfl⟩) (none a _ hin.1 hin.2)
    · by_cases h1 : max base c ≤ a ∧ a < top
      · rw [if_pos h1, if_pos (by omega)]
      · rw [if_neg h1, if_neg (by omega)]
  rw [same]

theorem below_end (hlay : Layout t.data) (hb : t.vmas.below c = some (k, cur)) {a : Nat} {m : Mapping} (hac : a < c)
    (hm : MapsTo t.data a m) : a < k + cur.length := by
  obtain ⟨hk, hkc, hmax⟩ := below_data hb
  obtain ⟨j, f, hj, hja, haf, -⟩ := hm
  rcases Nat.lt_or_eq_of_le (hmax j f hj (by omega)) with hjk | rfl
  · have hd := hlay.disjoint hj hk hjk
    omega
  · obtain rfl := Option.some.inj (hk.symm.trans hj)
    exact haf

theorem Changed.step (h : Changed D base c top prot D') (hkc : k < c) {b : Nat} {D'' : Nat → Option VMAEntry}
    (hend : ∀ a m, a < c → MapsTo D' a m → a < b) (hlay : Layout D'') (hbelow : ∀ j < k, D'' j = D' j)
    (hmaps : ∀ a m, MapsTo D'' a m ↔
      ∃ m₀, MapsTo D' a m₀ ∧ m = if k ≤ a ∧ a < b then changedMapping base top prot a m₀ else m₀) :
    Changed D base k top prot D'' := by
  refine ⟨hlay, fun j hj => (hbelow j hj).trans (h.below j (by omega)), ?_⟩
  intro a m
  have same : ∀ m₁, MapsTo D a m₁ →
      (if k ≤ a ∧ a < b then changedMapping base top prot a (changedMapping (max base c) top prot a m₁)
        else changedMapping (max base c) top prot a m₁) = changedMapping (max base k) top prot a m₁ := by
    intro m₁ hm
    have hab : a < c → a < b := fun hac => hend a _ hac ((h.maps a _).2 ⟨m₁, hm, rfl⟩)
    unfold changedMapping
    split_ifs <;> first | rfl | omega
  rw [hmaps]
  constructor
  · rintro ⟨m₀, hm, rfl⟩
    obtain ⟨m₁, hm₁, rfl⟩ := (h.maps a m₀).1 hm
    exact ⟨m₁, hm₁, same m₁ hm₁⟩
  · rintro ⟨m₁, hm₁, rfl⟩
    exact ⟨_, (h.maps a _).2 ⟨m₁, hm₁, rfl⟩, (same m₁ hm₁).symm⟩

theorem mapsTo_same (hlay : Layout D) {e : VMAEntry} (hk : D k = some e) (hprot : e.prot = prot) (a : Nat) (m : Mapping) :
    MapsTo D a m ↔
      ∃ m₀, MapsTo D a m₀ ∧ m = if k ≤ a ∧ a < k + e.length then changedMapping base top prot a m₀ else m₀ := by
  have same : ∀ m₀, MapsTo D a m₀ →
      (if k ≤ a ∧ a < k + e.length then changedMapping base top prot a m₀ else m₀) = m₀ := by
    rintro m₀ ⟨j, f, hj, hja, haf, rfl⟩
    split_ifs with hin
    · obtain rfl := hlay.unique hj hk hja haf hin.1 hin.2
      obtain rfl := Option.some.inj (hk.symm.trans hj)
      rw [changedMapping, ← hprot]
      exact ite_self _
    · rfl
  constructor
  · exact fun hm => ⟨m, hm, (same m hm).symm⟩
  · rintro ⟨m₀, hm, rfl⟩
    rw [same m₀ hm]
    exact hm

theorem changeLoop_changed (hbt : base < top) (htop : top < 2 ^ 64) (hnone : NoneEndsInside D base top prot) :
    ∀ (fuel c : Nat) (t : VMATracking), c ≤ fuel → c ≤ top → Changed D base c top prot t.data →
      Changed D base 0 top prot (changeLoop base top prot fuel c t).data := by
  intro fuel
  induction fuel with
  | zero =>
    intro c t hc _ h
    obtain rfl : c = 0 := by omega
    exact h
  | succ fuel ih =>
    intro c t hc hct h
    unfold changeLoop
    cases hb : t.vmas.below c with
    | none =>
      apply h.lower (Nat.zero_le c)
      rintro a m - hac ⟨j, f, hj, hja, -, -⟩
      have hcj := below_none_data hb hj
      omega
    | some x =>
      obtain ⟨k, cur⟩ := x
      obtain ⟨hk, hkc, -⟩ := below_data hb
      have hkeyed := h.layout.keyed hk
      have hbound := h.layout.bounded hk
      change cur.base = k at hkeyed
      change 0 < cur.length ∧ k + cur.length < 2 ^ 64 at hbound
      have hend : ∀ a m, a < c → MapsTo t.data a m → a < k + cur.length := fun a m hac hm => below_end h.layout hb hac hm
      dsimp only
      rw [hkeyed, add64_of_lt hbound.2]
      split_ifs with hbefore hprot
      · apply h.lower (Nat.zero_le c)
        intro a m hba hac hm
        have := hend a m hac hm
        omega
      · apply ih k t (by omega) (by omega)
        exact h.step hkc hend h.layout (fun _ _ => rfl) (mapsTo_same (e := unlinked cur) h.layout hk hprot)
      · have hlen : (unlinked cur).length = cur.length := rfl
        -- an entry that begins before the range and ends in it is the one the loop gets wrong
        have hbehind : EndsBehind k (unlinked cur) base top :=
          hnone k (unlinked cur) ((h.below k hkc).symm.trans hk) (by omega) hprot
        obtain ⟨hlay, hmaps⟩ := change_layout prot h.layout hk (by omega) (by omega) hbt hbehind
        apply ih k _ (by omega) (by omega)
        rw [data_changeMapping prot h.layout hk (by omega) (by omega) hbt htop]
        refine h.step hkc hend hlay ?_ hmaps
        intro j hj
        rw [update_of_ne (by omega), cut, if_neg (by omega), if_neg (by omega)]

/-! ## A mapping that ends inside of the range -/

theorem data_changeMapping_keeps (ht : Layout t.data) (hk : t.data k = some (unlinked cur)) (hktop : k < top)
    (hbase : base < k + cur.length) (hbt : base < top) (htop : top < 2 ^ 64) {j : Nat} (hj : t.data j ≠ none) :
    (changeMapping base top prot t k cur).data j ≠ none := by
  rw [data_changeMapping prot ht hk hktop hbase hbt htop]
  by_cases hjm : j = max k base
  · subst hjm
    simp
  · rw [update_of_ne hjm, cut]
    split_ifs with hjk hkb
    · exact Option.some_ne_none _
    · omega
    · exact Option.some_ne_none _
    · exact hj

theorem changeLoop_done (hbound : base < 2 ^ 64) (fuel : Nat)
    (hleft : ∀ j f, t.data j = some f → j < c → f.base = j ∧ j + f.length ≤ base) :
    changeLoop base top prot fuel c t = t := by
  cases fuel with
  | zero => rfl
  | succ fuel =>
    unfold changeLoop
    cases hb : t.vmas.below c with
    | none => rfl
    | some x =>
      obtain ⟨j, cur⟩ := x
      obtain ⟨hj, hjc, -⟩ := below_data hb
      obtain ⟨hkeyed, hend⟩ := hleft j _ hj hjc
      change cur.base = j at hkeyed
      change j + cur.length ≤ base at hend
      dsimp only
      rw [hkeyed, add64_of_lt (by omega), if_pos hend]

theorem changeLoop_overlaps (hD : Layout D) (hbt : base < top) (htop : top < 2 ^ 64) {e : VMAEntry} (hk : D k = some e)
    (hkb : k < base) (hbase : base < k + e.length) (hinside : k + e.length < top) (hprot : e.prot ≠ prot) :
    ∀ (fuel c : Nat) (t : VMATracking), c ≤ fuel → c ≤ top → k < c → (∀ j < c, t.data j = D j) → Layout t.data →
      (∀ j, D j ≠ none → t.data j ≠ none) →
      (∃ f, (changeLoop base top prot fuel c t).data base = some f ∧ base + f.length = top) ∧
      ∀ j, D j ≠ none → (changeLoop base top prot fuel c t).data j ≠ none := by
  intro fuel
  induction fuel with
  | zero =>
    omega
  | succ fuel ih =>
    intro c t hc hct hkc hbelow hlay hkeys
    have hkt : t.data k = some e := (hbelow k hkc).trans hk
    unfold changeLoop
    cases hb : t.vmas.below c with
    | none => exact absurd (below_none_data hb hkt) (by omega)
    | some x =>
      obtain ⟨j, cur⟩ := x
      obtain ⟨hj, hjc, hmax⟩ := below_data hb
      have hkj := hmax k e hkt hkc
      have hkeyed := hlay.keyed hj
      have hbound := hlay.bounded hj
      change cur.base = j at hkeyed
      change 0 < cur.length ∧ j + cur.length < 2 ^ 64 at hbound
      dsimp only
      rw [hkeyed, add64_of_lt hbound.2]
      rcases Nat.lt_or_eq_of_le hkj with hlt | rfl
      · -- a mapping that starts in the range
        have hbj : base ≤ j := by
          have := hlay.disjoint hkt hj hlt
          omega
        rw [if_neg (by omega)]
        split_ifs with hsame
        · exact ih j t (by omega) (by omega) hlt (fun i hi => hbelow i (by omega)) hlay hkeys
        · have hbehind : base < j + (unlinked cur).length := Nat.lt_add_right_iff_pos.2 hbound.1 |>.trans_le' hbj
          obtain ⟨hlay', -⟩ := change_layout prot hlay hj hbehind (show j < top by omega) hbt (fun h => absurd h (by omega))
          have hdata := data_changeMapping prot hlay hj (by omega) (by omega) hbt htop
          apply ih j _ (by omega) (by omega) hlt
          · intro i hi
            rw [hdata, update_of_ne (by omega), cut, if_neg (by omega), if_neg (by omega), hbelow i (by omega)]
          · rw [hdata]
            exact hlay'
          · intro i hi
            exact data_changeMapping_keeps hlay hj (by omega) (by omega) hbt htop (hkeys i hi)
      · obtain rfl : e = unlinked cur := Option.some.inj (hkt.symm.trans hj)
        change base < k + cur.length at hbase
        change cur.prot ≠ prot at hprot
        have hdata := data_changeMapping prot hlay hj (by omega) hbase hbt htop
        have hdone : changeLoop base top prot fuel k (changeMapping base top prot t k cur) = changeMapping base top prot t k cur := by
          apply changeLoop_done (by omega)
          intro i f hi hik
          rw [hdata, update_of_ne (by omega), cut, if_neg (by omega), if_neg (by omega), hbelow i (by omega)] at hi
          have := hD.disjoint hi hk hik
          exact ⟨hD.keyed hi, by omega⟩
        rw [if_neg (not_le.mpr hbase), if_neg hprot, hdone]
        refine ⟨⟨middle k (unlinked cur) base top prot, ?_, ?_⟩, ?_⟩
        · rw [hdata, max_eq_right hkb.le, update_self]
        · rw [middle, if_pos hkb]
          dsimp only
          omega
        · intro i hi
          exact data_changeMapping_keeps hlay hj (by omega) hbase hbt htop (hkeys i hi)

end Loop

/-! ## The operation -/

/-- `ChangeUnsafe` gives the range the protection, and nothing else changes. -/
def ChangesProt (t : VMATracking) (base length : Nat) (prot : VMAProt) : Prop :=
  Layout (t.changeUnsafe base length prot).data ∧
    ∀ a m, MapsTo (t.changeUnsafe base length prot).data a m ↔
      ∃ m₀, MapsTo t.data a m₀ ∧ m = changedMapping base (base + length) prot a m₀

section Operation
variable {t : VMATracking} {base length : Nat} {prot : VMAProt}

theorem changesProt_of_none (ht : Layout t.data) (hpos : 0 < length) (hwrap : base + length < 2 ^ 64)
    (hnone : NoneEndsInside t.data base (base + length) prot) : t.ChangesProt base length prot := by
  have hstart : Changed t.data base (base + length) (base + length) prot t.data := by
    refine ⟨ht, fun _ _ => rfl, ?_⟩
    intro a m
    have same : ∀ m₀, changedMapping (max base (base + length)) (base + length) prot a m₀ = m₀ := by
      intro m₀
      rw [changedMapping, if_neg (by omega)]
    simp only [same, exists_eq_right']
  unfold ChangesProt changeUnsafe
  rw [add64_of_lt hwrap]
  have h := changeLoop_changed (by omega) hwrap hnone _ _ t le_rfl le_rfl hstart
  refine ⟨h.layout, ?_⟩
  simpa using h.maps

theorem none_of_changesProt (ht : Layout t.data) (hwrap : base + length < 2 ^ 64) (h : t.ChangesProt base length prot) :
    NoneEndsInside t.data base (base + length) prot := by
  unfold ChangesProt changeUnsafe at h
  rw [add64_of_lt hwrap] at h
  obtain ⟨hlay, hmaps⟩ := h
  intro k e hk hbase hprot hkb
  by_contra hinside
  obtain ⟨⟨f, hf, hlength⟩, hkeys⟩ := changeLoop_overlaps ht (by omega) hwrap hk hkb hbase (by omega) hprot _
    (base + length) t le_rfl le_rfl (by omega) (fun _ _ => rfl) ht (fun _ hj => hj)
  -- where the mapping ended, something is mapped now, so another mapping started there
  obtain ⟨m₀, ⟨j, g, hj, hja, hag, -⟩, -⟩ :=
    (hmaps (k + e.length) (mappingAt f (k + e.length))).1 ⟨base, f, hf, by omega, by omega, rfl⟩
  have hkj : k < j := by
    by_contra hle
    rcases Nat.lt_or_eq_of_le (not_lt.mp hle) with hlt | rfl
    · have := ht.disjoint hj hk hlt
      omega
    · obtain rfl := Option.some.inj (hk.symm.trans hj)
      omega
  have hstarts := ht.disjoint hk hj hkj
  obtain ⟨g', hg'⟩ := Option.ne_none_iff_exists'.1 (hkeys j (by simp [hj]))
  have := hlay.disjoint hf hg' (by omega)
  omega

end Operation

/-- A protection is changed point by point if and only if no mapping of another one starts before the range and ends inside
of it. -/
theorem changeUnsafe_changes_iff (t : VMATracking) (ht : Layout t.data) (base length : Nat) (hpos : 0 < length)
    (hwrap : base + length < 2 ^ 64) (prot : VMAProt) :
    t.ChangesProt base length prot ↔ NoneEndsInside t.data base (base + length) prot :=
  ⟨none_of_changesProt ht hwrap, changesProt_of_none ht hpos hwrap⟩

def twoPages : VMATracking := empty.setUnsafe none 0x1000 0 0x2000 ⟨false⟩ ⟨true, true, false⟩

theorem twoPages_layout : Layout twoPages.data :=
  (setUnsafe_layout layout_empty none (by decide) (by decide) 0 ⟨false⟩ ⟨true, true, false⟩).1

theorem twoPages_data (k : Nat) : twoPages.data k =
    if k = 0x1000 then some ⟨none, none, none, 0x1000, 0, 0x2000, ⟨false⟩, ⟨true, true, false⟩⟩ else none := by
  have hclear : empty.clearUnsafe 0x1000 0x2000 none = empty := rfl
  rw [twoPages, data_setUnsafe, hclear, Function.update_apply]
  rfl

theorem changeUnsafe_changes_second : twoPages.ChangesProt 0x2000 0x1000 ⟨true, false, false⟩ := by
  refine (changeUnsafe_changes_iff twoPages twoPages_layout 0x2000 0x1000 (by decide) (by decide) _).2 ?_
  intro k e hk _ _ _
  rw [twoPages_data] at hk
  split_ifs at hk with at_first
  obtain rfl := Option.some.inj hk
  subst at_first
  decide

/-- The second page and the free page behind it. -/
theorem changeUnsafe_maps_free : ¬ twoPages.ChangesProt 0x2000 0x2000 ⟨true, false, false⟩ := by
  intro changes
  have first := twoPages_data 0x1000
  have behind := none_of_changesProt twoPages_layout (by decide) changes 0x1000 _ first (by decide) (by decide) (by decide)
  exact absurd behind (by decide)

end FexEmu.LinuxSyscalls.VMATracking
