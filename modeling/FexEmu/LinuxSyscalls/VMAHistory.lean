import FexEmu.LinuxSyscalls.VMALists
/-!
# Histories of the VMA tracker

Over histories of all four operations the lists of the resources mirror the mappings, as long as no mapping ends inside of a
range whose protection changes from its middle on.
-/
namespace FexEmu.LinuxSyscalls.VMATracking

open IntrusiveList
open Function (update update_self update_of_ne)

variable {t : VMATracking} {kept : Option MRID} {k : Nat} {cur : VMAEntry}

/-! ## `ChangeUnsafe` -/

/-- A mapping of another protection that reaches into the range from before goes through to its end. -/
def ChangeOk (D : Nat → Option VMAEntry) (base top : Nat) (prot : VMAProt) : Prop :=
  ∀ k e, D k = some e → e.prot ≠ prot → k < base → base < k + e.length → base < top ∧ top ≤ k + e.length

variable {e : VMAEntry} {base top : Nat} {r : MRID}

theorem layout_shrink {D : Nat → Option VMAEntry} (h : Layout D) {e' : VMAEntry} (hk : D k = some e)
    (hbase : e'.base = k) (hpos : 0 < e'.length) (hlen : e'.length ≤ e.length) :
    Layout (update D k (some e')) := by
  have hb := h.bounded hk
  refine ⟨?_, ?_, ?_⟩
  · intro j f hj
    rcases update_cases hj with ⟨rfl, rfl⟩ | ⟨-, hj⟩
    · exact hbase
    · exact h.keyed hj
  · intro j f hj
    rcases update_cases hj with ⟨rfl, rfl⟩ | ⟨-, hj⟩
    · exact ⟨hpos, by omega⟩
    · exact h.bounded hj
  · intro i f j g hi hj hij
    rcases update_cases hi with ⟨rfl, rfl⟩ | ⟨-, hi'⟩ <;> rcases update_cases hj with ⟨rfl, rfl⟩ | ⟨-, hj'⟩
    · omega
    · have hd := h.disjoint hk hj' hij
      omega
    · exact h.disjoint hi' hk hij
    · exact h.disjoint hi' hj' hij

theorem Layout.apart {D : Nat → Option VMAEntry} (h : Layout D) {f : VMAEntry} {j : Nat} (hk : D k = some e)
    (hj : D j = some f) (hjk : j ≠ k) : j + f.length ≤ k ∨ k + e.length ≤ j := by
  rcases Nat.lt_or_gt_of_ne hjk with hlt | hgt
  · exact Or.inl (h.disjoint hj hk hlt)
  · exact Or.inr (h.disjoint hk hj hgt)

theorem data_splitFirst (top : Nat) (prot : VMAProt) (hfree : (t.setLength k (sub64 base cur.base)).data base = none) :
    (splitFirst base top prot t k cur).data =
      update (t.setLength k (sub64 base cur.base)).data base
        (some ⟨cur.resource, none, none, base, add64 (sub64 cur.offset cur.base) base, sub64 top base, cur.flags, prot⟩) := by
  unfold splitFirst
  have hlist : ∀ s : VMATracking, (if cur.resource.isSome then s.listInsertAfter k base else s).data = s.data := by
    split <;> simp
  rw [hlist, data_emplaceVMA, hfree]
  rfl

theorem splitFirst_inv (h : Inv t kept) (hk : t.vmas.find? k = some cur) (hkb : k < base)
    (hbt : base < top) (htop : top ≤ k + cur.length) (prot : VMAProt) :
    Inv (splitFirst base top prot t k cur) kept ∧
    (∀ j f, (splitFirst base top prot t k cur).data j = some f →
      (j = base ∧ f.base = base ∧ f.length = top - base) ∨ (j ≠ base ∧ (j + f.length ≤ base ∨ k + cur.length ≤ j))) ∧
    (splitFirst base top prot t k cur).data base ≠ none ∧
    ∀ j, j < k → (splitFirst base top prot t k cur).data j = t.data j := by
  obtain ⟨hd, hkeyed, hwrap⟩ := h.layout.entry hk
  have hsub : sub64 base cur.base = base - k := by rw [hkeyed, sub64_of_le hkb.le (by omega)]
  have hsub' : sub64 top base = top - base := sub64_of_le hbt.le (by omega)
  have hcut : (t.setLength k (sub64 base cur.base)).data =
      update t.data k (some { unlinked cur with length := base - k }) := by
    rw [data_setLength, hd, hsub]
    rfl
  have hlay : Layout (t.setLength k (sub64 base cur.base)).data := by
    rw [hcut]
    refine layout_shrink h.layout hd hkeyed (by simp only; omega) ?_
    show base - k ≤ cur.length
    omega
  -- what is left lies outside of the rest of the mapping
  have hout : ∀ j f, (t.setLength k (sub64 base cur.base)).data j = some f →
      j + f.length ≤ base ∨ k + cur.length ≤ j := by
    intro j f hj
    rw [hcut] at hj
    rcases update_cases hj with ⟨rfl, rfl⟩ | ⟨hjk, hj⟩
    · left
      simp only
      omega
    · rcases h.layout.apart hd hj hjk with h1 | h1
      · left
        omega
      · exact Or.inr h1
  have hfree : (t.setLength k (sub64 base cur.base)).data base = none := by
    cases hdb : (t.setLength k (sub64 base cur.base)).data base with
    | none => rfl
    | some f =>
      have hb := hlay.bounded hdb
      rcases hout base f hdb with h1 | h1 <;> omega
  have hdata := data_splitFirst top prot hfree
  have hlayout : Layout (splitFirst base top prot t k cur).data := by
    rw [hdata, hsub']
    refine layout_put hlay rfl (by simp only; omega) (by simp only; omega) ?_
    intro j f hj
    rcases hout j f hj with h1 | h1
    · exact Or.inl h1
    · right
      simp only
      omega
  obtain ⟨hm, hres⟩ := inv_setLength_links (k := k) h (sub64 base cur.base)
  obtain ⟨hm', hreg, howner⟩ := insertAfter_mirrors
    (e := ⟨cur.resource, some k, cur.resourceNextVMA, base, add64 (sub64 cur.offset cur.base) base, sub64 top base,
      cur.flags, prot⟩) hm (find_setLength hk (sub64 base cur.base)) (find_of_data hfree) rfl rfl rfl
  have hres' := resources_of_split hres (find_setLength hk _) (find_of_data hfree) (fun s => by rw [hreg]) howner
  refine ⟨⟨hlayout, hm', hres'⟩, ?_, ?_, ?_⟩
  · intro j f hj
    rw [hdata] at hj
    rcases update_cases hj with ⟨rfl, rfl⟩ | ⟨hjb, hj⟩
    · exact Or.inl ⟨rfl, rfl, hsub'⟩
    · exact Or.inr ⟨hjb, hout j f hj⟩
  · rw [hdata, update_self]
    exact fun hx => nomatch hx
  · intro j hj
    rw [hdata, update_of_ne (by omega), hcut, update_of_ne (by omega)]

theorem splitTrailing_inv (h : Inv t kept) (cur : VMAEntry) {c : Nat} (hc : t.vmas.find? c = some e) (hct : c < top)
    (hlen : top ≤ c + e.length) (hmap : top < add64 cur.base cur.length)
    (hwrap : add64 cur.base cur.length < 2 ^ 64)
    (hout : ∀ j f, t.data j = some f → j ≠ c → j + f.length ≤ top ∨ add64 cur.base cur.length ≤ j) :
    Inv (splitTrailing top t c cur) kept ∧ ∀ j, j < c → (splitTrailing top t c cur).data j = t.data j := by
  have hd : t.data c = some (unlinked e) := data_eq_some.mpr ⟨e, hc, rfl⟩
  have hkeyed := h.layout.keyed hd
  change e.base = c at hkeyed
  have hvc : (t.vma c).base = c := by rw [vma_of_find hc, hkeyed]
  have hsub : sub64 top (t.vma c).base = top - c := by rw [hvc, sub64_of_le hct.le (by omega)]
  have hsub' : sub64 (add64 cur.base cur.length) top = add64 cur.base cur.length - top := sub64_of_le hmap.le hwrap
  have hcut : (t.setLength c (top - c)).data = update t.data c (some { unlinked e with length := top - c }) := by
    rw [data_setLength, hd]
    rfl
  -- first the entry is cut at top, then its rest is put behind it
  have hlay : Layout (t.setLength c (top - c)).data := by
    rw [hcut]
    refine layout_shrink h.layout hd hkeyed (by simp only; omega) ?_
    show top - c ≤ e.length
    omega
  have hout' : ∀ j f, (t.setLength c (top - c)).data j = some f → j + f.length ≤ top ∨ add64 cur.base cur.length ≤ j := by
    intro j f hj
    rw [hcut] at hj
    rcases update_cases hj with ⟨rfl, rfl⟩ | ⟨hjc, hj⟩
    · left
      simp only
      omega
    · exact hout j f hj hjc
  have hfree : (t.setLength c (top - c)).data top = none := by
    cases hdt : (t.setLength c (top - c)).data top with
    | none => rfl
    | some f =>
      have hb := hlay.bounded hdt
      rcases hout' top f hdt with h1 | h1 <;> omega
  have hfind := find_setLength hc (top - c)
  have hvma : (t.setLength c (top - c)).vma c = { e with length := top - c } := vma_of_find hfind
  unfold splitTrailing
  dsimp only
  rw [hsub, hvma]
  obtain ⟨hm, hres⟩ := inv_setLength_links (k := c) h (top - c)
  generalize hnew : (⟨e.resource, some c, e.resourceNextVMA, top, add64 (sub64 cur.offset cur.base) top,
    sub64 (add64 cur.base cur.length) top, cur.flags, cur.prot⟩ : VMAEntry) = new
  obtain ⟨hm', hreg, howner⟩ := insertAfter_mirrors (e := new) hm hfind (find_of_data hfree)
    (by rw [← hnew]) (by rw [← hnew]) (by rw [← hnew])
  have hres' := resources_of_split hres hfind (find_of_data hfree) (fun s => by rw [hreg]) howner
  have hdata : (if e.resource.isSome then ((t.setLength c (top - c)).emplaceVMA top new).listInsertAfter c top
      else (t.setLength c (top - c)).emplaceVMA top new).data =
      update (t.setLength c (top - c)).data top (some (unlinked new)) := by
    have hlist : ∀ s : VMATracking, (if e.resource.isSome then s.listInsertAfter c top else s).data = s.data := by
      split <;> simp
    rw [hlist, data_emplaceVMA, hfree]
    rfl
  have hnewlen : (unlinked new).length = add64 cur.base cur.length - top := by
    rw [← hnew]
    exact hsub'
  refine ⟨⟨?_, hm', hres'⟩, ?_⟩
  · rw [hdata]
    refine layout_put hlay (by rw [← hnew]; rfl) (by omega) (by omega) ?_
    intro j f hj
    rcases hout' j f hj with h1 | h1
    · exact Or.inl h1
    · right
      omega
  · intro j hj
    rw [hdata, update_of_ne (by omega), hcut, update_of_ne (by omega)]

theorem setProt_inv (h : Inv t kept) (hk : t.vmas.find? k = some cur) (prot : VMAProt) :
    Inv (t.setProt k prot) kept ∧
    (t.setProt k prot).data = update t.data k (some { unlinked cur with prot := prot }) := by
  have hd : t.data k = some (unlinked cur) := data_eq_some.mpr ⟨cur, hk, rfl⟩
  have hdata : (t.setProt k prot).data = update t.data k (some { unlinked cur with prot := prot }) := by
    rw [data_setProt, hd]
    rfl
  refine ⟨⟨?_, ?_, ?_⟩, hdata⟩
  · rw [hdata]
    have hkeyed := h.layout.keyed hd
    have hpos := (h.layout.bounded hd).1
    exact layout_shrink h.layout hd hkeyed hpos le_rfl
  · unfold Mirrors
    rw [next_setProt, prev_setProt, owner_setProt]
    exact h.mirrors
  · intro r
    rw [owner_setProt]
    exact h.resources r

theorem changeMapping_inv (h : Inv t kept) (hk : t.vmas.find? k = some cur) (hktop : k < top)
    (hok : k < base → base < top ∧ top ≤ k + cur.length) (prot : VMAProt) :
    Inv (changeMapping base top prot t k cur) kept ∧
    ∀ j, j < k → (changeMapping base top prot t k cur).data j = t.data j := by
  obtain ⟨hd, hkeyed, hwrap⟩ := h.layout.entry hk
  have hmapTop : add64 cur.base cur.length = k + cur.length := by rw [hkeyed, add64_of_lt hwrap]
  unfold changeMapping
  simp only [hmapTop]
  by_cases hfirst : cur.base < base
  · obtain ⟨hbt, htop⟩ := hok (hkeyed ▸ hfirst)
    obtain ⟨hinv, hout, hbase, hsame⟩ := splitFirst_inv h hk (hkeyed ▸ hfirst) hbt htop prot
    simp only [hfirst, decide_true, if_true]
    by_cases htrail : top < k + cur.length
    · rw [if_pos htrail]
      obtain ⟨e, he⟩ := Option.ne_none_iff_exists'.mp hbase
      obtain ⟨e', he', rfl⟩ := data_eq_some.mp he
      have hlen : e'.length = top - base := by
        rcases hout base _ he with ⟨-, -, h1⟩ | ⟨h1, -⟩
        · exact h1
        · exact absurd rfl h1
      obtain ⟨hinv', hsame'⟩ := splitTrailing_inv hinv cur he' hbt (by omega) (by omega) (by omega) (by
        intro j f hj hjb
        rcases hout j f hj with ⟨h1, -, -⟩ | ⟨-, h1 | h1⟩
        · exact absurd h1 hjb
        · left
          omega
        · right
          omega)
      refine ⟨hinv', ?_⟩
      intro j hj
      rw [hsame' j (by omega), hsame j hj]
    · rw [if_neg htrail]
      exact ⟨hinv, hsame⟩
  · obtain ⟨hinv, hdata⟩ := setProt_inv h hk prot
    simp only [hfirst, decide_false, Bool.false_eq_true, if_false]
    have hsame : ∀ j, j < k → (t.setProt k prot).data j = t.data j := by
      intro j hj
      rw [hdata, update_of_ne (by omega)]
    by_cases htrail : top < k + cur.length
    · rw [if_pos htrail]
      have hfind : (t.setProt k prot).vmas.find? k = some { cur with prot := prot } := by
        unfold setProt
        rw [OrderedMap.find?_modify, if_pos rfl, hk]
        rfl
      obtain ⟨hinv', hsame'⟩ := splitTrailing_inv hinv cur hfind hktop (by simp only; omega) (by omega)
        (by omega) (by
          intro j f hj hjk
          rw [hdata, update_of_ne hjk] at hj
          rcases h.layout.apart hd hj hjk with h1 | h1
          · left
            omega
          · right
            rw [hmapTop]
            exact h1)
      refine ⟨hinv', ?_⟩
      intro j hj
      rw [hsame' j hj, hsame j hj]
    · rw [if_neg htrail]
      exact ⟨hinv, hsame⟩

theorem changeLoop_inv {prot : VMAProt} : ∀ (fuel c : Nat) (t : VMATracking), c ≤ top → Inv t kept →
      (∀ k e, k < c → t.data k = some e → e.prot ≠ prot → k < base → base < k + e.length →
        base < top ∧ top ≤ k + e.length) →
      Inv (changeLoop base top prot fuel c t) kept := by
  intro fuel
  induction fuel with
  | zero => exact fun c t _ h _ => h
  | succ fuel ih =>
    intro c t hc h hok
    unfold changeLoop
    cases hb : t.vmas.below c with
    | none => exact h
    | some x =>
      obtain ⟨k, cur⟩ := x
      obtain ⟨hk, hkc, -⟩ := (OrderedMap.below_eq_some _ _ _ _).mp hb
      obtain ⟨hd, hkeyed, hwrap⟩ := h.layout.entry hk
      dsimp only
      rw [hkeyed, add64_of_lt hwrap]
      by_cases hend : k + cur.length ≤ base
      · rw [if_pos hend]
        exact h
      · rw [if_neg hend]
        by_cases hprot : cur.prot = prot
        · rw [if_pos hprot]
          exact ih k t (by omega) h (fun j e hj => hok j e (by omega))
        · rw [if_neg hprot]
          obtain ⟨hinv, hsame⟩ := changeMapping_inv h hk (by omega : k < top)
            (fun hkb => hok k (unlinked cur) hkc hd hprot hkb (not_le.mp hend)) prot
          refine ih k _ (by omega) hinv ?_
          intro j e hj he
          rw [hsame j hj] at he
          exact hok j e (by omega) he

theorem changeUnsafe_inv (h : Inv t kept) {length : Nat} {prot : VMAProt} (hwrap : base + length < 2 ^ 64)
    (hok : ChangeOk t.data base (base + length) prot) : Inv (t.changeUnsafe base length prot) kept := by
  unfold changeUnsafe
  rw [add64_of_lt hwrap]
  exact changeLoop_inv _ _ t le_rfl h (fun k e _ => hok k e)

theorem clearShmLoop_inv {shmLength : Nat} :
    ∀ (fuel k : Nat) (t : VMATracking), Inv t none → Inv (clearShmLoop base shmLength r fuel k t) none := by
  intro fuel
  induction fuel with
  | zero => exact fun k t h => h
  | succ fuel ih =>
    intro k t h
    have hstep : Inv (if (t.vma k).resource = some r then removeMapping none t k (t.vma k) else t) none := by
      split_ifs with hr
      · exact removeMapping_inv h (find_of_owner hr)
      · exact h
    unfold clearShmLoop
    dsimp only
    split
    · split
      · exact ih _ _ hstep
      · exact hstep
    · exact hstep

theorem clearShmUnsafe_inv (h : Inv t none) (base : Nat) : Inv (t.clearShmUnsafe base).1 none := by
  unfold clearShmUnsafe
  split
  · split
    · exact clearShmLoop_inv _ _ t h
    · exact h
  · exact h

/-! ## Histories -/

/-- A call on the tracker. A resource that is set is registered before, as its callers do. -/
inductive TrackerOp
  | set (resource : Option MRID) (resourceLength base offset length : Nat) (flags : VMAFlags) (prot : VMAProt)
  | clear (base length : Nat) (preserved : Option MRID)
  | change (base length : Nat) (prot : VMAProt)
  | clearShm (base : Nat)

namespace TrackerOp

def apply (t : VMATracking) : TrackerOp → VMATracking
  | set (some r) resourceLength base offset length flags prot =>
    (t.emplaceResource r ⟨none, resourceLength⟩).setUnsafe (some r) base offset length flags prot
  | set none _ base offset length flags prot => t.setUnsafe none base offset length flags prot
  | clear base length preserved => t.clearUnsafe base length preserved
  | change base length prot => t.changeUnsafe base length prot
  | clearShm base => (t.clearShmUnsafe base).1

/-- The resource that is set or preserved. -/
def keeps : TrackerOp → Option MRID
  | set resource _ _ _ _ _ _ => resource
  | clear _ _ preserved => preserved
  | _ => none

/-- The range does not wrap, a set range is not empty, a preserved resource is registered, and no mapping ends inside of a
changed range. -/
def ArgsOk (t : VMATracking) : TrackerOp → Prop
  | set _ _ base _ length _ _ => 0 < length ∧ base + length < 2 ^ 64
  | clear base length preserved => base + length < 2 ^ 64 ∧ ∀ r, preserved = some r → (t.mappedResources r).isSome
  | change base length prot => base + length < 2 ^ 64 ∧ ChangeOk t.data base (base + length) prot
  | clearShm _ => True

/-- A resource that was left without mappings is set or preserved by the next call. -/
def StepOk (t : VMATracking) (op : TrackerOp) : Prop :=
  op.ArgsOk t ∧ ∀ r, (t.mappedResources r).isSome → (∃ k, t.owner k = some r) ∨ op.keeps = some r

end TrackerOp

/-- The states of the histories in which every call is as asked, each with its last call. -/
inductive Reached : VMATracking → Option TrackerOp → Prop
  | empty : Reached empty none
  | step {t : VMATracking} {last : Option TrackerOp} (op : TrackerOp) :
    Reached t last → op.StepOk t → Reached (op.apply t) (some op)

theorem inv_empty : Inv empty none where
  layout := layout_empty
  mirrors o := ⟨[], ⟨List.nodup_nil, rfl, trivial⟩, fun k => by simp [owner, vma, empty]⟩
  resources r := by simp [owner, vma, empty]

theorem Inv.rekeep (h : Inv t kept) (kept' : Option MRID)
    (hnew : ∀ r, kept' = some r → (t.mappedResources r).isSome)
    (hold : ∀ r, (t.mappedResources r).isSome → (∃ k, t.owner k = some r) ∨ kept' = some r) : Inv t kept' where
  layout := h.layout
  mirrors := h.mirrors
  resources r := by
    refine ⟨hold r, ?_⟩
    rintro (⟨k, hk⟩ | hr)
    · exact h.registered hk
    · exact hnew r hr

theorem emplaceResource_inv (h : Inv t kept) (n : Nat)
    (hold : ∀ s, (t.mappedResources s).isSome → (∃ k, t.owner k = some s) ∨ some r = some s) :
    Inv (t.emplaceResource r ⟨none, n⟩) (some r) := by
  have hfirst : (t.emplaceResource r ⟨none, n⟩).firstVMA = t.firstVMA := by
    funext s
    unfold firstVMA emplaceResource
    by_cases hs : s = r
    · subst hs
      dsimp only
      rw [update_self]
      cases t.mappedResources s <;> rfl
    · dsimp only
      rw [update_of_ne hs]
  refine ⟨h.layout, ?_, ?_⟩
  · unfold Mirrors
    rw [hfirst]
    exact h.mirrors
  · intro s
    by_cases hs : s = r
    · subst hs
      refine iff_of_true ?_ (Or.inr rfl)
      unfold emplaceResource
      dsimp only
      rw [update_self, Option.isSome_some]
    · have hsame : (t.emplaceResource r ⟨none, n⟩).mappedResources s = t.mappedResources s := update_of_ne hs _ _
      rw [hsame]
      refine ⟨hold s, ?_⟩
      rintro (⟨k, hk⟩ | hr)
      · exact h.registered hk
      · exact absurd (Option.some.inj hr).symm hs

theorem step_inv (h : Inv t kept) {op : TrackerOp} (hop : op.StepOk t) : Inv (op.apply t) op.keeps := by
  obtain ⟨hargs, hold⟩ := hop
  cases op with
  | set resource resourceLength base offset length flags prot =>
    cases resource with
    | some r => exact setUnsafe_inv (emplaceResource_inv h resourceLength hold) hargs.1 hargs.2 offset flags prot
    | none => exact setUnsafe_inv (h.rekeep none (fun _ hr => nomatch hr) hold) hargs.1 hargs.2 offset flags prot
  | clear base length preserved => exact clearUnsafe_inv (h.rekeep preserved hargs.2 hold) hargs.1
  | change base length prot => exact changeUnsafe_inv (h.rekeep none (fun _ hr => nomatch hr) hold) hargs.1 hargs.2
  | clearShm base => exact clearShmUnsafe_inv (h.rekeep none (fun _ hr => nomatch hr) hold) base

theorem reached_inv {last : Option TrackerOp} (h : Reached t last) : Inv t (last.bind TrackerOp.keeps) := by
  induction h with
  | empty => exact inv_empty
  | step op _ hop ih => exact step_inv ih hop

/-- Its nodes are in order, without repetition, linked in both directions, and exactly the entries of the resource. -/
def ListMirrors (t : VMATracking) (r : MRID) : Prop :=
  ∃ c : List Nat, IsList (t.firstVMA r) t.next t.prev c ∧
    ∀ k, k ∈ c ↔ ∃ e, t.vmas.find? k = some e ∧ e.resource = some r

/-- The resource is registered if it has mappings or the last call keeps it. -/
def RegisteredExactly (t : VMATracking) (last : Option TrackerOp) (r : MRID) : Prop :=
  (t.mappedResources r).isSome ↔ (∃ k e, t.vmas.find? k = some e ∧ e.resource = some r) ∨ last.bind TrackerOp.keeps = some r

theorem owner_eq_some : t.owner k = some r ↔ ∃ e, t.vmas.find? k = some e ∧ e.resource = some r := by
  constructor
  · intro h
    exact ⟨t.vma k, find_of_owner h, h⟩
  · rintro ⟨e, he, hr⟩
    exact owner_of_find he hr

/-- In every history of calls as asked the lists mirror the mappings. -/
theorem resourceLists_mirror_vmas {last : Option TrackerOp} (h : Reached t last) (r : MRID) :
    ListMirrors t r ∧ RegisteredExactly t last r := by
  have hinv := reached_inv h
  constructor
  · obtain ⟨c, hc, hmem⟩ := hinv.mirrors r
    exact ⟨c, hc, fun k => (hmem k).trans owner_eq_some⟩
  · unfold RegisteredExactly
    rw [hinv.resources r]
    simp [owner_eq_some]

def splitHistory : List TrackerOp :=
  [.set (some ⟨1, 1⟩) 0 0x1000 0 0x2000 ⟨true⟩ ⟨true, true, false⟩,
   .set (some ⟨1, 2⟩) 0 0x3000 0 0x2000 ⟨true⟩ ⟨true, true, false⟩,
   .change 0x2000 0x3000 ⟨true, false, false⟩,
   .change 0x2000 0x1000 ⟨true, true, false⟩]

/-- The list of the first resource then goes on to the mapping of the second one. -/
theorem resourceLists_split_history : ¬ ListMirrors (splitHistory.foldl TrackerOp.apply empty) ⟨1, 1⟩ := by
  rintro ⟨c, hc, hmem⟩
  have hentry : (splitHistory.foldl TrackerOp.apply empty).owner 0x3000 = some ⟨1, 2⟩ := by decide
  have howner : (splitHistory.foldl TrackerOp.apply empty).owner 0x2000 = some ⟨1, 1⟩ := by decide
  have hnext : (splitHistory.foldl TrackerOp.apply empty).next 0x2000 = some 0x3000 := by decide
  obtain ⟨l, r, rfl, -, -, -, hn, -, -⟩ := hc.around ((hmem 0x2000).mpr (owner_eq_some.mp howner))
  have hin : 0x3000 ∈ l ++ 0x2000 :: r :=
    List.mem_append_right _ (List.mem_cons_of_mem _ (List.mem_of_head? (hn.symm.trans hnext)))
  have howner' := owner_eq_some.mpr ((hmem 0x3000).mp hin)
  exact absurd howner' (by decide)

/-- A mapping whose last page gets another protection: two entries of one resource. -/
theorem resourceLists_mirror_vmas_change :
    let t := TrackerOp.apply (TrackerOp.apply empty (.set (some ⟨1, 1⟩) 0 0x1000 0 0x3000 ⟨true⟩ ⟨true, true, false⟩))
      (.change 0x3000 0x1000 ⟨true, false, false⟩)
    t.firstVMA ⟨1, 1⟩ = some 0x1000 ∧ t.next 0x1000 = some 0x3000 ∧ ListMirrors t ⟨1, 1⟩ := by
  refine ⟨by decide, by decide, ?_⟩
  have h0 : TrackerOp.StepOk empty (.set (some ⟨1, 1⟩) 0 0x1000 0 0x3000 ⟨true⟩ ⟨true, true, false⟩) := by
    refine ⟨⟨by decide, by decide⟩, ?_⟩
    intro r hr
    simp [empty] at hr
  have h1 : TrackerOp.StepOk (TrackerOp.apply empty (.set (some ⟨1, 1⟩) 0 0x1000 0 0x3000 ⟨true⟩ ⟨true, true, false⟩))
      (.change 0x3000 0x1000 ⟨true, false, false⟩) := by
    have hinv := step_inv inv_empty h0
    have hdata : (TrackerOp.apply empty (.set (some ⟨1, 1⟩) 0 0x1000 0 0x3000 ⟨true⟩ ⟨true, true, false⟩)).data =
        update (fun _ => none) 0x1000
          (some ⟨some ⟨1, 1⟩, none, none, 0x1000, 0, 0x3000, ⟨true⟩, ⟨true, true, false⟩⟩) := by
      unfold TrackerOp.apply
      rw [data_setUnsafe]
      rfl
    refine ⟨⟨by decide, ?_⟩, ?_⟩
    · intro k e hk _ _ _
      rw [hdata] at hk
      rcases update_cases hk with ⟨rfl, rfl⟩ | ⟨-, hk⟩
      · decide
      · cases hk
    · intro r hr
      rcases (hinv.resources r).mp hr with hex | hkept
      · exact Or.inl hex
      · left
        refine ⟨0x1000, ?_⟩
        exact hkept
  exact (resourceLists_mirror_vmas (Reached.step _ (Reached.step _ Reached.empty h0) h1) ⟨1, 1⟩).1

end FexEmu.LinuxSyscalls.VMATracking
