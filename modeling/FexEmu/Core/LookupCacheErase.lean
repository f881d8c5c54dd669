import FexEmu.Core.LookupCache
/-!
# What the cache operations do to the map, the links and the code pages

The lookups only fill `L1` and `L2`. `Erase` unmaps its addresses and runs the delinker of every link to them once.
-/
namespace FexEmu.LookupCache

variable (c : Config)

/-! ## What the cache operations leave alone -/

variable {s : State} {a : UInt64} {ls : List (BlockLinkTag × Delinker)}

theorem frame_cacheFullMap {s' : State} {h : UInt64} (e : cacheFullMap c s a h = some s') :
    s'.codePages = s.codePages ∧ s'.blockList = s.blockList ∧ s'.blockLinks = s.blockLinks := by
  rcases hbacking : allocateBackingForPage c s with ⟨page, next⟩
  rw [cacheFullMap, hbacking] at e
  dsimp only at e
  split_ifs at e with hpage hnone
  · obtain rfl := Option.some.inj e
    exact ⟨rfl, rfl, rfl⟩
  · obtain rfl := Option.some.inj e
    exact ⟨rfl, rfl, rfl⟩

theorem frame_cacheBlockMapping (fuel : Nat) (s : State) (a h : UInt64) :
    (cacheBlockMapping c fuel s a h).codePages = s.codePages ∧
      (cacheBlockMapping c fuel s a h).blockList = s.blockList ∧
      (cacheBlockMapping c fuel s a h).blockLinks = s.blockLinks := by
  induction fuel generalizing s a with
  | zero => exact ⟨rfl, rfl, rfl⟩
  | succ fuel ih =>
    unfold cacheBlockMapping
    dsimp only
    split
    · rename_i s' he
      obtain ⟨h1, h2, h3⟩ := frame_cacheFullMap c he
      exact ⟨h1, h2, h3⟩
    · exact ih _ _

theorem frame_findBlock (s : State) (a : UInt64) :
    (findBlock c s a).2.codePages = s.codePages ∧ (findBlock c s a).2.blockList = s.blockList ∧
      (findBlock c s a).2.blockLinks = s.blockLinks := by
  unfold findBlock
  dsimp only
  split
  · exact ⟨rfl, rfl, rfl⟩
  · split
    · exact ⟨rfl, rfl, rfl⟩
    · split
      · exact frame_cacheBlockMapping c 2 s a _
      · exact ⟨rfl, rfl, rfl⟩

theorem frame_eraseL1 (s : State) (a : UInt64) :
    (eraseL1 s a).codePages = s.codePages ∧ (eraseL1 s a).blockList = s.blockList ∧
      (eraseL1 s a).blockLinks = s.blockLinks ∧ (eraseL1 s a).delinked = s.delinked := by
  unfold eraseL1
  dsimp only
  split <;> exact ⟨rfl, rfl, rfl, rfl⟩

theorem frame_eraseFullMap (s : State) (a : UInt64) :
    (eraseFullMap c s a).codePages = s.codePages ∧ (eraseFullMap c s a).blockList = s.blockList ∧
      (eraseFullMap c s a).blockLinks = s.blockLinks ∧ (eraseFullMap c s a).delinked = s.delinked := by
  unfold eraseFullMap
  dsimp only
  split <;> exact ⟨rfl, rfl, rfl, rfl⟩

theorem erase_fields (s : State) (a : UInt64) :
    (erase c s a).codePages = s.codePages ∧ (erase c s a).blockList = Function.update s.blockList a none ∧
      (erase c s a).blockLinks = s.blockLinks.filter (fun l => l.1.guestDestination ≠ a) ∧
      (erase c s a).delinked = s.delinked ++ linksTo s a := by
  unfold erase
  obtain ⟨h1, h2, h3, h4⟩ := frame_eraseFullMap c (eraseL1 { s with
    delinked := s.delinked ++ linksTo s a
    blockLinks := s.blockLinks.filter (fun l => l.1.guestDestination ≠ a)
    blockList := Function.update s.blockList a none } a) a
  obtain ⟨g1, g2, g3, g4⟩ := frame_eraseL1 { s with
    delinked := s.delinked ++ linksTo s a
    blockLinks := s.blockLinks.filter (fun l => l.1.guestDestination ≠ a)
    blockList := Function.update s.blockList a none } a
  exact ⟨h1.trans g1, h2.trans g2, h3.trans g3, h4.trans g4⟩

/-! ## Erasing a list of addresses -/

theorem foldl_erase_blockList (as : List UInt64) (s : State) (b : UInt64) :
    (as.foldl (erase c) s).blockList b = if b ∈ as then none else s.blockList b := by
  induction as generalizing s with
  | nil => simp
  | cons a as ih =>
    rw [List.foldl_cons, ih, (erase_fields c s a).2.1]
    by_cases hb : b = a
    · simp [hb]
    · simp [hb]

theorem foldl_erase_blockLinks (as : List UInt64) (s : State) :
    (as.foldl (erase c) s).blockLinks = s.blockLinks.filter (fun l => l.1.guestDestination ∉ as) := by
  induction as generalizing s with
  | nil => simp
  | cons a as ih =>
    rw [List.foldl_cons, ih, (erase_fields c s a).2.2.1, List.filter_filter]
    congr 1
    funext l
    simp [not_or, Bool.and_comm]

theorem foldl_erase_delinked (as : List UInt64) (s : State) :
    ∃ ran, (as.foldl (erase c) s).delinked = s.delinked ++ ran ∧
      ∀ l, ran.count l = if l.1.guestDestination ∈ as then s.blockLinks.count l else 0 := by
  induction as generalizing s with
  | nil => exact ⟨[], by simp, by simp⟩
  | cons a as ih =>
    obtain ⟨ran, h1, h2⟩ := ih (erase c s a)
    obtain ⟨-, -, hl, hd⟩ := erase_fields c s a
    refine ⟨linksTo s a ++ ran, by rw [List.foldl_cons, h1, hd, List.append_assoc], fun l => ?_⟩
    rw [List.count_append, h2, hl]
    unfold linksTo
    by_cases ha : l.1.guestDestination = a
    · have h3 : (s.blockLinks.filter (fun l => l.1.guestDestination ≠ a)).count l = 0 := by
        rw [List.count_eq_zero]
        simp [ha]
      rw [List.count_filter (by simpa using ha), h3]
      simp [ha]
    · have h3 : (s.blockLinks.filter (fun l => l.1.guestDestination = a)).count l = 0 := by
        rw [List.count_eq_zero]
        simp [ha]
      rw [h3, List.count_filter (by simpa using ha)]
      simp [ha]

/-! ## An erased address is not found -/

/-- No level of the cache knows `a`. -/
def Unknown (s : State) (a : UInt64) : Prop :=
  s.blockList a = none ∧ (s.l1 (l1Index a)).guestCode ≠ a ∧
    (s.pagePointer (pageIndex c a) = 0 ∨
      (s.memory (slotAt (s.pagePointer (pageIndex c a)) (maskedOffset c a))).guestCode ≠ a)

theorem findBlock_unknown (h : Unknown c s a) : (findBlock c s a).1 = 0 := by
  obtain ⟨h1, h2, h3⟩ := h
  unfold findBlock
  rw [maskedOffset_eq] at h3
  rcases h3 with h3 | h3 <;> simp [h1, h2, h3]

theorem erase_slots (s : State) (b : UInt64) :
    (erase c s b).pagePointer = s.pagePointer ∧
      (∀ i, (erase c s b).l1 i = s.l1 i ∨ ((erase c s b).l1 i).guestCode = 0) ∧
      ∀ x, (erase c s b).memory x = s.memory x ∨ (erase c s b).memory x = .zero := by
  have hl1 : ∀ s : State, (eraseL1 s b).pagePointer = s.pagePointer ∧ (eraseL1 s b).memory = s.memory ∧
      ∀ i, (eraseL1 s b).l1 i = s.l1 i ∨ ((eraseL1 s b).l1 i).guestCode = 0 := by
    intro s
    unfold eraseL1
    dsimp only
    split
    · refine ⟨rfl, rfl, fun i => ?_⟩
      unfold setL1
      dsimp only
      rw [Function.update_apply]
      split
      · exact .inr rfl
      · exact .inl rfl
    · exact ⟨rfl, rfl, fun i => .inl rfl⟩
  obtain ⟨h1, h2, h3⟩ := hl1 { s with
    delinked := s.delinked ++ linksTo s b
    blockLinks := s.blockLinks.filter (fun l => l.1.guestDestination ≠ b)
    blockList := Function.update s.blockList b none }
  unfold erase eraseFullMap
  dsimp only
  split
  · exact ⟨h1, h3, fun x => .inl (by rw [h2])⟩
  · refine ⟨h1, h3, fun x => ?_⟩
    dsimp only
    rw [Function.update_apply, h2]
    split
    · exact .inr rfl
    · exact .inl rfl

theorem unknown_erase_self (ha : a ≠ 0) : Unknown c (erase c s a) a := by
  refine ⟨by rw [(erase_fields c s a).2.1]; simp, ?_, ?_⟩
  · have hl1 : ∀ s : State, ((eraseL1 s a).l1 (l1Index a)).guestCode ≠ a := by
      intro s
      unfold eraseL1
      dsimp only
      split
      · simpa [setL1] using ha.symm
      · assumption
    unfold erase eraseFullMap
    dsimp only
    split
    · exact hl1 _
    · exact hl1 _
  · unfold erase eraseFullMap
    dsimp only
    split
    · exact .inl ‹_›
    · right
      simp [LookupCacheEntry.zero, ha.symm]

theorem unknown_erase {b : UInt64} (ha : a ≠ 0) (h : Unknown c s a) : Unknown c (erase c s b) a := by
  obtain ⟨h1, h2, h3⟩ := h
  obtain ⟨hp, hl, hm⟩ := erase_slots c s b
  refine ⟨?_, ?_, ?_⟩
  · rw [(erase_fields c s b).2.1, Function.update_apply, h1]
    simp
  · rcases hl (l1Index a) with h | h <;> rw [h]
    · exact h2
    · exact ha.symm
  · rw [hp]
    refine h3.imp_right (fun h3 => ?_)
    rcases hm (slotAt (s.pagePointer (pageIndex c a)) (maskedOffset c a)) with h | h <;> rw [h]
    · exact h3
    · simpa [LookupCacheEntry.zero] using ha.symm

theorem unknown_foldl_erase {as : List UInt64} (ha : a ≠ 0)
    (h : a ∈ as ∨ Unknown c s a) : Unknown c (as.foldl (erase c) s) a := by
  induction as generalizing s with
  | nil => simpa using h
  | cons b as ih =>
    apply ih
    by_cases hb : a = b
    · subst hb
      exact .inr (unknown_erase_self c ha)
    · rcases h with h | h
      · exact .inl ((List.mem_cons.1 h).resolve_left hb)
      · exact .inr (unknown_erase c ha h)

/-! ## The order of the links -/

theorem lt_iff (x y : BlockLinkTag) : x.lt y = true ↔
    x.guestDestination.toNat < y.guestDestination.toNat ∨
      x.guestDestination.toNat = y.guestDestination.toNat ∧ x.hostLink.toNat < y.hostLink.toNat := by
  unfold BlockLinkTag.lt
  simp only [UInt64.lt_iff_toNat_lt, ← UInt64.toNat_inj]
  split
  · simp_all
  · split <;> simp_all

/-- The order of the map of BlockLinks. -/
def Ordered (ls : List (BlockLinkTag × Delinker)) : Prop := ls.Pairwise (fun a b => a.1.lt b.1 = true)

theorem Ordered.nodup (h : Ordered ls) : ls.Nodup := by
  refine List.Pairwise.imp ?_ h
  rintro a b hab rfl
  rw [lt_iff] at hab
  omega

theorem mem_insertLink {tag : BlockLinkTag} {d : Delinker}
    {x : BlockLinkTag × Delinker} (h : x ∈ insertLink tag d ls) : x = (tag, d) ∨ x ∈ ls := by
  induction ls with
  | nil => simpa [insertLink] using h
  | cons l ls ih =>
    unfold insertLink at h
    split at h
    · exact .inr h
    · split at h
      · simpa using h
      · rcases List.mem_cons.1 h with h | h
        · exact .inr (by simp [h])
        · exact (ih h).imp_right (List.mem_cons_of_mem l)

theorem Ordered.insertLink (h : Ordered ls) (tag : BlockLinkTag) (d : Delinker) : Ordered (insertLink tag d ls) := by
  induction ls with
  | nil => exact List.pairwise_singleton _ _
  | cons l ls ih =>
    obtain ⟨h1, h2⟩ := List.pairwise_cons.1 h
    unfold LookupCache.insertLink
    split
    · exact h
    · rename_i hne
      split
      · rename_i hlt
        refine List.pairwise_cons.2 ⟨fun x hx => ?_, h⟩
        rcases List.mem_cons.1 hx with rfl | hx
        · exact hlt
        · have := h1 x hx
          rw [lt_iff] at this hlt ⊢
          dsimp only at hlt ⊢
          omega
      · rename_i hlt
        refine List.pairwise_cons.2 ⟨fun x hx => ?_, ih h2⟩
        rcases mem_insertLink hx with rfl | hx
        · have hne' : ¬ (tag.guestDestination.toNat = l.1.guestDestination.toNat ∧
              tag.hostLink.toNat = l.1.hostLink.toNat) := by
            rintro ⟨e1, e2⟩
            apply hne
            cases tag
            simp_all [UInt64.toNat_inj]
          rw [lt_iff] at hlt ⊢
          dsimp only
          omega
        · exact h1 x hx

end FexEmu.LookupCache
