import FexEmu.Core.CodeInvalidation
import FexEmu.Core.LookupCacheErase
/-!
# Invalidation reaches every block it has to

A block's pages are listed under its entry from the moment they are recorded and for as long as the block is mapped.
-/
namespace FexEmu.CodeInvalidation

open LookupCache
open List (mem_cons mem_append mem_cons_of_mem mem_map reverseRecOn)

variable (c : Config)

/-! ## Code pages -/

theorem mem_pushCodePage (p a : UInt64) (cp : List (UInt64 × List UInt64)) (q b : UInt64) :
    (∃ l, (q, l) ∈ pushCodePage p a cp ∧ b ∈ l) ↔ (∃ l, (q, l) ∈ cp ∧ b ∈ l) ∨ (q = p ∧ b = a) := by
  induction cp with
  | nil => simp [pushCodePage]
  | cons e es ih =>
    obtain ⟨k, l⟩ := e
    unfold pushCodePage
    split
    · rename_i h
      subst h
      constructor
      · rintro ⟨l', hm, hb⟩
        rcases mem_cons.1 hm with h | h
        · cases h
          rcases mem_append.1 hb with h | h
          · exact .inl ⟨l, by simp, h⟩
          · exact .inr ⟨rfl, by simpa using h⟩
        · exact .inl ⟨l', mem_cons_of_mem _ h, hb⟩
      · rintro (⟨l', hm, hb⟩ | ⟨rfl, rfl⟩)
        · rcases mem_cons.1 hm with h | h
          · cases h
            exact ⟨l ++ [a], by simp, by simp [hb]⟩
          · exact ⟨l', mem_cons_of_mem _ h, hb⟩
        · exact ⟨l ++ [b], by simp, by simp⟩
    · split
      · constructor
        · rintro ⟨l', hm, hb⟩
          rcases mem_cons.1 hm with h | h
          · cases h
            exact .inr ⟨rfl, by simpa using hb⟩
          · exact .inl ⟨l', h, hb⟩
        · rintro (⟨l', hm, hb⟩ | ⟨rfl, rfl⟩)
          · exact ⟨l', mem_cons_of_mem _ hm, hb⟩
          · exact ⟨[b], by simp, by simp⟩
      · constructor
        · rintro ⟨l', hm, hb⟩
          rcases mem_cons.1 hm with h | h
          · exact .inl ⟨l', by rw [h]; simp, hb⟩
          · rcases ih.1 ⟨l', h, hb⟩ with ⟨l'', h1, h2⟩ | h
            · exact .inl ⟨l'', mem_cons_of_mem _ h1, h2⟩
            · exact .inr h
        · rintro (⟨l', hm, hb⟩ | h)
          · rcases mem_cons.1 hm with h | h
            · exact ⟨l', by rw [h]; simp, hb⟩
            · obtain ⟨l'', h1, h2⟩ := ih.2 (.inl ⟨l', h, hb⟩)
              exact ⟨l'', mem_cons_of_mem _ h1, h2⟩
          · obtain ⟨l'', h1, h2⟩ := ih.2 (.inr h)
            exact ⟨l'', mem_cons_of_mem _ h1, h2⟩

theorem foldl_addCodePage (a : UInt64) (ps : List UInt64) (r : Bool × State) :
    (ps.foldl (addCodePage a) r).2.blockList = r.2.blockList ∧
      (ps.foldl (addCodePage a) r).2.blockLinks = r.2.blockLinks ∧
      ∀ q b, Listed (ps.foldl (addCodePage a) r).2 q b ↔ Listed r.2 q b ∨ (q ∈ ps ∧ b = a) := by
  induction ps generalizing r with
  | nil => simp
  | cons p ps ih =>
    obtain ⟨h1, h2, h3⟩ := ih (addCodePage a r p)
    refine ⟨h1, h2, fun q b => ?_⟩
    rw [List.foldl_cons, h3]
    have := mem_pushCodePage p a r.2.codePages q b
    simp only [Listed, addCodePage, mem_cons] at this ⊢
    rw [this, or_assoc, or_and_right]

theorem listed_addBlockExecutableRange (s : State) (a start length q b : UInt64) :
    Listed (addBlockExecutableRange s a start length).2 q b ↔
      Listed s q b ∨ (q ∈ pagesOf start length ∧ b = a) :=
  (foldl_addCodePage a _ _).2.2 q b

theorem mem_listedIn {s : State} {start length a : UInt64} :
    a ∈ listedIn s start length ↔ ∃ p, inRange start length p = true ∧ Listed s p a := by
  simp only [listedIn, List.mem_flatMap, List.mem_filter, Listed]
  constructor
  · rintro ⟨⟨p, l⟩, ⟨hm, hr⟩, ha⟩
    exact ⟨p, hr, l, hm, ha⟩
  · rintro ⟨p, hr, l, hm, ha⟩
    exact ⟨(p, l), ⟨hm, hr⟩, ha⟩

theorem mem_clearPages {start length : UInt64} {cp : List (UInt64 × List UInt64)} {p a : UInt64} :
    (∃ l, (p, l) ∈ clearPages start length cp ∧ a ∈ l) ↔
      inRange start length p = false ∧ ∃ l, (p, l) ∈ cp ∧ a ∈ l := by
  constructor
  · rintro ⟨l, hm, ha⟩
    obtain ⟨⟨q, l'⟩, hm', he⟩ := mem_map.1 hm
    split at he
    · cases he; cases ha
    · rename_i hr
      cases he
      exact ⟨by simpa using hr, l, hm', ha⟩
  · rintro ⟨hr, l, hm, ha⟩
    exact ⟨l, mem_map.2 ⟨(p, l), hm, by simp [hr]⟩, ha⟩

theorem toNat_shift12 (x : UInt64) : (x >>> 12).toNat = x.toNat / 4096 := by
  rw [UInt64.toNat_shiftRight, Nat.shiftRight_eq_div_pow]
  rfl

/-- The keys visited are the pages that hold an address of the range. -/
theorem inRange_iff_meets {start length page : UInt64} (hl : 1 ≤ length)
    (hw : start.toNat + length.toNat ≤ 2 ^ 64) :
    inRange start length page = true ↔ Meets page start length := by
  have hl' : 1 ≤ length.toNat := by simpa [UInt64.le_iff_toNat_le] using hl
  have hlast : (start + length - 1).toNat = start.toNat + length.toNat - 1 := by
    simp only [UInt64.toNat_sub, UInt64.toNat_add, UInt64.reduceToNat]
    omega
  simp only [inRange, Bool.and_eq_true, decide_eq_true_eq, UInt64.le_iff_toNat_le, toNat_shift12, hlast, Meets]
  constructor
  · rintro ⟨h1, h2⟩
    refine ⟨max start.toNat (page.toNat * 4096), by omega, by omega, by omega⟩
  · rintro ⟨x, h1, h2, h3⟩
    omega

/-! ## The invariant -/

/-- The pages of a block are listed from the moment they are recorded and for as long as it is mapped. -/
structure Good (t : Thread) : Prop where
  mapped : ∀ a, t.cache.blockList a ≠ none → ∀ p ∈ t.blockPages a, Listed t.cache p a
  inFlight : ∀ a ps, t.compiling = some (a, ps) → ∀ p ∈ ps, Listed t.cache p a
  links : Ordered t.cache.blockLinks

theorem good_init : Good .init where
  mapped _ h := absurd rfl h
  inFlight _ _ h := by cases h
  links := List.Pairwise.nil

theorem good_cache {t : Thread} (h : Good t) {s : State} (hc : s.codePages = t.cache.codePages)
    (hb : ∀ a, s.blockList a ≠ none → t.cache.blockList a ≠ none) (hl : Ordered s.blockLinks) :
    Good { t with cache := s } where
  mapped a ha p hp := by
    unfold Listed
    rw [hc]
    exact h.mapped a (hb a ha) p hp
  inFlight a ps he p hp := by
    unfold Listed
    rw [hc]
    exact h.inFlight a ps he p hp
  links := hl

theorem good_findBlock {t : Thread} (h : Good t) (a : UInt64) :
    Good { t with cache := (findBlock c t.cache a).2 } := by
  obtain ⟨h1, h2, h3⟩ := frame_findBlock c t.cache a
  exact good_cache h h1 (fun b => by rw [h2]; exact id) (by rw [h3]; exact h.links)

theorem good_erase {t : Thread} (h : Good t) (a : UInt64) : Good { t with cache := erase c t.cache a } := by
  obtain ⟨h1, h2, h3, -⟩ := erase_fields c t.cache a
  refine good_cache h h1 (fun b hb => ?_) ?_
  · rw [h2, Function.update_apply] at hb
    split at hb
    · exact absurd rfl hb
    · exact hb
  · rw [h3]
    exact List.Pairwise.filter _ h.links

theorem good_addBlockExecutableRange {t : Thread} (h : Good t) {a : UInt64} {ps : List UInt64}
    (ht : t.compiling = some (a, ps)) (start length : UInt64) :
    Good { t with
      cache := (addBlockExecutableRange t.cache a start length).2
      compiling := some (a, ps ++ pagesOf start length) } := by
  obtain ⟨h1, h2, h3⟩ := foldl_addCodePage a (pagesOf start length) (false, t.cache)
  refine ⟨fun b hb p hp => ?_, fun b qs hq p hp => ?_, ?_⟩
  · exact (h3 p b).2 (.inl (h.mapped b (by rw [← h1]; exact hb) p hp))
  · cases hq
    apply (h3 p a).2
    rcases mem_append.1 hp with hp | hp
    · exact .inl (h.inFlight a ps ht p hp)
    · exact .inr ⟨hp, rfl⟩
  · exact h2 ▸ h.links

theorem good_addBlockMapping {t : Thread} (h : Good t) {a : UInt64} {ps : List UInt64}
    (ht : t.compiling = some (a, ps)) (k : UInt64) :
    Good { cache := addBlockMapping t.cache a k
           compiling := none
           blockPages := Function.update t.blockPages a
            (if t.cache.blockList a = none then ps else t.blockPages a ++ ps) } := by
  refine ⟨fun b hb p hp => ?_, fun b qs hq => (by cases hq), h.links⟩
  dsimp only at hb hp
  by_cases hba : b = a
  · subst hba
    rw [Function.update_self] at hp
    have hps := h.inFlight b ps ht
    split at hp
    · exact hps p hp
    · rename_i hm
      rcases mem_append.1 hp with hp | hp
      · exact h.mapped b hm p hp
      · exact hps p hp
  · rw [Function.update_of_ne hba] at hp
    refine h.mapped b ?_ p hp
    unfold addBlockMapping setL1 at hb
    dsimp only at hb
    split at hb
    · rwa [Function.update_of_ne hba] at hb
    · exact hb

theorem good_threadStep {t t' : Thread} (h : Good t) {op : Op} (hs : threadStep c t op = some t') : Good t' := by
  cases op with
  | compileBlock rip =>
    simp only [threadStep] at hs
    split at hs
    · cases hs
      have hg := good_findBlock c h rip
      refine ⟨hg.mapped, fun a ps he p hp => ?_, hg.links⟩
      cases he
      cases hp
    · cases hs
  | addBlockExecutableRange a start length =>
    simp only [threadStep] at hs
    split at hs
    · cases hs
    · rename_i entry pages ht
      split at hs
      · cases hs
      · rename_i he
        rw [ne_eq, not_not] at he
        subst he
        cases hs
        exact good_addBlockExecutableRange h ht start length
  | addBlockMapping a k =>
    simp only [threadStep] at hs
    split at hs
    · cases hs
    · rename_i entry pages ht
      split at hs
      · cases hs
      · rename_i he
        rw [ne_eq, not_not] at he
        subst he
        cases hs
        exact good_addBlockMapping h ht k
  | compileFailed =>
    simp only [threadStep] at hs
    split at hs
    · cases hs
    · cases hs
      exact ⟨h.mapped, fun a ps he => (by cases he), h.links⟩
  | findBlock a =>
    cases hs
    exact good_findBlock c h a
  | addBlockLink d l k =>
    cases hs
    exact good_cache h rfl (fun a => id) (h.links.insertLink _ _)
  | clearCodeCache =>
    cases hs
    exact good_cache h rfl (fun a ha => absurd rfl ha) List.Pairwise.nil

theorem good_invalidate {t : Thread} (h : Good t) (ht : t.compiling = none) (start length : UInt64) :
    Good { t with cache := invalidateGuestThreadCodeRange c t.cache start length } := by
  unfold invalidateGuestThreadCodeRange
  refine ⟨fun a ha p hp => ?_, fun a ps he => (by rw [ht] at he; cases he), ?_⟩
  · rw [foldl_erase_blockList] at ha
    split at ha
    · exact absurd rfl ha
    · rename_i hni
      have hl := h.mapped a ha p hp
      refine mem_clearPages.2 ⟨?_, hl⟩
      cases hr : inRange start length p with
      | false => rfl
      | true => exact absurd (mem_listedIn.2 ⟨p, hr, hl⟩) hni
  · rw [foldl_erase_blockLinks]
    exact List.Pairwise.filter _ h.links

/-! ## Runs -/

theorem thread_lt {ctx : Context} {i : Nat} {t : Thread} (h : thread ctx i = some t) : i < ctx.length := by
  unfold thread at h
  by_contra hn
  rw [List.getElem?_eq_none (by omega)] at h
  cases h

theorem thread_set {ctx : Context} {i j : Nat} {o : Option Thread} (hi : i < ctx.length) :
    thread (ctx.set i o) j = if i = j then o else thread ctx j := by
  unfold thread
  rw [List.getElem?_set]
  split
  · simp_all
  · rfl

theorem thread_map {ctx : Context} {j : Nat} {f : Thread → Thread} :
    thread (ctx.map (Option.map f)) j = (thread ctx j).map f := by
  unfold thread
  rw [List.getElem?_map]
  cases ctx[j]? with
  | none => rfl
  | some o => cases o <;> rfl

theorem quiet_thread {ctx : Context} (h : quiet ctx = true) {i : Nat} {t : Thread} (ht : thread ctx i = some t) :
    t.compiling = none := by
  unfold thread at ht
  have hm : some t ∈ ctx := List.mem_of_getElem? (i := i) (by
    cases hc : ctx[i]? with
    | none => rw [hc] at ht; cases ht
    | some o => rw [hc] at ht; exact congrArg some ht)
  have := List.all_eq_true.1 h _ hm
  simpa using this

/-- Everything that can happen to thread `j` in one event. -/
inductive Change (j : Nat) : Event → Thread → Thread → Prop where
  | op {t t' op} : threadStep c t op = some t' → Change j (.onThread j op) t t'
  | removed {t rip} : Change j (.removeCodeEntry j rip) t { t with cache := erase c t.cache rip }
  | invalidated {t start length} : t.compiling = none → start.toNat + length.toNat ≤ 2 ^ 64 →
      Change j (.invalidate start length) t
        { t with cache := invalidateGuestThreadCodeRange c t.cache start length }
  | other {t e} : (∀ op, e ≠ .onThread j op) → (∀ start length, e ≠ .invalidate start length) →
      Change j e t t

theorem updateThread_change {ctx ctx' : Context} {i : Nat} {f : Thread → Option Thread}
    (h : updateThread ctx i f = some ctx') :
    ∃ t t', thread ctx i = some t ∧ f t = some t' ∧ ctx' = ctx.set i (some t') := by
  unfold updateThread at h
  cases ht : thread ctx i with
  | none => rw [ht] at h; cases h
  | some t =>
    rw [ht] at h
    cases hf : f t with
    | none => simp [hf] at h
    | some t' =>
      simp only [Option.bind_some, hf, Option.map_some, Option.some.injEq] at h
      exact ⟨t, t', rfl, hf, h.symm⟩

theorem step_change {ctx ctx' : Context} {e : Event} (h : step c ctx e = some ctx') {j : Nat} {t' : Thread}
    (ht' : thread ctx' j = some t') :
    e = .createThread ∧ j = ctx.length ∧ t' = .init ∨ ∃ t, thread ctx j = some t ∧ Change c j e t t' := by
  cases e with
  | createThread =>
    cases h
    -- the new thread is the last one, the others stay where they are
    by_cases hj : j < ctx.length
    · refine .inr ⟨t', ?_, .other (by simp) (by simp)⟩
      unfold thread at ht' ⊢
      rwa [List.getElem?_append_left hj] at ht'
    · have hjl := thread_lt ht'
      have hj' : j = ctx.length := by simp at hjl; omega
      subst hj'
      unfold thread at ht'
      simp only [List.getElem?_concat_length, Option.join_some, Option.some.injEq] at ht'
      exact .inl ⟨rfl, rfl, ht'.symm⟩
  | destroyThread i =>
    right
    simp only [step] at h
    cases ht : thread ctx i with
    | none => simp [ht] at h
    | some t =>
      simp only [ht, Option.bind_some] at h
      split at h
      · cases h
        rw [thread_set (thread_lt ht)] at ht'
        split at ht'
        · cases ht'
        · exact ⟨t', ht', .other (by simp) (by simp)⟩
      · cases h
  | onThread i op =>
    right
    -- only thread i changes
    obtain ⟨t, u, ht, hu, rfl⟩ := updateThread_change h
    rw [thread_set (thread_lt ht)] at ht'
    split at ht'
    · rename_i hij
      subst hij
      cases ht'
      exact ⟨t, ht, .op hu⟩
    · rename_i hij
      exact ⟨t', ht', .other (by simp [hij]) (by simp)⟩
  | removeCodeEntry i rip =>
    right
    simp only [step] at h
    split at h
    · obtain ⟨t, u, ht, hu, rfl⟩ := updateThread_change h
      rw [thread_set (thread_lt ht)] at ht'
      cases hu
      split at ht'
      · rename_i hij
        subst hij
        cases ht'
        exact ⟨t, ht, .removed⟩
      · exact ⟨t', ht', .other (by simp) (by simp)⟩
    · cases h
  | invalidate start length =>
    right
    simp only [step] at h
    split at h
    · rename_i hq
      cases h
      rw [thread_map] at ht'
      cases ht : thread ctx j with
      | none => rw [ht] at ht'; cases ht'
      | some t =>
        rw [ht] at ht'
        cases ht'
        exact ⟨t, rfl, .invalidated (quiet_thread hq.1 ht) hq.2⟩
    · cases h

theorem run_snoc {evs : List Event} {e : Event} {ctx' : Context} (h : run c (evs ++ [e]) = some ctx') :
    ∃ ctx, run c evs = some ctx ∧ step c ctx e = some ctx' := by
  unfold run at h
  rw [List.foldlM_append] at h
  obtain ⟨ctx, h1, h2⟩ := Option.bind_eq_some_iff.1 h
  refine ⟨ctx, h1, ?_⟩
  simpa using h2

/-- Every thread of every run keeps the invariant. -/
theorem good_run {evs : List Event} {ctx : Context} (h : run c evs = some ctx) {i : Nat} {t : Thread}
    (ht : thread ctx i = some t) : Good t := by
  induction evs using reverseRecOn generalizing ctx i t with
  | nil => cases h; cases thread_lt ht
  | append_singleton evs e ih =>
    obtain ⟨ctx₀, h0, hs⟩ := run_snoc c h
    rcases step_change c hs ht with ⟨-, -, rfl⟩ | ⟨t₀, ht₀, hc⟩
    · exact good_init
    · have hg := ih h0 ht₀
      cases hc with
      | op h => exact good_threadStep c hg h
      | removed => exact good_erase c hg _
      | invalidated hn _ => exact good_invalidate c hg hn _ _
      | other => exact hg

/-! ## What is listed is what was recorded -/

theorem listed_threadStep {t t' : Thread} {op : Op} (hs : threadStep c t op = some t') (q b : UInt64) :
    Listed t'.cache q b ↔ Listed t.cache q b ∨
      ∃ start length, op = .addBlockExecutableRange b start length ∧ q ∈ pagesOf start length := by
  cases op with
  | addBlockExecutableRange a start length =>
    simp only [threadStep] at hs
    split at hs
    · cases hs
    · split at hs
      · cases hs
      · cases hs
        rw [listed_addBlockExecutableRange]
        simp only [Op.addBlockExecutableRange.injEq]
        constructor
        · rintro (h | ⟨h, rfl⟩)
          · exact .inl h
          · exact .inr ⟨start, length, ⟨rfl, rfl, rfl⟩, h⟩
        · rintro (h | ⟨_, _, ⟨rfl, rfl, rfl⟩, h⟩)
          · exact .inl h
          · exact .inr ⟨h, rfl⟩
  | compileBlock rip =>
    simp only [threadStep] at hs
    split at hs
    · cases hs
      simp [Listed, (frame_findBlock c t.cache rip).1]
    · cases hs
  | addBlockMapping a k =>
    simp only [threadStep] at hs
    split at hs
    · cases hs
    · split at hs
      · cases hs
      · cases hs
        simp [Listed, addBlockMapping, setL1]
  | compileFailed =>
    simp only [threadStep] at hs
    split at hs
    · cases hs
    · cases hs; simp
  | findBlock a =>
    cases hs
    simp [Listed, (frame_findBlock c t.cache a).1]
  | addBlockLink d l k => cases hs; simp [Listed, addBlockLink]
  | clearCodeCache => cases hs; simp [Listed, clearCache, clearL2Cache]

theorem recorded_snoc {evs : List Event} {e : Event} {i : Nat} {a p : UInt64} :
    Recorded (evs ++ [e]) i a p ↔ Records e i a p ∨ (Recorded evs i a p ∧ ¬ Clears e p) := by
  constructor
  · rintro ⟨pre, e', post, he, hr, hc⟩
    rcases List.eq_nil_or_concat post with rfl | ⟨post, e'', rfl⟩
    · obtain ⟨rfl, h⟩ := List.append_inj' he rfl
      cases h
      exact .inl hr
    · rw [List.concat_eq_append, ← List.cons_append, ← List.append_assoc] at he
      obtain ⟨rfl, h⟩ := List.append_inj' he rfl
      cases h
      refine .inr ⟨⟨pre, e', post, rfl, hr, fun x hx => hc x (by simp [hx])⟩, hc e (by simp)⟩
  · rintro (hr | ⟨⟨pre, e', post, rfl, hr, hc⟩, hn⟩)
    · exact ⟨evs, e, [], rfl, hr, by simp⟩
    · refine ⟨pre, e', post ++ [e], by simp, hr, fun x hx => ?_⟩
      rcases mem_append.1 hx with hx | hx
      · exact hc x hx
      · rw [List.mem_singleton.1 hx]
        exact hn

theorem length_le_step {ctx ctx' : Context} {e : Event} (h : step c ctx e = some ctx') :
    ctx.length ≤ ctx'.length := by
  cases e with
  | createThread => cases h; simp
  | destroyThread i =>
    obtain ⟨t, -, h⟩ := Option.bind_eq_some_iff.1 h
    split at h
    · cases h; simp
    · cases h
  | onThread i op =>
    obtain ⟨t, u, -, -, rfl⟩ := updateThread_change h
    simp
  | removeCodeEntry i rip =>
    simp only [step] at h
    split at h
    · obtain ⟨t, u, -, -, rfl⟩ := updateThread_change h
      simp
    · cases h
  | invalidate start length =>
    simp only [step] at h
    split at h
    · cases h; simp
    · cases h

theorem recorded_lt {evs : List Event} {ctx : Context} (h : run c evs = some ctx) {i : Nat} {a p : UInt64}
    (hr : Recorded evs i a p) : i < ctx.length := by
  induction evs using reverseRecOn generalizing ctx with
  | nil => obtain ⟨pre, e, post, he, -⟩ := hr; simp at he
  | append_singleton evs e ih =>
    obtain ⟨ctx₀, h0, hs⟩ := run_snoc c h
    have hle := length_le_step c hs
    rcases recorded_snoc.1 hr with ⟨start, length, rfl, -⟩ | ⟨hr, -⟩
    · obtain ⟨t, u, ht, -, -⟩ := updateThread_change hs
      exact (thread_lt ht).trans_le hle
    · exact (ih h0 hr).trans_le hle

theorem listed_iff_recorded {evs : List Event} {ctx : Context} (h : run c evs = some ctx) {i : Nat} {t : Thread}
    (ht : thread ctx i = some t) (a p : UInt64) : Listed t.cache p a ↔ Recorded evs i a p := by
  induction evs using reverseRecOn generalizing ctx i t with
  | nil => cases h; cases thread_lt ht
  | append_singleton evs e ih =>
    obtain ⟨ctx₀, h0, hs⟩ := run_snoc c h
    rw [recorded_snoc]
    rcases step_change c hs ht with ⟨rfl, hi, rfl⟩ | ⟨t₀, ht₀, hc⟩
    · constructor
      · rintro ⟨l, hl, -⟩
        cases hl
      · rintro (⟨_, _, he, -⟩ | ⟨hr, -⟩)
        · cases he
        · have := recorded_lt c h0 hr
          omega
    · have ih := ih h0 ht₀
      cases hc with
      | op h =>
        rw [listed_threadStep c h, ih]
        simp [Records, Clears, or_comm]
      | removed =>
        unfold Listed at ih ⊢
        rw [(erase_fields c _ _).1, ih]
        simp [Records, Clears]
      | invalidated hn hw =>
        unfold Listed invalidateGuestThreadCodeRange at *
        rw [mem_clearPages, ih]
        simp [Records, Clears, and_comm]
      | other h1 h2 =>
        rw [ih]
        have hr : ¬ Records e i a p := fun ⟨_, _, he, _⟩ => h1 _ he
        have hcl : ¬ Clears e p := fun ⟨_, _, he, _⟩ => h2 _ _ he
        simp [hr, hcl]

/-! ## The theorem -/

/-- A compilation of `a` on thread `i` recorded a page of the range since that
page was last invalidated. -/
def Stale (evs : List Event) (i : Nat) (start length a : UInt64) : Prop :=
  ∃ p, Meets p start length ∧ Recorded evs i a p

/-- After any interleaving and an invalidation: no block with a recorded page in the range is mapped or, but for guest
address 0, found; just the links to erased addresses are gone, each delinked once; other addresses keep their mapping; and
the pages of every mapped block list its entry. -/
theorem invalidation_complete (evs : List Event) (ctx ctx' : Context) (start length : UInt64)
    (hl : 1 ≤ length) (hrun : run c evs = some ctx) (hstep : step c ctx (.invalidate start length) = some ctx')
    (i : Nat) (t t' : Thread) (ht : thread ctx i = some t) (ht' : thread ctx' i = some t') :
    (∀ a, t.cache.blockList a ≠ none → (∃ p ∈ t.blockPages a, Meets p start length) →
      t'.cache.blockList a = none ∧ (a ≠ 0 → (findBlock c t'.cache a).1 = 0)) ∧
    (∃ ran, t'.cache.delinked = t.cache.delinked ++ ran ∧ (∀ l ∈ ran, l ∈ t.cache.blockLinks) ∧
      ∀ l ∈ t.cache.blockLinks,
        (Stale evs i start length l.1.guestDestination → ran.count l = 1 ∧ l ∉ t'.cache.blockLinks) ∧
        (¬ Stale evs i start length l.1.guestDestination → ran.count l = 0 ∧ l ∈ t'.cache.blockLinks)) ∧
    (∀ a, ¬ Stale evs i start length a → t'.cache.blockList a = t.cache.blockList a) ∧
    (∀ a, t'.cache.blockList a ≠ none → ∀ p ∈ t'.blockPages a, ¬ Meets p start length ∧ Listed t'.cache p a) := by
  have hg := good_run c hrun ht
  obtain ⟨he, -⟩ | ⟨t₀, ht₀, hc⟩ := step_change c hstep ht'
  · cases he
  rw [ht] at ht₀
  cases ht₀
  cases hc with
  | other _ h => exact absurd rfl (h start length)
  | invalidated hn hw =>
    -- the code pages list exactly the blocks that the history recorded
    have hst : ∀ a, a ∈ listedIn t.cache start length ↔ Stale evs i start length a := by
      intro a
      simp only [mem_listedIn, inRange_iff_meets hl hw, listed_iff_recorded c hrun ht, Stale]
    have hbl : ∀ a, (invalidateGuestThreadCodeRange c t.cache start length).blockList a =
        if a ∈ listedIn t.cache start length then none else t.cache.blockList a := by
      intro a
      exact foldl_erase_blockList c _ _ a
    have hpages : ∀ a, t.cache.blockList a ≠ none → (∃ p ∈ t.blockPages a, Meets p start length) →
        a ∈ listedIn t.cache start length := by
      rintro a ha ⟨p, hp, hm⟩
      exact mem_listedIn.2 ⟨p, (inRange_iff_meets hl hw).2 hm, hg.mapped a ha p hp⟩
    refine ⟨fun a ha hp => ⟨?_, fun h0 => ?_⟩, ?_, fun a ha => ?_, fun a ha p hp => ?_⟩
    · rw [hbl, if_pos (hpages a ha hp)]
    · have hu : Unknown c ((listedIn t.cache start length).foldl (erase c) t.cache) a :=
        unknown_foldl_erase c h0 (.inl (hpages a ha hp))
      exact findBlock_unknown c (s := invalidateGuestThreadCodeRange c t.cache start length) hu
    · obtain ⟨ran, h1, h2⟩ := foldl_erase_delinked c (listedIn t.cache start length) t.cache
      have hlinks : (invalidateGuestThreadCodeRange c t.cache start length).blockLinks =
          t.cache.blockLinks.filter (fun l => l.1.guestDestination ∉ listedIn t.cache start length) :=
        foldl_erase_blockLinks c _ _
      refine ⟨ran, h1, fun l hlr => ?_, fun l hlm => ⟨fun hs => ?_, fun hs => ?_⟩⟩
      · have hpos := List.count_pos_iff.2 hlr
        rw [h2] at hpos
        split at hpos
        · exact List.count_pos_iff.1 hpos
        · omega
      · have hin := (hst _).2 hs
        rw [h2, if_pos hin, hlinks]
        exact ⟨List.count_eq_one_of_mem hg.links.nodup hlm, by simp [hin]⟩
      · have hin : l.1.guestDestination ∉ listedIn t.cache start length := fun h => hs ((hst _).1 h)
        rw [h2, if_neg hin, hlinks]
        exact ⟨rfl, by simp [hin, hlm]⟩
    · rw [hbl, if_neg (fun h => ha ((hst a).1 h))]
    · have hgi := good_invalidate c hg hn start length
      refine ⟨fun hm => ?_, hgi.mapped a ha p hp⟩
      rw [hbl] at ha
      split at ha
      · exact absurd rfl ha
      · exact absurd (hpages a ha ⟨p, hp, hm⟩) ‹_›

/-- A block on two pages is compiled, its first page rewritten, and the code there compiled again; it fits on the first page.
-/
def rewrittenRun : List Event :=
  [.createThread,
   .onThread 0 (.compileBlock 0x1FF0),
   .onThread 0 (.addBlockExecutableRange 0x1FF0 0x1000 0x1000),
   .onThread 0 (.addBlockExecutableRange 0x1FF0 0x2000 0x1000),
   .onThread 0 (.addBlockMapping 0x1FF0 0xA0),
   .invalidate 0x1000 0x1000,
   .onThread 0 (.compileBlock 0x1FF0),
   .onThread 0 (.addBlockExecutableRange 0x1FF0 0x1000 0x1000),
   .onThread 0 (.addBlockMapping 0x1FF0 0xB0)]

/-- A second block on another page jumps to it, and to itself. -/
def linkedRun : List Event :=
  rewrittenRun ++
    [.onThread 0 (.compileBlock 0x5000),
     .onThread 0 (.addBlockExecutableRange 0x5000 0x5000 0x1000),
     .onThread 0 (.addBlockMapping 0x5000 0xC0),
     .onThread 0 (.addBlockLink 0x1FF0 0xC8 7),
     .onThread 0 (.addBlockLink 0x5000 0xD0 8)]

theorem invalidation_complete_linked : ∃ t t',
    ((run defaultConfig linkedRun).bind (thread · 0) = some t ∧
      ((run defaultConfig linkedRun).bind (step defaultConfig · (.invalidate 0x1000 1))).bind (thread · 0) = some t' ∧
      t'.cache.delinked = [(⟨0x1FF0, 0xC8⟩, 7)] ∧ t'.cache.blockLinks = [(⟨0x5000, 0xD0⟩, 8)]) ∧
    (∀ a, t.cache.blockList a ≠ none → (∃ p ∈ t.blockPages a, Meets p 0x1000 1) →
      t'.cache.blockList a = none ∧ (a ≠ 0 → (findBlock defaultConfig t'.cache a).1 = 0)) ∧
    (∃ ran, t'.cache.delinked = t.cache.delinked ++ ran ∧ (∀ l ∈ ran, l ∈ t.cache.blockLinks) ∧
      ∀ l ∈ t.cache.blockLinks,
        (Stale linkedRun 0 0x1000 1 l.1.guestDestination → ran.count l = 1 ∧ l ∉ t'.cache.blockLinks) ∧
        (¬ Stale linkedRun 0 0x1000 1 l.1.guestDestination → ran.count l = 0 ∧ l ∈ t'.cache.blockLinks)) ∧
    (∀ a, ¬ Stale linkedRun 0 0x1000 1 a → t'.cache.blockList a = t.cache.blockList a) ∧
    (∀ a, t'.cache.blockList a ≠ none → ∀ p ∈ t'.blockPages a, ¬ Meets p 0x1000 1 ∧ Listed t'.cache p a) :=
  ⟨_, _, ⟨rfl, rfl, rfl, rfl⟩,
    invalidation_complete defaultConfig linkedRun _ _ 0x1000 1 (by decide) rfl rfl 0 _ _ rfl rfl⟩

/-- The second page of the rewritten block still lists its entry, so a write to that page
unmaps the block though it has no page there. -/
theorem stale_page_unmaps :
    ¬ (∀ (c : Config) (evs : List Event) (ctx ctx' : Context) (start length : UInt64) (i : Nat) (t t' : Thread)
        (a : UInt64), 1 ≤ length → run c evs = some ctx → step c ctx (.invalidate start length) = some ctx' →
        thread ctx i = some t → thread ctx' i = some t' → t.cache.blockList a ≠ none →
        (∀ p ∈ t.blockPages a, ¬ Meets p start length) → t'.cache.blockList a ≠ none) := by
  intro h
  refine h defaultConfig rewrittenRun _ _ 0x2000 0x1000 0 _ _ 0x1FF0 (by decide) rfl rfl rfl rfl (by decide) ?_ rfl
  intro p hp hm
  have hp1 : p = 1 := List.mem_singleton.1 hp
  subst hp1
  exact absurd ((inRange_iff_meets (by decide) (by decide)).2 hm) (by decide)

end FexEmu.CodeInvalidation
