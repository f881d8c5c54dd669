import FexEmu.Utils.ThreadPoolAllocator
/-!
# Buffers of the thread pool are neither shared nor lost

A flag that is not free has an iterator to a claimed buffer that points back to it, and every claimed buffer has such a
client, but for the one about to be published.
-/
namespace FexEmu.ThreadPool
open List (mem_append_left mem_of_mem_erase map_cons nodup_cons mem_map mem_cons append_assoc mem_cons_self mem_append_right)

variable {C : Type} [DecidableEq C]

/-! ## The invariant -/

/-- The places under the mutex. -/
def Pc.inClaim : Pc → Bool
  | .sweepFlag _ _ | .sweepTime _ _ | .sweepTake _ _ | .place _ | .publish _ => true
  | _ => false

/-- What a client relies on where it is. -/
def PcOk (claimed : List Node) (buffer : Nat → MemoryBuffer C) (me : Client) : Prop :=
  match me.pc with
  | .touch | .pointer | .disownTouch | .disown => me.clientOwnedFlag = .owned
  | .exchange => me.clientOwnedFlag ≠ .owned
  | .lock | .sweepFlag _ _ | .place _ => me.clientOwnedFlag = .free
  | .sweepTime _ it | .sweepTake _ it => me.clientOwnedFlag = .free ∧ it < claimed.length
  | .publish it => me.clientOwnedFlag = .free ∧ ∃ n ∈ claimed, n.id = it ∧
      (buffer n.buffer).currentClientOwnedFlag = none ∧ me.size ≤ (buffer n.buffer).size
  | .unclaim => me.clientOwnedFlag ≠ .free
  | .idle | .isOwned | .period | .isFree => True

/-- The places where a client relies on the list of claimed buffers. -/
def Pc.usesClaimed : Pc → Bool
  | .sweepTime _ _ | .sweepTake _ _ | .publish _ => true
  | _ => false

/-- A client and the claimed buffer of its flag. -/
def Holds (s : State C) (c : C) (n : Node) : Prop :=
  n ∈ s.claimed ∧ (s.client c).info = some n.id ∧ (s.buffer n.buffer).currentClientOwnedFlag = some c ∧
    (s.client c).size ≤ (s.buffer n.buffer).size

/-- The lists have every live buffer once. -/
structure ListsOk (s : State C) : Prop where
  ids : ((s.claimed ++ s.unclaimed).map Node.id).Nodup
  ids_lt : ∀ n ∈ s.claimed ++ s.unclaimed, n.id < s.nextNode
  buffers : ((s.claimed ++ s.unclaimed).map Node.buffer).Nodup
  live_iff : ∀ b, s.live b = true ↔ b ∈ (s.claimed ++ s.unclaimed).map Node.buffer
  live_lt : ∀ b, s.live b = true → b < s.nextBuffer
  unclaimed : ∀ n ∈ s.unclaimed, (s.buffer n.buffer).currentClientOwnedFlag = none

/-- The invariant of the pool: its lists, its mutex, and the buffers that the clients hold. -/
structure Inv (s : State C) : Prop where
  lists : ListsOk s
  mutex : ∀ c, s.mutex = some c ↔ (s.client c).pc.inClaim = true
  held : ∀ c, (s.client c).clientOwnedFlag ≠ .free → ∃ n, Holds s c n
  claimed : ∀ n ∈ s.claimed, (∃ c, (s.client c).clientOwnedFlag ≠ .free ∧ Holds s c n) ∨ ∃ c, (s.client c).pc = .publish n.id
  pcs : ∀ c, PcOk s.claimed s.buffer (s.client c)

/-! ## Nodes -/

section Nodes
variable {s : State C} {n : Node} {it : Nat}

omit [DecidableEq C] in
theorem claimedNode_mem (h : s.claimedNode it = some n) : n ∈ s.claimed ∧ n.id = it :=
  ⟨List.mem_of_find?_eq_some h, by simpa using List.find?_some h⟩

omit [DecidableEq C] in
theorem ListsOk.eq_of_id (h : ListsOk s) {m : Node} (hn : n ∈ s.claimed) (hm : m ∈ s.claimed) (he : n.id = m.id) : n = m :=
  List.inj_on_of_nodup_map h.ids (mem_append_left _ hn) (mem_append_left _ hm) he

omit [DecidableEq C] in
theorem ListsOk.eq_of_buffer (h : ListsOk s) {m : Node} (hn : n ∈ s.claimed ++ s.unclaimed)
    (hm : m ∈ s.claimed ++ s.unclaimed) (he : n.buffer = m.buffer) : n = m :=
  List.inj_on_of_nodup_map h.buffers hn hm he

omit [DecidableEq C] in
theorem ListsOk.claimedNode_eq (h : ListsOk s) (hn : n ∈ s.claimed) : s.claimedNode n.id = some n := by
  cases hf : s.claimedNode n.id with
  | none =>
    rw [State.claimedNode, List.find?_eq_none] at hf
    exact absurd (by simp) (hf n hn)
  | some m =>
    obtain ⟨hm, hid⟩ := claimedNode_mem hf
    rw [h.eq_of_id hm hn hid]

omit [DecidableEq C] in
theorem withNode_of_holds (h : ListsOk s) {c : C} (hh : Holds s c n) (f : Node → Except Fault (State C)) :
    withNode s (s.client c).info f = f n := by
  rw [withNode, hh.2.1, Option.bind_some, h.claimedNode_eq hh.1]

omit [DecidableEq C] in
theorem withFlag_of_holds {c : C} (hh : Holds s c n) (f : C → Except Fault (State C)) : withFlag s n.buffer f = f c := by
  rw [withFlag, hh.2.2.1]

end Nodes

/-! ## Steps of one client -/

section Clients
variable {s : State C} {c : C}

omit [DecidableEq C] in
theorem inClaim_of_usesClaimed {pc : Pc} (h : pc.usesClaimed = true) : pc.inClaim = true := by
  cases pc <;> simp_all [Pc.usesClaimed, Pc.inClaim]

omit [DecidableEq C] in
theorem PcOk.of_not_usesClaimed {claimed claimed' : List Node} {buffer buffer' : Nat → MemoryBuffer C} {me : Client}
    (h : PcOk claimed buffer me) (hu : me.pc.usesClaimed = false) : PcOk claimed' buffer' me := by
  unfold PcOk at h ⊢
  cases hpc : me.pc <;> simp_all [Pc.usesClaimed]

omit [DecidableEq C] in
theorem Inv.usesClaimed_false (h : Inv s) {d : C} (hm : s.mutex ≠ some d) : (s.client d).pc.usesClaimed = false := by
  by_contra hu
  exact hm ((h.mutex d).mpr (inClaim_of_usesClaimed (by simpa using hu)))

@[simp] theorem setClient_self (cl : Client) : (s.setClient c cl).client c = cl := by
  simp [State.setClient]

@[simp] theorem setClient_of_ne (cl : Client) {d : C} (h : d ≠ c) : (s.setClient c cl).client d = s.client d := by
  simp [State.setClient, h]

theorem Inv.setClient (h : Inv s) (cl : Client) (hsize : cl.size = (s.client c).size) (hinfo : cl.info = (s.client c).info)
    (hfree : cl.clientOwnedFlag = .free ↔ (s.client c).clientOwnedFlag = .free)
    (hpub : ∀ it, (s.client c).pc ≠ .publish it) (hclaim : cl.pc.inClaim = (s.client c).pc.inClaim)
    (hok : PcOk s.claimed s.buffer cl) : Inv (s.setClient c cl) := by
  have hholds : ∀ d n, Holds s d n → Holds (s.setClient c cl) d n := by
    intro d n hd
    obtain ⟨hn, hi, hf, hs⟩ := hd
    refine ⟨hn, ?_, hf, ?_⟩
    all_goals
      by_cases hdc : d = c
      · subst hdc
        simpa [hinfo, hsize] using ‹_›
      · simpa [hdc] using ‹_›
  have hflags : ∀ d, ((s.setClient c cl).client d).clientOwnedFlag = .free ↔ (s.client d).clientOwnedFlag = .free := by
    intro d
    by_cases hdc : d = c
    · subst hdc
      simpa using hfree
    · simp [hdc]
  refine ⟨?_, fun d => ?_, fun d hd => ?_, fun n hn => ?_, fun d => ?_⟩
  · exact ⟨h.lists.ids, h.lists.ids_lt, h.lists.buffers, h.lists.live_iff, h.lists.live_lt, h.lists.unclaimed⟩
  · by_cases hdc : d = c
    · subst hdc
      rw [setClient_self, hclaim]
      exact h.mutex d
    · rw [setClient_of_ne cl hdc]
      exact h.mutex d
  · rw [ne_eq, hflags] at hd
    obtain ⟨n, hn⟩ := h.held d hd
    exact ⟨n, hholds d n hn⟩
  · rcases h.claimed n hn with ⟨d, hd, hdn⟩ | ⟨d, hd⟩
    · exact .inl ⟨d, by rwa [ne_eq, hflags], hholds d n hdn⟩
    · have hdc : d ≠ c := by
        rintro rfl
        exact hpub n.id hd
      exact .inr ⟨d, by rwa [setClient_of_ne cl hdc]⟩
  · by_cases hdc : d = c
    · subst hdc
      rw [setClient_self]
      exact hok
    · rw [setClient_of_ne cl hdc]
      exact h.pcs d

theorem Inv.goto (h : Inv s) (pc : Pc) (hpub : ∀ it, (s.client c).pc ≠ .publish it)
    (hclaim : pc.inClaim = (s.client c).pc.inClaim) (hok : PcOk s.claimed s.buffer { s.client c with pc := pc }) :
    Inv (s.goto c pc) :=
  h.setClient _ rfl rfl Iff.rfl hpub hclaim hok

omit [DecidableEq C] in
@[simp] theorem touched_client (b : Nat) : (touched s b).client = s.client := rfl

omit [DecidableEq C] in
theorem Inv.touched (h : Inv s) (b : Nat) : Inv (touched s b) := by
  have hflag : ∀ x, ((ThreadPool.touched s b).buffer x).currentClientOwnedFlag = (s.buffer x).currentClientOwnedFlag := by
    intro x
    by_cases hx : x = b
    · subst hx
      simp [ThreadPool.touched, State.setBuffer]
    · simp [ThreadPool.touched, State.setBuffer, hx]
  have hsize : ∀ x, ((ThreadPool.touched s b).buffer x).size = (s.buffer x).size := by
    intro x
    by_cases hx : x = b
    · subst hx
      simp [ThreadPool.touched, State.setBuffer]
    · simp [ThreadPool.touched, State.setBuffer, hx]
  have hholds : ∀ d n, Holds (ThreadPool.touched s b) d n ↔ Holds s d n := by
    intro d n
    rw [Holds, hflag, hsize]
    rfl
  refine ⟨?_, h.mutex, fun d hd => ?_, fun n hn => ?_, fun d => ?_⟩
  · refine ⟨h.lists.ids, h.lists.ids_lt, h.lists.buffers, h.lists.live_iff, h.lists.live_lt, fun n hn => ?_⟩
    rw [hflag]
    exact h.lists.unclaimed n hn
  · obtain ⟨n, hn⟩ := h.held d hd
    exact ⟨n, (hholds d n).mpr hn⟩
  · rcases h.claimed n hn with ⟨d, hd, hdn⟩ | hp
    · exact .inl ⟨d, hd, (hholds d n).mpr hdn⟩
    · exact .inr hp
  · have hd := h.pcs d
    unfold PcOk at hd ⊢
    simp only [hflag, hsize]
    exact hd

end Clients

/-! ## A buffer that is given back -/

section Unclaim
variable {s : State C} {c c' : C} {n : Node}

omit [DecidableEq C] in
theorem ListsOk.reinsert (h : ListsOk s) (hn : n ∈ s.claimed ++ s.unclaimed) {t : State C}
    (hp : (t.claimed ++ t.unclaimed).Perm (⟨s.nextNode, n.buffer⟩ :: (s.claimed ++ s.unclaimed).erase n))
    (hnode : t.nextNode = s.nextNode + 1) (hbuffer : t.nextBuffer = s.nextBuffer) (hlive : t.live = s.live)
    (hflag : ∀ m ∈ t.unclaimed, (t.buffer m.buffer).currentClientOwnedFlag = none) : ListsOk t := by
  have hbuffers : ((t.claimed ++ t.unclaimed).map Node.buffer).Perm ((s.claimed ++ s.unclaimed).map Node.buffer) :=
    (hp.map Node.buffer).trans ((List.perm_cons_erase hn).map Node.buffer).symm
  have hlt : ∀ m ∈ (s.claimed ++ s.unclaimed).erase n, m.id < s.nextNode :=
    fun m hm => h.ids_lt m (mem_of_mem_erase hm)
  refine ⟨?_, fun m hm => ?_, hbuffers.nodup_iff.mpr h.buffers, fun b => ?_, ?_, hflag⟩
  · rw [(hp.map Node.id).nodup_iff, map_cons, nodup_cons]
    refine ⟨fun hmem => ?_, h.ids.sublist (List.erase_sublist.map _)⟩
    obtain ⟨m, hm, hid⟩ := mem_map.mp hmem
    exact absurd hid (hlt m hm).ne
  · rw [hnode]
    rcases mem_cons.mp (hp.mem_iff.mp hm) with rfl | hm
    · exact Nat.lt_succ_self _
    · exact Nat.lt_succ_of_lt (hlt m hm)
  · rw [hlive, h.live_iff, hbuffers.mem_iff]
  · rw [hlive, hbuffer]
    exact h.live_lt

omit [DecidableEq C] in
theorem ListsOk.nodup (h : ListsOk s) : (s.claimed ++ s.unclaimed).Nodup := h.ids.of_map

omit [DecidableEq C] in
theorem ListsOk.moveToUnclaimed (h : ListsOk s) (hn : n ∈ s.claimed) : ListsOk (s.moveToUnclaimed n) := by
  refine h.reinsert (mem_append_left _ hn) ?_ rfl rfl rfl ?_
  · rw [List.erase_append_left _ hn]
    exact (append_assoc _ _ _).symm ▸ List.perm_append_singleton _ _
  · intro m hm
    by_cases hb : m.buffer = n.buffer
    · simp [State.moveToUnclaimed, State.setBuffer, hb]
    · have hmu : m ∈ s.unclaimed := by
        rcases List.mem_append.mp hm with hm | hm
        · exact hm
        · rw [List.mem_singleton.mp hm] at hb
          exact absurd rfl hb
      simpa [State.moveToUnclaimed, State.setBuffer, hb] using h.unclaimed m hmu

theorem Inv.unclaim (h : Inv s) (hn : Holds s c n) (hno : ∀ d, (s.client d).pc.usesClaimed = false)
    (hok : PcOk s.claimed s.buffer { s.client c with clientOwnedFlag := .free }) :
    Inv ((s.setFlag c .free).moveToUnclaimed n) := by
  -- a buffer has one flag, so the other clients hold other buffers
  have hother : ∀ d m, Holds s d m → d ≠ c → m ≠ n ∧ m.buffer ≠ n.buffer := by
    intro d m hm hd
    have hb : m.buffer ≠ n.buffer := by
      intro hb
      have := hm.2.2.1
      rw [hb, hn.2.2.1] at this
      exact hd (Option.some.inj this).symm
    exact ⟨fun e => hb (by rw [e]), hb⟩
  have hclient : ∀ d, d ≠ c → ((s.setFlag c .free).moveToUnclaimed n).client d = s.client d :=
    fun d hd => setClient_of_ne _ hd
  have hself : ((s.setFlag c .free).moveToUnclaimed n).client c = { s.client c with clientOwnedFlag := .free } :=
    setClient_self _
  have hholds : ∀ d m, Holds s d m → d ≠ c → Holds ((s.setFlag c .free).moveToUnclaimed n) d m := by
    intro d m hm hd
    obtain ⟨hmn, hmb⟩ := hother d m hm hd
    have hbuf : ((s.setFlag c .free).moveToUnclaimed n).buffer m.buffer = s.buffer m.buffer := Function.update_of_ne hmb _ _
    rw [Holds, hclient d hd, hbuf]
    exact ⟨(List.mem_erase_of_ne hmn).mpr hm.1, hm.2⟩
  refine ⟨?_, fun d => ?_, fun d hd => ?_, fun m hm => ?_, fun d => ?_⟩
  · have hl : ListsOk (s.setFlag c .free) :=
      ⟨h.lists.ids, h.lists.ids_lt, h.lists.buffers, h.lists.live_iff, h.lists.live_lt, h.lists.unclaimed⟩
    exact hl.moveToUnclaimed hn.1
  · by_cases hdc : d = c
    · subst hdc
      rw [hself]
      exact h.mutex d
    · rw [hclient d hdc]
      exact h.mutex d
  · have hdc : d ≠ c := by
      rintro rfl
      rw [hself] at hd
      exact hd rfl
    rw [hclient d hdc] at hd
    obtain ⟨m, hm⟩ := h.held d hd
    exact ⟨m, hholds d m hm hdc⟩
  · have hne : m ≠ n := ((List.Nodup.mem_erase_iff (List.Nodup.of_append_left h.lists.nodup)).mp hm).1
    rcases h.claimed m (mem_of_mem_erase hm) with ⟨d, hd, hdm⟩ | ⟨d, hd⟩
    · have hdc : d ≠ c := by
        rintro rfl
        have hid := hdm.2.1.symm.trans hn.2.1
        exact hne (h.lists.eq_of_id hdm.1 hn.1 (Option.some.inj hid))
      exact .inl ⟨d, by rwa [hclient d hdc], hholds d m hdm hdc⟩
    · have := hno d
      rw [hd] at this
      cases this
  · by_cases hdc : d = c
    · subst hdc
      rw [hself]
      exact hok.of_not_usesClaimed (hno d)
    · rw [hclient d hdc]
      exact (h.pcs d).of_not_usesClaimed (hno d)

theorem goto_moveToUnclaimed (pc : Pc) : ((s.setFlag c' .free).moveToUnclaimed n).goto c pc =
    ((s.goto c pc).setFlag c' .free).moveToUnclaimed n := by
  have hclient : (((s.setFlag c' .free).moveToUnclaimed n).goto c pc).client =
      (((s.goto c pc).setFlag c' .free).moveToUnclaimed n).client := by
    funext d
    by_cases hc : d = c <;> by_cases hc' : d = c' <;>
      simp_all [State.goto, State.setFlag, State.setClient, State.moveToUnclaimed, State.setBuffer, Function.update_apply]
  simpa [State.goto, State.setFlag, State.setClient, State.moveToUnclaimed, State.setBuffer] using hclient

end Unclaim

/-! ## A buffer that is claimed -/

section Claim
variable {s t : State C} {c : C} {n : Node}

theorem bestFit_spec {sizeOf : Nat → Nat} {size : Nat} {l : List Node} {unsizedFit : Option Node}
    (h : bestFit sizeOf size l unsizedFit = some n) : (n ∈ l ∧ size ≤ sizeOf n.buffer) ∨ unsizedFit = some n := by
  induction l generalizing unsizedFit with
  | nil => exact .inr h
  | cons it rest ih =>
    rw [bestFit] at h
    split at h
    · case isTrue hs =>
      cases h
      exact .inl ⟨mem_cons_self, hs.ge⟩
    · rcases ih h with ⟨hn, hs⟩ | hu
      · exact .inl ⟨List.mem_cons_of_mem _ hn, hs⟩
      · split at hu
        · case isTrue hs =>
          cases hu
          exact .inl ⟨mem_cons_self, hs.le⟩
        · exact .inr hu

/-- Only a buffer of the list is freed, and never the one that is being claimed. -/
theorem expired_spec {lastUsed : Nat → Nat} {now lruTime : Nat} {best found : Option Node} {l : List Node}
    (h : expired lastUsed now best l lruTime found = some n) : (n ∈ l ∧ some n ≠ best) ∨ found = some n := by
  induction l generalizing lruTime found with
  | nil => exact .inr h
  | cons it rest ih =>
    rw [expired] at h
    split at h
    · case isTrue hb =>
      rcases ih h with ⟨hn, hne⟩ | hf
      · exact .inl ⟨List.mem_cons_of_mem _ hn, hne⟩
      · cases hf
        exact .inl ⟨mem_cons_self, hb.1⟩
    · rcases ih h with ⟨hn, hne⟩ | hf
      · exact .inl ⟨List.mem_cons_of_mem _ hn, hne⟩
      · exact .inr hf

omit [DecidableEq C] in
theorem Inv.freeBuffer (h : Inv s) (hn : n ∈ s.unclaimed) : Inv (s.freeBuffer n) := by
  have hl := h.lists
  have hnc : n ∉ s.claimed := fun hc => List.disjoint_of_nodup_append hl.nodup hc hn
  have hsub : (s.claimed ++ s.unclaimed.erase n).Sublist (s.claimed ++ s.unclaimed) :=
    (List.Sublist.refl _).append List.erase_sublist
  have herase : s.claimed ++ s.unclaimed.erase n = (s.claimed ++ s.unclaimed).erase n :=
    (List.erase_append_right _ hnc).symm
  have hlive : ∀ b, (s.freeBuffer n).live b = true ↔ s.live b = true ∧ b ≠ n.buffer := by
    intro b
    by_cases hb : b = n.buffer
    · simp [State.freeBuffer, hb]
    · simp [State.freeBuffer, hb]
  refine ⟨⟨hl.ids.sublist (hsub.map _), fun m hm => hl.ids_lt m (hsub.subset hm), hl.buffers.sublist (hsub.map _),
    fun b => ?_, fun b hb => hl.live_lt b ((hlive b).mp hb).1, fun m hm => hl.unclaimed m (mem_of_mem_erase hm)⟩,
    h.mutex, h.held, h.claimed, h.pcs⟩
  rw [hlive, hl.live_iff]
  change _ ↔ b ∈ (s.claimed ++ s.unclaimed.erase n).map Node.buffer
  rw [herase]
  have hperm := (List.perm_cons_erase (mem_append_right s.claimed hn)).map Node.buffer
  have hnodup : (n.buffer :: ((s.claimed ++ s.unclaimed).erase n).map Node.buffer).Nodup := by
    have := hperm.nodup_iff.mp hl.buffers
    simpa using this
  have hmem : b ∈ (s.claimed ++ s.unclaimed).map Node.buffer ↔
      b = n.buffer ∨ b ∈ ((s.claimed ++ s.unclaimed).erase n).map Node.buffer := by
    rw [hperm.mem_iff, map_cons, mem_cons]
  rw [hmem]
  constructor
  · rintro ⟨hb | hb, hne⟩
    · exact absurd hb hne
    · exact hb
  · intro hb
    refine ⟨.inr hb, ?_⟩
    rintro rfl
    exact (nodup_cons.mp hnodup).1 hb

theorem Inv.placed (h : Inv s) {now it b : Nat} (hpc : (s.client c).pc = .place now) (ht : ListsOk t)
    (hclaimed : t.claimed = s.claimed ++ [⟨it, b⟩]) (hmutex : t.mutex = s.mutex) (hclient : t.client = s.client)
    (hbuf : ∀ n ∈ s.claimed, t.buffer n.buffer = s.buffer n.buffer)
    (hflag : (t.buffer b).currentClientOwnedFlag = none) (hsize : (s.client c).size ≤ (t.buffer b).size) :
    Inv (t.goto c (.publish it)) := by
  have hmc : s.mutex = some c := (h.mutex c).mpr (by rw [hpc]; rfl)
  have hother : ∀ d, d ≠ c → (s.client d).pc.usesClaimed = false := fun d hd =>
    h.usesClaimed_false (by rw [hmc]; exact fun e => hd (Option.some.inj e).symm)
  have hself : (t.goto c (.publish it)).client c = { s.client c with pc := .publish it } := by
    simp [State.goto, hclient]
  have hne : ∀ d, d ≠ c → (t.goto c (.publish it)).client d = s.client d := by
    intro d hd
    simp [State.goto, hclient, hd]
  have hflags : ∀ d, ((t.goto c (.publish it)).client d).clientOwnedFlag = (s.client d).clientOwnedFlag := by
    intro d
    by_cases hd : d = c
    · subst hd
      rw [hself]
    · rw [hne d hd]
  have hmem : ∀ n ∈ s.claimed, n ∈ (t.goto c (.publish it)).claimed := by
    intro n hn
    change n ∈ t.claimed
    rw [hclaimed]
    exact mem_append_left _ hn
  have hholds : ∀ d n, Holds s d n → Holds (t.goto c (.publish it)) d n := by
    intro d n hd
    obtain ⟨hn, hi, hf, hs⟩ := hd
    rw [← hbuf n hn] at hf hs
    refine ⟨hmem n hn, ?_, hf, ?_⟩
    · by_cases hdc : d = c
      · subst hdc
        rw [hself]
        exact hi
      · rw [hne d hdc]
        exact hi
    · by_cases hdc : d = c
      · subst hdc
        rw [hself]
        exact hs
      · rw [hne d hdc]
        exact hs
  refine ⟨?_, fun d => ?_, fun d hd => ?_, fun n hn => ?_, fun d => ?_⟩
  · exact ⟨ht.ids, ht.ids_lt, ht.buffers, ht.live_iff, ht.live_lt, ht.unclaimed⟩
  · change t.mutex = some d ↔ _
    rw [hmutex]
    by_cases hdc : d = c
    · subst hdc
      rw [hself, hmc]
      simp [Pc.inClaim]
    · rw [hne d hdc]
      exact h.mutex d
  · rw [hflags] at hd
    obtain ⟨n, hn⟩ := h.held d hd
    exact ⟨n, hholds d n hn⟩
  · change n ∈ t.claimed at hn
    rw [hclaimed] at hn
    rcases List.mem_append.mp hn with hn | hn
    · rcases h.claimed n hn with ⟨d, hd, hdn⟩ | ⟨d, hd⟩
      · exact .inl ⟨d, by rwa [hflags], hholds d n hdn⟩
      · -- only the client with the mutex publishes, and it is not there yet
        have hdc : d = c := by
          by_contra hdc
          have := hother d hdc
          rw [hd] at this
          cases this
        rw [hdc, hpc] at hd
        cases hd
    · refine .inr ⟨c, ?_⟩
      rw [hself, List.mem_singleton.mp hn]
  · by_cases hdc : d = c
    · subst hdc
      rw [hself]
      have hfree : (s.client d).clientOwnedFlag = .free := by
        have := h.pcs d
        rw [PcOk, hpc] at this
        exact this
      refine ⟨hfree, ⟨it, b⟩, ?_, rfl, hflag, hsize⟩
      change _ ∈ t.claimed
      rw [hclaimed]
      exact mem_append_right _ mem_cons_self
    · rw [hne d hdc]
      exact (h.pcs d).of_not_usesClaimed (hother d hdc)

omit [DecidableEq C] in
theorem ListsOk.claimUnclaimed (h : ListsOk s) (hn : n ∈ s.unclaimed) :
    ListsOk ({ s with unclaimed := s.unclaimed.erase n }.emplaceClaimed n.buffer) := by
  have hnc : n ∉ s.claimed := fun hc => List.disjoint_of_nodup_append h.nodup hc hn
  refine h.reinsert (mem_append_right _ hn) ?_ rfl rfl rfl ?_
  · rw [List.erase_append_right _ hnc]
    change ((s.claimed ++ [Node.mk s.nextNode n.buffer]) ++ s.unclaimed.erase n).Perm _
    rw [append_assoc]
    exact List.perm_middle
  · exact fun m hm => h.unclaimed m (mem_of_mem_erase hm)

omit [DecidableEq C] in
theorem ListsOk.claimNew (h : ListsOk s) (size : Nat) : ListsOk ((s.alloc size).emplaceClaimed s.nextBuffer) := by
  have hlt : ∀ m ∈ s.claimed ++ s.unclaimed, m.buffer < s.nextBuffer :=
    fun m hm => h.live_lt _ ((h.live_iff _).mpr (List.mem_map_of_mem hm))
  have hp : ((s.claimed ++ [Node.mk s.nextNode s.nextBuffer]) ++ s.unclaimed).Perm
      (⟨s.nextNode, s.nextBuffer⟩ :: (s.claimed ++ s.unclaimed)) := by
    rw [append_assoc]
    exact List.perm_middle
  refine ⟨(hp.map _).nodup_iff.mpr ?_, fun m hm => ?_, (hp.map _).nodup_iff.mpr ?_, fun b => ?_, fun b hb => ?_, fun m hm => ?_⟩
  · rw [map_cons, nodup_cons]
    refine ⟨fun hmem => ?_, h.ids⟩
    obtain ⟨m, hm, hid⟩ := mem_map.mp hmem
    exact absurd hid (h.ids_lt m hm).ne
  · rcases mem_cons.mp (hp.mem_iff.mp hm) with rfl | hm
    · exact Nat.lt_succ_self _
    · exact Nat.lt_succ_of_lt (h.ids_lt m hm)
  · rw [map_cons, nodup_cons]
    refine ⟨fun hmem => ?_, h.buffers⟩
    obtain ⟨m, hm, hb⟩ := mem_map.mp hmem
    exact absurd hb (hlt m hm).ne
  · refine Iff.trans ?_ (hp.map _).mem_iff.symm
    rw [map_cons, mem_cons, ← h.live_iff]
    by_cases hb : b = s.nextBuffer
    · simp [State.emplaceClaimed, State.alloc, hb]
    · simp [State.emplaceClaimed, State.alloc, hb]
  · change b < s.nextBuffer + 1
    by_cases hn : b = s.nextBuffer
    · exact hn ▸ Nat.lt_succ_self _
    · have : s.live b = true := by simpa [State.emplaceClaimed, State.alloc, hn] using hb
      exact Nat.lt_succ_of_lt (h.live_lt b this)
  · have hne : m.buffer ≠ s.nextBuffer := (hlt m (mem_append_right _ hm)).ne
    have := h.unclaimed m hm
    simpa [State.emplaceClaimed, State.alloc, State.setBuffer, hne] using this

omit [DecidableEq C] in
theorem Inv.freeExpired (h : Inv s) (now : Nat) (best : Option Node) (hbest : ∀ n, best = some n → n ∈ s.unclaimed) :
    Inv (s.freeExpired now best) ∧ (s.freeExpired now best).client = s.client ∧
      (s.freeExpired now best).buffer = s.buffer ∧ (s.freeExpired now best).nextNode = s.nextNode ∧
      ∀ n, best = some n → n ∈ (s.freeExpired now best).unclaimed := by
  cases he : expired (fun b => (s.buffer b).lastUsed) now best s.unclaimed 0 none with
  | none =>
    simp only [State.freeExpired, he]
    exact ⟨h, trivial, trivial, trivial, hbest⟩
  | some m =>
    simp only [State.freeExpired, he]
    rcases expired_spec he with ⟨hm, hne⟩ | hm
    · refine ⟨h.freeBuffer hm, rfl, rfl, rfl, fun n hn => (List.mem_erase_of_ne ?_).mpr (hbest n hn)⟩
      rintro rfl
      exact hne hn.symm
    · cases hm

theorem Inv.placeBuffer (h : Inv s) {now : Nat} (hpc : (s.client c).pc = .place now) :
    Inv ((s.placeBuffer now (s.client c).size).goto c (.publish s.nextNode)) := by
  rw [State.placeBuffer]
  generalize hbest : bestFit (fun b => (s.buffer b).size) (s.client c).size s.unclaimed none = best
  have hfit : ∀ n, best = some n → n ∈ s.unclaimed ∧ (s.client c).size ≤ (s.buffer n.buffer).size := by
    intro n hn
    rcases bestFit_spec (hbest.trans hn) with hn | hn
    · exact hn
    · cases hn
  obtain ⟨hi, hclient, hbuffer, hnode, hmem⟩ := h.freeExpired now best (fun n hn => (hfit n hn).1)
  generalize s.freeExpired now best = s' at hi hclient hbuffer hnode hmem ⊢
  have hpc' : (s'.client c).pc = .place now := by rw [hclient, hpc]
  rw [← hnode]
  cases best with
  | some n =>
    have hn := hmem n rfl
    refine hi.placed hpc' (hi.lists.claimUnclaimed hn) rfl rfl rfl (fun _ _ => rfl) (hi.lists.unclaimed n hn) ?_
    rw [hclient]
    change _ ≤ (s'.buffer n.buffer).size
    rw [hbuffer]
    exact (hfit n rfl).2
  | none =>
    refine hi.placed hpc' (hi.lists.claimNew _) rfl rfl rfl (fun m hm => ?_) ?_ ?_
    · have hlive := (hi.lists.live_iff _).mpr (List.mem_map_of_mem (mem_append_left _ hm))
      exact Function.update_of_ne (hi.lists.live_lt _ hlive).ne _ _
    · simp [State.claimFit, State.emplaceClaimed, State.alloc, State.setBuffer]
    · simp [State.claimFit, State.emplaceClaimed, State.alloc, State.setBuffer, hclient]

/-- The buffer gets the flag of the client, which owns it from then on. -/
theorem Inv.publish (h : Inv s) {it : Nat} (hpc : (s.client c).pc = .publish it) (hn : n ∈ s.claimed) (hid : n.id = it)
    (hflag : (s.buffer n.buffer).currentClientOwnedFlag = none) (hsize : (s.client c).size ≤ (s.buffer n.buffer).size) :
    Inv { (s.setBuffer n.buffer { s.buffer n.buffer with currentClientOwnedFlag := some c }).setClient c
      { s.client c with info := some it, clientOwnedFlag := .owned, pc := .pointer } with mutex := none } := by
  have hmc : s.mutex = some c := (h.mutex c).mpr (by rw [hpc]; rfl)
  have hother : ∀ d, d ≠ c → s.mutex ≠ some d := by
    intro d hd
    rw [hmc]
    exact fun e => hd (Option.some.inj e).symm
  have hfree : (s.client c).clientOwnedFlag = .free := by
    have := h.pcs c
    rw [PcOk, hpc] at this
    exact this.1
  generalize ht : ({ (s.setBuffer n.buffer { s.buffer n.buffer with currentClientOwnedFlag := some c }).setClient c
      { s.client c with info := some it, clientOwnedFlag := .owned, pc := .pointer } with mutex := none } : State C) = t
  have hself : t.client c = { s.client c with info := some it, clientOwnedFlag := .owned, pc := .pointer } := by
    simp [← ht, State.setClient]
  have hne : ∀ d, d ≠ c → t.client d = s.client d := by
    intro d hd
    simp [← ht, State.setClient, State.setBuffer, hd]
  have hbn : t.buffer n.buffer = { s.buffer n.buffer with currentClientOwnedFlag := some c } := by
    simp [← ht, State.setClient, State.setBuffer]
  have hbne : ∀ b, b ≠ n.buffer → t.buffer b = s.buffer b := by
    intro b hb
    simp [← ht, State.setClient, State.setBuffer, hb]
  have hmutex : t.mutex = none := by rw [← ht]
  have hclaimed : t.claimed = s.claimed := by rw [← ht]; rfl
  have hunclaimed : t.unclaimed = s.unclaimed := by rw [← ht]; rfl
  have hown : Holds t c n := by
    refine ⟨hclaimed ▸ hn, ?_, ?_, ?_⟩
    · rw [hself, hid]
    · rw [hbn]
    · rw [hself, hbn]
      exact hsize
  -- no other client has this buffer: its flag was null
  have hholds : ∀ d m, Holds s d m → d ≠ c → Holds t d m := by
    intro d m hm hd
    have hb : m.buffer ≠ n.buffer := by
      intro hb
      have := hm.2.2.1
      rw [hb, hflag] at this
      cases this
    rw [Holds, hclaimed, hne d hd, hbne _ hb]
    exact hm
  refine ⟨?_, fun d => ?_, fun d hd => ?_, fun m hm => ?_, fun d => ?_⟩
  · have hl := h.lists
    have hlive : t.live = s.live := by rw [← ht]; rfl
    refine ⟨?_, ?_, ?_, ?_, ?_, fun m hm => ?_⟩
    · rw [hclaimed, hunclaimed]
      exact hl.ids
    · rw [hclaimed, hunclaimed, ← ht]
      exact hl.ids_lt
    · rw [hclaimed, hunclaimed]
      exact hl.buffers
    · rw [hclaimed, hunclaimed, hlive]
      exact hl.live_iff
    · rw [hlive, ← ht]
      exact hl.live_lt
    · rw [hunclaimed] at hm
      have hb : m.buffer ≠ n.buffer := by
        intro hb
        have := hl.eq_of_buffer (mem_append_right _ hm) (mem_append_left _ hn) hb
        exact List.disjoint_of_nodup_append hl.nodup (this ▸ hn) hm
      rw [hbne _ hb]
      exact hl.unclaimed m hm
  · rw [hmutex]
    by_cases hd : d = c
    · subst hd
      rw [hself]
      simp [Pc.inClaim]
    · rw [hne d hd]
      simpa using (h.mutex d).not.mp (hother d hd)
  · by_cases hdc : d = c
    · subst hdc
      exact ⟨n, hown⟩
    · rw [hne d hdc] at hd
      obtain ⟨m, hm⟩ := h.held d hd
      exact ⟨m, hholds d m hm hdc⟩
  · rw [hclaimed] at hm
    rcases h.claimed m hm with ⟨d, hd, hdm⟩ | ⟨d, hd⟩
    · have hdc : d ≠ c := by
        rintro rfl
        exact hd hfree
      exact .inl ⟨d, by rwa [hne d hdc], hholds d m hdm hdc⟩
    · have hdc : d = c := by
        by_contra hdc
        exact hother d hdc ((h.mutex d).mpr (by rw [hd]; rfl))
      rw [hdc, hpc] at hd
      have hmn : m = n := h.lists.eq_of_id hm hn (by rw [hid]; exact (Pc.publish.inj hd).symm)
      exact .inl ⟨c, by simp [hself], hmn ▸ hown⟩
  · by_cases hdc : d = c
    · subst hdc
      rw [hself]
      rfl
    · rw [hne d hdc]
      exact (h.pcs d).of_not_usesClaimed (h.usesClaimed_false (hother d hdc))

end Claim

end FexEmu.ThreadPool
