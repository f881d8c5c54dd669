import FexEmu.Utils.ThreadPoolProofs
/-!
# Runs of the thread pool

`UnclaimBuffer` looks at the flag before it takes the mutex. A claim can take the buffer back in between, and then the
iterator is to an erased element.
-/
namespace FexEmu.ThreadPool

variable {C : Type} [DecidableEq C]

section Runs
variable {s : State C} {c : C} {p : Period}

/-! ## One step -/

/-- The step takes a buffer back from a client that has found its flag not free in `UnclaimBuffer`. -/
def takesFromUnclaim (s : State C) : Action C → Bool
  | .run c =>
    match (s.client c).pc with
    | .sweepTake _ it =>
      (s.claimed[it]?.bind fun node => (s.buffer node.buffer).currentClientOwnedFlag).any fun c' =>
        (s.client c').clientOwnedFlag = .disowned && (s.client c').pc = .unclaim
    | _ => false
  | _ => false

/-- The result of a step is no fault, and has the invariant. -/
def StepOk : Option (Except Fault (State C)) → Prop
  | none => True
  | some (.error _) => False
  | some (.ok s) => Inv s

omit [DecidableEq C] in
theorem Inv.holder (h : Inv s) (hpc : ∀ it, (s.client c).pc ≠ .publish it) (hc : (s.client c).pc.inClaim = true)
    {n : Node} (hn : n ∈ s.claimed) : ∃ c', (s.client c').clientOwnedFlag ≠ .free ∧ Holds s c' n := by
  rcases h.claimed n hn with hh | ⟨d, hd⟩
  · exact hh
  · have hdc : some d = some c := by
      rw [← (h.mutex d).mpr (by rw [hd]; rfl), (h.mutex c).mpr hc]
    rw [Option.some.inj hdc] at hd
    exact absurd hd (hpc _)

theorem Inv.takeLock (h : Inv s) (hm : s.mutex = none) (hpc : (s.client c).pc = .lock) (now it : Nat) :
    Inv ({ s with mutex := some c }.goto c (.sweepFlag now it)) := by
  have hfree : (s.client c).clientOwnedFlag = .free := by
    have := h.pcs c
    rw [PcOk, hpc] at this
    exact this
  -- the mutex is the only difference to a step of the client alone, and nothing else of the invariant has it
  have hother : ∀ d, d ≠ c → ({ s with mutex := some c }.goto c (.sweepFlag now it)).client d = s.client d :=
    fun d hd => setClient_of_ne _ hd
  have hself : ({ s with mutex := some c }.goto c (.sweepFlag now it)).client c =
      { s.client c with pc := .sweepFlag now it } := setClient_self _
  have hholds : ∀ d n, (s.client d).clientOwnedFlag ≠ .free → Holds s d n →
      d ≠ c ∧ Holds ({ s with mutex := some c }.goto c (.sweepFlag now it)) d n := by
    intro d n hd hn
    have hdc : d ≠ c := by
      rintro rfl
      exact hd hfree
    refine ⟨hdc, ?_⟩
    rw [Holds, hother d hdc]
    exact hn
  refine ⟨?_, fun d => ?_, fun d hd => ?_, fun n hn => ?_, fun d => ?_⟩
  · exact ⟨h.lists.ids, h.lists.ids_lt, h.lists.buffers, h.lists.live_iff, h.lists.live_lt, h.lists.unclaimed⟩
  · change some c = some d ↔ _
    by_cases hdc : d = c
    · subst hdc
      rw [hself]
      simp [Pc.inClaim]
    · rw [hother d hdc, ← h.mutex d, hm]
      simp [Ne.symm hdc]
  · have hdc : d ≠ c := by
      rintro rfl
      rw [hself] at hd
      exact hd hfree
    rw [hother d hdc] at hd
    obtain ⟨n, hn⟩ := h.held d hd
    exact ⟨n, (hholds d n hd hn).2⟩
  · rcases h.claimed n hn with ⟨d, hd, hdn⟩ | ⟨d, hd⟩
    · obtain ⟨hdc, hh⟩ := hholds d n hd hdn
      exact .inl ⟨d, by rwa [hother d hdc], hh⟩
    · have := (h.mutex d).mpr (by rw [hd]; rfl)
      rw [hm] at this
      cases this
  · by_cases hdc : d = c
    · subst hdc
      rw [hself]
      exact hfree
    · rw [hother d hdc]
      exact (h.pcs d)

theorem Inv.sweepTake (h : Inv s) (hp : takesFromUnclaim s (.run c) = false) {now it : Nat} {n : Node}
    (hpc : (s.client c).pc = .sweepTake now it) (hn : s.claimed[it]? = some n) :
    StepOk (some (withFlag s n.buffer fun c' =>
      .ok (if (s.client c').clientOwnedFlag = .disowned then
          ((s.setFlag c' .free).moveToUnclaimed n).goto c (.sweepFlag now it)
        else s.goto c (.sweepFlag now (it + 1))))) := by
  have hfree : (s.client c).clientOwnedFlag = .free := by
    have := h.pcs c
    rw [PcOk, hpc] at this
    exact this.1
  have hin : (s.client c).pc.inClaim = true := by rw [hpc]; rfl
  obtain ⟨c', -, hh⟩ := h.holder (by simp [hpc]) hin (List.mem_of_getElem? hn)
  have hgo : ∀ it', Inv (s.goto c (.sweepFlag now it')) :=
    fun it' => h.goto _ (by simp [hpc]) (by rw [hin]; rfl) hfree
  rw [withFlag_of_holds hh]
  split
  · case isTrue hd =>
    have hcc : c' ≠ c := by
      rintro rfl
      rw [hfree] at hd
      cases hd
    have hclient : (s.goto c (.sweepFlag now it)).client c' = s.client c' := setClient_of_ne _ hcc
    have hmc : s.mutex = some c := (h.mutex c).mpr hin
    rw [goto_moveToUnclaimed]
    refine (hgo it).unclaim ?_ (fun d => ?_) ?_
    · rw [Holds, hclient]
      exact hh
    · by_cases hdc : d = c
      · subst hdc
        simp [State.goto, Pc.usesClaimed]
      · refine (hgo it).usesClaimed_false ?_
        change s.mutex ≠ some d
        rw [hmc]
        exact fun e => hdc (Option.some.inj e).symm
    · -- a client whose flag is disowned relies on it only in UnclaimBuffer
      rw [hclient]
      have hnot : (s.client c').pc ≠ .unclaim := by
        intro hu
        simp [takesFromUnclaim, hpc, hn, hh.2.2.1, hd, hu] at hp
      have := h.pcs c'
      unfold PcOk at this ⊢
      cases hc' : (s.client c').pc <;> simp_all
  · exact hgo _

theorem Inv.disown (h : Inv s) (hpc : (s.client c).pc = .disown) : StepOk (some (withNode s (s.client c).info fun node =>
    withFlag s node.buffer fun c' => .ok ((s.setFlag c' .disowned).goto c .period))) := by
  have howned : (s.client c).clientOwnedFlag = .owned := by
    have := h.pcs c
    rw [PcOk, hpc] at this
    exact this
  obtain ⟨n, hn⟩ := h.held c (by simp [howned])
  rw [withNode_of_holds h.lists hn, withFlag_of_holds hn]
  have := h.setClient (c := c) { s.client c with clientOwnedFlag := .disowned, pc := .period } rfl rfl (by simp [howned])
    (by simp [hpc]) (by simp [hpc, Pc.inClaim]) trivial
  simpa [State.setFlag, State.goto, State.setClient, StepOk] using this

theorem Inv.unclaimStep (h : Inv s) (hm : s.mutex = none) (hpc : (s.client c).pc = .unclaim) :
    StepOk (some (withNode s (s.client c).info fun node => withFlag s node.buffer fun c' =>
      .ok (((s.setFlag c' .free).moveToUnclaimed node).goto c .idle))) := by
  have hflag : (s.client c).clientOwnedFlag ≠ .free := by
    have := h.pcs c
    rw [PcOk, hpc] at this
    exact this
  obtain ⟨n, hn⟩ := h.held c hflag
  rw [withNode_of_holds h.lists hn, withFlag_of_holds hn]
  rw [goto_moveToUnclaimed]
  have hgo : Inv (s.goto c .idle) := h.goto _ (by simp [hpc]) (by simp [hpc, Pc.inClaim]) trivial
  have hself : (s.goto c .idle).client c = { s.client c with pc := .idle } := setClient_self _
  refine hgo.unclaim ?_ (fun d => hgo.usesClaimed_false ?_) ?_
  · rw [Holds, hself]
    exact hn
  · change s.mutex ≠ some d
    rw [hm]
    exact fun e => by cases e
  · rw [hself]
    trivial

omit [DecidableEq C] in
theorem Inv.withOwned (h : Inv s) (howned : (s.client c).clientOwnedFlag = .owned)
    {f : Node → State C} (hf : ∀ n, Holds s c n → Inv (f n)) :
    StepOk (some (withNode s (s.client c).info fun node => .ok (f node))) := by
  obtain ⟨n, hn⟩ := h.held c (by simp [howned])
  rw [withNode_of_holds h.lists hn]
  exact hf n hn

theorem Inv.runStep (h : Inv s) (hp : takesFromUnclaim s (.run c) = false) : StepOk (runStep p s c) := by
  have hok := h.pcs c
  unfold ThreadPool.runStep
  dsimp only
  -- one case for each place of the client; the lemma of its list operation does the work
  cases hpc : (s.client c).pc with
  | idle => trivial
  | isOwned =>
    refine h.goto _ (by simp [hpc]) ?_ ?_
    · split <;> simp [hpc, Pc.inClaim]
    · split
      · case isTrue ho => exact ho
      · case isFalse ho => exact ho
  | exchange =>
    rw [PcOk, hpc] at hok
    dsimp only
    split
    · case isTrue hd =>
      have := h.setClient (c := c) { s.client c with clientOwnedFlag := .owned, pc := .touch } rfl rfl (by simp [hd])
        (by simp [hpc]) (by simp [hpc, Pc.inClaim]) rfl
      simpa [State.setFlag, State.goto, State.setClient, StepOk] using this
    · case isFalse hd =>
      refine h.goto _ (by simp [hpc]) (by simp [hpc, Pc.inClaim]) ?_
      change (s.client c).clientOwnedFlag = .free
      cases hf : (s.client c).clientOwnedFlag <;> simp_all
  | touch =>
    rw [PcOk, hpc] at hok
    refine h.withOwned hok (fun n hn => (h.touched n.buffer).goto _ ?_ ?_ hok)
    · exact fun it => by simp [hpc]
    · simp [hpc, Pc.inClaim]
  | pointer =>
    rw [PcOk, hpc] at hok
    exact h.withOwned hok (fun n hn => h.goto _ (by simp [hpc]) (by simp [hpc, Pc.inClaim]) trivial)
  | lock =>
    dsimp only
    split
    · case isTrue hm => exact h.takeLock hm hpc _ _
    · trivial
  | sweepFlag now it =>
    rw [PcOk, hpc] at hok
    dsimp only
    cases hn : s.claimed[it]? with
    | none => exact h.goto _ (by simp [hpc]) (by simp [hpc, Pc.inClaim]) hok
    | some n =>
      obtain ⟨c', -, hh⟩ := h.holder (c := c) (by simp [hpc]) (by simp [hpc, Pc.inClaim]) (List.mem_of_getElem? hn)
      dsimp only
      rw [withFlag_of_holds hh]
      refine h.goto _ (by simp [hpc]) (by split <;> simp [hpc, Pc.inClaim]) ?_
      split
      · exact ⟨hok, (List.getElem?_eq_some_iff.mp hn).1⟩
      · exact hok
  | sweepTime now it =>
    rw [PcOk, hpc] at hok
    dsimp only
    cases hn : s.claimed[it]? with
    | none => exact absurd hok.2 (List.getElem?_eq_none_iff.mp hn).not_gt
    | some n =>
      refine h.goto _ (by simp [hpc]) (by split <;> simp [hpc, Pc.inClaim]) ?_
      split
      · exact hok
      · exact hok.1
  | sweepTake now it =>
    rw [PcOk, hpc] at hok
    dsimp only
    cases hn : s.claimed[it]? with
    | none => exact absurd hok.2 (List.getElem?_eq_none_iff.mp hn).not_gt
    | some n => exact h.sweepTake hp hpc hn
  | place now => exact h.placeBuffer hpc
  | publish it =>
    rw [PcOk, hpc] at hok
    obtain ⟨-, n, hn, rfl, hflag, hsize⟩ := hok
    dsimp only
    rw [withNode, Option.bind_some, h.lists.claimedNode_eq hn]
    exact h.publish hpc hn rfl hflag hsize
  | disownTouch =>
    rw [PcOk, hpc] at hok
    refine h.withOwned hok (fun n hn => (h.touched n.buffer).goto _ ?_ ?_ hok)
    · exact fun it => by simp [hpc]
    · simp [hpc, Pc.inClaim]
  | disown => exact h.disown hpc
  | period =>
    dsimp only
    refine h.setClient _ ?_ ?_ ?_ (by simp [hpc]) ?_ ?_
    · split <;> rfl
    · split <;> rfl
    · split <;> rfl
    · split
      · split <;> simp [hpc, Pc.inClaim]
      · simp [hpc, Pc.inClaim]
    · split
      · by_cases hf : (s.client c).countPer < p.periodFrequency
        · simp [PcOk, hf]
        · simp [PcOk, hf]
      · trivial
  | isFree =>
    refine h.goto _ (by simp [hpc]) (by split <;> simp [hpc, Pc.inClaim]) ?_
    split
    · trivial
    · case isFalse hf => exact hf
  | unclaim =>
    dsimp only
    split
    · case isTrue hm => exact h.unclaimStep hm hpc
    · trivial

theorem Inv.callStep (h : Inv s) (f : Call) : StepOk ((callStep s c f).map .ok) := by
  have hgo : ∀ pc : Pc, (s.client c).pc = .idle → pc.inClaim = false → PcOk s.claimed s.buffer { s.client c with pc := pc } →
      Inv (s.goto c pc) :=
    fun pc hidle hin hok => h.goto pc (by simp [hidle]) (by rw [hin, hidle]; rfl) hok
  cases f with
  | reownOrClaimBuffer =>
    rw [ThreadPool.callStep]
    split
    · case isTrue hidle => exact hgo _ hidle rfl trivial
    · trivial
  | delayedDisownBuffer =>
    rw [ThreadPool.callStep]
    split
    · case isTrue hidle => exact hgo _ hidle.1 rfl hidle.2
    · trivial
  | unclaimBuffer =>
    rw [ThreadPool.callStep]
    split
    · case isTrue hidle => exact hgo _ hidle rfl trivial
    · trivial

theorem Inv.step (h : Inv s) (a : Action C) (ha : takesFromUnclaim s a = false) : StepOk (step p s a) := by
  cases a with
  | tick time =>
    exact ⟨⟨h.lists.ids, h.lists.ids_lt, h.lists.buffers, h.lists.live_iff, h.lists.live_lt, h.lists.unclaimed⟩,
      h.mutex, h.held, h.claimed, h.pcs⟩
  | call c f => exact h.callStep f
  | run c => exact h.runStep ha

theorem Inv.step_ne_error (h : Inv s) (a : Action C) (e : Fault) : ThreadPool.step p s a ≠ some (.error e) := by
  intro he
  cases ha : takesFromUnclaim s a with
  | false =>
    have := h.step (p := p) a ha
    rw [he] at this
    exact this
  | true =>
    cases a with
    | tick time => cases ha
    | call c f => cases ha
    | run c =>
      rw [ThreadPool.step, ThreadPool.runStep] at he
      rw [takesFromUnclaim] at ha
      split at ha
      · case h_1 now it hpc =>
        cases hn : s.claimed[it]? with
        | none => simp [hn] at ha
        | some node =>
          cases hf : (s.buffer node.buffer).currentClientOwnedFlag with
          | none => simp [hn, hf] at ha
          | some c' => simp [hpc, hn, withFlag, hf] at he
      · cases ha

/-! ## All runs -/

/-- The states of the runs from `start` whose steps are all `allowed`. -/
inductive Reachable (p : Period) (allowed : State C → Action C → Bool) (start : State C) : State C → Prop
  | refl : Reachable p allowed start start
  | step {s s' : State C} {a : Action C} : Reachable p allowed start s → allowed s a = true →
      step p s a = some (.ok s') → Reachable p allowed start s'

/-- A run, nothing if a step is not allowed, has to wait or faults. -/
def runs (p : Period) (allowed : State C → Action C → Bool) : State C → List (Action C) → Option (State C)
  | s, [] => some s
  | s, a :: as =>
    if allowed s a then
      match step p s a with
      | some (.ok s') => runs p allowed s' as
      | _ => none
    else none

theorem reachable_of_runs {allowed : State C → Action C → Bool} {start s s' : State C} {as : List (Action C)}
    (hs : Reachable p allowed start s) (h : runs p allowed s as = some s') : Reachable p allowed start s' := by
  induction as generalizing s with
  | nil =>
    cases h
    exact hs
  | cons a as ih =>
    rw [runs] at h
    split at h
    · case isTrue ha =>
      split at h
      · case h_1 hstep => exact ih (hs.step ha hstep) h
      · cases h
    · cases h

omit [DecidableEq C] in
theorem inv_initial (clock : Nat) (size : C → Nat) : Inv (initial clock size) := by
  refine ⟨⟨List.nodup_nil, ?_, List.nodup_nil, ?_, ?_, ?_⟩, ?_, ?_, ?_, fun c => trivial⟩
  all_goals simp [initial, Pc.inClaim]

theorem inv_reachable {start : State C} (hstart : Inv start)
    (h : Reachable p (fun s a => !takesFromUnclaim s a) start s) : Inv s := by
  induction h with
  | refl => exact hstart
  | step _ ha hs ih =>
    have := ih.step (p := p) _ (by simpa using ha)
    rw [hs] at this
    exact this

end Runs

/-- The client's flag stands for this buffer, which it has claimed. -/
def FlagFor (s : State C) (c : C) (b : Nat) : Prop :=
  (s.client c).clientOwnedFlag ≠ .free ∧ ∃ n ∈ s.claimed, (s.client c).info = some n.id ∧ n.buffer = b

/-- No buffer is shared or lost. -/
structure Safe (p : Period) (s : State C) : Prop where
  once : ∀ b, s.live b = true → ((s.claimed ++ s.unclaimed).map Node.buffer).count b = 1
  live : ∀ n ∈ s.claimed ++ s.unclaimed, s.live n.buffer = true
  unique : ∀ b c c', FlagFor s c b → FlagFor s c' b → c = c'
  owned : ∀ c, (s.client c).clientOwnedFlag = .owned → ∃ n ∈ s.claimed, (s.client c).info = some n.id ∧
    (s.buffer n.buffer).currentClientOwnedFlag = some c ∧ (s.client c).size ≤ (s.buffer n.buffer).size
  noFault : ∀ a e, step p s a ≠ some (.error e)

theorem Inv.safe {p : Period} {s : State C} (h : Inv s) : Safe p s := by
  have hflag : ∀ c b, FlagFor s c b → ∃ n, Holds s c n ∧ n.buffer = b := by
    rintro c b ⟨hf, n, hn, hi, rfl⟩
    obtain ⟨m, hm⟩ := h.held c hf
    have hid : n.id = m.id := Option.some.inj (hi.symm.trans hm.2.1)
    exact ⟨m, hm, by rw [h.lists.eq_of_id hn hm.1 hid]⟩
  refine ⟨fun b hb => ?_, fun n hn => ?_, fun b c c' hc hc' => ?_, fun c hc => ?_, fun a e => h.step_ne_error a e⟩
  · exact List.count_eq_one_of_mem h.lists.buffers ((h.lists.live_iff b).mp hb)
  · exact (h.lists.live_iff _).mpr (List.mem_map_of_mem hn)
  · obtain ⟨n, hn, rfl⟩ := hflag c b hc
    obtain ⟨m, hm, hb⟩ := hflag c' _ hc'
    have := hm.2.2.1
    rw [hb, hn.2.2.1] at this
    exact Option.some.inj this
  · obtain ⟨n, hn⟩ := h.held c (by simp [hc])
    exact ⟨n, hn⟩

/-- Any interleaving in which no claim takes back the buffer of a client between the check and the mutex in `UnclaimBuffer`.
-/
theorem threadPool_safe (p : Period) (clock : Nat) (size : C → Nat) (s : State C)
    (h : Reachable p (fun s a => !takesFromUnclaim s a) (initial clock size) s) : Safe p s :=
  (inv_reachable (inv_initial clock size) h).safe

/-- A client claims its first buffer, in a pool without buffers. -/
def claimRun (c : Fin 2) : List (Action (Fin 2)) := .call c .reownOrClaimBuffer :: List.replicate 7 (.run c)

def disownRun (c : Fin 2) : List (Action (Fin 2)) := .call c .delayedDisownBuffer :: List.replicate 3 (.run c)

/-- A client claims the only buffer of the pool back from the other one. -/
def takeRun (c : Fin 2) : List (Action (Fin 2)) := .call c .reownOrClaimBuffer :: List.replicate 10 (.run c)

/-- The second client takes the buffer that the first one disowned five seconds ago. -/
theorem threadPool_safe_take : ∃ s, runs ⟨5000, 500⟩ (fun s a => !takesFromUnclaim s a) (initial 0 fun _ : Fin 2 => 64)
    (claimRun 0 ++ disownRun 0 ++ .tick 5000 :: takeRun 1) = some s ∧ s.claimed = [⟨2, 0⟩] ∧
      (s.client 1).clientOwnedFlag = .owned ∧ Safe ⟨5000, 500⟩ s := by
  have hrun : ((runs ⟨5000, 500⟩ (fun s a => !takesFromUnclaim s a) (initial 0 fun _ : Fin 2 => 64)
      (claimRun 0 ++ disownRun 0 ++ .tick 5000 :: takeRun 1)).map fun s => (s.claimed, (s.client 1).clientOwnedFlag)) =
      some ([⟨2, 0⟩], .owned) := by decide
  obtain ⟨s, hs, hfacts⟩ := Option.map_eq_some_iff.mp hrun
  obtain ⟨hclaimed, hflag⟩ := Prod.mk.inj hfacts
  exact ⟨s, hs, hclaimed, hflag, threadPool_safe _ _ _ s (reachable_of_runs .refl hs)⟩

/-- As before, but the first client has begun to unclaim its buffer when the second one takes it. -/
theorem threadPool_erased : ¬ ∀ s : State (Fin 2),
    Reachable ⟨5000, 500⟩ (fun _ _ => true) (initial 0 fun _ => 64) s → Safe ⟨5000, 500⟩ s := by
  intro hall
  have hrun : ((runs ⟨5000, 500⟩ (fun _ _ => true) (initial 0 fun _ : Fin 2 => 64)
      (claimRun 0 ++ disownRun 0 ++ .tick 5000 :: .call 0 .unclaimBuffer :: .run 0 :: takeRun 1)).map
      fun s => (step ⟨5000, 500⟩ s (.run 0)).map Except.toBool) = some (some false) := by decide
  obtain ⟨s, hs, herror⟩ := Option.map_eq_some_iff.mp hrun
  obtain ⟨r, hr, hfalse⟩ := Option.map_eq_some_iff.mp herror
  cases r with
  | error e => exact (hall s (reachable_of_runs .refl hs)).noFault _ _ hr
  | ok s' => cases hfalse

end FexEmu.ThreadPool
