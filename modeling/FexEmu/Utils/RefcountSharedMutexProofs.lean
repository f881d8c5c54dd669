import FexEmu.Utils.RefcountSharedMutex
/-!
# refcount_shared_mutex, proofs

When the value is 0, a step that puts no thread to sleep keeps a thread that will wake the others.
-/
namespace FexEmu.RefcountSharedMutex

variable {T : Type} {s s' : State T} {i : T} {a : Action T}

/-! ## Threads -/

/-- What a thread knows where it is. -/
def Thread.Ok (t : Thread) : Prop :=
  match t.pc with
  | .uniqueWait value => value ≠ 0
  | .unlockLoad => t.unique = true
  | .unlockExchange => t.unique = true
  | .sharedExchange _ _ value => value ≠ UNIQUE_LOCK_VALUE
  | .decrementLoad => 0 < t.shared
  | .decrementExchange _ => 0 < t.shared
  | _ => True

@[simp] theorem wakeUp_shared (t : Thread) : t.wakeUp.shared = t.shared := by
  unfold Thread.wakeUp
  split <;> rfl

@[simp] theorem wakeUp_unique (t : Thread) : t.wakeUp.unique = t.unique := by
  unfold Thread.wakeUp
  split <;> rfl

variable {t : Thread} {allowed : Prop}

theorem wakeUp_pc (h : t.asleep = true) : t.wakeUp.pc = .uniqueLoad true ∨ t.wakeUp.pc = .sharedReload := by
  simp only [Thread.asleep, Bool.or_eq_true, decide_eq_true_eq] at h
  obtain h | h := h
  · exact .inl (by simp [Thread.wakeUp, h, Thread.goto])
  · exact .inr (by simp [Thread.wakeUp, h, Thread.goto])

theorem wakeUp_asleep (h : t.asleep = true) : t.wakeUp.asleep = false := by
  obtain h | h := wakeUp_pc h
  · simp [Thread.asleep, h]
  · simp [Thread.asleep, h]

theorem willWake_of_asleep (h : t.asleep = true) : t.willWake = false := by
  simp only [Thread.asleep, Bool.or_eq_true, decide_eq_true_eq] at h
  obtain h | h := h
  · simp [Thread.willWake, h, Pc.retries]
  · simp [Thread.willWake, h, Pc.retries]

theorem wakeUp_ok (h : t.asleep = true) : t.wakeUp.Ok := by
  obtain h | h := wakeUp_pc h
  · simp [Thread.Ok, h]
  · simp [Thread.Ok, h]

/-! ## What a step can do -/

/-- A step that takes and releases nothing. -/
structure SameHolds (s s' : State T) : Prop where
  futex : s'.futex = s.futex
  shared : ∀ j, (s'.threads j).shared = (s.threads j).shared
  unique : ∀ j, (s'.threads j).unique = (s.threads j).unique

/-- While the value is 0, a step has a thread that will wake others, or nobody is to wake, or it neither puts a thread to
sleep nor takes a waker. -/
def KeepsWakers (s s' : State T) : Prop :=
  (∃ j, (s'.threads j).willWake = true) ∨ (∀ j, (s'.threads j).asleep = false) ∨
    ∀ j, ((s'.threads j).asleep = true → (s.threads j).asleep = true) ∧
      ((s.threads j).willWake = true → (s'.threads j).willWake = true)

variable [DecidableEq T]

@[simp] theorem set_self (t : Thread) : (s.set i t).threads i = t := Function.update_self ..

theorem set_of_ne (t : Thread) {j : T} (h : j ≠ i) : (s.set i t).threads j = s.threads j := Function.update_of_ne h ..

@[simp] theorem set_futex (t : Thread) : (s.set i t).futex = s.futex := rfl

/-- The thread that changes what it holds is the last argument of a case. -/
inductive Change (s : State T) (allowed : Prop) : State T → Prop
  | same {s' : State T} (holds : SameHolds s s') (wakers : allowed → s.futex = 0 → KeepsWakers s s') : Change s allowed s'
  | locked (i : T) (t : Thread) (h0 : s.futex = 0) (hshared : t.shared = (s.threads i).shared) (hunique : t.unique = true) :
    Change s allowed ({ s with futex := UNIQUE_LOCK_VALUE }.set i t)
  | unlocked (i : T) (t : Thread) (h : (s.threads i).unique = true) (hshared : t.shared = (s.threads i).shared)
    (hunique : t.unique = false) (hwake : t.willWake = true) : Change s allowed ({ s with futex := 0 }.set i t)
  | incremented (i : T) (t : Thread) (h : s.futex ≠ UNIQUE_LOCK_VALUE) (hshared : t.shared = (s.threads i).shared + 1)
    (hunique : t.unique = (s.threads i).unique) : Change s allowed ({ s with futex := s.futex + 1 }.set i t)
  | decremented (i : T) (t : Thread) (h : 0 < (s.threads i).shared) (hshared : t.shared = (s.threads i).shared - 1)
    (hunique : t.unique = (s.threads i).unique) (hwake : s.futex - 1 = 0 → t.willWake = true) :
    Change s allowed ({ s with futex := s.futex - 1 }.set i t)

omit [DecidableEq T] in
theorem SameHolds.trans {s'' : State T} (h : SameHolds s s') (h' : SameHolds s' s'') : SameHolds s s'' :=
  ⟨h'.futex.trans h.futex, fun j => (h'.shared j).trans (h.shared j), fun j => (h'.unique j).trans (h.unique j)⟩

theorem sameHolds_set (hshared : t.shared = (s.threads i).shared) (hunique : t.unique = (s.threads i).unique) :
    SameHolds s (s.set i t) := by
  refine ⟨rfl, fun j => ?_, fun j => ?_⟩
  all_goals by_cases hj : j = i
  · rw [hj, set_self, hshared]
  · rw [set_of_ne t hj]
  · rw [hj, set_self, hunique]
  · rw [set_of_ne t hj]

theorem sameHolds_goto (i : T) (pc : Pc) : SameHolds s (s.set i ((s.threads i).goto pc)) := sameHolds_set rfl rfl

theorem sameHolds_wake (j : T) : SameHolds s (s.wake j) := sameHolds_set (wakeUp_shared _) (wakeUp_unique _)

theorem change_set (hshared : t.shared = (s.threads i).shared) (hunique : t.unique = (s.threads i).unique)
    (hwakers : allowed → s.futex = 0 → (t.asleep = true → (s.threads i).asleep = true) ∧
      ((s.threads i).willWake = true → t.willWake = true)) : Change s allowed (s.set i t) := by
  refine .same (sameHolds_set hshared hunique) fun ha h0 => .inr (.inr fun j => ?_)
  by_cases hj : j = i
  · rw [hj, set_self]
    exact hwakers ha h0
  · rw [set_of_ne t hj]
    exact ⟨id, id⟩

theorem ok_set {t : Thread} (hok : ∀ j, (s.threads j).Ok) (ht : t.Ok) (futex : BitVec 32) :
    ∀ j, (({ s with futex := futex }.set i t).threads j).Ok := by
  intro j
  by_cases hj : j = i
  · rw [hj, set_self]
    exact ht
  · rw [set_of_ne t hj]
    exact hok j

theorem ok_idle (hok : ∀ j, (s.threads j).Ok) (i : T) : ∀ j, ((s.set i ((s.threads i).goto .idle)).threads j).Ok :=
  @ok_set T s i _ ((s.threads i).goto .idle) hok trivial s.futex

theorem goto_spec {pc : Pc} (hok : ∀ j, (s.threads j).Ok) (ht : ((s.threads i).goto pc).Ok)
    (hwakers : allowed → s.futex = 0 → (((s.threads i).goto pc).asleep = true → (s.threads i).asleep = true) ∧
      ((s.threads i).willWake = true → ((s.threads i).goto pc).willWake = true)) :
    Change s allowed (s.set i ((s.threads i).goto pc)) ∧ ∀ j, ((s.set i ((s.threads i).goto pc)).threads j).Ok :=
  ⟨change_set rfl rfl hwakers, ok_set hok ht s.futex⟩

theorem retried_spec {pc : Pc} (hok : ∀ j, (s.threads j).Ok) (ht : ((s.threads i).retried pc).Ok) (h0 : s.futex ≠ 0) :
    Change s allowed (s.set i ((s.threads i).retried pc)) ∧ ∀ j, ((s.set i ((s.threads i).retried pc)).threads j).Ok :=
  ⟨change_set rfl rfl fun _ h => absurd h h0, ok_set hok ht s.futex⟩

theorem unique_ne_zero : UNIQUE_LOCK_VALUE ≠ 0 := by decide

theorem uniqueFailed_spec {blocking : Bool} (hok : ∀ j, (s.threads j).Ok) (h0 : s.futex ≠ 0) :
    Change s allowed (s.set i (uniqueFailed (s.threads i) blocking s.futex)) ∧
      ∀ j, ((s.set i (uniqueFailed (s.threads i) blocking s.futex)).threads j).Ok := by
  cases blocking with
  | true => exact retried_spec hok h0 h0
  | false => exact retried_spec hok trivial h0

theorem sharedFailed_spec {blocking : Bool} {expected : BitVec 32} (hok : ∀ j, (s.threads j).Ok)
    (h : s.futex = UNIQUE_LOCK_VALUE) :
    Change s allowed (s.set i (sharedFailed (s.threads i) blocking expected)) ∧
      ∀ j, ((s.set i (sharedFailed (s.threads i) blocking expected)).threads j).Ok := by
  have h0 : s.futex ≠ 0 := h ▸ unique_ne_zero
  cases blocking with
  | true => exact retried_spec hok trivial h0
  | false => exact retried_spec hok trivial h0

omit [DecidableEq T] in
theorem wakeAll_spec (hok : ∀ j, (s.threads j).Ok) :
    SameHolds s s.wakeAll ∧ ∀ j, (s.wakeAll.threads j).asleep = false ∧ (s.wakeAll.threads j).Ok := by
  refine ⟨⟨rfl, fun j => ?_, fun j => ?_⟩, fun j => ?_⟩
  all_goals
    simp only [State.wakeAll]
    split_ifs with h
  · exact wakeUp_shared _
  · rfl
  · exact wakeUp_unique _
  · rfl
  · exact ⟨wakeUp_asleep h, wakeUp_ok h⟩
  · exact ⟨Bool.eq_false_of_not_eq_true h, hok j⟩

theorem advance_spec (hok : ∀ j, (s.threads j).Ok) (i : T) :
    Change s (NoWaitForZero s (.advance i)) (s.advance i) ∧ ∀ j, ((s.advance i).threads j).Ok := by
  have hi := hok i
  -- places from which a thread cannot go on
  have hstay : Change s (NoWaitForZero s (.advance i)) s ∧ ∀ j, (s.threads j).Ok :=
    ⟨.same ⟨rfl, fun _ => rfl, fun _ => rfl⟩ fun _ _ => .inr (.inr fun _ => ⟨id, id⟩), hok⟩
  -- one case for each place that a thread can be at
  cases hpc : (s.threads i).pc with
  | idle =>
    simp only [State.advance, hpc]
    exact hstay
  | uniqueLoad blocking =>
    simp only [State.advance, hpc]
    split_ifs with h0
    · exact goto_spec hok trivial fun _ _ => by simp [Thread.asleep, Thread.willWake, Thread.goto, hpc, Pc.retries]
    · exact uniqueFailed_spec hok h0
  | uniqueExchange blocking =>
    simp only [State.advance, hpc]
    split_ifs with h0
    · refine ⟨.locked i _ h0 rfl rfl, ok_set hok ?_ _⟩
      exact trivial
    · exact uniqueFailed_spec hok h0
  | uniqueWait value =>
    simp only [Thread.Ok, hpc] at hi
    simp only [State.advance, hpc]
    split_ifs with hv
    · exact goto_spec hok trivial fun _ h0 => absurd (hv.symm.trans h0) hi
    · exact goto_spec hok trivial fun _ _ => by simp [Thread.asleep, Thread.willWake, Thread.goto, hpc, Pc.retries]
  | uniqueSleep =>
    simp only [State.advance, hpc]
    exact hstay
  | unlockLoad =>
    simp only [Thread.Ok, hpc] at hi
    simp only [State.advance, hpc]
    split_ifs with hv
    · exact goto_spec hok hi fun _ _ => by simp [Thread.asleep, Thread.willWake, Thread.goto, hpc, Pc.retries]
    · exact goto_spec hok trivial fun _ _ => by simp [Thread.asleep, Thread.willWake, Thread.goto]
  | unlockExchange =>
    simp only [Thread.Ok, hpc] at hi
    simp only [State.advance, hpc]
    split_ifs with hv
    · refine ⟨.unlocked i _ hi rfl rfl (by simp [Thread.willWake, Thread.goto]), ok_set hok ?_ _⟩
      exact trivial
    · exact goto_spec hok trivial fun _ _ => by simp [Thread.asleep, Thread.willWake, Thread.goto]
  | wakeAll =>
    simp only [State.advance, hpc]
    obtain ⟨hholds, hawake⟩ := wakeAll_spec (ok_idle hok i)
    exact ⟨.same ((sameHolds_goto i .idle).trans hholds) fun _ _ => .inr (.inl fun j => (hawake j).1), fun j => (hawake j).2⟩
  | sharedLoad blocking expected =>
    simp only [State.advance, hpc]
    split_ifs with hv
    · exact sharedFailed_spec hok hv
    · exact goto_spec hok hv fun _ _ => by simp [Thread.asleep, Thread.willWake, Thread.goto, hpc, Pc.retries]
  | sharedExchange blocking expected value =>
    simp only [Thread.Ok, hpc] at hi
    simp only [State.advance, hpc]
    split_ifs with heq hv
    · subst heq
      refine ⟨.incremented i _ hi rfl rfl, ok_set hok ?_ _⟩
      exact trivial
    · exact sharedFailed_spec hok hv
    · exact goto_spec hok hv fun _ _ => by simp [Thread.asleep, Thread.willWake, Thread.goto, hpc, Pc.retries]
  | sharedWait expected =>
    simp only [State.advance, hpc]
    split_ifs with hv
    · refine goto_spec hok trivial fun ha h0 => absurd h0 (ha ?_)
      rw [hpc, ← hv, h0]
    · exact goto_spec hok trivial fun _ _ => by simp [Thread.asleep, Thread.willWake, Thread.goto, hpc, Pc.retries]
  | sharedSleep =>
    simp only [State.advance, hpc]
    exact hstay
  | sharedReload =>
    simp only [State.advance, hpc]
    split_ifs with hv
    · exact retried_spec hok trivial (hv ▸ unique_ne_zero)
    · exact goto_spec hok trivial fun _ _ => by simp [Thread.asleep, Thread.willWake, Thread.goto, hpc, Pc.retries]
  | decrementLoad =>
    simp only [Thread.Ok, hpc] at hi
    simp only [State.advance, hpc]
    split_ifs with hv
    · exact goto_spec hok trivial fun _ h0 => absurd (hv.symm.trans h0) unique_ne_zero
    · exact goto_spec hok hi fun _ _ => by simp [Thread.asleep, Thread.willWake, Thread.goto, hpc, Pc.retries]
  | decrementExchange value =>
    simp only [Thread.Ok, hpc] at hi
    simp only [State.advance, hpc]
    split_ifs with heq hlast hv
    · subst heq
      refine ⟨.decremented i _ hi rfl rfl fun _ => by simp [Thread.willWake, Thread.goto], ok_set hok ?_ _⟩
      exact trivial
    · subst heq
      refine ⟨.decremented i _ hi rfl rfl fun h => absurd h hlast, ok_set hok ?_ _⟩
      exact trivial
    · exact goto_spec hok trivial fun _ h0 => absurd (hv.symm.trans h0) unique_ne_zero
    · exact goto_spec hok hi fun _ _ => by simp [Thread.asleep, Thread.willWake, Thread.goto, hpc, Pc.retries]
  | wakeOne =>
    simp only [State.advance, hpc]
    exact hstay

theorem step_spec (hok : ∀ j, (s.threads j).Ok) (hstep : Step s a s') :
    Change s (NoWaitForZero s a) s' ∧ ∀ j, (s'.threads j).Ok := by
  cases hstep with
  | @call i f hidle hmay =>
    refine goto_spec hok ?_ fun _ _ => ?_
    · cases f with
      | lock => exact trivial
      | tryLock => exact trivial
      | unlock => exact hmay
      | lockShared => exact trivial
      | tryLockShared => exact trivial
      | unlockShared =>
        have hpos : 0 < (s.threads i).shared := by simpa [Call.may] using hmay
        exact hpos
    · cases f <;> simp [Thread.asleep, Thread.willWake, Thread.goto, Call.entry, hidle, Pc.retries]
  | advance i => exact advance_spec hok i
  | @wakeOne i j hi hj =>
    have hji : j ≠ i := by
      rintro rfl
      simp [Thread.asleep, hi] at hj
    have hj' : (s.set i ((s.threads i).goto .idle)).threads j = s.threads j := set_of_ne _ hji
    refine ⟨.same ((sameHolds_goto i .idle).trans (sameHolds_wake j)) fun _ _ => .inl ⟨j, ?_⟩,
      ok_set (ok_idle hok i) ?_ _⟩
    · rw [State.wake, set_self, hj']
      obtain h | h := wakeUp_pc hj
      · simp [Thread.willWake, h, Pc.retries]
      · simp [Thread.willWake, h, Pc.retries]
    · rw [hj']
      exact wakeUp_ok hj
  | @wakeNone i hi hnone =>
    refine ⟨.same (sameHolds_goto i .idle) fun _ _ => .inr (.inl fun k => ?_), ok_idle hok i⟩
    by_cases hk : k = i
    · rw [hk, set_self]
      rfl
    · rw [set_of_ne _ hk, hnone k]
  | interrupt hi =>
    refine ⟨change_set (wakeUp_shared _) (wakeUp_unique _) fun _ _ => ⟨fun h => ?_, fun h => ?_⟩, ok_set hok (wakeUp_ok hi) _⟩
    · exact hi
    · rw [willWake_of_asleep hi] at h
      cases h

/-! ## Exclusion -/

variable [Fintype T]

omit [DecidableEq T] in
theorem shared_eq_zero (h : s.sharedHolds = 0) (j : T) : (s.threads j).shared = 0 :=
  Finset.sum_eq_zero_iff.mp h j (Finset.mem_univ j)

theorem sharedHolds_set (t : Thread) (futex : BitVec 32) :
    ({ s with futex := futex }.set i t).sharedHolds + (s.threads i).shared = s.sharedHolds + t.shared := by
  unfold State.sharedHolds
  rw [← Finset.add_sum_erase _ _ (Finset.mem_univ i), ← Finset.add_sum_erase _ (fun j => (s.threads j).shared) (Finset.mem_univ i)]
  have hrest : ∑ j ∈ Finset.univ.erase i, (({ s with futex := futex }.set i t).threads j).shared =
      ∑ j ∈ Finset.univ.erase i, (s.threads j).shared := by
    refine Finset.sum_congr rfl fun j hj => ?_
    rw [set_of_ne t (Finset.ne_of_mem_erase hj)]
  rw [hrest, set_self]
  omega

omit [DecidableEq T] in
theorem excludes_of_shared (hnone : ∀ j, (s.threads j).unique = false) (hcount : s.futex.toNat = s.sharedHolds)
    (hbound : s.sharedHolds < UNIQUE_LOCK_VALUE.toNat) : Excludes s := by
  refine ⟨fun i hi => ?_, ⟨fun h => ?_, fun ⟨i, hi⟩ => ?_⟩, fun _ => hcount⟩
  · rw [hnone i] at hi
    cases hi
  · rw [← hcount, h] at hbound
    exact absurd hbound (lt_irrefl _)
  · rw [hnone i] at hi
    cases hi

omit [DecidableEq T] in
theorem Excludes.none_unique (h : Excludes s) (hne : s.futex ≠ UNIQUE_LOCK_VALUE) (j : T) : (s.threads j).unique = false := by
  by_contra hj
  exact hne (h.value.mpr ⟨j, Bool.eq_true_of_not_eq_false hj⟩)

omit [Fintype T] in
theorem unique_set {futex : BitVec 32} (hothers : ∀ j, j ≠ i → (s.threads j).unique = false)
    (ht : t.unique = false) (j : T) : (({ s with futex := futex }.set i t).threads j).unique = false := by
  by_cases hj : j = i
  · rw [hj, set_self, ht]
  · rw [set_of_ne t hj]
    exact hothers j hj

theorem Excludes.change (h : Excludes s) (hc : Change s allowed s')
    (hbound : s'.sharedHolds < UNIQUE_LOCK_VALUE.toNat) : Excludes s' := by
  cases hc with
  | same holds _ =>
    have hsum : s'.sharedHolds = s.sharedHolds := Finset.sum_congr rfl fun j _ => holds.shared j
    refine ⟨fun i hi j => ?_, ?_, fun hne => ?_⟩
    · rw [holds.unique] at hi
      rw [holds.shared, holds.unique]
      exact h.unique i hi j
    · simp only [holds.futex, holds.unique]
      exact h.value
    · rw [holds.futex] at hne ⊢
      rw [h.count hne, hsum]
  | locked i t h0 hshared hunique =>
    -- the word was 0, so nobody held it
    have hne : s.futex ≠ UNIQUE_LOCK_VALUE := h0 ▸ unique_ne_zero.symm
    have hzero : s.sharedHolds = 0 := by
      rw [← h.count hne, h0]
      rfl
    have hi : ∀ k, (({ s with futex := UNIQUE_LOCK_VALUE }.set i t).threads k).unique = true → k = i := by
      intro k hk
      by_contra hki
      rw [set_of_ne t hki] at hk
      exact Bool.false_ne_true ((h.none_unique hne k).symm.trans hk)
    refine ⟨fun k hk j => ⟨?_, fun hj => ?_⟩, ⟨fun _ => ⟨i, by rw [set_self, hunique]⟩, fun _ => rfl⟩,
      fun hne' => absurd rfl hne'⟩
    · by_cases hj : j = i
      · rw [hj, set_self, hshared, shared_eq_zero hzero]
      · rw [set_of_ne t hj]
        exact shared_eq_zero hzero j
    · by_contra hju
      exact hj ((hi j (Bool.eq_true_of_not_eq_false hju)).trans (hi k hk).symm)
  | unlocked i t hi hshared hunique hwake =>
    have hzero : ({ s with futex := 0 }.set i t).sharedHolds = 0 := by
      refine Finset.sum_eq_zero fun j _ => ?_
      by_cases hj : j = i
      · rw [hj, set_self, hshared, (h.unique i hi i).1]
      · rw [set_of_ne t hj]
        exact (h.unique i hi j).1
    exact excludes_of_shared (unique_set (fun j => (h.unique i hi j).2) hunique) hzero.symm hbound
  | incremented i t hne hshared hunique =>
    have hsum := @sharedHolds_set T s i _ _ t (s.futex + 1)
    have hcount := h.count hne
    have hnone := h.none_unique hne
    refine excludes_of_shared (unique_set (fun j _ => hnone j) (hunique.trans (hnone i))) ?_ hbound
    have hone : (1 : BitVec 32).toNat = 1 := rfl
    rw [set_futex, BitVec.toNat_add, hone]
    omega
  | decremented i t hi hshared hunique hwake =>
    have hne : s.futex ≠ UNIQUE_LOCK_VALUE := by
      intro heq
      obtain ⟨k, hk⟩ := h.value.mp heq
      have := (h.unique k hk i).1
      omega
    have hsum := @sharedHolds_set T s i _ _ t (s.futex - 1)
    have hcount := h.count hne
    have hnone := h.none_unique hne
    refine excludes_of_shared (unique_set (fun j _ => hnone j) (hunique.trans (hnone i))) ?_ hbound
    have hone : (1 : BitVec 32).toNat = 1 := rfl
    rw [set_futex, BitVec.toNat_sub, hone]
    omega

omit [Fintype T] in
theorem NoLostWakeUp.change (h : NoLostWakeUp s) (hc : Change s allowed s') (ha : allowed)
    (hpos : s.futex ≠ UNIQUE_LOCK_VALUE → s.futex + 1 ≠ 0) : NoLostWakeUp s' := by
  intro h0 hasleep
  cases hc with
  | same holds wakers =>
    have h0' : s.futex = 0 := holds.futex ▸ h0
    obtain hwake | hnone | hkeep := wakers ha h0'
    · exact hwake
    · obtain ⟨j, hj⟩ := hasleep
      rw [hnone j] at hj
      cases hj
    · obtain ⟨j, hj⟩ := hasleep
      obtain ⟨k, hk⟩ := h h0' ⟨j, (hkeep j).1 hj⟩
      exact ⟨k, (hkeep k).2 hk⟩
  | locked i t _ _ _ => exact absurd h0 unique_ne_zero
  | unlocked i t _ _ _ hwake => exact ⟨i, by rw [set_self, hwake]⟩
  | incremented i t hne _ _ => exact absurd h0 (hpos hne)
  | decremented i t _ _ _ hwake => exact ⟨i, by rw [set_self, hwake h0]⟩

/-! ## All runs -/

omit [DecidableEq T] in
theorem excludes_initial : Excludes (initial : State T) := by
  refine excludes_of_shared (fun _ => rfl) ?_ ?_
  · simp [State.sharedHolds, initial]
  · simp only [State.sharedHolds, initial, Finset.sum_const_zero]
    decide

theorem inv_of_reachable {allowed : State T → Action T → Prop} (h : Reachable allowed s) :
    Excludes s ∧ s.sharedHolds < UNIQUE_LOCK_VALUE.toNat ∧ ∀ j, (s.threads j).Ok := by
  induction h with
  | refl =>
    refine ⟨excludes_initial, ?_, fun _ => trivial⟩
    simp only [State.sharedHolds, initial, Finset.sum_const_zero]
    decide
  | tail _ hstep ih =>
    obtain ⟨hexcludes, -, hok⟩ := ih
    obtain ⟨a, -, hstep, hbound⟩ := hstep
    obtain ⟨hchange, hok'⟩ := step_spec hok hstep
    exact ⟨hexcludes.change hchange hbound, hbound, hok'⟩

theorem noLostWakeUp_of_reachable (h : Reachable NoWaitForZero s) : NoLostWakeUp s := by
  induction h with
  | refl =>
    rintro - ⟨j, hj⟩
    cases hj
  | tail hs hstep ih =>
    obtain ⟨hexcludes, hbound, hok⟩ := inv_of_reachable hs
    obtain ⟨a, ha, hstep, -⟩ := hstep
    refine ih.change (step_spec hok hstep).1 ha fun hne h0 => ?_
    have hcount := hexcludes.count hne
    have hone : (1 : BitVec 32).toNat = 1 := rfl
    have hzero := congrArg BitVec.toNat h0
    rw [BitVec.toNat_add, hone] at hzero
    have : (0 : BitVec 32).toNat = 0 := rfl
    omega

/-- The mutex excludes in every run, and loses no wake-up in those in which no `lock_shared` waits for a 0. -/
theorem mutex_safe (T : Type) [DecidableEq T] [Fintype T] :
    (∀ s : State T, Reachable (fun _ _ => True) s → Excludes s) ∧
      ∀ s : State T, Reachable NoWaitForZero s → Excludes s ∧ NoLostWakeUp s :=
  ⟨fun _ h => (inv_of_reachable h).1, fun _ h => ⟨(inv_of_reachable h).1, noLostWakeUp_of_reachable h⟩⟩

/-! ## Two runs -/

instance (s : State T) : (a : Action T) → Decidable (NoWaitForZero s a)
  | .advance i => inferInstanceAs (Decidable ((s.threads i).pc = .sharedWait 0 → s.futex ≠ 0))
  | .call _ _ => .isTrue trivial
  | .wakeOne _ _ => .isTrue trivial
  | .interrupt _ => .isTrue trivial

/-- The calls and the steps that follow them. -/
def perform (s : State T) : Action T → Option (State T)
  | .call i f =>
    if (s.threads i).pc = .idle ∧ f.may (s.threads i) = true then some (s.set i ((s.threads i).goto f.entry)) else none
  | .advance i => some (s.advance i)
  | _ => none

theorem Reachable.perform {allowed : State T → Action T → Prop} (hs : Reachable allowed s) (ha : allowed s a)
    (h : perform s a = some s') (hbound : s'.sharedHolds < UNIQUE_LOCK_VALUE.toNat) : Reachable allowed s' := by
  refine hs.tail ⟨a, ha, ?_, hbound⟩
  cases a with
  | call i f =>
    simp only [RefcountSharedMutex.perform] at h
    split_ifs at h with hcall
    cases h
    exact .call hcall.1 hcall.2
  | advance i =>
    cases h
    exact .advance i
  | wakeOne i j => cases h
  | interrupt i => cases h

def runs (allowed : State T → Action T → Prop) [∀ s a, Decidable (allowed s a)] (s : State T) :
    List (Action T) → Option (State T)
  | [] => some s
  | a :: rest =>
    match perform s a with
    | none => none
    | some s' => if allowed s a ∧ s'.sharedHolds < UNIQUE_LOCK_VALUE.toNat then runs allowed s' rest else none

theorem reachable_of_runs {allowed : State T → Action T → Prop} [∀ s a, Decidable (allowed s a)] (actions : List (Action T)) :
    ∀ {s : State T}, Reachable allowed s → runs allowed s actions = some s' → Reachable allowed s' := by
  induction actions with
  | nil =>
    intro s hs h
    cases h
    exact hs
  | cons a rest ih =>
    intro s hs h
    simp only [runs] at h
    split at h
    · cases h
    · case h_2 t hperform =>
      split_ifs at h with hallowed
      exact ih (hs.perform hallowed.1 hperform hallowed.2) h

/-- `lock` and `unlock` without another thread. -/
def lockRun (i : Fin 2) : List (Action (Fin 2)) := [.call i .lock, .advance i, .advance i]

def unlockRun (i : Fin 2) : List (Action (Fin 2)) := [.call i .unlock, .advance i, .advance i, .advance i]

/-- A thread has the lock, and another one sleeps in `lock_shared`. -/
theorem mutex_safe_sleeping : ∃ s : State (Fin 2), s.futex = UNIQUE_LOCK_VALUE ∧ (s.threads 1).asleep = true ∧
    Excludes s ∧ NoLostWakeUp s := by
  have hrun : ((runs NoWaitForZero (initial : State (Fin 2))
      (lockRun 0 ++ [.call 1 .lockShared, .advance 1, .advance 1])).map fun s => (s.futex, (s.threads 1).asleep)) =
      some (UNIQUE_LOCK_VALUE, true) := by decide
  obtain ⟨s, hs, hfacts⟩ := Option.map_eq_some_iff.mp hrun
  obtain ⟨hfutex, hasleep⟩ := Prod.mk.inj hfacts
  exact ⟨s, hfutex, hasleep, (mutex_safe (Fin 2)).2 s (reachable_of_runs _ .refl hs)⟩

/-- A thread in `lock_shared` reads a 0 between two unique locks, fails to get the mutex, and then waits for the 0. -/
theorem mutex_lost_wakeUp : ¬∀ s : State (Fin 2), Reachable (fun _ _ => True) s → NoLostWakeUp s := by
  intro hall
  have hrun : ((runs (fun _ _ => True) (initial : State (Fin 2))
      (lockRun 0 ++ [.call 1 .lockShared, .advance 1] ++ unlockRun 0 ++ [.advance 1, .advance 1] ++ lockRun 0 ++
        [.advance 1] ++ unlockRun 0 ++ [.advance 1])).map fun s =>
          (s.futex, (s.threads 1).asleep, (s.threads 0).willWake, (s.threads 1).willWake)) = some (0, true, false, false) := by
    decide
  obtain ⟨s, hs, hfacts⟩ := Option.map_eq_some_iff.mp hrun
  simp only [Prod.mk.injEq] at hfacts
  obtain ⟨hfutex, hasleep, h0, h1⟩ := hfacts
  obtain ⟨i, hi⟩ := hall s (reachable_of_runs _ .refl hs) hfutex ⟨1, hasleep⟩
  fin_cases i
  · exact Bool.false_ne_true (h0.symm.trans hi)
  · exact Bool.false_ne_true (h1.symm.trans hi)

end FexEmu.RefcountSharedMutex
