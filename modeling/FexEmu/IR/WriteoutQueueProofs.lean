import FexEmu.IR.WriteoutQueue
/-!
# The writeout queue of the AOT cache, proofs

At most one thread flushes. Where it is says which function is out of the queue and has not run yet.
-/
namespace FexEmu.IR.Writeout

variable {T F : Type} {s : State T F} {i : T}

/-! ## The invariant -/

/-- What has happened to the functions, by the place of the thread that flushes. -/
def PlaceInv (s : State T F) : Place F → Prop
  | .look => s.started = s.finished ∧ s.pushed = s.finished ++ s.queue
  | .loop => s.started = s.finished ∧ s.pushed = s.finished ++ s.queue ∧ s.queue ≠ []
  | .taken fn maybeEmpty =>
    s.started = s.finished ∧ s.pushed = s.finished ++ fn :: s.queue ∧ (maybeEmpty = false → s.queue ≠ [])
  | .running fn maybeEmpty =>
    s.started = s.finished ++ [fn] ∧ s.pushed = s.finished ++ fn :: s.queue ∧ (maybeEmpty = false → s.queue ≠ [])

/-- One thread flushes, and is the only one. -/
structure Flusher (s : State T F) (i : T) (caller : Caller) (place : Place F) : Prop where
  thread : s.threads i = .flushing caller place
  only : ∀ j, j ≠ i → (s.threads j).flushes = false
  flag : caller = .append → s.flusing = true
  functions : PlaceInv s place

/-- No empty queue was popped, and at most one thread flushes. -/
structure Inv (s : State T F) : Prop where
  notEmpty : s.emptyPopped = false
  flush : (s.Quiet ∧ PlaceInv s .look) ∨ ∃ i caller place, Flusher s i caller place

variable {place : Place F}

theorem PlaceInv.congr {s' : State T F} (h : PlaceInv s place) (hq : s'.queue = s.queue)
    (hp : s'.pushed = s.pushed) (hs : s'.started = s.started) (hf : s'.finished = s.finished) : PlaceInv s' place := by
  cases place with
  | look => simpa only [PlaceInv, hq, hp, hs, hf] using h
  | loop => simpa only [PlaceInv, hq, hp, hs, hf] using h
  | taken fn m => simpa only [PlaceInv, hq, hp, hs, hf] using h
  | running fn m => simpa only [PlaceInv, hq, hp, hs, hf] using h

theorem PlaceInv.push (h : PlaceInv s place) (fn : F) :
    PlaceInv { s with queue := s.queue ++ [fn], pushed := s.pushed ++ [fn] } place := by
  cases place with
  | look =>
    obtain ⟨hs, hp⟩ := h
    exact ⟨hs, by rw [hp, List.append_assoc]⟩
  | loop =>
    obtain ⟨hs, hp, -⟩ := h
    exact ⟨hs, by rw [hp, List.append_assoc], by simp⟩
  | taken fn' m =>
    obtain ⟨hs, hp, -⟩ := h
    exact ⟨hs, by simp [hp], by simp⟩
  | running fn' m =>
    obtain ⟨hs, hp, -⟩ := h
    exact ⟨hs, by simp [hp], by simp⟩

theorem PlaceInv.inOrder (h : PlaceInv s place) : s.started <+: s.pushed := by
  cases place with
  | look => exact ⟨s.queue, by rw [h.1, h.2]⟩
  | loop => exact ⟨s.queue, by rw [h.1, h.2.1]⟩
  | taken fn m => exact ⟨fn :: s.queue, by rw [h.1, h.2.1]⟩
  | running fn m => exact ⟨s.queue, by rw [h.1, h.2.1, List.append_assoc, List.singleton_append]⟩

theorem inv_initial : Inv (initial : State T F) := ⟨rfl, .inl ⟨fun _ => rfl, rfl, rfl⟩⟩

/-! ## Moving a thread -/

variable [DecidableEq T]

@[simp] theorem goto_threads_self (pc : Pc F) : (s.goto i pc).threads i = pc := Function.update_self ..

theorem goto_threads_of_ne (pc : Pc F) {j : T} (h : j ≠ i) : (s.goto i pc).threads j = s.threads j :=
  Function.update_of_ne h ..

theorem Inv.goto (h : Inv s) (hi : (s.threads i).flushes = false) {pc : Pc F} (hpc : pc.flushes = false) :
    Inv (s.goto i pc) := by
  have hthreads : ∀ j, (s.threads j).flushes = false → ((s.goto i pc).threads j).flushes = false := by
    intro j hj
    by_cases hji : j = i
    · rw [hji, goto_threads_self, hpc]
    · rw [goto_threads_of_ne pc hji, hj]
  refine ⟨h.notEmpty, ?_⟩
  obtain ⟨hquiet, hplace⟩ | ⟨k, caller, place, hk⟩ := h.flush
  · exact .inl ⟨fun j => hthreads j (hquiet j), hplace.congr rfl rfl rfl rfl⟩
  · have hki : k ≠ i := by
      rintro rfl
      rw [hk.thread] at hi
      cases hi
    exact .inr ⟨k, caller, place, by rw [goto_threads_of_ne pc hki, hk.thread], fun j hj => hthreads j (hk.only j hj), hk.flag,
      hk.functions.congr rfl rfl rfl rfl⟩

theorem flusher_goto {caller : Caller} (honly : ∀ j, j ≠ i → (s.threads j).flushes = false)
    (hflag : caller = .append → s.flusing = true) (h : PlaceInv s place) :
    Flusher (s.goto i (.flushing caller place)) i caller place :=
  ⟨goto_threads_self _, fun j hj => by rw [goto_threads_of_ne _ hj, honly j hj], hflag, h.congr rfl rfl rfl rfl⟩

theorem quiet_goto (honly : ∀ j, j ≠ i → (s.threads j).flushes = false) : (s.goto i .outside).Quiet := by
  intro j
  by_cases hj : j = i
  · rw [hj, goto_threads_self]
    rfl
  · rw [goto_threads_of_ne _ hj, honly j hj]

/-! ## Steps -/

theorem Inv.append (h : Inv s) (hi : s.threads i = .outside) (fn : F) : Inv (s.append i fn) := by
  have hpush : Inv { s with queue := s.queue ++ [fn], pushed := s.pushed ++ [fn] } := by
    refine ⟨h.notEmpty, ?_⟩
    obtain ⟨hquiet, hplace⟩ | ⟨k, caller, place, hk⟩ := h.flush
    · exact .inl ⟨hquiet, hplace.push fn⟩
    · exact .inr ⟨k, caller, place, hk.thread, hk.only, hk.flag, hk.functions.push fn⟩
  simp only [State.append]
  split_ifs
  · exact hpush.goto (by simp [hi, Pc.flushes]) rfl
  · exact hpush

theorem Inv.finalize (h : Inv s) (hquiet : s.Quiet) : Inv (s.goto i (.flushing .finalize .look)) := by
  refine ⟨h.notEmpty, .inr ⟨i, .finalize, .look, flusher_goto (fun j _ => hquiet j) (fun hc => by cases hc) ?_⟩⟩
  obtain ⟨-, hplace⟩ | ⟨k, caller, place, hk⟩ := h.flush
  · exact hplace
  · have := hquiet k
    rw [hk.thread] at this
    cases this

theorem Inv.compareExchange (h : Inv s) (hi : s.threads i = .pushed) (hfree : s.flusing = true ∨ s.Quiet) :
    Inv (s.compareExchange i) := by
  unfold State.compareExchange
  split_ifs with hflag
  · exact h.goto (by simp [hi, Pc.flushes]) rfl
  · have hquiet : s.Quiet := hfree.resolve_left hflag
    refine ⟨h.notEmpty, .inr ⟨i, .append, .look, flusher_goto (fun j _ => hquiet j) (fun _ => rfl) ?_⟩⟩
    obtain ⟨-, hplace⟩ | ⟨k, caller, place, hk⟩ := h.flush
    · exact hplace.congr rfl rfl rfl rfl
    · have := hquiet k
      rw [hk.thread] at this
      cases this

section Flush
variable {caller : Caller}

theorem Flusher.look (h : Flusher s i caller .look) (he : s.emptyPopped = false) : Inv (s.look i caller) := by
  obtain ⟨hs, hp⟩ := h.functions
  unfold State.look
  split_ifs with hempty
  · exact ⟨he, .inl ⟨quiet_goto h.only, hs, hp⟩⟩
  · have hne : s.queue ≠ [] := fun h0 => hempty (by rw [h0]; rfl)
    exact ⟨he, .inr ⟨i, caller, .loop, flusher_goto h.only h.flag ⟨hs, hp, hne⟩⟩⟩

theorem Flusher.take (h : Flusher s i caller .loop) (he : s.emptyPopped = false) : Inv (s.take i caller) := by
  obtain ⟨hs, hp, hne⟩ := h.functions
  unfold State.take
  cases hq : s.queue with
  | nil => exact absurd hq hne
  | cons fn queue =>
    refine ⟨he, .inr ⟨i, caller, .taken fn (queue.length = 0), flusher_goto h.only h.flag ⟨hs, ?_, ?_⟩⟩⟩
    · simp [hp, hq]
    · simp

theorem Flusher.start {fn : F} {m : Bool} (h : Flusher s i caller (.taken fn m)) (he : s.emptyPopped = false) :
    Inv ({ s with started := s.started ++ [fn] }.goto i (.flushing caller (.running fn m))) := by
  obtain ⟨hs, hp, hm⟩ := h.functions
  exact ⟨he, .inr ⟨i, caller, .running fn m, flusher_goto h.only h.flag ⟨by rw [hs], hp, hm⟩⟩⟩

theorem Flusher.finish {fn : F} {m : Bool} (h : Flusher s i caller (.running fn m)) (he : s.emptyPopped = false) :
    Inv ({ s with finished := s.finished ++ [fn] }.goto i (.flushing caller (if m then .look else .loop))) := by
  obtain ⟨hs, hp, hm⟩ := h.functions
  have hpushed : s.pushed = s.finished ++ [fn] ++ s.queue := by simp [hp]
  refine ⟨he, .inr ⟨i, caller, _, flusher_goto h.only h.flag ?_⟩⟩
  cases m with
  | true => exact ⟨hs, hpushed⟩
  | false => exact ⟨hs, hpushed, hm rfl⟩

end Flush

theorem Inv.flusher (h : Inv s) {caller : Caller} (hi : s.threads i = .flushing caller place) :
    Flusher s i caller place := by
  obtain ⟨hquiet, -⟩ | ⟨k, caller', place', hk⟩ := h.flush
  · have := hquiet i
    rw [hi] at this
    cases this
  · by_cases hik : i = k
    · subst hik
      obtain ⟨rfl, rfl⟩ : caller' = caller ∧ place' = place := by simpa using hk.thread.symm.trans hi
      exact hk
    · have := hk.only i hik
      rw [hi] at this
      cases this

theorem Inv.step {s' : State T F} {a : Action T F} (h : Inv s) (ha : Allowed s a) (hs : step s a = some s') : Inv s' := by
  cases a with
  | append i fn =>
    cases hi : s.threads i with
    | outside =>
      simp only [Writeout.step, hi, Option.some.injEq] at hs
      exact hs ▸ h.append hi fn
    | pushed => simp [Writeout.step, hi] at hs
    | flushing caller place => simp [Writeout.step, hi] at hs
  | finalize i =>
    cases hi : s.threads i with
    | outside =>
      simp only [Writeout.step, hi, Option.some.injEq] at hs
      exact hs ▸ h.finalize ha
    | pushed => simp [Writeout.step, hi] at hs
    | flushing caller place => simp [Writeout.step, hi] at hs
  | advance i =>
    simp only [Writeout.step, Option.some.injEq] at hs
    subst hs
    unfold State.advance
    cases hi : s.threads i with
    | outside => exact h
    | pushed => exact h.compareExchange hi (ha hi)
    | flushing caller place =>
      have hf := h.flusher hi
      cases place with
      | look => exact hf.look h.notEmpty
      | loop => exact hf.take h.notEmpty
      | taken fn m => exact hf.start h.notEmpty
      | running fn m => exact hf.finish h.notEmpty

/-! ## All runs -/

theorem inv_of_reachable (h : Reachable Allowed s) : Inv s := by
  induction h with
  | refl => exact inv_initial
  | tail _ hstep ih =>
    obtain ⟨a, ha, hs⟩ := hstep
    exact ih.step ha hs

theorem Inv.safe (h : Inv s) : Safe s := by
  refine ⟨fun i j c d fn fn' m m' hi hj => ?_, ?_, h.notEmpty, fun i place hi hout _ => ?_⟩
  · by_contra hij
    have := (h.flusher hi).only j (Ne.symm hij)
    rw [hj] at this
    cases this
  · obtain ⟨-, hplace⟩ | ⟨k, caller, place, hk⟩ := h.flush
    · exact hplace.inOrder
    · exact hk.functions.inOrder
  · have hf := h.flusher hi
    cases place with
    | look =>
      obtain ⟨-, hp⟩ := hf.functions
      simp only [State.advance, hi, State.look] at hout ⊢
      split_ifs at hout ⊢ with hempty
      · rw [List.length_eq_zero_iff.mp hempty, List.append_nil] at hp
        exact hp.symm
      · simp at hout
    | loop =>
      simp only [State.advance, hi, State.take] at hout
      split at hout
      · rw [hi] at hout
        cases hout
      · simp at hout
    | taken fn m => simp [State.advance, hi] at hout
    | running fn m => simp [State.advance, hi] at hout

/-- Any number of threads, and any interleaving of their steps in which no flush begins while another one goes on. -/
theorem writeout_safe (h : Reachable Allowed s) : Safe s := (inv_of_reachable h).safe

/-! ## Two runs -/

theorem Reachable.step {allowed : State T F → Action T F → Prop} {s' : State T F} (h : Reachable allowed s)
    (a : Action T F) (ha : allowed s a) (hs : Writeout.step s a = some s') : Reachable allowed s' := h.tail ⟨a, ha, hs⟩

omit [DecidableEq T] in
theorem allowed_advance (h : s.threads i ≠ .pushed) : Allowed s (.advance i) := fun h' => absurd h' h

/-- A function is pushed, and `FinalizeAOTIRCache` runs it. -/
theorem writeout_safe_finalize : ∃ s : State (Fin 2) Nat, Reachable Allowed s ∧ s.finished = [7] ∧ Safe s := by
  have h1 : Reachable Allowed ((initial : State (Fin 2) Nat).append 0 7) :=
    Reachable.step .refl (.append 0 7) trivial rfl
  have h2 := h1.step (.finalize 1) (fun _ => rfl) rfl
  have h3 := h2.step (.advance 1) (allowed_advance (by decide)) rfl
  have h4 := h3.step (.advance 1) (allowed_advance (by decide)) rfl
  have h5 := h4.step (.advance 1) (allowed_advance (by decide)) rfl
  have h6 := h5.step (.advance 1) (allowed_advance (by decide)) rfl
  exact ⟨_, h6, rfl, writeout_safe h6⟩

theorem reachable_pushes (n : Nat) (hn : n ≤ 10000) :
    ∃ s : State (Fin 2) Nat, Reachable (fun _ _ => True) s ∧ s.queue.length = n ∧ s.flusing = false ∧
      s.threads = fun _ => .outside := by
  induction n with
  | zero => exact ⟨initial, .refl, rfl, rfl, rfl⟩
  | succ n ih =>
    obtain ⟨s, hs, hlen, hflag, hthreads⟩ := ih (by omega)
    have happend : s.append 0 0 = { s with queue := s.queue ++ [0], pushed := s.pushed ++ [0] } := by
      exact if_neg (by simp; omega)
    refine ⟨s.append 0 0, Reachable.step hs (.append 0 0) trivial (by simp [step, hthreads]), ?_, ?_, ?_⟩
    · rw [happend, List.length_append, hlen, List.length_singleton]
    · rw [happend, hflag]
    · rw [happend, hthreads]

/-- The queue is full, the `Append` of one thread flushes it, and `FinalizeAOTIRCache` does so on another. -/
theorem writeout_not_alone : ¬∀ s : State (Fin 2) Nat, Reachable (fun _ _ => True) s → Safe s := by
  intro hall
  obtain ⟨s, hs, hlen, hflag, hthreads⟩ := reachable_pushes 10000 le_rfl
  obtain ⟨a, b, queue, hqueue⟩ : ∃ a b queue, s.queue = a :: b :: queue := by
    match h : s.queue with
    | [] => simp [h] at hlen
    | [_] => simp [h] at hlen
    | a :: b :: queue => exact ⟨a, b, queue, rfl⟩
  have hfull : s.append 0 0 =
      { s with queue := a :: b :: (queue ++ [0]), pushed := s.pushed ++ [0] }.goto 0 .pushed := by
    simp only [State.append]
    rw [if_pos (by simp [hlen]), hqueue]
    rfl
  have h1 : Reachable (fun _ _ => True) (s.append 0 0) := hs.step (.append 0 0) trivial (by simp only [step, hthreads])
  have h2 := h1.step (.advance 0) trivial rfl
  have h3 : Reachable (fun _ _ => True) (((s.append 0 0).advance 0).goto 1 (.flushing .finalize .look)) := by
    refine h2.step (.finalize 1) trivial ?_
    rw [hfull]
    simp [step, State.advance, State.compareExchange, State.goto, hthreads, hflag]
  have h4 := ((h3.step (.advance 0) trivial rfl).step (.advance 0) trivial rfl).step (.advance 0) trivial rfl
  have h5 := ((h4.step (.advance 1) trivial rfl).step (.advance 1) trivial rfl).step (.advance 1) trivial rfl
  have hend : ∃ s : State (Fin 2) Nat, Reachable (fun _ _ => True) s ∧
      s.threads 0 = .flushing .append (.running a false) ∧ ∃ fn m, s.threads 1 = .flushing .finalize (.running fn m) := by
    refine ⟨_, h5, ?_, ?_⟩
    · rw [hfull]
      simp [State.advance, State.compareExchange, State.look, State.take, State.goto, hflag, Function.update]
    · rw [hfull]
      simp [State.advance, State.compareExchange, State.look, State.take, State.goto, hflag, Function.update]
  obtain ⟨s, hs, h0, fn, m, h1⟩ := hend
  exact absurd ((hall s hs).alone 0 1 _ _ _ _ _ _ h0 h1) (by decide)

end FexEmu.IR.Writeout
