import Mathlib.Tactic
/-!
# Triples for programs with a state

`Triple P m Q` says that a run of `m` from a state of `P` that does not fail ends in a state of `Q`.
-/
namespace FexEmu.Hoare

variable {σ ε α β : Type} {P P' : σ → Prop} {m : StateT σ (Except ε) α} {Q Q' : α → σ → Prop}

/-- Partial correctness: a run that throws meets every postcondition. -/
def Triple (P : σ → Prop) (m : StateT σ (Except ε) α) (Q : α → σ → Prop) : Prop :=
  ∀ s a s', P s → m s = .ok (a, s') → Q a s'

theorem Triple.consequence (h : Triple P m Q) (hP : ∀ s, P' s → P s) (hQ : ∀ a s, Q a s → Q' a s) :
    Triple P' m Q' :=
  fun s a s' hs hm => hQ a s' (h s a s' (hP s hs) hm)

theorem Triple.pure (a : α) (h : ∀ s, P s → Q a s) : Triple P (Pure.pure a : StateT σ (Except ε) α) Q := by
  intro s b s' hs hm
  cases hm
  exact h s hs

variable {f : α → StateT σ (Except ε) β}

theorem Triple.bind {R : β → σ → Prop} (hm : Triple P m Q) (hf : ∀ a, Triple (Q a) (f a) R) : Triple P (m >>= f) R := by
  intro s b s' hs hrun
  change (m s >>= fun x => f x.1 x.2) = .ok (b, s') at hrun
  cases hms : m s with
  | error e =>
    rw [hms] at hrun
    cases hrun
  | ok x =>
    rw [hms] at hrun
    exact hf x.1 x.2 b s' (hm s x.1 x.2 hs hms) hrun

theorem Triple.throw (e : ε) : Triple P (MonadExcept.throw e : StateT σ (Except ε) α) Q := by
  intro s a s' _ hm
  cases hm

theorem Triple.get {f : σ → StateT σ (Except ε) α} (h : ∀ s, P s → Triple (fun s' => s' = s) (f s) Q) :
    Triple P (MonadState.get >>= f) Q := by
  intro s a s' hs hm
  exact h s hs s a s' rfl hm

theorem Triple.modify {f : σ → σ} {R : Unit → σ → Prop} (h : ∀ s, P s → R () (f s)) :
    Triple P (modifyGet (fun s => ((), f s)) : StateT σ (Except ε) Unit) R := by
  intro s a s' hs hm
  cases hm
  exact h s hs

theorem Triple.ite {c : Prop} [Decidable c] {m' : StateT σ (Except ε) α} (h : c → Triple P m Q)
    (h' : ¬ c → Triple P m' Q) : Triple P (if c then m else m') Q := by
  by_cases hc : c
  · rw [if_pos hc]
    exact h hc
  · rw [if_neg hc]
    exact h' hc

/-! ## Programs that only read -/

/-- The computation leaves the state as it is. -/
def Reads (m : StateT σ (Except ε) α) : Prop := ∀ s a s', m s = .ok (a, s') → s' = s

theorem Reads.pure (a : α) : Reads (Pure.pure a : StateT σ (Except ε) α) := by
  intro s b s' hm
  cases hm
  rfl

theorem Reads.throw (e : ε) : Reads (MonadExcept.throw e : StateT σ (Except ε) α) := by
  intro s a s' hm
  cases hm

theorem Reads.get {f : σ → StateT σ (Except ε) α} (h : ∀ s, Reads (f s)) : Reads (MonadState.get >>= f) :=
  fun s a s' hm => h s s a s' hm

theorem Reads.bind (hm : Reads m) (hf : ∀ a, Reads (f a)) : Reads (m >>= f) := by
  intro s b s' hrun
  have h : Triple (fun s' => s' = s) (m >>= f) (fun _ s' => s' = s) := by
    refine Triple.bind (Q := fun _ s' => s' = s) ?_ ?_
    · rintro t a t' rfl ht
      exact hm _ a t' ht
    · rintro a t b t' rfl ht
      exact hf a _ b t' ht
  exact h s b s' rfl hrun

theorem Triple.bind_reads {R : β → σ → Prop} (hm : Reads m) (hf : ∀ a, Triple P (f a) R) : Triple P (m >>= f) R := by
  refine Triple.bind (Q := fun _ => P) ?_ hf
  intro s a s' hs hrun
  rw [hm s a s' hrun]
  exact hs

end FexEmu.Hoare
