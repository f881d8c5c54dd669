import Mathlib.Data.Set.Card
import Mathlib.Tactic
/-!
# What a worklist goes on to

The elements that a worklist will still take are the ones that the waiting elements lead to, whatever the order.
-/
namespace FexEmu.Worklist

variable {α : Type*} {succ : α → Set α} {waiting waiting' done done' : Set α} {a : α}

/-- The elements that are still to be taken. -/
inductive Pending (succ : α → Set α) (waiting done : Set α) : α → Prop
  | waiting {a : α} : a ∈ waiting → Pending succ waiting done a
  | succ {a b : α} : Pending succ waiting done a → b ∈ succ a → b ∉ done → Pending succ waiting done b

/-- One step of a worklist: a is done and its successors wait. -/
structure Takes (succ : α → Set α) (a : α) (waiting done waiting' done' : Set α) : Prop where
  taken : a ∈ waiting
  waiting_iff : ∀ b, b ∈ waiting' ↔ b ≠ a ∧ (b ∈ waiting ∨ b ∈ succ a ∧ b ∉ done)
  done_iff : ∀ b, b ∈ done' ↔ b = a ∨ b ∈ done

theorem Takes.pending_of_pending (h : Takes succ a waiting done waiting' done') {b : α}
    (hb : Pending succ waiting' done' b) : Pending succ waiting done b := by
  induction hb with
  | waiting hb =>
    rcases ((h.waiting_iff _).mp hb).2 with hw | ⟨hs, hd⟩
    · exact .waiting hw
    · exact .succ (.waiting h.taken) hs hd
  | succ _ hs hd ih => exact .succ ih hs (fun hin => hd ((h.done_iff _).mpr (.inr hin)))

theorem Takes.eq_or_pending (h : Takes succ a waiting done waiting' done') {b : α}
    (hb : Pending succ waiting done b) : b = a ∨ Pending succ waiting' done' b := by
  induction hb with
  | @waiting b hb =>
    by_cases hba : b = a
    · exact .inl hba
    · exact .inr (.waiting ((h.waiting_iff b).mpr ⟨hba, .inl hb⟩))
  | @succ c b _ hs hd ih =>
    by_cases hba : b = a
    · exact .inl hba
    · right
      rcases ih with rfl | hc
      · exact .waiting ((h.waiting_iff b).mpr ⟨hba, .inr ⟨hs, hd⟩⟩)
      · refine .succ hc hs ?_
        rw [h.done_iff]
        exact not_or.mpr ⟨hba, hd⟩

theorem Takes.not_pending (h : Takes succ a waiting done waiting' done') : ¬ Pending succ waiting' done' a := by
  intro ha
  cases ha with
  | waiting hw => exact ((h.waiting_iff a).mp hw).1 rfl
  | succ _ _ hd => exact hd ((h.done_iff a).mpr (.inl rfl))

theorem Takes.ncard_pending [Finite α] (h : Takes succ a waiting done waiting' done') :
    {b | Pending succ waiting done b}.ncard = {b | Pending succ waiting' done' b}.ncard + 1 := by
  have heq : {b | Pending succ waiting done b} = insert a {b | Pending succ waiting' done' b} := by
    ext b
    constructor
    · exact h.eq_or_pending
    · rintro (rfl | hb)
      · exact .waiting h.taken
      · exact h.pending_of_pending hb
  have hnot : a ∉ {b | Pending succ waiting' done' b} := h.not_pending
  rw [heq, Set.ncard_insert_of_notMem hnot]

theorem pending_empty (h : ∀ b, b ∉ waiting) : {b | Pending succ waiting done b} = ∅ := by
  ext b
  constructor
  · intro hb
    induction hb with
    | waiting hw => exact absurd hw (h _)
    | succ _ _ _ ih => exact ih
  · exact fun hb => absurd hb (Set.notMem_empty b)

end FexEmu.Worklist
