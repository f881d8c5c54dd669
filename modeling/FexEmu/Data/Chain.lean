import Mathlib.Tactic
/-!
# Chains

Nodes with the names of their successors, where 0 is no node: the list of nodes from one on.
-/
namespace FexEmu.Chain

/-- From `start` on the nodes are those of the list. -/
def Linked (next : Nat → Nat) : (start : Nat) → List Nat → Prop
  | start, [] => start = 0
  | start, n :: ns => start = n ∧ n ≠ 0 ∧ Linked next (next n) ns

/-- The nodes from `start` on, at most as many as the fuel. -/
def walk (next : Nat → Nat) : (fuel start : Nat) → List Nat
  | 0, _ => []
  | fuel + 1, start => if start = 0 then [] else start :: walk next fuel (next start)

variable {next next' : Nat → Nat} {start fuel : Nat} {ns : List Nat}

theorem walk_eq (linked : Linked next start ns) (h : ns.length ≤ fuel) : walk next fuel start = ns := by
  induction ns generalizing start fuel with
  | nil =>
    simp only [Linked] at linked
    cases fuel <;> simp [walk, linked]
  | cons n ns ih =>
    obtain ⟨rfl, ne, rest⟩ := linked
    cases fuel with
    | zero => simp at h
    | succ fuel => rw [walk, if_neg ne, ih rest (by simpa using h)]

theorem linked_congr (h : ∀ n ∈ ns, next' n = next n) (linked : Linked next start ns) : Linked next' start ns := by
  induction ns generalizing start with
  | nil => exact linked
  | cons n ns ih =>
    obtain ⟨rfl, ne, rest⟩ := linked
    refine ⟨rfl, ne, ?_⟩
    rw [h start List.mem_cons_self]
    exact ih (fun m hm => h m (List.mem_cons_of_mem _ hm)) rest

theorem Linked.ne_zero (linked : Linked next start ns) : ∀ n ∈ ns, n ≠ 0 := by
  induction ns generalizing start with
  | nil => exact fun _ h => absurd h List.not_mem_nil
  | cons n ns ih =>
    obtain ⟨-, ne, rest⟩ := linked
    intro m hm
    rcases List.mem_cons.mp hm with rfl | hm
    · exact ne
    · exact ih rest m hm

end FexEmu.Chain
