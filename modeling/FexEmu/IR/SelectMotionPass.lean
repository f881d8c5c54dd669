import FexEmu.IR.SelectMotion
import Mathlib.Algebra.Order.BigOperators.Group.List
/-!
# What code motion around selects leaves

A motion neither makes another one possible nor hinders it, so the whole pass has one description.
-/
namespace FexEmu.SelectMotion

open Interpreter
open Function (comp_apply update_of_ne update_self update)

variable {υ κ : Type}

/-! ## Arguments of ops -/

namespace Op

theorem args_mapArgs (g : NodeID → NodeID) (op : Op υ κ) : (op.mapArgs g).args = op.args.map g := by
  cases op <;> rfl

theorem mapArgs_mapArgs (g g' : NodeID → NodeID) (op : Op υ κ) : (op.mapArgs g).mapArgs g' = op.mapArgs (g' ∘ g) := by
  cases op <;> simp [mapArgs]

theorem mapArgs_eq_self {g : NodeID → NodeID} {op : Op υ κ} (h : ∀ a ∈ op.args, g a = a) : op.mapArgs g = op := by
  cases op with
  | other o as =>
    simp only [mapArgs, Op.other.injEq, true_and]
    conv_rhs => rw [← List.map_id as]
    exact List.map_congr_left h
  | _ => simp_all [mapArgs, args]

theorem mapArgs_setArg (g : NodeID → NodeID) (op : Op υ κ) (arg : Nat) (n : NodeID) :
    (op.setArg arg n).mapArgs g = (op.mapArgs g).setArg arg (g n) := by
  cases op with
  | constant c => rfl
  | select c k a b t f =>
    match arg with
    | 0 | 1 | 2 | 3 | _ + 4 => rfl
  | unary o a =>
    by_cases h : arg = 0 <;> simp [setArg, mapArgs, h]
  | other o as => simp [setArg, mapArgs, List.map_set]

end Op

namespace IR

variable {ir : IR υ κ} {u s n : NodeID}

theorem selectOf_eq_some : ir.selectOf u = some s ↔ ∃ op cond k a b t f, (ir.graph u).op = .unary op s ∧
    (ir.graph s).op = .select cond k a b t f ∧ (ir.graph s).size = (ir.graph u).size ∧ ir.numUses s = 1 ∧
    ir.isValueConstant t = true ∧ ir.isValueConstant f = true := by
  constructor
  · intro h
    simp only [selectOf] at h
    split at h
    · rename_i op s' hu
      split at h
      · rename_i cond k a b t f hs
        split at h
        · rename_i hc
          obtain rfl := Option.some.inj h
          exact ⟨op, cond, k, a, b, t, f, hu, hs, hc⟩
        · cases h
      · cases h
    · cases h
  · rintro ⟨op, cond, k, a, b, t, f, hu, hs, hc⟩
    simp only [selectOf, hu, hs]
    exact if_pos hc

variable {a node value newNode : NodeID} {arg : Nat} {p : NodeID → Bool} {l : List NodeID}

theorem isValueConstant_select {cond : CondClass} {k : Nat} {b t f : NodeID} (h : (ir.graph n).op = .select cond k a b t f) :
    ir.isValueConstant n = false := by
  simp [isValueConstant, h]

theorem isValueConstant_unary {op : υ} (h : (ir.graph n).op = .unary op a) : ir.isValueConstant n = false := by
  simp [isValueConstant, h]

/-! ## One motion -/

theorem graph_replaceNodeArgument (ir : IR υ κ) (node : NodeID) (arg : Nat) (newArg : NodeID) :
    (ir.replaceNodeArgument node arg newArg).graph =
      update ir.graph node { ir.graph node with op := (ir.graph node).op.setArg arg newArg } := rfl

theorem numUses_replaceNodeArgument {newArg : NodeID}
    (hold : n ≠ (ir.graph node).op.args.getD arg invalid) (hnew : n ≠ newArg) :
    (ir.replaceNodeArgument node arg newArg).numUses n = ir.numUses n := by
  simp only [replaceNodeArgument, setHeader, addUse, removeUse, update_of_ne hold, update_of_ne hnew]

theorem graph_moveBefore_new (hs : s ≠ ir.next) : (ir.moveBefore u s value arg).graph ir.next =
      { ir.graph u with op := ((ir.graph u).op.mapArgs (fun _ => invalid)).setArg 0 value } := by
  simp [moveBefore, graph_replaceNodeArgument, update_of_ne (Ne.symm hs), copyBefore]

theorem graph_moveBefore_select (hs : s ≠ ir.next) :
    (ir.moveBefore u s value arg).graph s = { ir.graph s with op := (ir.graph s).op.setArg arg ir.next } := by
  simp [moveBefore, graph_replaceNodeArgument, update_of_ne hs, copyBefore]

theorem graph_moveBefore_of_ne (hn : n ≠ ir.next) (hs : n ≠ s) :
    (ir.moveBefore u s value arg).graph n = ir.graph n := by
  simp [moveBefore, graph_replaceNodeArgument, update_of_ne hn, update_of_ne hs, copyBefore]

theorem numUses_moveBefore (hs : s ≠ ir.next) (hinvalid : n ≠ invalid) (hvalue : n ≠ value)
    (hnext : n ≠ ir.next) (hold : n ≠ (ir.graph s).op.args.getD arg invalid)
    (hunary : ∃ op a, (ir.graph u).op = .unary op a) :
    (ir.moveBefore u s value arg).numUses n = ir.numUses n := by
  obtain ⟨op, a, hu⟩ := hunary
  simp only [moveBefore]
  rw [numUses_replaceNodeArgument _ hnext, numUses_replaceNodeArgument _ hvalue]
  · simp [copyBefore, update_of_ne hnext]
  · simpa [copyBefore, hu, Op.mapArgs, Op.args] using hinvalid
  · simpa [graph_replaceNodeArgument, update_of_ne hs, copyBefore] using hold

/-- The place where a copy goes. -/
def inserted (s c n : NodeID) : List NodeID := if n = s then [c, n] else [n]

theorem blocks_moveBefore :
    (ir.moveBefore u s value arg).blocks = ir.blocks.map (fun code => code.flatMap (inserted s ir.next)) := rfl

theorem next_moveBefore : (ir.moveBefore u s value arg).next = ir.next + 1 := rfl

/-- Both places. -/
def insertedTwice (s c n : NodeID) : List NodeID := if n = s then [c, c + 1, n] else [n]

section MoveAround

variable {op : υ} {cond : CondClass} {k : Nat} {a b t f : NodeID} (hu : (ir.graph u).op = .unary op s)
  (hs : (ir.graph s).op = .select cond k a b t f) (ltS : s < ir.next)
include hu hs ltS

theorem graph_first : let first := ir.moveBefore u s t 2
    first.graph ir.next = ⟨.unary op t, (ir.graph u).size⟩ ∧
      first.graph s = ⟨.select cond k a b ir.next f, (ir.graph s).size⟩ ∧
      ∀ n, n ≠ ir.next → n ≠ s → first.graph n = ir.graph n := by
  have ne : s ≠ ir.next := Nat.ne_of_lt ltS
  refine ⟨?_, ?_, fun n hn hn' => graph_moveBefore_of_ne hn hn'⟩
  · rw [graph_moveBefore_new ne, hu]
    rfl
  · rw [graph_moveBefore_select ne, hs]
    rfl

theorem moveAround_eq : ir.moveAround u s = (ir.moveBefore u s t 2).moveBefore u s f 3 := by
  have first : ((ir.moveBefore u s t 2).choices s).2 = f := by
    simp [choices, (graph_first hu hs ltS).2.1]
  have value : (ir.choices s).1 = t := by simp only [choices, hs]
  simp [moveAround, value, first]

theorem graph_moveAround (ltU : u < ir.next) : (ir.moveAround u s).graph ir.next = ⟨.unary op t, (ir.graph u).size⟩ ∧
    (ir.moveAround u s).graph (ir.next + 1) = ⟨.unary op f, (ir.graph u).size⟩ ∧
    (ir.moveAround u s).graph s = ⟨.select cond k a b ir.next (ir.next + 1), (ir.graph s).size⟩ ∧
    ∀ n < ir.next, n ≠ s → (ir.moveAround u s).graph n = ir.graph n := by
  obtain ⟨new, sel, old⟩ := graph_first hu hs ltS
  have neS : s ≠ (ir.moveBefore u s t 2).next := Nat.ne_of_lt (Nat.lt_succ_of_lt ltS)
  have neU : u ≠ s := by
    rintro rfl
    rw [hu] at hs
    cases hs
  rw [moveAround_eq hu hs ltS]
  refine ⟨?_, ?_, ?_, ?_⟩
  · rw [graph_moveBefore_of_ne (Nat.ne_of_lt (Nat.lt_succ_self _)) (Nat.ne_of_gt ltS), new]
  · have second : ((ir.moveBefore u s t 2).moveBefore u s f 3).graph (ir.next + 1) = _ := graph_moveBefore_new neS
    rw [second, old u (Nat.ne_of_lt ltU) neU, hu]
    rfl
  · rw [graph_moveBefore_select neS, sel]
    rfl
  · intro n lt ne
    rw [graph_moveBefore_of_ne (Nat.ne_of_lt (Nat.lt_succ_of_lt lt)) ne, old n (Nat.ne_of_lt lt) ne]

theorem blocks_moveAround : (ir.moveAround u s).blocks = ir.blocks.map (fun code => code.flatMap (insertedTwice s ir.next)) := by
  rw [moveAround_eq hu hs ltS, blocks_moveBefore, blocks_moveBefore, next_moveBefore, List.map_map]
  congr 1
  funext code
  simp only [comp_apply, List.flatMap_assoc]
  congr 1
  funext n
  have ne : ir.next ≠ s := Nat.ne_of_gt ltS
  by_cases h : n = s <;> simp [inserted, insertedTwice, h, ne]

omit hu hs ltS in
theorem next_moveAround : (ir.moveAround u s).next = ir.next + 2 := by
  rfl

theorem numUses_moveAround (ltU : u < ir.next) (lt : n < ir.next) (valid : n ≠ invalid) (neT : n ≠ t) (neF : n ≠ f) :
    (ir.moveAround u s).numUses n = ir.numUses n := by
  obtain ⟨new, sel, old⟩ := graph_first hu hs ltS
  have neU : u ≠ s := by
    rintro rfl
    rw [hu] at hs
    cases hs
  rw [moveAround_eq hu hs ltS, numUses_moveBefore (Nat.ne_of_lt (Nat.lt_succ_of_lt ltS)) valid neF
    (Nat.ne_of_lt (Nat.lt_succ_of_lt lt)), numUses_moveBefore (Nat.ne_of_lt ltS) valid neT (Nat.ne_of_lt lt)]
  · rw [hs]
    exact neT
  · exact ⟨op, s, hu⟩
  · rw [sel]
    exact neF
  · exact ⟨op, s, by rw [old u (Nat.ne_of_lt ltU) neU, hu]⟩

end MoveAround

/-! ## The range -/

theorem filter_dropWhile_ne (hp : p u = true) (l : List NodeID) :
    (l.dropWhile (· ≠ u)).filter p = (l.filter p).dropWhile (· ≠ u) := by
  induction l with
  | nil => rfl
  | cons n l ih =>
    by_cases h : n = u
    · subst h
      simp [hp]
    · by_cases hn : p n = true
      · simpa [List.filter_cons, hn, h] using ih
      · simpa [List.filter_cons, hn, h] using ih

theorem filter_dropLast (hp : ∀ n, l.getLast? = some n → p n = true) : l.dropLast.filter p = (l.filter p).dropLast := by
  rcases List.eq_nil_or_concat l with rfl | ⟨front, last, rfl⟩
  · rfl
  · have keeps : p last = true := hp last (by simp)
    simp [List.filter_append, keeps]

theorem getLast?_dropWhile (h : (l.dropWhile p).getLast? = some n) : l.getLast? = some n := by
  have whole := List.takeWhile_append_dropWhile (p := p) (l := l)
  rw [← whole, List.getLast?_append, h]
  rfl

theorem filter_range (hu : p u = true) (hlast : ∀ n, l.getLast? = some n → p n = true) :
    (range l u).filter p = range (l.filter p) u := by
  rw [range, filter_dropLast (fun n hn => hlast n (getLast?_dropWhile hn)), filter_dropWhile_ne hu, range]

theorem range_sublist (code : List NodeID) (u : NodeID) : (range code u).Sublist code :=
  (List.dropLast_sublist _).trans (List.dropWhile_sublist _)

theorem sum_filter {g : NodeID → Nat} (zero : ∀ n ∈ l, p n = false → g n = 0) :
    (l.map g).sum = ((l.filter p).map g).sum := by
  induction l with
  | nil => rfl
  | cons n l ih =>
    have ih := ih (fun n hn => zero n (List.mem_cons_of_mem _ hn))
    cases hn : p n with
    | true => simp [hn, ih]
    | false => simp [hn, ih, zero n List.mem_cons_self hn]

theorem getLast?_flatMap {g : NodeID → List NodeID} (ends : ∀ n, (g n).getLast? = some n) (l : List NodeID) :
    (l.flatMap g).getLast? = l.getLast? := by
  rcases List.eq_nil_or_concat l with rfl | ⟨front, last, rfl⟩
  · rfl
  · simp [List.getLast?_append, ends]

theorem filter_flatMap {g : NodeID → List NodeID}
    (keeps : ∀ n ∈ l, (g n).filter p = [n]) : (l.flatMap g).filter p = l := by
  induction l with
  | nil => rfl
  | cons n l ih =>
    rw [List.flatMap_cons, List.filter_append, keeps n List.mem_cons_self, ih (fun n hn => keeps n (List.mem_cons_of_mem _ hn))]
    rfl

theorem count_choices {b t f a' b' c c' : NodeID} (pair : [a', b'].count u = [a, b].count u) (hc : c ≠ u) (hc' : c' ≠ u) :
    [a', b', c, c'].count u ≤ [a, b, t, f].count u := by
  simp only [List.count_cons, List.count_nil, beq_iff_eq, if_neg hc, if_neg hc'] at pair ⊢
  omega

/-- The arguments after all uses of a node are replaced. -/
def renamed (node newNode a : NodeID) : NodeID := if a = node then newNode else a

theorem usesBy_eq_zero (h : ir.usesBy node n = 0) : (ir.graph n).op.mapArgs (renamed node s) = (ir.graph n).op := by
  apply Op.mapArgs_eq_self
  intro a ha
  have notMem : node ∉ (ir.graph n).op.args := List.count_eq_zero.mp h
  exact if_neg (fun heq : a = node => notMem (heq ▸ ha))

theorem count_renamed (ne : newNode ≠ node) (l : List NodeID) : (l.map (renamed node newNode)).count node = 0 := by
  apply List.count_eq_zero.mpr
  intro h
  obtain ⟨a, -, ha⟩ := List.mem_map.mp h
  simp only [renamed] at ha
  split at ha
  · exact ne ha
  · contradiction

theorem usesBy_replaceUsesBy (ne : newNode ≠ node) (m : NodeID) :
    (ir.replaceUsesBy node newNode n).usesBy node m = if m = n then 0 else ir.usesBy node m := by
  by_cases h : m = n
  · subst h
    simp only [usesBy, replaceUsesBy, update_self, Op.args_mapArgs, if_true]
    exact count_renamed ne _
  · simp [usesBy, replaceUsesBy, update_of_ne h, if_neg h]

/-- Where the count covers the uses in the range, all of them are replaced. -/
theorem replaceAllUsesWithRange_spec (ne : newNode ≠ node) {range : List NodeID} {ir : IR υ κ}
    (covered : (range.map (ir.usesBy node)).sum ≤ ir.numUses node) :
    (∀ m, (replaceAllUsesWithRange node newNode range ir).graph m =
        if m ∈ range then { ir.graph m with op := (ir.graph m).op.mapArgs (renamed node newNode) } else ir.graph m) ∧
      (∀ m, m ≠ node → m ≠ newNode → (replaceAllUsesWithRange node newNode range ir).numUses m = ir.numUses m) ∧
      (replaceAllUsesWithRange node newNode range ir).blocks = ir.blocks ∧
      (replaceAllUsesWithRange node newNode range ir).next = ir.next := by
  induction range generalizing ir with
  | nil => simp [replaceAllUsesWithRange]
  | cons n range ih =>
    have here : ∀ m, (ir.replaceUsesBy node newNode n).graph m =
        if m = n then { ir.graph m with op := (ir.graph m).op.mapArgs (renamed node newNode) } else ir.graph m := by
      intro m
      by_cases h : m = n
      · subst h
        rfl
      · simp [replaceUsesBy, update_of_ne h, if_neg h]
    have counts : ∀ m, m ≠ node → m ≠ newNode → (ir.replaceUsesBy node newNode n).numUses m = ir.numUses m := by
      intro m h h'
      simp [replaceUsesBy, if_neg h, if_neg h']
    have count : (ir.replaceUsesBy node newNode n).numUses node = ir.numUses node - ir.usesBy node n := by
      simp [replaceUsesBy]
    have fewer : (range.map ((ir.replaceUsesBy node newNode n).usesBy node)).sum ≤ (range.map (ir.usesBy node)).sum := by
      apply List.sum_le_sum
      intro m _
      rw [usesBy_replaceUsesBy ne]
      split
      · exact Nat.zero_le _
      · exact le_rfl
    rw [List.map_cons, List.sum_cons] at covered
    simp only [replaceAllUsesWithRange]
    split
    · -- The search stops here, and there is no use in the rest of the range.
      rename_i stop
      refine ⟨fun m => ?_, counts, rfl, rfl⟩
      have rest : ∀ m ∈ range, ir.usesBy node m = 0 := by
        intro m hm
        have le := List.single_le_sum (by simp) _ (List.mem_map_of_mem (f := ir.usesBy node) hm)
        omega
      rw [here]
      by_cases h : m = n
      · simp [h]
      · by_cases hm : m ∈ range
        · rw [if_neg h, if_pos (List.mem_cons_of_mem _ hm), usesBy_eq_zero (rest m hm)]
        · rw [if_neg h, if_neg (by simp [h, hm])]
    · obtain ⟨graph, numUses, blocks, next⟩ := @ih (ir.replaceUsesBy node newNode n) (by omega)
      refine ⟨fun m => ?_, fun m h h' => (numUses m h h').trans (counts m h h'), blocks, next⟩
      rw [graph, here]
      have twice : renamed node newNode ∘ renamed node newNode = renamed node newNode := by
        funext a
        simp only [comp_apply, renamed]
        split <;> simp
      by_cases h : m = n
      · subst h
        simp [Op.mapArgs_mapArgs, twice]
      · simp [h]

/-! ## Many motions -/

/-- The argument of an op with some ops moved around their Selects. -/
def target (ir : IR υ κ) (sel : NodeID → Option NodeID) (n a : NodeID) : NodeID :=
  match sel a with
  | some s => if ir.InRange a n then s else a
  | none => a

open Classical in
/-- The op with some ops moved around their Selects. -/
noncomputable def header (ir : IR υ κ) (sel : NodeID → Option NodeID) (copy : NodeID → NodeID) (n : NodeID) : Header υ κ where
  op := if ∃ u, sel u = some n then (((ir.graph n).op.mapArgs (ir.target sel n)).setArg 2 (copy n)).setArg 3 (copy n + 1)
    else (ir.graph n).op.mapArgs (ir.target sel n)
  size := (ir.graph n).size

open Classical in
/-- The op in the list, behind the copies for it. -/
noncomputable def placed (sel : NodeID → Option NodeID) (copy : NodeID → NodeID) (n : NodeID) : List NodeID :=
  if ∃ u, sel u = some n then [copy n, copy n + 1, n] else [n]

def copyFor (ir : IR υ κ) (u value : NodeID) : Header υ κ := { ir.graph u with op := (ir.graph u).op.mapArgs (fun _ => value) }

theorem moved_update {sel : NodeID → Option NodeID} (new : sel u = none) :
    (∃ u', update sel u (some s) u' = some n) ↔ n = s ∨ ∃ u', sel u' = some n := by
  constructor
  · rintro ⟨u', hu'⟩
    by_cases heq : u' = u
    · rw [heq, update_self, Option.some.injEq] at hu'
      exact .inl hu'.symm
    · rw [update_of_ne heq] at hu'
      exact .inr ⟨u', hu'⟩
  · rintro (rfl | ⟨u', hu'⟩)
    · exact ⟨u, update_self _ _ _⟩
    · have ne : u' ≠ u := by
        rintro rfl
        rw [new] at hu'
        cases hu'
      exact ⟨u', by rw [update_of_ne ne, hu']⟩

/-- The list after moves, described by which op was moved in front of which select. -/
structure Applied (ir : IR υ κ) (sel : NodeID → Option NodeID) (copy : NodeID → NodeID) (ir' : IR υ κ) : Prop where
  sound : ∀ u s, sel u = some s → ir.Moves u s
  next_le : ir.next ≤ ir'.next
  graph : ∀ n < ir.next, ir'.graph n = ir.header sel copy n
  blocks : ir'.blocks = ir.blocks.map (fun code => code.flatMap (placed sel copy))
  copy_ge : ∀ u s, sel u = some s → ir.next ≤ copy s
  copy_lt : ∀ u s, sel u = some s → ir'.next > copy s + 1
  copies : ∀ u s, sel u = some s → ir'.graph (copy s) = ir.copyFor u (ir.choices s).1 ∧
    ir'.graph (copy s + 1) = ir.copyFor u (ir.choices s).2
  numUses : ∀ n < ir.next, n ≠ invalid → ir.isValueConstant n = false → (∀ u s, sel u = some s → n ≠ u ∧ n ≠ s) →
    ir'.numUses n = ir.numUses n

theorem copyFor_unary {op : υ} {v : NodeID} (h : (ir.graph u).op = .unary op a) :
    ir.copyFor u v = ⟨.unary op v, (ir.graph u).size⟩ := by
  simp [copyFor, h, Op.mapArgs]

theorem value_ne (hsel : ir.selectOf u = some s) {u' s' : NodeID} (hs' : ir.selectOf u' = some s') :
    (ir.choices s').1 ≠ u ∧ (ir.choices s').2 ≠ u := by
  obtain ⟨op, cond, k, a, b, t, f, hunary, -⟩ := selectOf_eq_some.mp hsel
  obtain ⟨op', cond', k', a', b', t', f', -, hselect', -, -, constT, constF⟩ := selectOf_eq_some.mp hs'
  simp only [choices, hselect']
  constructor
  · rintro rfl
    rw [isValueConstant_unary hunary] at constT
    cases constT
  · rintro rfl
    rw [isValueConstant_unary hunary] at constF
    cases constF

theorem WellFormed.sameBlock (wf : ir.WellFormed) {code code' : List NodeID} (h : code ∈ ir.blocks) (h' : code' ∈ ir.blocks)
    (mem : u ∈ code) (mem' : u ∈ code') : code = code' := by
  by_contra ne
  have apart := (List.nodup_flatten.mp wf.nodup).2
  have symmetric : Std.Symm (List.Disjoint : List NodeID → List NodeID → Prop) := ⟨fun _ _ h _ ha hb => h hb ha⟩
  exact apart.forall h h' ne mem mem'

theorem Moves.unique (wf : ir.WellFormed) (moves : ir.Moves u s) (hn : n ∈ ir.code) (hs : s ∈ (ir.graph n).op.args) : n = u := by
  obtain ⟨hu, hsel⟩ := moves
  obtain ⟨op, cond, k, a, b, t, f, hunary, -, -, one, -⟩ := selectOf_eq_some.mp hsel
  have mem : s ∈ (ir.graph u).op.args := by simp [hunary, Op.args]
  rw [wf.numUses s (wf.args u hu s mem)] at one
  by_contra ne
  have hn' : n ∈ ir.code.erase u := (List.mem_erase_of_ne ne).mpr hn
  have perm : ir.code.Perm (u :: n :: (ir.code.erase u).erase n) :=
    (List.perm_cons_erase hu).trans ((List.perm_cons_erase hn').cons u)
  have total := (perm.map (ir.usesBy s)).sum_eq
  have byU : 0 < ir.usesBy s u := List.count_pos_iff.mpr mem
  have byN : 0 < ir.usesBy s n := List.count_pos_iff.mpr hs
  simp only [List.map_cons, List.sum_cons] at total
  omega

theorem Moves.select_mem (wf : ir.WellFormed) (moves : ir.Moves u s) : s ∈ ir.code := by
  obtain ⟨hu, hsel⟩ := moves
  obtain ⟨op, cond, k, a, b, t, f, hunary, -⟩ := selectOf_eq_some.mp hsel
  exact wf.args u hu s (by simp [hunary, Op.args])

theorem Moves.lt (wf : ir.WellFormed) (moves : ir.Moves u s) : s < ir.next := wf.lt_next s (moves.select_mem wf)

section Header

variable {sel : NodeID → Option NodeID} {copy : NodeID → NodeID}

theorem header_constant {c : BitVec 64} (h : (ir.graph n).op = .constant c) : (ir.header sel copy n).op = .constant c := by
  simp [header, h, Op.mapArgs, Op.setArg]

variable {a : NodeID}

theorem header_unary {op : υ} (h : (ir.graph n).op = .unary op a) :
    (ir.header sel copy n).op = .unary op (ir.target sel n a) := by
  simp [header, h, Op.mapArgs, Op.setArg]

theorem header_other {op : κ} {as : List NodeID} (h : (ir.graph n).op = .other op as) :
    ∃ as', (ir.header sel copy n).op = .other op as' := by
  simp only [header, h, Op.mapArgs, Op.setArg]
  split
  · exact ⟨_, rfl⟩
  · exact ⟨_, rfl⟩

theorem header_select {cond : CondClass} {k : Nat} {b t f : NodeID} (h : (ir.graph n).op = .select cond k a b t f)
    (rests : ¬∃ u, sel u = some n) : (ir.header sel copy n).op =
      .select cond k (ir.target sel n a) (ir.target sel n b) (ir.target sel n t) (ir.target sel n f) := by
  simp [header, h, Op.mapArgs, if_neg rests]

theorem header_moved {cond : CondClass} {k : Nat} {b t f : NodeID} (h : (ir.graph n).op = .select cond k a b t f)
    (moved : ∃ u, sel u = some n) : (ir.header sel copy n).op =
      .select cond k (ir.target sel n a) (ir.target sel n b) (copy n) (copy n + 1) := by
  simp [header, h, Op.mapArgs, Op.setArg, if_pos moved]

theorem header_size : (ir.header sel copy n).size = (ir.graph n).size := rfl

theorem header_of_rests (rests : ¬∃ u, sel u = some n) :
    (ir.header sel copy n).op = (ir.graph n).op.mapArgs (ir.target sel n) := by
  simp [header, if_neg rests]

end Header

namespace Applied

variable {sel : NodeID → Option NodeID} {copy : NodeID → NodeID} {ir' : IR υ κ}

theorem start (ir : IR υ κ) (copy : NodeID → NodeID) : Applied ir (fun _ => none) copy ir := by
  have id : ∀ n, ir.target (fun _ => none) n = id := fun n => rfl
  refine ⟨by simp, le_rfl, fun n _ => ?_, ?_, by simp, by simp, by simp, fun _ _ _ _ _ => rfl⟩
  · simp [header, id, Op.mapArgs_eq_self]
  · have alone : placed (fun _ => none) copy = fun n => [n] := by
      funext n
      simp [placed]
    simp [alone]

variable (h : Applied ir sel copy ir')
include h

theorem unary_of_sel (hsel : sel u = some s) : ∃ op, (ir.graph u).op = .unary op s := by
  obtain ⟨op, cond, k, a, b, t, f, hu, -⟩ := selectOf_eq_some.mp (h.sound u s hsel).2
  exact ⟨op, hu⟩

theorem select_of_sel (hsel : sel u = some s) : ∃ cond k a b t f, (ir.graph s).op = .select cond k a b t f := by
  obtain ⟨op, cond, k, a, b, t, f, -, hs, -⟩ := selectOf_eq_some.mp (h.sound u s hsel).2
  exact ⟨cond, k, a, b, t, f, hs⟩

theorem isValueConstant (lt : n < ir.next) : ir'.isValueConstant n = ir.isValueConstant n := by
  simp only [IR.isValueConstant, h.graph n lt]
  cases hop : (ir.graph n).op with
  | constant c => simp only [header_constant hop]
  | unary op a => simp only [header_unary hop]
  | other op as =>
    obtain ⟨as', hother⟩ : ∃ as', (ir.header sel copy _).op = .other op as' := header_other hop
    simp [hother]
  | select cond k a b t f =>
    by_cases moved : ∃ u, sel u = some n
    · simp [header_moved hop moved]
    · simp [header_select hop moved]

theorem isValueConstant_target (wf : ir.WellFormed) (lt : u < ir.next) :
    ir'.isValueConstant (ir.target sel n u) = ir.isValueConstant u := by
  simp only [target]
  split
  · rename_i s hsel
    obtain ⟨op, hu⟩ := h.unary_of_sel hsel
    obtain ⟨cond, k, a, b, t, f, hs⟩ := h.select_of_sel hsel
    split
    · rw [h.isValueConstant (Moves.lt wf (h.sound u s hsel)), isValueConstant_select hs, isValueConstant_unary hu]
    · exact h.isValueConstant lt
  · exact h.isValueConstant lt

theorem selectOf (wf : ir.WellFormed) (hu : u ∈ ir.code) (new : sel u = none) : ir'.selectOf u = ir.selectOf u := by
  have graphU := h.graph u (wf.lt_next u hu)
  cases hop : (ir.graph u).op with
  | constant c => simp only [IR.selectOf, graphU, header_constant hop, hop]
  | other op as =>
    obtain ⟨as', hother⟩ : ∃ as', (ir.header sel copy _).op = .other op as' := header_other hop
    simp [IR.selectOf, graphU, hother, hop]
  | select cond k a b t f =>
    by_cases moved : ∃ u', sel u' = some u
    · simp [IR.selectOf, graphU, header_moved hop moved, hop]
    · simp [IR.selectOf, graphU, header_select hop moved, hop]
  | unary op s =>
    have mem : s ∈ (ir.graph u).op.args := by simp [hop, Op.args]
    have hs := wf.args u hu s mem
    have lt := wf.lt_next s hs
    have graphS := h.graph s lt
    cases hsel : sel s with
    | some s2 =>
      -- The argument is itself an op that has moved, so that neither its node nor its Select is a Select of constants.
      obtain ⟨op2, hopS⟩ := h.unary_of_sel hsel
      obtain ⟨cond, k, a, b, t, f, hs2⟩ := h.select_of_sel hsel
      have none : ir.selectOf u = none := by simp only [IR.selectOf, hop, hopS]
      rw [none]
      by_cases inRange : ir.InRange s u
      · have graphS2 := h.graph s2 (Moves.lt wf (h.sound s s2 hsel))
        have copied := (h.copies s s2 hsel).1
        have notConstant : ir'.isValueConstant (copy s2) = false := by
          simp [IR.isValueConstant, copied, copyFor, hopS, Op.mapArgs]
        simp only [IR.selectOf, graphU, header_unary hop, target, hsel, if_pos inRange, graphS2, header_moved hs2 ⟨s, hsel⟩,
          notConstant]
        simp
      · simp [IR.selectOf, graphU, header_unary hop, target, hsel, if_neg inRange, graphS, header_unary hopS]
    | none =>
      have same : ir.target sel u s = s := by simp only [target, hsel]
      cases hopS : (ir.graph s).op with
      | constant c => simp only [IR.selectOf, graphU, header_unary hop, same, graphS, header_constant hopS, hop, hopS]
      | unary op2 a => simp only [IR.selectOf, graphU, header_unary hop, same, graphS, header_unary hopS, hop, hopS]
      | other op2 as =>
        obtain ⟨as', hother⟩ : ∃ as', (ir.header sel copy s).op = .other op2 as' := header_other hopS
        simp [IR.selectOf, graphU, header_unary hop, same, graphS, hother, hop, hopS]
      | select cond k a b t f =>
        by_cases moved : ∃ u', sel u' = some s
        · obtain ⟨u', hu'⟩ := moved
          rw [Moves.unique wf (h.sound u' s hu') hu mem, hu'] at new
          cases new
        · have ltT : t < ir.next := wf.lt_next t (wf.args s hs t (by simp [hopS, Op.args]))
          have ltF : f < ir.next := wf.lt_next f (wf.args s hs f (by simp [hopS, Op.args]))
          have count : ir'.numUses s = ir.numUses s := by
            apply h.numUses s lt (fun heq => wf.valid (heq ▸ hs)) (isValueConstant_select hopS)
            intro u' s' hsel'
            refine ⟨?_, fun heq => moved ⟨u', heq ▸ hsel'⟩⟩
            rintro rfl
            rw [hsel'] at hsel
            cases hsel
          simp [IR.selectOf, graphU, header_unary hop, same, graphS, header_select hopS moved, hop, hopS, header_size, count,
            h.isValueConstant_target wf ltT, h.isValueConstant_target wf ltF]

section Step

variable (wf : ir.WellFormed) (hu : u ∈ ir.code) (hsel : ir.selectOf u = some s) (new : sel u = none)
include wf hu hsel new

theorem rests (m : NodeID) : sel m ≠ some s := by
  intro hm
  obtain ⟨op, cond, k, a, b, t, f, hunary, -⟩ := selectOf_eq_some.mp hsel
  have same := Moves.unique wf (h.sound m s hm) hu (by simp [hunary, Op.args])
  rw [same, hm] at new
  cases new

omit wf in
theorem target_eq_iff (m a : NodeID) : ir.target sel m a = u ↔ a = u := by
  obtain ⟨op, cond, k, a', b, t, f, hunary, -⟩ := selectOf_eq_some.mp hsel
  constructor
  · intro heq
    simp only [target] at heq
    split at heq
    · rename_i s' hs'
      obtain ⟨cond', k', a'', b', t', f', hselect⟩ := h.select_of_sel hs'
      split at heq
      · rw [heq, hunary] at hselect
        cases hselect
      · exact heq
    · exact heq
  · rintro rfl
    simp [target, new]

omit wf in
theorem target_update (m a : NodeID) : ir.target (update sel u (some s)) m a =
    if ir.InRange u m then renamed u s (ir.target sel m a) else ir.target sel m a := by
  by_cases ha : a = u
  · subst ha
    simp [target, update_self, new, renamed]
  · have ne : ir.target sel m a ≠ u := fun heq => ha ((h.target_eq_iff hu hsel new m a).mp heq)
    have same : ir.target (update sel u (some s)) m a = ir.target sel m a := by
      simp [target, update_of_ne ha]
    rw [same, renamed, if_neg ne, ite_self]

theorem graph_now {op : υ} {cond : CondClass} {k : Nat} {a b t f : NodeID} (hunary : (ir.graph u).op = .unary op s)
    (hselect : (ir.graph s).op = .select cond k a b t f) : (ir'.graph u).op = .unary op s ∧
      (ir'.graph s).op = .select cond k (ir.target sel s a) (ir.target sel s b) t f := by
  have ltU := wf.lt_next u hu
  have ltS : s < ir.next := Moves.lt wf ⟨hu, hsel⟩
  obtain ⟨op', cond', k', a', b', t', f', -, hselect', -, -, constT, constF⟩ := selectOf_eq_some.mp hsel
  rw [hselect, Op.select.injEq] at hselect'
  obtain ⟨rfl, rfl, rfl, rfl, rfl, rfl⟩ := hselect'
  have alone : ∀ v, (ir.isValueConstant v = true ∨ v = s) → ir.target sel s v = v ∧ ir.target sel u v = v := by
    intro v hv
    have none : sel v = none := by
      by_contra some
      obtain ⟨s', hs'⟩ := Option.ne_none_iff_exists'.mp some
      obtain ⟨op', hop'⟩ := h.unary_of_sel hs'
      rcases hv with hv | rfl
      · rw [isValueConstant_unary hop'] at hv
        cases hv
      · rw [hselect] at hop'
        cases hop'
    simp [target, none]
  have moved : ¬∃ u', sel u' = some s := fun ⟨u', hu'⟩ => h.rests wf hu hsel new u' hu'
  rw [h.graph u ltU, h.graph s ltS, header_unary hunary, header_select hselect moved, (alone s (.inr rfl)).2,
    (alone t (.inl constT)).1, (alone f (.inl constF)).1]
  exact ⟨rfl, rfl⟩

theorem blocks_step : (ir'.moveAround u s).blocks = ir.blocks.map (fun code =>
    code.flatMap (placed (update sel u (some s)) (update copy s ir'.next))) := by
  obtain ⟨op, cond, k, a, b, t, f, hunary, hselect, -⟩ := selectOf_eq_some.mp hsel
  obtain ⟨nowU, nowS⟩ := h.graph_now wf hu hsel new hunary hselect
  have ltS : s < ir.next := Moves.lt wf ⟨hu, hsel⟩
  rw [blocks_moveAround nowU nowS (Nat.lt_of_lt_of_le ltS h.next_le), h.blocks, List.map_map]
  congr 1
  funext code
  simp only [comp_apply, List.flatMap_assoc]
  congr 1
  funext n
  have moved : ¬∃ u', sel u' = some s := fun ⟨u', hu'⟩ => h.rests wf hu hsel new u' hu'
  by_cases hn : n = s
  · subst hn
    have now : ∃ u', update sel u (some n) u' = some n := ⟨u, update_self _ _ _⟩
    simp [placed, if_neg moved, if_pos now, insertedTwice]
  · have same : (∃ u', update sel u (some s) u' = some n) ↔ ∃ u', sel u' = some n := by
      rw [moved_update new, or_iff_right hn]
    by_cases earlier : ∃ u', sel u' = some n
    · obtain ⟨u', hu'⟩ := earlier
      have ge := h.copy_ge u' n hu'
      have ne1 : copy n ≠ s := Nat.ne_of_gt (Nat.lt_of_lt_of_le ltS ge)
      have ne2 : copy n + 1 ≠ s := Nat.ne_of_gt (Nat.lt_succ_of_lt (Nat.lt_of_lt_of_le ltS ge))
      simp [placed, same, show ∃ u', sel u' = some n from ⟨u', hu'⟩, insertedTwice, ne1, ne2, hn]
    · simp [placed, same, earlier, insertedTwice, hn]

theorem graph_step {op : υ} {cond : CondClass} {k : Nat} {a b t f : NodeID} (hunary : (ir.graph u).op = .unary op s)
    (hselect : (ir.graph s).op = .select cond k a b t f) :
    (ir'.moveAround u s).graph s =
        ⟨.select cond k (ir.target sel s a) (ir.target sel s b) ir'.next (ir'.next + 1), (ir.graph s).size⟩ ∧
      (∀ n < ir.next, n ≠ s → (ir'.moveAround u s).graph n = ir.header sel copy n) ∧
      (ir'.moveAround u s).graph ir'.next = ir.copyFor u t ∧ (ir'.moveAround u s).graph (ir'.next + 1) = ir.copyFor u f ∧
      ∀ u' s', sel u' = some s' → (ir'.moveAround u s).graph (copy s') = ir.copyFor u' (ir.choices s').1 ∧
        (ir'.moveAround u s).graph (copy s' + 1) = ir.copyFor u' (ir.choices s').2 := by
  obtain ⟨nowU, nowS⟩ := h.graph_now wf hu hsel new hunary hselect
  have ltU := wf.lt_next u hu
  have ltS : s < ir.next := Moves.lt wf ⟨hu, hsel⟩
  have le := h.next_le
  obtain ⟨first, second, select, old⟩ := graph_moveAround nowU nowS (Nat.lt_of_lt_of_le ltS le) (Nat.lt_of_lt_of_le ltU le)
  have sizeU : (ir'.graph u).size = (ir.graph u).size := by rw [h.graph u ltU, header_size]
  have sizeS : (ir'.graph s).size = (ir.graph s).size := by rw [h.graph s ltS, header_size]
  refine ⟨?_, ?_, ?_, ?_, ?_⟩
  · rw [select, sizeS]
  · intro n lt ne
    rw [old n (Nat.lt_of_lt_of_le lt le) ne, h.graph n lt]
  · rw [first, sizeU, copyFor_unary hunary]
  · rw [second, sizeU, copyFor_unary hunary]
  · intro u' s' hs'
    have ge := h.copy_ge u' s' hs'
    have lt := h.copy_lt u' s' hs'
    obtain ⟨copy1, copy2⟩ := h.copies u' s' hs'
    have above := Nat.lt_of_lt_of_le ltS ge
    rw [old _ (Nat.lt_of_succ_lt lt) (Nat.ne_of_gt above), old _ lt (Nat.ne_of_gt (Nat.lt_succ_of_lt above))]
    exact ⟨copy1, copy2⟩

variable {code : List NodeID}

theorem range_step (hcode : code ∈ ir.blocks) :
    (range (code.flatMap (placed (update sel u (some s)) (update copy s ir'.next))) u).filter (· < ir.next) =
      range code u := by
  have mem : ∀ n ∈ code, n < ir.next := fun n hn => wf.lt_next n (List.mem_flatten.mpr ⟨code, hcode, hn⟩)
  have ends : ∀ n, (placed (update sel u (some s)) (update copy s ir'.next) n).getLast? = some n := by
    intro n
    simp only [placed]
    split <;> rfl
  have keeps : ∀ n ∈ code, (placed (update sel u (some s)) (update copy s ir'.next) n).filter
      (· < ir.next) = [n] := by
    intro n hn
    have lt := mem n hn
    simp only [placed]
    split
    · rename_i moved
      have ge : ir.next ≤ update copy s ir'.next n := by
        rcases (moved_update new).mp moved with rfl | ⟨u', hu'⟩
        · rw [update_self]
          exact h.next_le
        · have ne : n ≠ s := by
            rintro rfl
            exact h.rests wf hu hsel new u' hu'
          rw [update_of_ne ne]
          exact h.copy_ge u' n hu'
      have not1 : ¬update copy s ir'.next n < ir.next := Nat.not_lt.mpr ge
      have not2 : ¬update copy s ir'.next n + 1 < ir.next := Nat.not_lt.mpr (Nat.le_succ_of_le ge)
      simp [not1, not2, lt]
    · simp [lt]
  rw [filter_range (by simpa using wf.lt_next u hu), filter_flatMap keeps]
  intro n hn
  rw [getLast?_flatMap ends] at hn
  simpa using mem n (List.mem_of_getLast? hn)

theorem usesBy_le (n : NodeID) (lt : n < ir.next) : (ir'.moveAround u s).usesBy u n ≤ ir.usesBy u n := by
  obtain ⟨op, cond, k, a, b, t, f, hunary, hselect, -⟩ := selectOf_eq_some.mp hsel
  obtain ⟨select, old, -⟩ := h.graph_step wf hu hsel new hunary hselect
  have ltU := wf.lt_next u hu
  have args : ∀ l : List NodeID, (l.map (ir.target sel n)).count u = l.count u := by
    intro l
    rw [List.count_eq_countP, List.count_eq_countP, List.countP_map]
    apply List.countP_congr
    intro a' _
    simpa using h.target_eq_iff hu hsel new n a'
  by_cases hn : n = s
  · have ne1 : ir'.next ≠ u := Nat.ne_of_gt (Nat.lt_of_lt_of_le ltU h.next_le)
    have ne2 : ir'.next + 1 ≠ u := Nat.ne_of_gt (Nat.lt_succ_of_lt (Nat.lt_of_lt_of_le ltU h.next_le))
    subst hn
    simp only [usesBy, select, hselect, Op.args]
    exact count_choices (args [a, b]) ne1 ne2
  · simp only [usesBy, old n lt hn]
    by_cases moved : ∃ u', sel u' = some n
    · obtain ⟨u', hu'⟩ := moved
      obtain ⟨cond', k', a', b', t', f', hselect'⟩ := h.select_of_sel hu'
      have ge := Nat.lt_of_lt_of_le ltU (h.copy_ge u' n hu')
      rw [header_moved hselect' ⟨u', hu'⟩, hselect']
      exact count_choices (args [a', b']) (Nat.ne_of_gt ge) (Nat.ne_of_gt (Nat.lt_succ_of_lt ge))
    · rw [header_of_rests moved, Op.args_mapArgs, args]

theorem copies_step {u' s' : NodeID} (hs' : update sel u (some s) u' = some s') : ir.Moves u' s' ∧
    ir.next ≤ update copy s ir'.next s' ∧ (ir'.moveAround u s).next > update copy s ir'.next s' + 1 ∧
      (ir'.moveAround u s).graph (update copy s ir'.next s') = ir.copyFor u' (ir.choices s').1 ∧
        (ir'.moveAround u s).graph (update copy s ir'.next s' + 1) = ir.copyFor u' (ir.choices s').2 := by
  obtain ⟨op, cond, k, a, b, t, f, hunary, hselect, -⟩ := selectOf_eq_some.mp hsel
  obtain ⟨-, -, first, second, earlier⟩ := h.graph_step wf hu hsel new hunary hselect
  obtain ⟨nowU, nowS⟩ := h.graph_now wf hu hsel new hunary hselect
  have ltS : s < ir.next := Moves.lt wf ⟨hu, hsel⟩
  by_cases heq : u' = u
  · subst heq
    rw [update_self, Option.some.injEq] at hs'
    subst hs'
    rw [update_self]
    simp only [choices, hselect]
    exact ⟨⟨hu, hsel⟩, h.next_le, Nat.lt_succ_self _, first, second⟩
  · rw [update_of_ne heq] at hs'
    have ne : s' ≠ s := by
      rintro rfl
      exact h.rests wf hu hsel new u' hs'
    rw [update_of_ne ne]
    exact ⟨h.sound u' s' hs', h.copy_ge u' s' hs', Nat.lt_of_lt_of_le (h.copy_lt u' s' hs') (Nat.le_add_right _ 2), earlier u' s' hs'⟩

theorem numUses_step (lt : n < ir.next) (valid : n ≠ invalid) (notConstant : ir.isValueConstant n = false)
    (apart : ∀ u' s', sel u' = some s' → n ≠ u' ∧ n ≠ s') : (ir'.moveAround u s).numUses n = ir.numUses n := by
  obtain ⟨op, cond, k, a, b, t, f, hunary, hselect, -, -, constT, constF⟩ := selectOf_eq_some.mp hsel
  obtain ⟨nowU, nowS⟩ := h.graph_now wf hu hsel new hunary hselect
  have le := h.next_le
  have neT : n ≠ t := fun heq => by rw [heq, constT] at notConstant; cases notConstant
  have neF : n ≠ f := fun heq => by rw [heq, constF] at notConstant; cases notConstant
  rw [numUses_moveAround nowU nowS (Nat.lt_of_lt_of_le (Moves.lt wf ⟨hu, hsel⟩) le) (Nat.lt_of_lt_of_le (wf.lt_next u hu) le)
    (Nat.lt_of_lt_of_le lt le) valid neT neF, h.numUses n lt valid notConstant apart]

theorem covered (hcode : code ∈ ir.blocks) :
    ((range (code.flatMap (placed (update sel u (some s)) (update copy s ir'.next))) u).map
      ((ir'.moveAround u s).usesBy u)).sum ≤ (ir'.moveAround u s).numUses u := by
  obtain ⟨op, cond, k, a, b, t, f, hunary, hselect, -⟩ := selectOf_eq_some.mp hsel
  have count : (ir'.moveAround u s).numUses u = (ir.code.map (ir.usesBy u)).sum := by
    rw [← wf.numUses u hu]
    apply h.numUses_step wf hu hsel new (wf.lt_next u hu) (fun heq => wf.valid (heq ▸ hu)) (isValueConstant_unary hunary)
    intro u' s' hs'
    constructor
    · rintro rfl
      rw [hs'] at new
      cases new
    · rintro rfl
      obtain ⟨cond', k', a', b', t', f', hselect'⟩ := h.select_of_sel hs'
      rw [hunary] at hselect'
      cases hselect'
  have zero : ∀ n ∈ range (code.flatMap (placed (update sel u (some s)) (update copy s ir'.next))) u,
      decide (n < ir.next) = false → (ir'.moveAround u s).usesBy u n = 0 := by
    intro n hn ge
    obtain ⟨m, hm, hn⟩ := List.mem_flatMap.mp ((range_sublist _ _).subset hn)
    have ltM := wf.lt_next m (List.mem_flatten.mpr ⟨code, hcode, hm⟩)
    have old : n ≠ m := by
      rintro rfl
      simp [ltM] at ge
    simp only [placed] at hn
    split at hn
    · rename_i moved
      obtain ⟨u', hu'⟩ := moved
      obtain ⟨⟨-, hsel'⟩, -, -, copy1, copy2⟩ := h.copies_step wf hu hsel new hu'
      obtain ⟨ne1, ne2⟩ := value_ne hsel hsel'
      obtain ⟨op', cond', k', a', b', t', f', hunary', -⟩ := selectOf_eq_some.mp hsel'
      simp only [List.mem_cons, List.not_mem_nil, or_false] at hn
      rcases hn with rfl | rfl | rfl
      · simp [usesBy, copy1, copyFor_unary hunary', Op.args, ne1]
      · simp [usesBy, copy2, copyFor_unary hunary', Op.args, ne2]
      · exact absurd rfl old
    · exact absurd (List.mem_singleton.mp hn) old
  rw [count, sum_filter zero, h.range_step wf hu hsel new hcode]
  calc ((range code u).map ((ir'.moveAround u s).usesBy u)).sum
      ≤ ((range code u).map (ir.usesBy u)).sum := by
        apply List.sum_le_sum
        intro n hn
        have mem := (range_sublist code u).subset hn
        exact h.usesBy_le wf hu hsel new n (wf.lt_next n (List.mem_flatten.mpr ⟨code, hcode, mem⟩))
    _ ≤ (ir.code.map (ir.usesBy u)).sum := by
        have sub : (range code u).Sublist ir.code := (range_sublist code u).trans (List.sublist_flatten_of_mem hcode)
        exact (sub.map _).sum_le_sum (by simp)

theorem header_step (lt : n < ir.next) :
    ir.header (update sel u (some s)) (update copy s ir'.next) n =
      if ir.InRange u n then ⟨((ir'.moveAround u s).graph n).op.mapArgs (renamed u s), ((ir'.moveAround u s).graph n).size⟩
      else (ir'.moveAround u s).graph n := by
  obtain ⟨op, cond, k, a, b, t, f, hunary, hselect, -⟩ := selectOf_eq_some.mp hsel
  obtain ⟨select, old, -⟩ := h.graph_step wf hu hsel new hunary hselect
  have ltU := wf.lt_next u hu
  have args := h.target_update hu hsel new n
  have keep : ∀ c, ir.next ≤ c → renamed u s c = c := by
    intro c ge
    exact if_neg (Nat.ne_of_gt (Nat.lt_of_lt_of_le ltU ge))
  by_cases hn : n = s
  · subst hn
    have moved : ∃ u', update sel u (some n) u' = some n := (moved_update new).mpr (.inl rfl)
    have hop : (ir.header (update sel u (some n)) (update copy n ir'.next) n).op = _ := header_moved hselect moved
    rw [args, args, update_self] at hop
    rw [select]
    by_cases inRange : ir.InRange u n
    · simp only [if_pos inRange] at hop ⊢
      simp only [Op.mapArgs, keep _ h.next_le, keep _ (Nat.le_succ_of_le h.next_le), ← hop]
      rfl
    · simp only [if_neg inRange] at hop ⊢
      simp only [← hop]
      rfl
  · rw [old n lt hn]
    have same : (∃ u', update sel u (some s) u' = some n) ↔ ∃ u', sel u' = some n := by
      rw [moved_update new, or_iff_right hn]
    by_cases inRange : ir.InRange u n
    · have comp : ir.target (update sel u (some s)) n = renamed u s ∘ ir.target sel n := by
        funext a'
        rw [args, if_pos inRange]
        rfl
      rw [if_pos inRange]
      by_cases moved : ∃ u', sel u' = some n
      · obtain ⟨u', hu'⟩ := id moved
        have ge := h.copy_ge u' n hu'
        simp [header, if_pos moved, if_pos (same.mpr moved), update_of_ne hn, comp, Op.mapArgs_setArg, Op.mapArgs_mapArgs,
          keep _ ge, keep (copy n + 1) (Nat.le_succ_of_le ge)]
      · simp [header, if_neg moved, if_neg (mt same.mp moved), comp, Op.mapArgs_mapArgs]
    · have comp : ir.target (update sel u (some s)) n = ir.target sel n := by
        funext a'
        rw [args, if_neg inRange]
      rw [if_neg inRange]
      by_cases moved : ∃ u', sel u' = some n
      · simp [header, if_pos moved, if_pos (same.mpr moved), update_of_ne hn, comp]
      · simp [header, if_neg moved, if_neg (mt same.mp moved), comp]

theorem moved_step {b : Nat} (hcode : ir.blocks[b]? = some code) (mem : u ∈ code) :
    Applied ir (update sel u (some s)) (update copy s ir'.next) (ir'.step b u) := by
  obtain ⟨op, cond, k, a, b', t, f, hunary, hselect, -⟩ := selectOf_eq_some.mp hsel
  have hcode' : code ∈ ir.blocks := List.mem_of_getElem? hcode
  have le := h.next_le
  have ne : s ≠ u := by
    rintro rfl
    rw [hunary] at hselect
    cases hselect
  obtain ⟨nowU, nowS⟩ := h.graph_now wf hu hsel new hunary hselect
  have blocks := h.blocks_step wf hu hsel new
  have here : (ir'.moveAround u s).blocks.getD b [] =
      code.flatMap (placed (update sel u (some s)) (update copy s ir'.next)) := by
    rw [blocks, List.getD_eq_getElem?_getD, List.getElem?_map, hcode]
    rfl
  obtain ⟨graph, numUses, sameBlocks, next⟩ := replaceAllUsesWithRange_spec ne (h.covered wf hu hsel new hcode')
  -- the copies are inserted in the block, but the old nodes in the range are the same
  have inRange : ∀ n < ir.next, (n ∈ range (code.flatMap
      (placed (update sel u (some s)) (update copy s ir'.next))) u ↔ ir.InRange u n) := by
    intro n lt
    have filtered := h.range_step wf hu hsel new hcode'
    have iff : n ∈ range code u ↔ ir.InRange u n := by
      constructor
      · exact fun hn => ⟨code, hcode', mem, hn⟩
      · rintro ⟨code', hcode'', mem', hn⟩
        rwa [wf.sameBlock hcode' hcode'' mem mem']
    rw [← iff, ← filtered, List.mem_filter]
    simp [lt]
  have stepEq : ir'.step b u = replaceAllUsesWithRange u s (range (code.flatMap
      (placed (update sel u (some s)) (update copy s ir'.next))) u) (ir'.moveAround u s) := by
    simp only [IR.step, h.selectOf wf hu new, hsel, here]
  have unchanged : ∀ u' v, (∃ op a, (ir.graph u').op = .unary op a) → v ≠ u →
      (ir.copyFor u' v).op.mapArgs (renamed u s) = (ir.copyFor u' v).op := by
    rintro u' v ⟨op', a', hop⟩ hv
    simp [copyFor_unary hop, Op.mapArgs, renamed, if_neg hv]
  have copies := fun u' s' => @copies_step _ _ _ _ _ _ _ _ h wf hu hsel new u' s'
  rw [stepEq]
  refine ⟨fun u' s' hs' => (copies u' s' hs').1, ?_, ?_, ?_, fun u' s' hs' => (copies u' s' hs').2.1, ?_, ?_, ?_⟩
  · rw [next, next_moveAround]
    exact Nat.le_add_right_of_le le
  · intro n lt
    rw [graph, h.header_step wf hu hsel new lt]
    simp [inRange n lt]
  · rw [sameBlocks, blocks]
  · intro u' s' hs'
    rw [next]
    exact (copies u' s' hs').2.2.1
  · intro u' s' hs'
    obtain ⟨⟨-, hsel'⟩, -, -, copy1, copy2⟩ := copies u' s' hs'
    obtain ⟨ne1, ne2⟩ := value_ne hsel hsel'
    obtain ⟨op', cond', k', a', b'', t', f', hunary', -⟩ := selectOf_eq_some.mp hsel'
    rw [graph, graph, copy1, copy2, unchanged u' _ ⟨op', s', hunary'⟩ ne1, unchanged u' _ ⟨op', s', hunary'⟩ ne2, ite_self, ite_self]
    exact ⟨rfl, rfl⟩
  · intro n lt valid notConstant apart
    have mine := apart u s (update_self _ _ _)
    rw [numUses n mine.1 mine.2]
    apply h.numUses_step wf hu hsel new lt valid notConstant
    intro u' s' hs'
    have ne' : u' ≠ u := by
      rintro rfl
      rw [hs'] at new
      cases new
    exact apart u' s' (by rw [update_of_ne ne', hs'])

end Step

theorem step (wf : ir.WellFormed) {b : Nat} {code : List NodeID} (hcode : ir.blocks[b]? = some code) (mem : u ∈ code)
    (new : sel u = none) : ∃ copy', Applied ir (update sel u (ir.selectOf u)) copy' (ir'.step b u) := by
  have hu : u ∈ ir.code := List.mem_flatten.mpr ⟨code, List.mem_of_getElem? hcode, mem⟩
  cases hsel : ir.selectOf u with
  | none =>
    have same : update sel u none = sel := by
      rw [← new, Function.update_eq_self]
    have still : ir'.step b u = ir' := by simp only [IR.step, h.selectOf wf hu new, hsel]
    rw [same, still]
    exact ⟨copy, h⟩
  | some s => exact ⟨_, h.moved_step wf hu hsel new hcode mem⟩

theorem steps (wf : ir.WellFormed) {places : List (Nat × NodeID)}
    (inside : ∀ place ∈ places, ∃ code, ir.blocks[place.1]? = some code ∧ place.2 ∈ code)
    (nodup : (places.map Prod.snd).Nodup) (new : ∀ place ∈ places, sel place.2 = none) :
    ∃ copy', Applied ir (fun u => if u ∈ places.map Prod.snd then ir.selectOf u else sel u) copy'
      (places.foldl (fun ir place => ir.step place.1 place.2) ir') := by
  induction places generalizing sel copy ir' with
  | nil => exact ⟨copy, by simpa using h⟩
  | cons place places ih =>
    obtain ⟨notMem, nodup⟩ := List.nodup_cons.mp nodup
    obtain ⟨code, hcode, mem⟩ := inside place List.mem_cons_self
    obtain ⟨copy', first⟩ := h.step wf hcode mem (new place List.mem_cons_self)
    have later : ∀ place' ∈ places, update sel place.2 (ir.selectOf place.2) place'.2 = none := by
      intro place' hplace'
      have ne : place'.2 ≠ place.2 := fun heq => notMem (heq ▸ List.mem_map_of_mem hplace')
      rw [update_of_ne ne]
      exact new place' (List.mem_cons_of_mem _ hplace')
    obtain ⟨copy'', rest⟩ := ih first (fun place' hplace' => inside place' (List.mem_cons_of_mem _ hplace')) nodup later
    refine ⟨copy'', ?_⟩
    rw [List.foldl_cons]
    convert rest using 1
    funext u
    by_cases hu : u = place.2
    · subst hu
      simp [notMem]
    · rw [update_of_ne hu]
      simp only [List.map_cons, List.mem_cons, hu, false_or]

end Applied

/-- The Selects of all ops that move. -/
def selects (ir : IR υ κ) (u : NodeID) : Option NodeID := if u ∈ ir.code then ir.selectOf u else none

theorem selects_eq_some : ir.selects u = some s ↔ ir.Moves u s := by
  simp only [selects, Moves]
  split <;> simp_all

theorem map_snd_places (k : Nat) (blocks : List (List NodeID)) :
    ((blocks.zipIdx k).flatMap (fun block => block.1.map (block.2, ·))).map Prod.snd = blocks.flatten := by
  induction blocks generalizing k with
  | nil => rfl
  | cons code blocks ih =>
    have here : (code.map (fun n => (k, n))).map Prod.snd = code := by simp
    rw [List.zipIdx_cons, List.flatMap_cons, List.map_append, ih, List.flatten_cons, here]

/-- What the whole pass does. -/
theorem codeMotionAroundSelects_spec (wf : ir.WellFormed) : ∃ copy, Applied ir ir.selects copy ir.codeMotionAroundSelects := by
  have names : ir.places.map Prod.snd = ir.code := map_snd_places 0 ir.blocks
  have inside : ∀ place ∈ ir.places, ∃ code, ir.blocks[place.1]? = some code ∧ place.2 ∈ code := by
    intro place hplace
    obtain ⟨block, hblock, hplace⟩ := List.mem_flatMap.mp hplace
    obtain ⟨n, hn, rfl⟩ := List.mem_map.mp hplace
    exact ⟨block.1, by simpa using List.mem_zipIdx_iff_getElem?.mp hblock, hn⟩
  have nodup : (ir.places.map Prod.snd).Nodup := by
    rw [names]
    exact wf.nodup
  obtain ⟨copy, all⟩ := (Applied.start ir id).steps wf inside nodup (fun _ _ => rfl)
  rw [names] at all
  exact ⟨copy, all⟩

end IR

end FexEmu.SelectMotion
