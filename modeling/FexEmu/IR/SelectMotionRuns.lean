import FexEmu.IR.SelectMotionPass
/-!
# Runs after code motion around selects

The two runs go side by side until a moved op reads wrong, and no later op makes up for that.
-/
namespace FexEmu.SelectMotion

open Interpreter

variable {υ κ σ : Type}

/-! ## Histories -/

namespace History

variable {h : History σ} {e : Event σ} {n : NodeID}

theorem last_cons_self (h : History σ) (e : Event σ) : last (e :: h) e.node = some e := by
  simp [last]

theorem last_cons_of_ne (ne : e.node ≠ n) : last (e :: h) n = last h n := by
  simp [last, ne]

theorem valueOf_cons_self (h : History σ) (e : Event σ) : valueOf (e :: h) e.node = some e.value := by
  simp [valueOf, last_cons_self]

theorem valueOf_cons_of_ne (ne : e.node ≠ n) : valueOf (e :: h) n = valueOf h n := by
  simp [valueOf, last_cons_of_ne ne]

theorem before_cons_self (h : History σ) (e : Event σ) : before (e :: h) e.node = h := by
  simp [before]

theorem before_cons_of_ne (ne : e.node ≠ n) : before (e :: h) n = before h n := by
  simp [before, ne]

theorem last_of_before {m : NodeID} (hm : last (before h m) n = some e) : ∃ e', last h n = some e' := by
  have mem := List.mem_of_find?_eq_some hm
  have name := List.find?_some hm
  have sub : e ∈ h := ((List.tail_sublist _).trans (List.dropWhile_sublist _)).subset mem
  exact Option.isSome_iff_exists.mp (List.find?_isSome.mpr ⟨e, sub, name⟩)

theorem vals_of_valueOf {v : BitVec 64} (h' : valueOf h n = some v) : vals h n = v := by
  simp [vals, h']

end History

namespace IR

variable {ir : IR υ κ} {e : Event σ} {h : History σ}

theorem uses_cons_of_lt (lt : e.node < ir.next) :
    ir.uses (e :: h) = (e.node, e.reads.take (ir.watched e.node)) :: ir.uses h := by
  simp [uses, lt]

theorem uses_cons_of_ge (ge : ir.next ≤ e.node) : ir.uses (e :: h) = ir.uses h := by
  simp [uses, Nat.not_lt.mpr ge]

end IR

namespace Machine

variable {m : Machine υ κ σ} {ir : IR υ κ} {c d : Config σ} {n : NodeID}

/-! ## Steps -/

/-- The op has run. -/
def ran (m : Machine υ κ σ) (header : Header υ κ) (n : NodeID) (pending : List NodeID) (c : Config σ) : Config σ :=
  ⟨⟨n, header.op.args.map c.history.vals, (m.eval header c.history.vals c.state).1, c.state⟩ :: c.history,
    (m.eval header c.history.vals c.state).2, pending⟩

theorem step_cons {pending : List NodeID} (hpending : c.pending = n :: pending)
    (ready : ∀ a ∈ (ir.graph n).op.args, (c.history.valueOf a).isSome) : m.step ir c = some (m.ran (ir.graph n) n pending c) := by
  simp only [step, hpending]
  exact if_pos (by simpa using ready)

theorem of_step_cons {pending : List NodeID} (hpending : c.pending = n :: pending) (h : m.step ir c = some d) :
    (∀ a ∈ (ir.graph n).op.args, (c.history.valueOf a).isSome) ∧ d = m.ran (ir.graph n) n pending c := by
  simp only [step, hpending] at h
  split at h
  · rename_i ready
    exact ⟨by simpa using ready, (Option.some.inj h).symm⟩
  · cases h

theorem eval_mapArgs (header : Header υ κ) (g : NodeID → NodeID) (vals : NodeID → BitVec 64) (state : σ) :
    m.eval ⟨header.op.mapArgs g, header.size⟩ vals state = m.eval header (vals ∘ g) state := by
  obtain ⟨op, size⟩ := header
  cases op <;> simp [eval, Op.mapArgs]

theorem eval_congr {header : Header υ κ} {vals vals' : NodeID → BitVec 64} (same : ∀ a ∈ header.op.args, vals a = vals' a)
    (state : σ) : m.eval header vals state = m.eval header vals' state := by
  obtain ⟨op, size⟩ := header
  cases op with
  | other op as =>
    have reads : as.map vals = as.map vals' := List.map_congr_left same
    simp [eval, reads]
  | _ => simp_all [eval, Op.args]

theorem uses_suffix (ir' : IR υ κ) (h : m.Reaches ir' c d) : ir.uses c.history <:+ ir.uses d.history := by
  induction h with
  | refl => exact List.suffix_rfl
  | @tail d d' _ hstep ih =>
    apply ih.trans
    cases hpending : d.pending with
    | nil =>
      simp only [step, hpending] at hstep
      split at hstep
      · obtain ⟨code, -, rfl⟩ := Option.map_eq_some_iff.mp hstep
        exact List.suffix_rfl
      · cases hstep
    | cons n pending =>
      obtain ⟨-, rfl⟩ := of_step_cons hpending hstep
      by_cases lt : n < ir.next
      · rw [ran, IR.uses_cons_of_lt lt]
        exact List.suffix_cons _ _
      · rw [ran, IR.uses_cons_of_ge (Nat.not_lt.mp lt)]

/-- Two states of a run that as many ops of the IR have led to have the same reads. -/
theorem uses_eq {ir' : IR υ κ} {c d d' : Config σ} (h : m.Reaches ir' c d) (h' : m.Reaches ir' c d')
    (length : (ir.uses d.history).length = (ir.uses d'.history).length) : ir.uses d.history = ir.uses d'.history := by
  have unique : Relator.RightUnique (fun c d => m.step ir' c = some d) := fun _ _ _ h1 h2 => Option.some.inj (h1.symm.trans h2)
  rcases Relation.ReflTransGen.total_of_right_unique unique h h' with later | later
  · exact (uses_suffix ir' later).eq_of_length length
  · exact ((uses_suffix ir' later).eq_of_length length.symm).symm

/-! ## Side by side -/

/-- A state of the run with the motions, beside one of the run without. -/
structure Related (m : Machine υ κ σ) (ir : IR υ κ) (copy : NodeID → NodeID) (c c' : Config σ) : Prop where
  state : c'.state = c.state
  inside : ∀ n ∈ c.pending, n ∈ ir.code
  pending : c'.pending = c.pending.flatMap (IR.placed ir.selects copy)
  uses : ir.uses c'.history = ir.uses c.history
  values : ∀ n < ir.next, (∀ u s, ir.Moves u s → n ≠ u ∧ n ≠ s) → c'.history.valueOf n = c.history.valueOf n
  select : ∀ u s, ir.Moves u s → c'.history.valueOf s = (c.history.last s).map (m.moved ir u s)
  unary : ∀ u s, ir.Moves u s → ∀ e, c.history.last u = some e → ∃ e', (c.history.before u).last s = some e' ∧
    c'.history.valueOf u = some (m.again ir u (m.moved ir u s e') e)

section Moves

variable {u s : NodeID} (moves : ir.Moves u s)
include moves

theorem unary_of_moves : ∃ op, (ir.graph u).op = .unary op s := by
  obtain ⟨op, cond, k, a, b, t, f, hu, -⟩ := IR.selectOf_eq_some.mp moves.2
  exact ⟨op, hu⟩

theorem select_of_moves : ∃ cond k a b t f, (ir.graph s).op = .select cond k a b t f := by
  obtain ⟨op, cond, k, a, b, t, f, -, hs, -⟩ := IR.selectOf_eq_some.mp moves.2
  exact ⟨cond, k, a, b, t, f, hs⟩

theorem ne_of_moves {u' s' : NodeID} (moves' : ir.Moves u' s') : u ≠ s' := by
  rintro rfl
  obtain ⟨op, hu⟩ := unary_of_moves moves
  obtain ⟨cond, k, a, b, t, f, hs⟩ := select_of_moves moves'
  rw [hs] at hu
  cases hu

theorem rests_of_constant {v : NodeID} (constant : ir.isValueConstant v = true) : v ≠ u ∧ v ≠ s := by
  obtain ⟨op, hu⟩ := unary_of_moves moves
  obtain ⟨cond, k, a, b, t, f, hs⟩ := select_of_moves moves
  constructor
  · rintro rfl
    rw [IR.isValueConstant_unary hu] at constant
    cases constant
  · rintro rfl
    rw [IR.isValueConstant_select hs] at constant
    cases constant

theorem target_of_moves : ir.target ir.selects n u = if ir.InRange u n then s else u := by
  simp [IR.target, IR.selects_eq_some.mpr moves]

end Moves

theorem target_of_rests {a : NodeID} (rests : ∀ s, ¬ir.Moves a s) : ir.target ir.selects n a = a := by
  have none : ir.selects a = none := by
    by_contra some
    obtain ⟨s, hs⟩ := Option.ne_none_iff_exists'.mp some
    exact rests s (IR.selects_eq_some.mp hs)
  simp [IR.target, none]

namespace Related

variable {copy : NodeID → NodeID} {c' : Config σ} (rel : Related m ir copy c c') (wf : ir.WellFormed) (hn : n ∈ ir.code)
include rel wf hn

theorem read {a : NodeID} (mine : a ∈ (ir.graph n).op.args) (notMoved : ∀ s, ¬ir.Moves n s)
    (ready : (c.history.valueOf a).isSome) : (c'.history.valueOf (ir.target ir.selects n a)).isSome ∧
      (c'.history.vals (ir.target ir.selects n a) = c.history.vals a ↔
        ∀ s, ir.Moves a s → ∀ e, c.history.last a = some e → if ir.InRange a n then
            ∀ e', c.history.last s = some e' → m.moved ir a s e' = e.value
          else ∀ e', (c.history.before a).last s = some e' → m.again ir a (m.moved ir a s e') e = e.value) := by
  have lt := wf.lt_next a (wf.args n hn a mine)
  by_cases moved : ∃ s, ir.Moves a s
  · obtain ⟨s, moves⟩ := moved
    obtain ⟨e, he⟩ : ∃ e, c.history.last a = some e := by
      simpa [History.valueOf, Option.isSome_iff_exists] using ready
    obtain ⟨e', he', now⟩ := rel.unary a s moves e he
    have same : ∀ s', ir.Moves a s' ↔ s' = s := by
      intro s'
      constructor
      · intro moves'
        exact Option.some.inj (moves'.2.symm.trans moves.2)
      · rintro rfl
        exact moves
    have value : c.history.vals a = e.value := by
      apply History.vals_of_valueOf
      simp [History.valueOf, he]
    simp only [same, forall_eq, he, Option.some.injEq, forall_eq', target_of_moves moves, value]
    by_cases inRange : ir.InRange a n
    · obtain ⟨e2, he2⟩ := History.last_of_before he'
      have select : c'.history.valueOf s = some (m.moved ir a s e2) := by rw [rel.select a s moves, he2, Option.map_some]
      simp [inRange, he2, select, History.vals_of_valueOf select]
    · simp [inRange, he', now, History.vals_of_valueOf now]
  · have rests : ∀ u s, ir.Moves u s → a ≠ u ∧ a ≠ s := by
      intro u s moves
      refine ⟨fun heq => moved ⟨s, heq ▸ moves⟩, fun heq => ?_⟩
      have own := IR.Moves.unique wf moves hn (heq ▸ mine)
      exact notMoved s (own ▸ moves)
    have value := rel.values a lt rests
    rw [target_of_rests (fun s moves => moved ⟨s, moves⟩), value]
    refine ⟨ready, ?_⟩
    simp only [History.vals, value, true_iff]
    exact fun s moves => absurd ⟨s, moves⟩ moved

theorem reads_iff (notMoved : ∀ s, ¬ir.Moves n s) (ready : ∀ a ∈ (ir.graph n).op.args, (c.history.valueOf a).isSome) :
    (∀ a ∈ (ir.graph n).op.args, c'.history.vals (ir.target ir.selects n a) = c.history.vals a) ↔ m.ReadsRight ir c n := by
  constructor
  · intro same u s moves mine
    exact ((rel.read wf hn mine notMoved (ready u mine)).2.mp (same u mine)) s moves
  · intro right a mine
    apply (rel.read wf hn mine notMoved (ready a mine)).2.mpr
    intro s moves
    exact right a s moves mine

omit wf hn in
theorem next {e : Event σ} {d d' : Config σ} {pending : List NodeID} (wf : ir.WellFormed) (hpending : c.pending = e.node :: pending)
    (hd : d.history = e :: c.history) (hd' : d.pending = pending) (state : d'.state = d.state)
    (left : d'.pending = pending.flatMap (IR.placed ir.selects copy)) (uses : ir.uses d'.history = ir.uses d.history)
    (keeps : ∀ n < ir.next, n ≠ e.node → d'.history.valueOf n = c'.history.valueOf n)
    (value : (∀ u s, ir.Moves u s → e.node ≠ u ∧ e.node ≠ s) → d'.history.valueOf e.node = some e.value)
    (select : ∀ u, ir.Moves u e.node → d'.history.valueOf e.node = some (m.moved ir u e.node e))
    (unary : ∀ s, ir.Moves e.node s → ∃ e', c.history.last s = some e' ∧
      d'.history.valueOf e.node = some (m.again ir e.node (m.moved ir e.node s e') e)) : Related m ir copy d d' := by
  refine ⟨state, ?_, by rw [left, hd'], uses, ?_, ?_, ?_⟩
  · intro n hn
    rw [hd'] at hn
    exact rel.inside n (hpending ▸ List.mem_cons_of_mem _ hn)
  · intro n lt rests
    rw [hd]
    by_cases heq : n = e.node
    · subst heq
      rw [value rests, History.valueOf_cons_self]
    · rw [keeps n lt heq, rel.values n lt rests, History.valueOf_cons_of_ne (Ne.symm heq)]
  · intro u s moves
    rw [hd]
    by_cases heq : s = e.node
    · subst heq
      rw [select u moves, History.last_cons_self, Option.map_some]
    · rw [keeps s (moves.lt wf) heq, rel.select u s moves, History.last_cons_of_ne (Ne.symm heq)]
  · intro u s moves e1 he1
    rw [hd] at he1 ⊢
    by_cases heq : u = e.node
    · subst heq
      rw [History.last_cons_self, Option.some.injEq] at he1
      rw [History.before_cons_self, ← he1]
      exact unary s moves
    · rw [History.last_cons_of_ne (Ne.symm heq)] at he1
      rw [History.before_cons_of_ne (Ne.symm heq), keeps u (wf.lt_next u moves.1) heq]
      exact rel.unary u s moves e1 he1

omit hn in
theorem ran_rests {ir' : IR υ κ} {pending : List NodeID} (applied : IR.Applied ir ir.selects copy ir')
    (hpending : c.pending = n :: pending) (hn : n ∈ ir.code) (rests : ∀ u s, ir.Moves u s → n ≠ u ∧ n ≠ s)
    (ready : ∀ a ∈ (ir.graph n).op.args, (c.history.valueOf a).isSome) :
    ∃ d', m.step ir' c' = some d' ∧
      (ir.uses d'.history = ir.uses (m.ran (ir.graph n) n pending c).history ↔ m.ReadsRight ir c n) ∧
      (ir.uses d'.history).length = (ir.uses (m.ran (ir.graph n) n pending c).history).length ∧
      (m.ReadsRight ir c n → Related m ir copy (m.ran (ir.graph n) n pending c) d') := by
  have lt := wf.lt_next n hn
  have notMoved : ∀ s, ¬ir.Moves n s := fun s moves => (rests n s moves).1 rfl
  have notSelect : ¬∃ u, ir.selects u = some n := fun ⟨u, hu⟩ => (rests u n (IR.selects_eq_some.mp hu)).2 rfl
  -- the node runs as before, but reads what its arguments were moved to
  have header : ir'.graph n = ⟨(ir.graph n).op.mapArgs (ir.target ir.selects n), (ir.graph n).size⟩ := by
    rw [applied.graph n lt]
    simp [IR.header, if_neg notSelect]
  have alone : IR.placed ir.selects copy n = [n] := by simp only [IR.placed, if_neg notSelect]
  have hpending' : c'.pending = n :: pending.flatMap (IR.placed ir.selects copy) := by
    rw [rel.pending, hpending, List.flatMap_cons, alone]
    rfl
  have ready' : ∀ a ∈ (ir'.graph n).op.args, (c'.history.valueOf a).isSome := by
    intro a ha
    rw [header, Op.args_mapArgs] at ha
    obtain ⟨b, hb, rfl⟩ := List.mem_map.mp ha
    exact (rel.read wf hn hb notMoved (ready b hb)).1
  have iff := rel.reads_iff wf hn notMoved ready
  have watched : ir.watched n = (ir.graph n).op.args.length := by
    have notIn : ¬(ir.selectOf n).isSome = true := by
      intro isSome
      obtain ⟨s, hs⟩ := Option.isSome_iff_exists.mp isSome
      exact notMoved s ⟨hn, hs⟩
    have notAny : ¬(ir.code.any (fun u => ir.selectOf u = some n)) = true := by
      intro any
      obtain ⟨u, hu, hs⟩ := List.any_eq_true.mp any
      exact (rests u n ⟨hu, by simpa using hs⟩).2 rfl
    simp only [IR.watched, if_neg notIn, if_neg notAny]
  have uses : ir.uses (m.ran (ir'.graph n) n (pending.flatMap (IR.placed ir.selects copy)) c').history =
      ir.uses (m.ran (ir.graph n) n pending c).history ↔ m.ReadsRight ir c n := by
    rw [ran, ran, IR.uses_cons_of_lt lt, IR.uses_cons_of_lt lt, rel.uses, header, Op.args_mapArgs, ← iff]
    simp only [List.cons.injEq, Prod.mk.injEq, true_and, and_true, List.map_map, watched]
    rw [List.take_of_length_le (by simp), List.take_of_length_le (by simp)]
    exact List.map_inj_left
  refine ⟨_, step_cons hpending' ready', uses, ?_, ?_⟩
  · rw [ran, ran, IR.uses_cons_of_lt lt, IR.uses_cons_of_lt lt, rel.uses]
    rfl
  · intro right
    have same := iff.mpr right
    have evals : m.eval (ir'.graph n) c'.history.vals c'.state = m.eval (ir.graph n) c.history.vals c.state := by
      rw [header, eval_mapArgs, rel.state]
      exact eval_congr same _
    apply rel.next wf hpending rfl rfl
    · rw [ran, ran, evals]
    · rfl
    · exact (uses.mpr right)
    · intro n' _ ne
      exact History.valueOf_cons_of_ne (Ne.symm ne)
    · intro _
      rw [ran, History.valueOf_cons_self, evals]
    · exact fun u moves => absurd rfl (rests u n moves).2
    · exact fun s moves => absurd moves (notMoved s)

omit hn in
/-- The relation after an op that is moved. Its own read of the Select does not count. -/
theorem ran_moved {ir' : IR υ κ} {pending : List NodeID} {s : NodeID} (applied : IR.Applied ir ir.selects copy ir')
    (hpending : c.pending = n :: pending) (moves : ir.Moves n s)
    (ready : ∀ a ∈ (ir.graph n).op.args, (c.history.valueOf a).isSome) :
    ∃ d', m.step ir' c' = some d' ∧ Related m ir copy (m.ran (ir.graph n) n pending c) d' := by
  have lt := wf.lt_next n moves.1
  obtain ⟨op, hop⟩ := unary_of_moves moves
  have notSelect : ¬∃ u, ir.selects u = some n := fun ⟨u, hu⟩ => ne_of_moves moves (IR.selects_eq_some.mp hu) rfl
  have header : ir'.graph n = ⟨.unary op s, (ir.graph n).size⟩ := by
    have same : ir.target ir.selects n s = s := target_of_rests (fun s' moves' => ne_of_moves moves' moves rfl)
    rw [applied.graph n lt]
    simp [IR.header, if_neg notSelect, hop, Op.mapArgs, same]
  have alone : IR.placed ir.selects copy n = [n] := by simp only [IR.placed, if_neg notSelect]
  have hpending' : c'.pending = n :: pending.flatMap (IR.placed ir.selects copy) := by
    rw [rel.pending, hpending, List.flatMap_cons, alone]
    rfl
  obtain ⟨e', he'⟩ : ∃ e', c.history.last s = some e' := by
    simpa [History.valueOf, Option.isSome_iff_exists] using ready s (by simp [hop, Op.args])
  have select : c'.history.valueOf s = some (m.moved ir n s e') := by rw [rel.select n s moves, he', Option.map_some]
  have watched : ir.watched n = 0 := by simp only [IR.watched, moves.2, Option.isSome_some, if_true]
  refine ⟨_, step_cons hpending' (by simp [header, Op.args, select]), ?_⟩
  apply rel.next wf hpending rfl rfl
  · simp [ran, header, hop, eval, rel.state]
  · rfl
  · rw [ran, ran, IR.uses_cons_of_lt lt, IR.uses_cons_of_lt lt, rel.uses, watched]
    rfl
  · intro n' _ ne
    exact History.valueOf_cons_of_ne (Ne.symm ne)
  · exact fun rests => absurd rfl (rests n s moves).1
  · exact fun u moves' => absurd rfl (ne_of_moves moves moves')
  · intro s' moves'
    obtain rfl := Option.some.inj (moves'.2.symm.trans moves.2)
    refine ⟨e', he', ?_⟩
    rw [ran, History.valueOf_cons_self]
    simp [header, eval, again, hop, History.vals_of_valueOf select, rel.state]

omit hn in
theorem ran_select {ir' : IR υ κ} {pending : List NodeID} {u : NodeID} (applied : IR.Applied ir ir.selects copy ir')
    (hpending : c.pending = n :: pending) (moves : ir.Moves u n)
    (ready : ∀ a ∈ (ir.graph n).op.args, (c.history.valueOf a).isSome) :
    ∃ d', m.Reaches ir' c' d' ∧
      (ir.uses d'.history = ir.uses (m.ran (ir.graph n) n pending c).history ↔ m.ReadsRight ir c n) ∧
      (ir.uses d'.history).length = (ir.uses (m.ran (ir.graph n) n pending c).history).length ∧
      (m.ReadsRight ir c n → Related m ir copy (m.ran (ir.graph n) n pending c) d') := by
  have hn := moves.select_mem wf
  have lt := wf.lt_next n hn
  obtain ⟨op, cond, k, a, b, t, f, hunary, hselect, hsize, -, constT, constF⟩ := IR.selectOf_eq_some.mp moves.2
  have selects := IR.selects_eq_some.mpr moves
  have notMoved : ∀ s, ¬ir.Moves n s := fun s moves' => ne_of_moves moves' moves rfl
  have ge := applied.copy_ge u n selects
  have header := applied.graph n lt
  have hop : (ir'.graph n).op = .select cond k (ir.target ir.selects n a) (ir.target ir.selects n b) (copy n) (copy n + 1) := by
    rw [header, IR.header_moved hselect ⟨u, selects⟩]
  obtain ⟨copy1, copy2⟩ := applied.copies u n selects
  simp only [IR.choices, hselect, IR.copyFor_unary hunary] at copy1 copy2
  have hpending' : c'.pending = copy n :: (copy n + 1) :: n :: pending.flatMap (IR.placed ir.selects copy) := by
    rw [rel.pending, hpending, List.flatMap_cons]
    simp only [IR.placed, if_pos (show ∃ u, ir.selects u = some n from ⟨u, selects⟩)]
    rfl
  -- constants are not moved, so both runs read the same of them
  have value : ∀ v, ir.isValueConstant v = true → v ∈ (ir.graph n).op.args →
      (c'.history.valueOf v).isSome ∧ c'.history.vals v = c.history.vals v := by
    intro v constant mine
    have same := rel.values v (wf.lt_next v (wf.args n hn v mine)) (fun u s moves => rests_of_constant moves constant)
    rw [History.vals, History.vals, same]
    exact ⟨ready v mine, rfl⟩
  have mineT : t ∈ (ir.graph n).op.args := by simp [hselect, Op.args]
  have mineF : f ∈ (ir.graph n).op.args := by simp [hselect, Op.args]
  have ltT := wf.lt_next t (wf.args n hn t mineT)
  have ltF := wf.lt_next f (wf.args n hn f mineF)
  obtain ⟨readyT, sameT⟩ := value t constT mineT
  obtain ⟨readyF, sameF⟩ := value f constF mineF
  -- the new IR takes three steps for the one of the select: two copies of the op, then the select itself
  let v1 := m.unary op (ir.graph u).size (c.history.vals t) c.state
  let v2 := m.unary op (ir.graph u).size (c.history.vals f) c.state
  let e1 : Event σ := ⟨copy n, [c.history.vals t], v1, c.state⟩
  let e2 : Event σ := ⟨copy n + 1, [c.history.vals f], v2, c.state⟩
  let d1 : Config σ := ⟨e1 :: c'.history, c.state, (copy n + 1) :: n :: pending.flatMap (IR.placed ir.selects copy)⟩
  let d2 : Config σ := ⟨e2 :: e1 :: c'.history, c.state, n :: pending.flatMap (IR.placed ir.selects copy)⟩
  have ne1 : ∀ n' < ir.next, e1.node ≠ n' := fun n' lt' => Nat.ne_of_gt (Nat.lt_of_lt_of_le lt' ge)
  have ne2 : ∀ n' < ir.next, e2.node ≠ n' := fun n' lt' => Nat.ne_of_gt (Nat.lt_succ_of_lt (Nat.lt_of_lt_of_le lt' ge))
  have first : m.step ir' c' = some d1 := by
    rw [step_cons hpending' (by simp [copy1, Op.args, readyT])]
    simp [ran, copy1, eval, Op.args, sameT, rel.state, d1, e1, v1]
  have keep1 : ∀ n' < ir.next, d1.history.valueOf n' = c'.history.valueOf n' := fun n' lt' => History.valueOf_cons_of_ne (ne1 n' lt')
  have second : m.step ir' d1 = some d2 := by
    have vals : d1.history.vals f = c.history.vals f := by rw [History.vals, keep1 f ltF, ← sameF, History.vals]
    rw [step_cons rfl (by simp [copy2, Op.args, keep1 f ltF, readyF])]
    simp [ran, copy2, eval, Op.args, vals, d1, d2, e2, v2]
  have keep2 : ∀ n' < ir.next, d2.history.valueOf n' = c'.history.valueOf n' :=
    fun n' lt' => (History.valueOf_cons_of_ne (ne2 n' lt')).trans (keep1 n' lt')
  have copyT : d2.history.valueOf (copy n) = some v1 := by
    rw [show d2.history = e2 :: e1 :: c'.history from rfl, History.valueOf_cons_of_ne (Nat.ne_of_gt (Nat.lt_succ_self _))]
    exact History.valueOf_cons_self _ e1
  have copyF : d2.history.valueOf (copy n + 1) = some v2 := History.valueOf_cons_self _ e2
  have readA := rel.read wf hn (a := a) (by simp [hselect, Op.args]) notMoved (ready a (by simp [hselect, Op.args]))
  have readB := rel.read wf hn (a := b) (by simp [hselect, Op.args]) notMoved (ready b (by simp [hselect, Op.args]))
  have ltTarget : ∀ a' ∈ ir.code, ir.target ir.selects n a' < ir.next := by
    intro a' ha'
    by_cases moved : ∃ s, ir.Moves a' s
    · obtain ⟨s, moves'⟩ := moved
      rw [target_of_moves moves']
      split
      · exact moves'.lt wf
      · exact wf.lt_next a' ha'
    · rw [target_of_rests (fun s moves' => moved ⟨s, moves'⟩)]
      exact wf.lt_next a' ha'
  have ltA := ltTarget a (wf.args n hn a (by simp [hselect, Op.args]))
  have ltB := ltTarget b (wf.args n hn b (by simp [hselect, Op.args]))
  have third : m.step ir' d2 = some (m.ran (ir'.graph n) n (pending.flatMap (IR.placed ir.selects copy)) d2) := by
    apply step_cons rfl
    simp [hop, Op.args, keep2 _ ltA, keep2 _ ltB, readA.1, readB.1, copyT, copyF]
  have valsA : d2.history.vals (ir.target ir.selects n a) = c'.history.vals (ir.target ir.selects n a) := by
    rw [History.vals, keep2 _ ltA, History.vals]
  have valsB : d2.history.vals (ir.target ir.selects n b) = c'.history.vals (ir.target ir.selects n b) := by
    rw [History.vals, keep2 _ ltB, History.vals]
  have watched : ir.watched n = 2 := by
    have none : ir.selectOf n = none := by simp only [IR.selectOf, hselect]
    have any : ir.code.any (fun u => ir.selectOf u = some n) = true := List.any_eq_true.mpr ⟨u, moves.1, by simpa using moves.2⟩
    simp only [IR.watched, none, any, Option.isSome_none, if_true]
    rfl
  -- the copies read constants, so only the two operands of the comparison can differ
  have pair : (c'.history.vals (ir.target ir.selects n a) = c.history.vals a ∧
      c'.history.vals (ir.target ir.selects n b) = c.history.vals b) ↔ m.ReadsRight ir c n := by
    have targetT : ir.target ir.selects n t = t := target_of_rests (fun s moves' => (rests_of_constant moves' constT).1 rfl)
    have targetF : ir.target ir.selects n f = f := target_of_rests (fun s moves' => (rests_of_constant moves' constF).1 rfl)
    rw [← rel.reads_iff wf hn notMoved ready]
    simp [hselect, Op.args, targetT, targetF, sameT, sameF]
  have uses' : ir.uses (m.ran (ir'.graph n) n (pending.flatMap (IR.placed ir.selects copy)) d2).history =
      (n, [c'.history.vals (ir.target ir.selects n a), c'.history.vals (ir.target ir.selects n b)]) :: ir.uses c.history := by
    have skip : ir.uses d2.history = ir.uses c'.history :=
      (IR.uses_cons_of_ge (Nat.le_succ_of_le ge)).trans (IR.uses_cons_of_ge ge)
    rw [ran, IR.uses_cons_of_lt lt, skip, rel.uses, watched]
    simp [hop, Op.args, valsA, valsB]
  have uses : ir.uses (m.ran (ir.graph n) n pending c).history =
      (n, [c.history.vals a, c.history.vals b]) :: ir.uses c.history := by
    rw [ran, IR.uses_cons_of_lt lt, watched]
    simp [hselect, Op.args]
  have path : m.Reaches ir' c' (m.ran (ir'.graph n) n (pending.flatMap (IR.placed ir.selects copy)) d2) :=
    .tail (.tail (.single first) second) third
  refine ⟨_, path, ?_, ?_, ?_⟩
  · rw [uses, uses', ← pair]
    simp
  · rw [uses, uses']
    rfl
  · intro right
    obtain ⟨sameA, sameB⟩ := pair.mpr right
    have result : m.eval (ir'.graph n) d2.history.vals c.state =
        (opSelect (ir.graph n).size k cond (c.history.vals a) (c.history.vals b) v1 v2, c.state) := by
      have size : (ir'.graph n).size = (ir.graph n).size := by rw [header, IR.header_size]
      simp [eval, hop, size, valsA, valsB, sameA, sameB, History.vals_of_valueOf copyT, History.vals_of_valueOf copyF]
    have after : (m.ran (ir'.graph n) n (pending.flatMap (IR.placed ir.selects copy)) d2).history.valueOf n =
        some (opSelect (ir.graph n).size k cond (c.history.vals a) (c.history.vals b) v1 v2) := by
      rw [ran, History.valueOf_cons_self]
      exact congrArg some (congrArg Prod.fst result)
    apply rel.next wf hpending rfl rfl
    · have kept : (m.ran (ir.graph n) n pending c).state = c.state := by simp only [ran, eval, hselect]
      rw [kept]
      exact congrArg Prod.snd result
    · rfl
    · rw [uses, uses', sameA, sameB]
    · intro n' lt' ne
      rw [← keep2 n' lt']
      exact History.valueOf_cons_of_ne (fun heq => ne heq.symm)
    · exact fun rests => absurd rfl (rests u n moves).2
    · intro u' moves'
      have own := IR.Moves.unique wf moves moves'.1 (by
        obtain ⟨op', hop'⟩ := unary_of_moves moves'
        simp [hop', Op.args])
      rw [own, after]
      simp [moved, hunary, hselect, Op.args, hsize, v1, v2]
    · exact fun s moves' => absurd moves' (notMoved s)

omit wf hn in
theorem entered {ir' : IR υ κ} (applied : IR.Applied ir ir.selects copy ir') (hpending : c.pending = [])
    (hstep : m.step ir c = some d) : ∃ d', m.step ir' c' = some d' ∧ Related m ir copy d d' := by
  have hpending' : c'.pending = [] := by rw [rel.pending, hpending, List.flatMap_nil]
  simp only [step, hpending] at hstep
  split at hstep
  · rename_i block hblock
    obtain ⟨code, hcode, rfl⟩ := Option.map_eq_some_iff.mp hstep
    refine ⟨{ c' with pending := code.flatMap (IR.placed ir.selects copy) }, ?_, ?_⟩
    · simp [step, hpending', rel.state, hblock, applied.blocks, hcode]
    · exact ⟨rel.state, fun n hn => List.mem_flatten.mpr ⟨code, List.mem_of_getElem? hcode, hn⟩, rfl, rel.uses, rel.values,
        rel.select, rel.unary⟩
  · cases hstep

omit wf hn in
/-- An op has its ops in the run with the motions. The reads are the same exactly when it reads right, and then the runs go
on side by side. -/
theorem ran {ir' : IR υ κ} {pending : List NodeID} (wf : ir.WellFormed) (applied : IR.Applied ir ir.selects copy ir')
    (hpending : c.pending = n :: pending) (hstep : m.step ir c = some d) : ∃ d', m.Reaches ir' c' d' ∧
      (ir.uses d'.history = ir.uses d.history ↔ m.ReadsRight ir c n) ∧
      (ir.uses d'.history).length = (ir.uses d.history).length ∧ (m.ReadsRight ir c n → Related m ir copy d d') := by
  obtain ⟨ready, rfl⟩ := of_step_cons hpending hstep
  have hn : n ∈ ir.code := rel.inside n (by rw [hpending]; exact List.mem_cons_self)
  by_cases isSelect : ∃ u, ir.Moves u n
  · obtain ⟨u, moves⟩ := isSelect
    exact rel.ran_select wf applied hpending moves ready
  · by_cases isMoved : ∃ s, ir.Moves n s
    · obtain ⟨s, moves⟩ := isMoved
      obtain ⟨d', hd', after⟩ := rel.ran_moved wf applied hpending moves ready
      have right : m.ReadsRight ir c n := by
        intro u s' moves' mine
        obtain ⟨op, hop⟩ := unary_of_moves moves
        rw [hop, Op.args, List.mem_singleton] at mine
        exact absurd mine (ne_of_moves moves' moves)
      exact ⟨d', .single hd', ⟨fun _ => right, fun _ => after.uses⟩, by rw [after.uses], fun _ => after⟩
    · obtain ⟨d', hd', iff, length, after⟩ := rel.ran_rests wf applied hpending hn
        (fun u s moves => ⟨fun heq => isMoved ⟨s, heq ▸ moves⟩, fun heq => isSelect ⟨u, heq ▸ moves⟩⟩) ready
      exact ⟨d', .single hd', iff, length, after⟩

end Related

/-! ## Runs -/

section Runs

variable {copy : NodeID → NodeID} {ir' : IR υ κ} {state : σ}

theorem related_start (applied : IR.Applied ir ir.selects copy ir') (state : σ) :
    Related m ir copy (start ir state) (start ir' state) := by
  refine ⟨rfl, ?_, ?_, rfl, fun _ _ _ => rfl, fun _ _ _ => rfl, by simp [start, History.last]⟩
  · intro n hn
    rw [start, List.getD_eq_getElem?_getD] at hn
    cases h : ir.blocks[0]? with
    | none => simp [h] at hn
    | some code =>
      rw [h] at hn
      exact List.mem_flatten.mpr ⟨code, List.mem_of_getElem? h, hn⟩
  · simp only [start, applied.blocks, List.getD_eq_getElem?_getD, List.getElem?_map]
    cases ir.blocks[0]? <;> rfl

theorem related_of_reaches (wf : ir.WellFormed) (applied : IR.Applied ir ir.selects copy ir')
    (right : ∀ c d c' n pending, m.Reaches ir (start ir state) c → m.Reaches ir' (start ir' state) c' → Related m ir copy c c' →
      c.pending = n :: pending → m.step ir c = some d → m.ReadsRight ir c n)
    (h : m.Reaches ir (start ir state) c) : ∃ c', m.Reaches ir' (start ir' state) c' ∧ Related m ir copy c c' := by
  induction h with
  | refl => exact ⟨_, .refl, related_start applied state⟩
  | @tail c d before hstep ih =>
    obtain ⟨c', reaches, rel⟩ := ih
    cases hpending : c.pending with
    | nil =>
      obtain ⟨d', hd', after⟩ := rel.entered applied hpending hstep
      exact ⟨d', reaches.tail hd', after⟩
    | cons n pending =>
      obtain ⟨d', hd', -, -, after⟩ := rel.ran wf applied hpending hstep
      exact ⟨d', reaches.trans hd', after (right c d c' n pending before reaches rel hpending hstep)⟩

theorem preserves_of_allReadRight (wf : ir.WellFormed) (h : m.AllReadRight ir state) :
    m.Preserves ir ir.codeMotionAroundSelects state := by
  obtain ⟨copy, applied⟩ := IR.codeMotionAroundSelects_spec wf
  intro c hc
  obtain ⟨c', hc', rel⟩ := related_of_reaches wf applied
    (fun c d _ n pending hc _ _ hpending hstep => h c d n pending hc hpending hstep) hc
  exact ⟨c', hc', rel.uses, rel.state⟩

theorem allReadRight_of_preserves (wf : ir.WellFormed) (h : m.Preserves ir ir.codeMotionAroundSelects state) :
    m.AllReadRight ir state := by
  obtain ⟨copy, applied⟩ := IR.codeMotionAroundSelects_spec wf
  -- Reads that differ stay apart, since a run only adds to them.
  have right : ∀ c d c' n pending, m.Reaches ir (start ir state) c →
      m.Reaches ir.codeMotionAroundSelects (start ir.codeMotionAroundSelects state) c' → Related m ir copy c c' →
      c.pending = n :: pending → m.step ir c = some d → m.ReadsRight ir c n := by
    intro c d c' n pending hc hc' rel hpending hstep
    obtain ⟨d', hd', iff, length, -⟩ := rel.ran wf applied hpending hstep
    obtain ⟨d2, hd2, uses, -⟩ := h d (hc.tail hstep)
    apply iff.mp
    rw [← uses]
    exact uses_eq (hc'.trans hd') hd2 (by rw [length, uses])
  intro c d n pending hc hpending hstep
  obtain ⟨c', hc', rel⟩ := related_of_reaches wf applied right hc
  exact right c d c' n pending hc hc' rel hpending hstep

/-- The pass keeps the value of every use exactly when each op of a run reads the moved ops right. -/
theorem codeMotionAroundSelects_preserves_iff (wf : ir.WellFormed) :
    m.Preserves ir ir.codeMotionAroundSelects state ↔ m.AllReadRight ir state :=
  ⟨allReadRight_of_preserves wf, preserves_of_allReadRight wf⟩

theorem reaches_of_iterate (k : Nat) (h : (fun c : Option (Config σ) => c.bind (m.step ir))^[k] (some c) = some d) :
    m.Reaches ir c d := by
  induction k generalizing d with
  | zero =>
    obtain rfl := Option.some.inj h
    exact .refl
  | succ k ih =>
    rw [Function.iterate_succ_apply'] at h
    obtain ⟨d', hd', hstep⟩ := Option.bind_eq_some_iff.mp h
    exact (ih hd').tail hstep

end Runs

end Machine

/-! ## A use in a later block -/

/-- `_Neg` of a Select of 5 and 7. The state is the block to go to. -/
def negMachine : Machine Unit Nat Nat where
  unary _ size v _ := (opNeg size v).getD 0
  other target _ _ _ := (0, target)
  successor := some

def negIR (blocks : List (List NodeID)) : IR Unit Nat where
  graph
    | 1 => ⟨.constant 5, .i64Bit⟩
    | 2 => ⟨.constant 7, .i64Bit⟩
    | 3 => ⟨.select .EQ 8 1 1 1 2, .i64Bit⟩
    | 4 => ⟨.unary () 3, .i64Bit⟩
    | 7 => ⟨.other 2 [4], .i64Bit⟩
    | 8 => ⟨.other 2 [], .i64Bit⟩
    | _ => ⟨.other 1 [], .i64Bit⟩
  numUses
    | 1 => 3
    | 2 => 1
    | 3 => 1
    | 4 => 1
    | _ => 0
  blocks := blocks
  next := 9

/-- The op that uses the moved one is in the next block. -/
def laterIR : IR Unit Nat := negIR [[1, 2, 3, 4, 5, 6], [7, 8]]

theorem laterIR_wellFormed : laterIR.WellFormed := by
  constructor <;> decide

/-- The state in which that op is about to run. -/
def laterConfig : Config Nat where
  history := [⟨6, [], 0, 1⟩, ⟨5, [], 0, 0⟩, ⟨4, [5], -5, 0⟩, ⟨3, [5, 5, 5, 7], 5, 0⟩, ⟨2, [], 7, 0⟩, ⟨1, [], 5, 0⟩]
  state := 1
  pending := [7, 8]

theorem later_block_negated_twice :
    laterIR.WellFormed ∧ ¬negMachine.Preserves laterIR laterIR.codeMotionAroundSelects 0 := by
  refine ⟨laterIR_wellFormed, fun h => ?_⟩
  have reaches : negMachine.Reaches laterIR (Machine.start laterIR 0) laterConfig := Machine.reaches_of_iterate 7 rfl
  have moves : laterIR.Moves 4 3 := by decide
  have right := Machine.allReadRight_of_preserves laterIR_wellFormed h laterConfig _ 7 [8] reaches rfl rfl 4 3 moves (by decide) _ rfl
  exact absurd (right _ rfl) (by decide)

/-- The op that uses the moved one is in its block. -/
def sameIR : IR Unit Nat := negIR [[1, 2, 3, 4, 7, 8]]

theorem preserves_iff_sameBlock : sameIR.Moves 4 3 ∧
    (negMachine.Preserves sameIR sameIR.codeMotionAroundSelects 0 ↔ negMachine.AllReadRight sameIR 0) :=
  ⟨by decide, Machine.codeMotionAroundSelects_preserves_iff (by constructor <;> decide)⟩

end FexEmu.SelectMotion
