import FexEmu.IR.ValueDominance
/-!
# Dominance of definitions

The validation knows the blocks that lead to a block, but not on which paths they are.
-/
namespace FexEmu.ValueDominance

open Relation (ReflTransGen)
open List (mem_singleton foldl_cons mem_cons mem_orderedInsert length_map mem_cons_self length_cons)

/-! ## Paths -/

/-- One block names the other as a target. -/
def Edge (ir : IR) (source target : Nat) : Prop :=
  ∃ b ∈ ir.blocks, b.id = source ∧ ∃ node ∈ b.code, target ∈ node.op.targets

/-- The value is a node of the block. -/
def Defines (ir : IR) (block arg : Nat) : Prop := ∃ b ∈ ir.blocks, b.id = block ∧ ∃ node ∈ b.code, node.id = arg

/-- An edge from a block that does not define the value. -/
def EdgeWithout (ir : IR) (arg source target : Nat) : Prop := Edge ir source target ∧ ¬ Defines ir source arg

/-- The first block of the list. -/
def IR.Entry (ir : IR) (block : Nat) : Prop := (ir.blocks.head?.map (·.id)) = some block

/-- A path comes to the block without executing the definition of the argument. -/
def ReachableWithout (ir : IR) (arg block : Nat) : Prop :=
  ∃ entry, ir.Entry entry ∧ ReflTransGen (EdgeWithout ir arg) entry block

/-- The ids of the nodes follow the list, and `Begin` and `Last` are those of a block's code. -/
structure ListOrdered (ir : IR) : Prop where
  blocks : (ir.blocks.map (·.id)).Nodup
  numbered : ∃ first, ir.blocks.flatMap (fun b => b.code.map (·.id)) =
    List.range' first (ir.blocks.flatMap fun b => b.code.map (·.id)).length
  begin : ∀ b ∈ ir.blocks, b.code.head?.map (·.id) = some b.begin
  last : ∀ b ∈ ir.blocks, b.code.getLast?.map (·.id) = some b.last

/-- An argument of a node that is a definition. -/
structure Use (ir : IR) where
  block : Block
  before : List Node
  node : Node
  after : List Node
  arg : Nat
  block_mem : block ∈ ir.blocks
  code_eq : block.code = before ++ node :: after
  arg_mem : arg ∈ node.args
  arg_ne : arg ≠ 0 ∧ arg ≠ ir.header

variable {ir : IR}

/-- A path comes to the block without the definition, and it is not in front of the use in the block. -/
def Use.Undominated (u : Use ir) : Prop := ReachableWithout ir u.arg u.block.id ∧ ∀ node ∈ u.before, node.id ≠ u.arg

/-- The validation reports an error exactly if some definition does not dominate its use. -/
def ReportsUndominated (ir : IR) : Prop :=
  ∃ hadError, run ir = some hadError ∧ (hadError = true ↔ ∃ u : Use ir, u.Undominated)

/-- Some block that leads to the block holds the argument in its interval. -/
def HeldBefore (ir : IR) (block arg : Nat) : Prop := ∃ b ∈ ir.blocks, ReflTransGen (Edge ir) b.id block ∧ b.holds arg

/-- The three tests that the pass makes of a use. -/
def Use.Reported (u : Use ir) : Prop :=
  (u.block.holds u.arg ∧ u.node.id < u.arg) ∨ (u.arg < u.block.begin ∧ ¬ HeldBefore ir u.block.id u.arg) ∨
    u.block.last < u.arg

/-- The definition is behind the use in its block, or outside of the block and on no path to it, or not on every path. -/
def Use.Right (u : Use ir) : Prop := u.Reported ∧ ReachableWithout ir u.arg u.block.id

/-- A node uses itself or the end of its block, or the definition is in a block that leads to the use, but not on every path.
-/
def Use.Missed (u : Use ir) : Prop :=
  ReachableWithout ir u.arg u.block.id ∧
    (u.arg = u.node.id ∨ u.arg = u.block.last ∨ (u.arg < u.block.begin ∧ HeldBefore ir u.block.id u.arg))

/-- The use is not reached, or every path has a block with the definition that comes later in the list or that the definition
ends. -/
def Use.Spurious (u : Use ir) : Prop := u.Reported ∧ ¬ ReachableWithout ir u.arg u.block.id

/-! ## Predecessors -/

variable {p t block : Nat} {set : List Nat} {b : Block}

theorem mem_addPredecessor {b x : Nat} {preds : Nat → List Nat} :
    p ∈ addPredecessor b preds x t ↔ p ∈ preds t ∨ (t = x ∧ p = b) := by
  unfold addPredecessor
  by_cases h : t = x
  · subst h
    rw [Function.update_self, List.mem_append, mem_singleton, and_iff_right rfl]
  · rw [Function.update_of_ne h]
    exact (or_iff_left fun hnot => h hnot.1).symm

theorem mem_foldl_targets {b : Nat} (targets : List Nat) (preds : Nat → List Nat) :
    p ∈ targets.foldl (addPredecessor b) preds t ↔ p ∈ preds t ∨ (t ∈ targets ∧ p = b) := by
  induction targets generalizing preds with
  | nil => simp
  | cons x targets ih =>
    rw [foldl_cons, ih, mem_addPredecessor, mem_cons, or_and_right, or_assoc]

theorem mem_foldl_code {b : Nat} (code : List Node) (preds : Nat → List Nat) :
    p ∈ code.foldl (fun preds node => node.op.targets.foldl (addPredecessor b) preds) preds t ↔
      p ∈ preds t ∨ ((∃ node ∈ code, t ∈ node.op.targets) ∧ p = b) := by
  induction code generalizing preds with
  | nil => simp
  | cons node code ih =>
    rw [foldl_cons, ih, mem_foldl_targets, List.exists_mem_cons_iff, or_and_right, or_assoc]

theorem mem_foldl_blocks (blocks : List Block) (preds : Nat → List Nat) : p ∈ blocks.foldl (fun preds b =>
        b.code.foldl (fun preds node => node.op.targets.foldl (addPredecessor b.id) preds) preds) preds t ↔
      p ∈ preds t ∨ ∃ b ∈ blocks, (∃ node ∈ b.code, t ∈ node.op.targets) ∧ p = b.id := by
  induction blocks generalizing preds with
  | nil => simp
  | cons b blocks ih =>
    rw [foldl_cons, ih, mem_foldl_code, List.exists_mem_cons_iff, or_assoc]

theorem mem_offsetToBlockMap : p ∈ offsetToBlockMap ir t ↔ Edge ir p t := by
  unfold offsetToBlockMap
  rw [mem_foldl_blocks]
  constructor
  · rintro (h | ⟨b, hb, hnode, rfl⟩)
    · exact absurd h List.not_mem_nil
    · exact ⟨b, hb, rfl, hnode⟩
  · rintro ⟨b, hb, rfl, hnode⟩
    exact .inr ⟨b, hb, hnode, rfl⟩

/-! ## Gathering -/

/-- A set of blocks in the order of their ids, each of which leads to the block. -/
structure Gathered (ir : IR) (block : Nat) (set : List Nat) : Prop where
  nodup : set.Nodup
  self_mem : block ∈ set
  leads : ∀ p ∈ set, ReflTransGen (Edge ir) p block
  among : ∀ p ∈ set, p ∈ ir.blocks.map (·.id)

theorem Gathered.insert (h : Gathered ir block set) (hnew : p ∉ set)
    (hleads : ReflTransGen (Edge ir) p block) (hamong : p ∈ ir.blocks.map (·.id)) :
    Gathered ir block (set.orderedInsert (· ≤ ·) p) where
  nodup := (List.perm_orderedInsert (· ≤ ·) p set).nodup_iff.2 (List.nodup_cons.2 ⟨hnew, h.nodup⟩)
  self_mem := (mem_orderedInsert (· ≤ ·)).2 (.inr h.self_mem)
  leads := fun q hq => by
    rcases (mem_orderedInsert (· ≤ ·)).1 hq with rfl | hq
    · exact hleads
    · exact h.leads q hq
  among := fun q hq => by
    rcases (mem_orderedInsert (· ≤ ·)).1 hq with rfl | hq
    · exact hamong
    · exact h.among q hq

theorem Gathered.length_le (h : Gathered ir block set) : set.length ≤ ir.blocks.length := by
  have hsub : set ⊆ ir.blocks.map (·.id) := h.among
  have hle := (h.nodup.subperm hsub).length_le
  rwa [length_map] at hle

theorem foldl_insertPredecessor {preds : List Nat} (hpreds : ∀ p ∈ preds,
      ReflTransGen (Edge ir) p block ∧ p ∈ ir.blocks.map (·.id)) (hset : Gathered ir block set) (inserted : Bool) :
    ∃ set' inserted', preds.foldl insertPredecessor (set, inserted) = (set', inserted') ∧ Gathered ir block set' ∧
      (∀ p, p ∈ set' ↔ p ∈ set ∨ p ∈ preds) ∧
      ((inserted' = inserted ∧ set' = set) ∨ (inserted' = true ∧ set.length < set'.length)) := by
  induction preds generalizing set inserted with
  | nil => exact ⟨set, inserted, rfl, hset, fun p => by simp, .inl ⟨rfl, rfl⟩⟩
  | cons p preds ih =>
    have htail := fun q hq => hpreds q (List.mem_cons_of_mem p hq)
    rw [foldl_cons]
    by_cases hp : p ∈ set
    · obtain ⟨set', inserted', hfold, hset', hmem, hgrows⟩ := ih htail hset inserted
      rw [insertPredecessor, if_pos hp]
      refine ⟨set', inserted', hfold, hset', fun q => ?_, hgrows⟩
      rw [hmem, mem_cons]
      constructor
      · exact Or.imp_right .inr
      · rintro (hq | rfl | hq)
        · exact .inl hq
        · exact .inl hp
        · exact .inr hq
    · obtain ⟨hleads, hamong⟩ := hpreds p mem_cons_self
      obtain ⟨set', inserted', hfold, hset', hmem, hgrows⟩ := ih htail (hset.insert hp hleads hamong) true
      have hlength := List.orderedInsert_length (· ≤ ·) set p
      rw [insertPredecessor, if_neg hp]
      refine ⟨set', inserted', hfold, hset', fun q => ?_, ?_⟩
      · rw [hmem, mem_orderedInsert, mem_cons]
        tauto
      · rcases hgrows with ⟨hinserted, rfl⟩ | ⟨hinserted, hlt⟩
        · exact .inr ⟨hinserted, by omega⟩
        · exact .inr ⟨hinserted, by omega⟩

/-- The loop ends with all the blocks that lead to the block, by the number of blocks not in the set, then of elements to
come. -/
theorem gather_eq (fuel : Nat) {todo : List Nat} (hset : Gathered ir block set) (htodo : todo ⊆ set)
    (hclosed : ∀ node ∈ set, node ∈ todo ∨ ∀ p ∈ offsetToBlockMap ir node, p ∈ set)
    (hfuel : (ir.blocks.length - set.length) * (ir.blocks.length + 1) + todo.length < fuel) :
    ∃ set', gather (offsetToBlockMap ir) fuel set todo = some set' ∧
      ∀ p, p ∈ set' ↔ ReflTransGen (Edge ir) p block := by
  induction fuel generalizing set todo with
  | zero => omega
  | succ fuel ih =>
    cases todo with
    | nil =>
      refine ⟨set, rfl, fun p => ⟨hset.leads p, fun hp => ?_⟩⟩
      induction hp using ReflTransGen.head_induction_on with
      | refl => exact hset.self_mem
      | head hedge _ hmem =>
        rcases hclosed _ hmem with hnot | hpreds
        · exact absurd hnot List.not_mem_nil
        · exact hpreds _ (mem_offsetToBlockMap.2 hedge)
    | cons node todo =>
      have hnode := hset.leads node (htodo mem_cons_self)
      have hpreds : ∀ p ∈ offsetToBlockMap ir node, ReflTransGen (Edge ir) p block ∧ p ∈ ir.blocks.map (·.id) := by
        intro p hp
        have hedge := mem_offsetToBlockMap.1 hp
        obtain ⟨b, hb, rfl, -⟩ := id hedge
        exact ⟨hnode.head hedge, List.mem_map_of_mem hb⟩
      obtain ⟨set', inserted', hfold, hset', hmem, hgrows⟩ := foldl_insertPredecessor hpreds hset false
      unfold gather
      rw [hfold]
      dsimp only
      rcases hgrows with ⟨rfl, rfl⟩ | ⟨rfl, hlt⟩
      · -- nothing is new: the node is done
        rw [if_neg Bool.false_ne_true]
        refine ih hset (fun q hq => htodo (List.mem_cons_of_mem _ hq)) ?_ ?_
        · intro q hq
          rcases hclosed q hq with hq | hq
          · rcases mem_cons.1 hq with rfl | hq
            · exact .inr fun p hp => (hmem p).2 (.inr hp)
            · exact .inl hq
          · exact .inr hq
        · rw [length_cons] at hfuel
          omega
      · rw [if_pos rfl]
        have hle := hset'.length_le
        refine ih hset' (fun q hq => hq) (fun q hq => .inl hq) ?_
        have hstep : (ir.blocks.length - set'.length + 1) * (ir.blocks.length + 1) ≤
            (ir.blocks.length - set.length) * (ir.blocks.length + 1) := Nat.mul_le_mul_right _ (by omega)
        rw [Nat.add_mul, one_mul] at hstep
        omega

theorem gather_predecessors (hb : b ∈ ir.blocks) :
    ∃ set, gather (offsetToBlockMap ir) (gatherFuel ir) [b.id] [b.id] = some set ∧
      ∀ p, p ∈ set ↔ ReflTransGen (Edge ir) p b.id := by
  have hset : Gathered ir b.id [b.id] :=
    ⟨List.nodup_singleton _, List.mem_singleton_self _, fun p hp => by rw [mem_singleton.1 hp],
      fun p hp => by rw [mem_singleton.1 hp]; exact List.mem_map_of_mem hb⟩
  have hpos : 0 < ir.blocks.length := List.length_pos_of_mem hb
  apply gather_eq _ hset (fun q hq => hq) fun q hq => .inl hq
  unfold gatherFuel
  rw [List.length_singleton]
  have hmul : (ir.blocks.length - 1) * (ir.blocks.length + 1) + (ir.blocks.length + 1) + (ir.blocks.length + 1) =
      (ir.blocks.length + 1) * (ir.blocks.length + 1) := by
    obtain ⟨n, hn⟩ := Nat.exists_eq_succ_of_ne_zero hpos.ne'
    rw [hn, Nat.succ_eq_add_one, Nat.add_sub_cancel]
    ring
  omega

/-! ## The run -/

theorem foldlM_or {α : Type} {f : Bool → α → Option Bool} {p : α → Prop} {l : List α}
    (h : ∀ a ∈ l, ∀ hadError, ∃ hadError', f hadError a = some hadError' ∧
      (hadError' = true ↔ hadError = true ∨ p a))
    (hadError : Bool) :
    ∃ hadError', l.foldlM f hadError = some hadError' ∧ (hadError' = true ↔ hadError = true ∨ ∃ a ∈ l, p a) := by
  induction l generalizing hadError with
  | nil => exact ⟨hadError, rfl, by simp⟩
  | cons a l ih =>
    obtain ⟨first, hfirst, hfirst_iff⟩ := h a mem_cons_self hadError
    obtain ⟨all, hall, hall_iff⟩ := ih (fun b hb => h b (List.mem_cons_of_mem a hb)) first
    refine ⟨all, ?_, ?_⟩
    · rw [List.foldlM_cons, hfirst]
      exact hall
    · rw [hall_iff, hfirst_iff, List.exists_mem_cons_iff, or_assoc]

theorem block_eq_some (h : (ir.blocks.map (·.id)).Nodup) (hb : b ∈ ir.blocks) : ir.block b.id = some b := by
  unfold IR.block
  cases hfind : ir.blocks.find? fun b' => b'.id == b.id with
  | none => exact absurd (List.find?_eq_none.1 hfind b hb) (by simp)
  | some b' =>
    have hid : b'.id = b.id := by simpa using List.find?_some hfind
    rw [List.inj_on_of_nodup_map h (List.mem_of_find?_eq_some hfind) hb hid]

theorem foundPredDefine_iff (h : (ir.blocks.map (·.id)).Nodup) {predecessors : List Nat} {arg : Nat}
    (hset : ∀ p, p ∈ predecessors ↔ ReflTransGen (Edge ir) p block) :
    foundPredDefine ir predecessors arg = true ↔ HeldBefore ir block arg := by
  unfold foundPredDefine HeldBefore
  rw [List.any_eq_true]
  constructor
  · rintro ⟨p, hp, hholds⟩
    cases hfind : ir.block p with
    | none =>
      rw [hfind] at hholds
      cases hholds
    | some b =>
      rw [hfind] at hholds
      have hid : b.id = p := by simpa using List.find?_some hfind
      subst hid
      exact ⟨b, List.mem_of_find?_eq_some hfind, (hset _).1 hp, hholds⟩
  · rintro ⟨b, hb, hleads, hholds⟩
    refine ⟨b.id, (hset _).2 hleads, ?_⟩
    rw [block_eq_some h hb]
    exact hholds

theorem holds_iff {b : Block} {arg : Nat} : b.holds arg = true ↔ b.begin ≤ arg ∧ arg < b.last := by
  unfold Block.holds
  rw [Bool.and_eq_true, decide_eq_true_iff, decide_eq_true_iff]

/-- An argument of a node that the pass reports. -/
def IsError (ir : IR) (b : Block) (codeID arg : Nat) : Prop :=
  (arg ≠ 0 ∧ arg ≠ ir.header) ∧
    ((b.holds arg ∧ codeID < arg) ∨ (arg < b.begin ∧ ¬ HeldBefore ir b.id arg) ∨ b.last < arg)

theorem checkArg_eq (h : ListOrdered ir) (hb : b ∈ ir.blocks) (hle : b.begin ≤ b.last) (codeID arg : Nat) :
    ∃ error, checkArg ir b codeID arg = some error ∧ (error = true ↔ IsError ir b codeID arg) := by
  unfold checkArg IsError
  by_cases hzero : arg = 0
  · rw [if_pos hzero]
    exact ⟨false, rfl, iff_of_false Bool.false_ne_true fun hnot => hnot.1.1 hzero⟩
  rw [if_neg hzero]
  by_cases hheader : arg = ir.header
  · rw [if_pos hheader]
    exact ⟨false, rfl, iff_of_false Bool.false_ne_true fun hnot => hnot.1.2 hheader⟩
  rw [if_neg hheader, and_iff_right ⟨hzero, hheader⟩]
  by_cases hholds : b.holds arg = true
  · rw [if_pos hholds]
    refine ⟨_, rfl, ?_⟩
    rw [decide_eq_true_iff, and_iff_right hholds]
    have hinside := holds_iff.1 hholds
    constructor
    · exact .inl
    · rintro (hafter | ⟨hbefore, -⟩ | hlast)
      · exact hafter
      · omega
      · omega
  rw [if_neg hholds]
  by_cases hlt : arg < b.begin
  · obtain ⟨set, hset, hmem⟩ := gather_predecessors hb
    rw [if_pos hlt, hset]
    refine ⟨_, rfl, ?_⟩
    rw [Bool.not_eq_true', ← Bool.not_eq_true, foundPredDefine_iff h.blocks hmem]
    constructor
    · exact fun hnot => .inr (.inl ⟨hlt, hnot⟩)
    · rintro (⟨hin, -⟩ | ⟨-, hnot⟩ | hlast)
      · exact absurd hin hholds
      · exact hnot
      · omega
  · rw [if_neg hlt]
    refine ⟨_, rfl, ?_⟩
    rw [decide_eq_true_iff]
    constructor
    · exact fun hlast => .inr (.inr hlast)
    · rintro (⟨hin, -⟩ | ⟨hbefore, -⟩ | hlast)
      · exact absurd hin hholds
      · exact absurd hbefore hlt
      · exact hlast

/-! ## Numbers -/

theorem ids_eq (h : ListOrdered ir) (hb : b ∈ ir.blocks) :
    b.code.map (·.id) = List.range' b.begin b.code.length ∧ b.begin + b.code.length = b.last + 1 := by
  obtain ⟨first, hall⟩ := h.numbered
  have hbegin := h.begin b hb
  have hlast := h.last b hb
  obtain ⟨front, back, hsplit⟩ := List.append_of_mem hb
  have hids : ∃ start, b.code.map (·.id) = List.range' start b.code.length := by
    rw [hsplit, List.flatMap_append, List.flatMap_cons] at hall
    obtain ⟨k, -, -, hrest⟩ := List.range'_eq_append_iff.1 hall.symm
    obtain ⟨k', -, hblock, -⟩ := List.range'_eq_append_iff.1 hrest.symm
    have hlength := congrArg List.length hblock
    rw [length_map, List.length_range'] at hlength
    exact ⟨_, hlength ▸ hblock⟩
  obtain ⟨start, hids⟩ := hids
  rw [← List.head?_map, hids, List.head?_range'] at hbegin
  rw [← List.getLast?_map, hids, List.getLast?_range'] at hlast
  split_ifs at hbegin with hzero
  rw [if_neg hzero] at hlast
  injection hbegin with hbegin
  injection hlast with hlast
  subst hbegin
  exact ⟨hids, by omega⟩

theorem Use.numbers (h : ListOrdered ir) (u : Use ir) :
    (∀ arg, (∃ node ∈ u.before, node.id = arg) ↔ u.block.begin ≤ arg ∧ arg < u.node.id) ∧
      u.block.begin ≤ u.node.id ∧ u.node.id ≤ u.block.last := by
  obtain ⟨hids, hlast⟩ := ids_eq h u.block_mem
  rw [u.code_eq, List.map_append, List.map_cons, List.length_append, length_cons] at hids
  rw [u.code_eq, List.length_append, length_cons] at hlast
  obtain ⟨k, -, hbefore, hrest⟩ := List.range'_eq_append_iff.1 hids.symm
  have hlength := congrArg List.length hbefore
  rw [length_map, List.length_range'] at hlength
  have hnode : u.node.id = u.block.begin + k := by
    have hhead := congrArg List.head? hrest
    rw [List.head?_cons, List.head?_range', Nat.mul_one] at hhead
    split_ifs at hhead
    injection hhead
  refine ⟨fun arg => ?_, by omega, by omega⟩
  rw [← List.mem_map, hbefore, List.mem_range'_1, hnode]

/-! ## The validation -/

theorem use_isError (u : Use ir) : IsError ir u.block u.node.id u.arg ↔ u.Reported := and_iff_right u.arg_ne

theorem run_eq (h : ListOrdered ir) :
    ∃ hadError, run ir = some hadError ∧ (hadError = true ↔ ∃ u : Use ir, u.Reported) := by
  have hblock : ∀ b ∈ ir.blocks, ∀ hadError, ∃ hadError', checkBlock ir hadError b = some hadError' ∧
      (hadError' = true ↔ hadError = true ∨ ∃ node ∈ b.code, ∃ arg ∈ node.args, IsError ir b node.id arg) := by
    intro b hb hadError
    have hle : b.begin ≤ b.last := by
      have hbegin := h.begin b hb
      obtain ⟨-, hlast⟩ := ids_eq h hb
      cases hcode : b.code with
      | nil =>
        rw [hcode] at hbegin
        cases hbegin
      | cons node code =>
        rw [hcode, length_cons] at hlast
        omega
    apply foldlM_or
    intro node hnode hadError
    apply foldlM_or
    intro arg harg hadError
    obtain ⟨error, hcheck, herror⟩ := checkArg_eq h hb hle node.id arg
    refine ⟨hadError || error, ?_, ?_⟩
    · rw [hcheck]
      rfl
    · rw [Bool.or_eq_true, herror]
  obtain ⟨hadError, hrun, hiff⟩ := foldlM_or hblock false
  refine ⟨hadError, hrun, hiff.trans ?_⟩
  rw [or_iff_right Bool.false_ne_true]
  constructor
  · rintro ⟨b, hb, node, hnode, arg, harg, herror⟩
    obtain ⟨before, after, hcode⟩ := List.append_of_mem hnode
    exact ⟨⟨b, before, node, after, arg, hb, hcode, harg, herror.1⟩, herror.2⟩
  · rintro ⟨u, hu⟩
    refine ⟨u.block, u.block_mem, u.node, ?_, u.arg, u.arg_mem, (use_isError u).2 hu⟩
    rw [u.code_eq]
    exact List.mem_append_right _ mem_cons_self

theorem right_iff (h : ListOrdered ir) (u : Use ir) : u.Right ↔ u.Reported ∧ u.Undominated := by
  obtain ⟨hbefore, hbegin, hlast⟩ := u.numbers h
  constructor
  · rintro ⟨hreported, hreach⟩
    refine ⟨hreported, hreach, fun node hnode heq => ?_⟩
    obtain ⟨hle, hlt⟩ := (hbefore u.arg).1 ⟨node, hnode, heq⟩
    rcases hreported with ⟨-, hafter⟩ | ⟨hout, -⟩ | hout
    · omega
    · omega
    · omega
  · rintro ⟨hreported, hreach, -⟩
    exact ⟨hreported, hreach⟩

theorem missed_iff (h : ListOrdered ir) (u : Use ir) : u.Missed ↔ u.Undominated ∧ ¬ u.Reported := by
  obtain ⟨hbefore, hbegin, hlast⟩ := u.numbers h
  have hholds := @holds_iff u.block u.arg
  unfold Use.Missed Use.Undominated Use.Reported
  rw [hholds]
  constructor
  · rintro ⟨hreach, hcases⟩
    refine ⟨⟨hreach, fun node hnode heq => ?_⟩, ?_⟩
    · obtain ⟨hle, hlt⟩ := (hbefore u.arg).1 ⟨node, hnode, heq⟩
      rcases hcases with hself | hend | ⟨hout, -⟩
      · omega
      · omega
      · omega
    · rintro (⟨⟨-, hinside⟩, hafter⟩ | ⟨hout, hnot⟩ | hout) <;> rcases hcases with hself | hend | ⟨hout', hheld⟩
      · omega
      · omega
      · omega
      · omega
      · omega
      · exact hnot hheld
      · omega
      · omega
      · omega
  · rintro ⟨⟨hreach, hnot_before⟩, hnot⟩
    refine ⟨hreach, ?_⟩
    by_cases hlow : u.arg < u.block.begin
    · exact .inr (.inr ⟨hlow, by_contra fun hheld => hnot (.inr (.inl ⟨hlow, hheld⟩))⟩)
    · have hearly : ¬ u.arg < u.node.id := by
        intro hlt
        obtain ⟨node, hnode, heq⟩ := (hbefore u.arg).2 ⟨by omega, hlt⟩
        exact hnot_before node hnode heq
      by_cases hself : u.arg = u.node.id
      · exact .inl hself
      · refine .inr (.inl (by_contra fun hend => hnot (.inl ⟨⟨by omega, by omega⟩, by omega⟩)))

theorem spurious_iff (h : ListOrdered ir) (u : Use ir) : u.Spurious ↔ u.Reported ∧ ¬ u.Undominated := by
  have hright := right_iff h u
  constructor
  · rintro ⟨hreported, hnot⟩
    exact ⟨hreported, fun hu => hnot hu.1⟩
  · rintro ⟨hreported, hnot⟩
    exact ⟨hreported, fun hreach => hnot (hright.1 ⟨hreported, hreach⟩).2⟩

theorem exists_iff_exists {α : Type} {p q : α → Prop} :
    ((∃ a, p a) ↔ ∃ a, q a) ↔ (∃ a, p a ∧ q a) ∨ ((∃ a, q a ∧ ¬ p a) ↔ ∃ a, p a ∧ ¬ q a) := by
  by_cases hboth : ∃ a, p a ∧ q a
  · obtain ⟨a, hp, hq⟩ := hboth
    exact iff_of_true ⟨fun _ => ⟨a, hq⟩, fun _ => ⟨a, hp⟩⟩ (.inl ⟨a, hp, hq⟩)
  · have hp_iff : (∃ a, p a ∧ ¬ q a) ↔ ∃ a, p a :=
      ⟨fun ⟨a, hp, _⟩ => ⟨a, hp⟩, fun ⟨a, hp⟩ => ⟨a, hp, fun hq => hboth ⟨a, hp, hq⟩⟩⟩
    have hq_iff : (∃ a, q a ∧ ¬ p a) ↔ ∃ a, q a :=
      ⟨fun ⟨a, hq, _⟩ => ⟨a, hq⟩, fun ⟨a, hq⟩ => ⟨a, hq, fun hp => hboth ⟨a, hp, hq⟩⟩⟩
    rw [or_iff_right hboth, hp_iff, hq_iff]
    exact iff_comm

/-- The validation decides dominance if and only if it reports a right error, or misses none and reports no spurious one, or
both. -/
theorem run_reports_iff (h : ListOrdered ir) : ReportsUndominated ir ↔
    (∃ u : Use ir, u.Right) ∨ ((∃ u : Use ir, u.Missed) ↔ ∃ u : Use ir, u.Spurious) := by
  obtain ⟨hadError, hrun, hiff⟩ := run_eq h
  have hreports : ReportsUndominated ir ↔ ((∃ u : Use ir, u.Reported) ↔ ∃ u : Use ir, u.Undominated) := by
    unfold ReportsUndominated
    rw [hrun, ← hiff]
    constructor
    · rintro ⟨hadError', heq, hiff'⟩
      cases heq
      exact hiff'
    · exact fun hiff' => ⟨hadError, rfl, hiff'⟩
  rw [hreports, exists_iff_exists]
  simp [right_iff h, missed_iff h, spurious_iff h]

/-- Two blocks, the first of which uses a value before it is there. -/
def early : IR where
  header := 1
  blocks :=
    [⟨2, 4, 8, [⟨4, .other, []⟩, ⟨5, .other, [6]⟩, ⟨6, .other, []⟩, ⟨7, .jump 3, []⟩, ⟨8, .other, []⟩]⟩,
     ⟨3, 9, 10, [⟨9, .other, []⟩, ⟨10, .other, []⟩]⟩]

theorem run_reports_early : ReportsUndominated early := by
  have hordered : ListOrdered early := ⟨by decide, ⟨4, by decide⟩, by decide, by decide⟩
  let u : Use early := ⟨_, [⟨4, .other, []⟩], ⟨5, .other, [6]⟩, _, 6, mem_cons_self, rfl, mem_cons_self, by decide⟩
  exact (run_reports_iff hordered).2 (.inl ⟨u, .inl ⟨by decide, by decide⟩, 2, rfl, .refl⟩)

def diamond : IR where
  header := 1
  blocks :=
    [⟨2, 6, 8, [⟨6, .other, []⟩, ⟨7, .condJump 3 4, []⟩, ⟨8, .other, []⟩]⟩,
     ⟨3, 9, 12, [⟨9, .other, []⟩, ⟨10, .other, []⟩, ⟨11, .jump 5, []⟩, ⟨12, .other, []⟩]⟩,
     ⟨4, 13, 15, [⟨13, .other, []⟩, ⟨14, .jump 5, []⟩, ⟨15, .other, []⟩]⟩,
     ⟨5, 16, 18, [⟨16, .other, []⟩, ⟨17, .other, [10]⟩, ⟨18, .other, []⟩]⟩]

/-- The value is not there on the path by the other side, but the validation reports nothing. -/
theorem run_misses_diamond : ListOrdered diamond ∧ ¬ ReportsUndominated diamond := by
  refine ⟨⟨by decide, ⟨6, by decide⟩, by decide, by decide⟩, ?_⟩
  rintro ⟨hadError, hrun, hiff⟩
  have hnone : run diamond = some false := by decide
  cases hnone.symm.trans hrun
  have hfirst : EdgeWithout diamond 10 2 4 := by
    unfold EdgeWithout Edge Defines
    decide
  have hsecond : EdgeWithout diamond 10 4 5 := by
    unfold EdgeWithout Edge Defines
    decide
  let u : Use diamond := ⟨⟨5, 16, 18, [⟨16, .other, []⟩, ⟨17, .other, [10]⟩, ⟨18, .other, []⟩]⟩,
    [⟨16, .other, []⟩], ⟨17, .other, [10]⟩, [⟨18, .other, []⟩], 10, by decide, rfl, mem_cons_self, by decide⟩
  have hu : u.Undominated := ⟨⟨2, rfl, (ReflTransGen.single hfirst).tail hsecond⟩, by decide⟩
  exact Bool.false_ne_true (hiff.2 ⟨u, hu⟩)

end FexEmu.ValueDominance
