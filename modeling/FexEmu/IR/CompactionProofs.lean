import FexEmu.IR.Compaction
/-!
# Compaction is an isomorphism

The names of the new nodes are counted up, so that the table maps the lists of the old IR onto a range.
-/
namespace FexEmu.Compaction

open Chain State
open Function (update_of_ne)
open List (foldl_cons headD_cons map_cons mem_cons mem_cons_of_mem mem_cons_self mem_map mem_map_of_mem mem_range'_1
  mem_singleton nodup_cons range' length_cons range'_succ nodup_append' map_append mem_append flatMap_cons flatMap_congr flatMap_map nodup_range' length_map)

variable {κ : Type}

/-! ## The builder -/

namespace Builder

variable (b : Builder κ) (op : Op κ) (uses : Nat) {n m : NodeID}

@[simp] theorem ssaCount_createNode : (b.createNode op uses).ir.ssaCount = b.ir.ssaCount + 1 := by
  simp only [createNode]
  split <;> rfl

@[simp] theorem cursor_createNode : (b.createNode op uses).cursor = some b.ir.ssaCount := by
  simp only [createNode]
  split <;> rfl

/-- The cursor is a node that is there, at the end of its list. -/
def CursorEnds : Prop := ∀ c : Nat, b.cursor = some c → c < b.ir.ssaCount ∧ b.ir.next c = 0

variable {b}

theorem nodes_createNode_new (ends : b.CursorEnds) : (b.createNode op uses).ir.nodes b.ir.ssaCount = ⟨op, 0, uses⟩ := by
  simp only [createNode]
  split
  · simp
  · rename_i c hc
    obtain ⟨lt, zero⟩ := ends c hc
    simp [update_of_ne (Nat.ne_of_gt lt), zero]

theorem nodes_createNode_old (h : n < b.ir.ssaCount) (hc : b.cursor ≠ some n) : (b.createNode op uses).ir.nodes n = b.ir.nodes n := by
  simp only [createNode]
  split
  · simp [update_of_ne (Nat.ne_of_lt h)]
  · rename_i c hcc
    have ne : n ≠ c := by
      rintro rfl
      exact hc hcc
    simp [update_of_ne ne, update_of_ne (Nat.ne_of_lt h)]

theorem nodes_createNode_cursor {c : NodeID} (hc : b.cursor = some c) :
    (b.createNode op uses).ir.nodes c = { b.ir.nodes c with next := b.ir.ssaCount } := by
  simp [createNode, hc]

theorem cursorEnds_createNode (ends : b.CursorEnds) : (b.createNode op uses).CursorEnds := by
  intro c hc
  rw [cursor_createNode, Option.some.injEq] at hc
  subst hc
  refine ⟨by rw [ssaCount_createNode]; exact Nat.lt_succ_self _, ?_⟩
  rw [IR.next, nodes_createNode_new op uses ends]

theorem nodes_setOp_self (b : Builder κ) (n : NodeID) (op : Op κ) : (b.setOp n op).ir.nodes n = { b.ir.nodes n with op := op } := by
  simp [setOp]

theorem nodes_setOp_of_ne (b : Builder κ) (op : Op κ) (h : m ≠ n) : (b.setOp n op).ir.nodes m = b.ir.nodes m := by
  simp [setOp, update_of_ne h]

@[simp] theorem next_setOp (b : Builder κ) (n : NodeID) (op : Op κ) : (b.setOp n op).ir.next = b.ir.next := by
  funext m
  by_cases h : m = n
  · subst h
    simp [IR.next, nodes_setOp_self]
  · simp [IR.next, nodes_setOp_of_ne b op h]

end Builder

/-! ## The code of a block -/

/-- What copying the nodes of one block has done, with a frame. -/
structure Copied (ir : IR κ) (code : List NodeID) (st st' : State κ) : Prop where
  ssaCount : st'.builder.ir.ssaCount = st.builder.ir.ssaCount + code.length
  image : code.map st'.remap = range' st.builder.ir.ssaCount code.length
  remap_other : ∀ n, n ∉ code → st'.remap n = st.remap n
  copy : ∀ n ∈ code, (st'.builder.ir.nodes (st'.remap n)).op = (ir.nodes n).op ∧
    (st'.builder.ir.nodes (st'.remap n)).numUses = (ir.nodes n).numUses
  linked : Linked st'.builder.ir.next ((code.map st'.remap).headD 0) (code.map st'.remap)
  old : ∀ n < st.builder.ir.ssaCount, st.builder.cursor ≠ some n → st'.builder.ir.nodes n = st.builder.ir.nodes n
  cursor : ∀ c : Nat, st.builder.cursor = some c →
    st'.builder.ir.nodes c = { st.builder.ir.nodes c with next := (code.map st'.remap).headD 0 }
  firstNode : st'.firstNode = if st.firstNode = 0 then (code.map st'.remap).headD 0 else st.firstNode

variable {ir : IR κ} {st : State κ} {f : NodeID → NodeID} {b : Builder κ}

theorem copied {code : List NodeID} (nodup : code.Nodup) (pos : 0 < st.builder.ir.ssaCount)
    (ends : st.builder.CursorEnds) : Copied ir code st (code.foldl (copyOp ir) st) := by
  induction code generalizing st with
  | nil =>
    refine ⟨rfl, rfl, fun _ _ => rfl, fun _ h => absurd h List.not_mem_nil, rfl, fun _ _ _ => rfl, ?_, ?_⟩
    · intro c hc
      have := (ends c hc).2
      simp only [IR.next] at this
      simp [← this]
    · simp
  | cons n code ih =>
    obtain ⟨hn, nodup⟩ := nodup_cons.mp nodup
    have step : Copied ir code (copyOp ir st n) _ := ih nodup (by simp [copyOp]) (Builder.cursorEnds_createNode _ _ ends)
    rw [foldl_cons]
    generalize code.foldl (copyOp ir) (copyOp ir st n) = st' at *
    have count : (copyOp ir st n).builder.ir.ssaCount = st.builder.ir.ssaCount + 1 := Builder.ssaCount_createNode _ _ _
    have atCursor : (copyOp ir st n).builder.cursor = some st.builder.ir.ssaCount := Builder.cursor_createNode _ _ _
    have name : st'.remap n = st.builder.ir.ssaCount := by
      rw [step.remap_other n hn]
      simp [copyOp]
    have node : st'.builder.ir.nodes st.builder.ir.ssaCount =
        ⟨(ir.nodes n).op, (code.map st'.remap).headD 0, (ir.nodes n).numUses⟩ := by
      rw [step.cursor _ atCursor]
      simp [copyOp, Builder.nodes_createNode_new _ _ ends]
    constructor
    · rw [step.ssaCount, count, length_cons]
      omega
    · rw [map_cons, step.image, name, count, length_cons, range'_succ]
    · intro m hm
      rw [step.remap_other m (fun h => hm (mem_cons_of_mem n h))]
      have ne : m ≠ n := fun h => hm (h ▸ mem_cons_self)
      simp [copyOp, update_of_ne ne]
    · intro m hm
      rcases mem_cons.mp hm with rfl | hm
      · rw [name, node]
        exact ⟨rfl, rfl⟩
      · exact step.copy m hm
    · rw [map_cons, headD_cons, name]
      refine ⟨rfl, Nat.ne_of_gt pos, ?_⟩
      rw [IR.next, node]
      exact step.linked
    · intro m lt hm
      rw [step.old m (by omega) (by rw [atCursor]; simp; omega)]
      exact Builder.nodes_createNode_old _ _ lt hm
    · intro c hc
      have lt : c < st.builder.ir.ssaCount := (ends c hc).1
      rw [step.old c (by omega) (by rw [atCursor]; simp; omega), map_cons, headD_cons, name]
      exact Builder.nodes_createNode_cursor _ _ hc
    · rw [step.firstNode, map_cons, headD_cons, name]
      by_cases h : st.firstNode = 0
      · have ne : st.builder.ir.ssaCount ≠ 0 := Nat.ne_of_gt pos
        simp [copyOp, h, ne]
      · simp [copyOp, h]

theorem lastNode_of_endBlock {code : List NodeID} (st : State κ) {last : NodeID}
    (hlast : code.getLast? = some last) (ends : (ir.nodes last).op.isEndBlock = true) :
    (code.foldl (copyOp ir) st).lastNode = (code.foldl (copyOp ir) st).remap last := by
  obtain ⟨front, rfl⟩ := List.getLast?_eq_some_iff.mp hlast
  rw [List.foldl_append]
  simp [foldl_cons, copyOp, ends]

/-! ## The code of all blocks -/

/-- The code of blocks that are given with their new nodes. -/
def codes (ir : IR κ) (l : List (NodeID × NodeID)) : List NodeID := l.flatMap (fun block => ir.code block.1)

/-- Code without a node that is twice in it, and with an `EndBlock` at the end of each block. -/
structure Copyable (ir : IR κ) (l : List (NodeID × NodeID)) (bound : Nat) : Prop where
  nodup : (codes ir l).Nodup
  blocks_nodup : (l.map Prod.snd).Nodup
  blocks_lt : ∀ block : Nat × Nat, block ∈ l → block.2 < bound
  ends : ∀ block ∈ l, ∃ last, (ir.code block.1).getLast? = some last ∧ (ir.nodes last).op.isEndBlock = true

/-- What copying the blocks of a list has done, with a frame. -/
structure CopiedBlocks (ir : IR κ) (l : List (NodeID × NodeID)) (st st' : State κ) : Prop where
  ssaCount : st'.builder.ir.ssaCount = st.builder.ir.ssaCount + (codes ir l).length
  image : (codes ir l).map st'.remap = range' st.builder.ir.ssaCount (codes ir l).length
  remap_other : ∀ n, n ∉ codes ir l → st'.remap n = st.remap n
  copy : ∀ n ∈ codes ir l, (st'.builder.ir.nodes (st'.remap n)).op = (ir.nodes n).op ∧
    (st'.builder.ir.nodes (st'.remap n)).numUses = (ir.nodes n).numUses
  block_op : ∀ block ∈ l, (st'.builder.ir.nodes block.2).op =
    .codeBlock (((ir.code block.1).map st'.remap).headD 0) (((ir.code block.1).map st'.remap).getLastD 0)
  linked : ∀ block ∈ l, Linked st'.builder.ir.next (((ir.code block.1).map st'.remap).headD 0) ((ir.code block.1).map st'.remap)
  consecutive : ∀ block ∈ l, ∃ start, (ir.code block.1).map st'.remap = range' start (ir.code block.1).length
  old : ∀ n < st.builder.ir.ssaCount, n ∉ l.map Prod.snd → st'.builder.ir.nodes n = st.builder.ir.nodes n
  old_next : ∀ n < st.builder.ir.ssaCount, st'.builder.ir.next n = st.builder.ir.next n

theorem copyBlock_spec {block : NodeID × NodeID} (pos : 0 < st.builder.ir.ssaCount)
    (copyable : Copyable ir [block] st.builder.ir.ssaCount) : CopiedBlocks ir [block] st (copyBlock ir st block) := by
  have hcodes : codes ir [block] = ir.code block.1 := by simp [codes]
  have nodup := copyable.nodup
  rw [hcodes] at nodup
  obtain ⟨last, hlast, hend⟩ := copyable.ends block mem_cons_self
  have lt := copyable.blocks_lt block mem_cons_self
  let st0 : State κ := ⟨{ st.builder with cursor := none }, st.remap, 0, 0⟩
  have spec : Copied ir (ir.code block.1) st0 _ := copied nodup pos (fun c hc => nomatch hc)
  have hlastNode := lastNode_of_endBlock st0 hlast hend
  have hfirstNode := spec.firstNode
  rw [if_pos rfl] at hfirstNode
  simp only [copyBlock]
  generalize (ir.code block.1).foldl (copyOp ir) st0 = st1 at *
  have hgetLast : ((ir.code block.1).map st1.remap).getLastD 0 = st1.remap last := by
    rw [List.getLastD_eq_getLast?, List.getLast?_map, hlast]
    rfl
  -- the copies have new numbers, so setting the block's op does not reach them
  have new : ∀ n ∈ ir.code block.1, st1.remap n ≠ block.2 := by
    intro n hn
    have mem : st1.remap n ∈ (ir.code block.1).map st1.remap := mem_map_of_mem hn
    rw [spec.image, mem_range'_1] at mem
    have : st0.builder.ir.ssaCount = st.builder.ir.ssaCount := rfl
    exact Nat.ne_of_gt (by omega)
  constructor
  · rw [hcodes]
    exact spec.ssaCount
  · rw [hcodes]
    exact spec.image
  · rw [hcodes]
    exact spec.remap_other
  · rw [hcodes]
    intro n hn
    rw [Builder.nodes_setOp_of_ne _ _ (new n hn)]
    exact spec.copy n hn
  · intro b hb
    obtain rfl := mem_singleton.mp hb
    rw [Builder.nodes_setOp_self, hfirstNode, hlastNode, hgetLast]
  · intro b hb
    obtain rfl := mem_singleton.mp hb
    rw [Builder.next_setOp]
    exact spec.linked
  · intro b hb
    obtain rfl := mem_singleton.mp hb
    exact ⟨_, spec.image⟩
  · intro n lt hn
    rw [Builder.nodes_setOp_of_ne _ _ (by simpa using hn)]
    exact spec.old n lt (fun h => nomatch h)
  · intro n lt
    rw [Builder.next_setOp]
    simp only [IR.next, spec.old n lt (fun h => nomatch h)]
    rfl

theorem copyBlocks_spec {l : List (NodeID × NodeID)} (pos : 0 < st.builder.ir.ssaCount)
    (copyable : Copyable ir l st.builder.ir.ssaCount) : CopiedBlocks ir l st (l.foldl (copyBlock ir) st) := by
  induction l generalizing st with
  | nil =>
    have none : codes ir [] = [] := rfl
    constructor <;> simp [none]
  | cons block l ih =>
    have hcodes : codes ir (block :: l) = ir.code block.1 ++ codes ir l := by simp [codes]
    have hhere : codes ir [block] = ir.code block.1 := by simp [codes]
    have nodup := copyable.nodup
    rw [hcodes, nodup_append'] at nodup
    obtain ⟨nodup1, nodup2, disjoint⟩ := nodup
    have nodupBlocks := copyable.blocks_nodup
    rw [map_cons, nodup_cons] at nodupBlocks
    have first : CopiedBlocks ir [block] st _ := copyBlock_spec pos ⟨by rw [hhere]; exact nodup1, by simp,
      fun b hb => copyable.blocks_lt b (by simp_all), fun b hb => copyable.ends b (by simp_all)⟩
    have count := first.ssaCount
    rw [hhere] at count
    have rest : CopiedBlocks ir l (copyBlock ir st block) _ := ih (by omega) ⟨nodup2, nodupBlocks.2,
      fun b hb => by have := copyable.blocks_lt b (mem_cons_of_mem _ hb); omega,
      fun b hb => copyable.ends b (mem_cons_of_mem _ hb)⟩
    rw [foldl_cons]
    generalize l.foldl (copyBlock ir) (copyBlock ir st block) = st' at *
    generalize copyBlock ir st block = st1 at *
    -- Nothing that later blocks do reaches the names or the nodes of this one.
    have keep : ∀ n ∈ ir.code block.1, st'.remap n = st1.remap n := fun n hn => rest.remap_other n (disjoint hn)
    have keepMap : (ir.code block.1).map st'.remap = (ir.code block.1).map st1.remap := List.map_congr_left keep
    have range : ∀ n ∈ ir.code block.1, st.builder.ir.ssaCount ≤ st1.remap n ∧ st1.builder.ir.ssaCount > st1.remap n := by
      intro n hn
      have image := first.image
      rw [hhere] at image
      have mem : st1.remap n ∈ (ir.code block.1).map st1.remap := mem_map_of_mem hn
      rw [image, mem_range'_1] at mem
      omega
    have notBlock : ∀ n : Nat, st.builder.ir.ssaCount ≤ n → n ∉ l.map Prod.snd := by
      intro n le hn
      obtain ⟨b, hb, rfl⟩ := mem_map.mp hn
      have := copyable.blocks_lt b (mem_cons_of_mem _ hb)
      omega
    constructor
    · rw [rest.ssaCount, count, hcodes, List.length_append]
      omega
    · rw [hcodes, map_append, keepMap, rest.image, List.length_append, List.range'_append_1.symm]
      have image := first.image
      rw [hhere] at image
      rw [image, count]
    · intro n hn
      rw [hcodes, mem_append, not_or] at hn
      rw [rest.remap_other n hn.2, first.remap_other n (by rw [hhere]; exact hn.1)]
    · intro n hn
      rw [hcodes, mem_append] at hn
      rcases hn with hn | hn
      · have at' := range n hn
        rw [keep n hn, rest.old _ at'.2 (notBlock _ at'.1)]
        exact first.copy n (by rw [hhere]; exact hn)
      · exact rest.copy n hn
    · intro b hb
      rcases mem_cons.mp hb with rfl | hb
      · have lt := copyable.blocks_lt b mem_cons_self
        rw [rest.old _ (by omega) nodupBlocks.1, keepMap]
        exact first.block_op b mem_cons_self
      · exact rest.block_op b hb
    · intro b hb
      rcases mem_cons.mp hb with rfl | hb
      · rw [keepMap]
        refine linked_congr ?_ (first.linked b mem_cons_self)
        intro m hm
        obtain ⟨n, hn, rfl⟩ := mem_map.mp hm
        exact rest.old_next _ (range n hn).2
      · exact rest.linked b hb
    · intro b hb
      rcases mem_cons.mp hb with rfl | hb
      · rw [keepMap]
        exact first.consecutive b mem_cons_self
      · exact rest.consecutive b hb
    · intro n lt hn
      rw [map_cons, mem_cons, not_or] at hn
      rw [rest.old n (by omega) hn.2, first.old n lt (by simpa using hn.1)]
    · intro n lt
      rw [rest.old_next n (by omega), first.old_next n lt]

/-! ## The blocks -/

@[simp] theorem Builder.ssaCount_addUse (b : Builder κ) (n : NodeID) : (b.addUse n).ir.ssaCount = b.ir.ssaCount := rfl

@[simp] theorem Builder.cursor_addUse (b : Builder κ) (n : NodeID) : (b.addUse n).cursor = b.cursor := rfl

@[simp] theorem Builder.next_addUse (b : Builder κ) (n : NodeID) : (b.addUse n).ir.next = b.ir.next := by
  funext m
  simp only [IR.next, Builder.addUse]
  by_cases h : m = n
  · subst h
    simp
  · simp [update_of_ne h]

@[simp] theorem Builder.op_addUse (b : Builder κ) (n m : NodeID) : ((b.addUse n).ir.nodes m).op = (b.ir.nodes m).op := by
  simp only [Builder.addUse]
  by_cases h : m = n
  · subst h
    simp
  · simp [update_of_ne h]

/-- What creating blocks behind a node does. -/
structure Created (blocks : List NodeID) (acc acc' : State κ × List (NodeID × NodeID)) : Prop where
  ssaCount : acc'.1.builder.ir.ssaCount = acc.1.builder.ir.ssaCount + blocks.length
  image : blocks.map acc'.1.remap = range' acc.1.builder.ir.ssaCount blocks.length
  remap_other : ∀ n, n ∉ blocks → acc'.1.remap n = acc.1.remap n
  generated : acc'.2 = acc.2 ++ blocks.map (fun block => (block, acc'.1.remap block))
  linked : Linked acc'.1.builder.ir.next ((blocks.map acc'.1.remap).headD 0) (blocks.map acc'.1.remap)
  next_cursor : ∀ c : Nat, acc.1.builder.cursor = some c → acc'.1.builder.ir.next c = (blocks.map acc'.1.remap).headD 0
  old_next : ∀ n < acc.1.builder.ir.ssaCount, acc.1.builder.cursor ≠ some n → acc'.1.builder.ir.next n = acc.1.builder.ir.next n
  old_op : ∀ n < acc.1.builder.ir.ssaCount, (acc'.1.builder.ir.nodes n).op = (acc.1.builder.ir.nodes n).op

theorem created {header : NodeID} {blocks : List NodeID} (nodup : blocks.Nodup) {acc : State κ × List (NodeID × NodeID)}
    (pos : 0 < acc.1.builder.ir.ssaCount) (ends : acc.1.builder.CursorEnds) :
    Created blocks acc (blocks.foldl (createBlock header) acc) := by
  -- on the blocks; each new one is linked behind the cursor
  induction blocks generalizing acc with
  | nil =>
    refine ⟨rfl, rfl, fun _ _ => rfl, by simp, rfl, fun c hc => (ends c hc).2, fun _ _ _ => rfl, fun _ _ => rfl⟩
  | cons n blocks ih =>
    obtain ⟨hn, nodup⟩ := nodup_cons.mp nodup
    have count : (createBlock header acc n).1.builder.ir.ssaCount = acc.1.builder.ir.ssaCount + 1 := by simp [createBlock]
    have atCursor : (createBlock header acc n).1.builder.cursor = some acc.1.builder.ir.ssaCount := by simp [createBlock]
    have nextNew : (createBlock header acc n).1.builder.ir.next acc.1.builder.ir.ssaCount = 0 := by
      simp only [createBlock, Builder.next_addUse]
      simp [IR.next, Builder.nodes_createNode_new _ _ ends]
    have ends' : (createBlock header acc n).1.builder.CursorEnds := by
      intro c hc
      rw [atCursor, Option.some.injEq] at hc
      subst hc
      exact ⟨by omega, nextNew⟩
    have step : Created blocks (createBlock header acc n) _ := ih nodup (by omega) ends'
    have name1 : (createBlock header acc n).1.remap n = acc.1.builder.ir.ssaCount := by
      simp [createBlock]
    have other1 : ∀ m, m ≠ n → (createBlock header acc n).1.remap m = acc.1.remap m := by
      intro m ne
      simp [createBlock, update_of_ne ne]
    have generated1 : (createBlock header acc n).2 = acc.2 ++ [(n, acc.1.builder.ir.ssaCount)] := rfl
    have next1 : ∀ m < acc.1.builder.ir.ssaCount, acc.1.builder.cursor ≠ some m →
        (createBlock header acc n).1.builder.ir.next m = acc.1.builder.ir.next m := by
      intro m lt hm
      simp only [createBlock, Builder.next_addUse]
      simp [IR.next, Builder.nodes_createNode_old _ _ lt hm]
    have cursor1 : ∀ c : Nat, acc.1.builder.cursor = some c →
        (createBlock header acc n).1.builder.ir.next c = acc.1.builder.ir.ssaCount := by
      intro c hc
      simp only [createBlock, Builder.next_addUse]
      simp [IR.next, Builder.nodes_createNode_cursor _ _ hc]
    have op1 : ∀ m < acc.1.builder.ir.ssaCount,
        ((createBlock header acc n).1.builder.ir.nodes m).op = (acc.1.builder.ir.nodes m).op := by
      intro m lt
      simp only [createBlock, Builder.op_addUse]
      by_cases hm : acc.1.builder.cursor = some m
      · rw [Builder.nodes_createNode_cursor _ _ hm]
      · rw [Builder.nodes_createNode_old _ _ lt hm]
    rw [foldl_cons]
    generalize blocks.foldl (createBlock header) (createBlock header acc n) = acc' at *
    have name : acc'.1.remap n = acc.1.builder.ir.ssaCount := (step.remap_other n hn).trans name1
    constructor
    · rw [step.ssaCount, count, length_cons]
      omega
    · rw [map_cons, step.image, name, count, length_cons, range'_succ]
    · intro m hm
      rw [mem_cons, not_or] at hm
      rw [step.remap_other m hm.2, other1 m hm.1]
    · rw [step.generated, generated1, map_cons, name, List.append_assoc, List.singleton_append]
    · rw [map_cons, headD_cons, name]
      refine ⟨rfl, Nat.ne_of_gt pos, ?_⟩
      rw [step.next_cursor _ atCursor]
      exact step.linked
    · intro c hc
      have lt := (ends c hc).1
      rw [step.old_next c (by omega) (by rw [atCursor]; simp; omega), cursor1 c hc, map_cons, headD_cons, name]
    · intro m lt hm
      rw [step.old_next m (by omega) (by rw [atCursor]; simp; omega), next1 m lt hm]
    · intro m lt
      rw [step.old_op m (by omega), op1 m lt]

/-! ## The arguments -/

theorem fixupOps_spec {ns : List NodeID} (nodup : ns.Nodup) (b : Builder κ) :
    (ns.foldl (fixupOp f) b).ir.ssaCount = b.ir.ssaCount ∧ (ns.foldl (fixupOp f) b).ir.next = b.ir.next ∧
      (∀ n ∈ ns, (ns.foldl (fixupOp f) b).ir.nodes n = { b.ir.nodes n with op := (b.ir.nodes n).op.mapArgs f }) ∧
      ∀ n, n ∉ ns → (ns.foldl (fixupOp f) b).ir.nodes n = b.ir.nodes n := by
  induction ns generalizing b with
  | nil => exact ⟨rfl, rfl, fun _ h => absurd h List.not_mem_nil, fun _ _ => rfl⟩
  | cons m ns ih =>
    obtain ⟨hm, nodup⟩ := nodup_cons.mp nodup
    obtain ⟨h1, h2, h3, h4⟩ := ih nodup (fixupOp f b m)
    rw [foldl_cons]
    refine ⟨h1, h2.trans (Builder.next_setOp _ _ _), ?_, ?_⟩
    · intro n hn
      rcases mem_cons.mp hn with rfl | hn
      · rw [h4 n hm, fixupOp, Builder.nodes_setOp_self]
      · have ne : n ≠ m := fun h => hm (h ▸ hn)
        rw [h3 n hn, fixupOp, Builder.nodes_setOp_of_ne _ _ ne]
    · intro n hn
      rw [mem_cons, not_or] at hn
      rw [h4 n hn.2, fixupOp, Builder.nodes_setOp_of_ne _ _ hn.1]

theorem code_congr {ir' : IR κ} {block : NodeID} (hop : (ir'.nodes block).op = (ir.nodes block).op) (hnext : ir'.next = ir.next)
    (hcount : ir'.ssaCount = ir.ssaCount) : ir'.code block = ir.code block := by
  simp [IR.code, hop, hnext, hcount]

theorem fixupBlocks_eq {blocks : List NodeID}
    (nodup : (blocks.flatMap b.ir.code).Nodup) (notBlock : ∀ n ∈ blocks.flatMap b.ir.code, n ∉ blocks) :
    blocks.foldl (fixupBlock f) b = (blocks.flatMap b.ir.code).foldl (fixupOp f) b := by
  induction blocks generalizing b with
  | nil => rfl
  | cons block blocks ih =>
    rw [flatMap_cons, nodup_append'] at nodup
    obtain ⟨nodup1, nodup2, -⟩ := nodup
    obtain ⟨h1, h2, -, h4⟩ := fixupOps_spec nodup1 b (f := f)
    have same : ∀ b' ∈ blocks, (fixupBlock f b block).ir.code b' = b.ir.code b' := by
      intro b' hb'
      refine code_congr ?_ h2 h1
      rw [fixupBlock, h4]
      intro mem
      exact notBlock b' (by rw [flatMap_cons]; exact List.mem_append_left _ mem) (mem_cons_of_mem _ hb')
    have sameAll : blocks.flatMap (fixupBlock f b block).ir.code = blocks.flatMap b.ir.code := flatMap_congr same
    rw [foldl_cons, flatMap_cons, List.foldl_append, ih, sameAll]
    · rfl
    · rw [sameAll]
      exact nodup2
    · rw [sameAll]
      intro n hn mem
      exact notBlock n (by rw [flatMap_cons]; exact List.mem_append_right _ hn) (mem_cons_of_mem _ mem)

/-! ## The pass -/

namespace IR

def order (ir : IR κ) : List NodeID := headerNode :: (ir.blocks ++ ir.blocks.flatMap ir.code)

/-- The lists end, no node is twice in them, a block ends with an `EndBlock`, and arguments are nodes of the lists or
invalid. -/
structure WellFormed (ir : IR κ) : Prop where
  blocks_linked : Linked ir.next ir.header.1 ir.blocks
  blocks_ne : ir.blocks ≠ []
  code : ∀ block ∈ ir.blocks, ∃ begin last, (ir.nodes block).op = .codeBlock begin last ∧ Linked ir.next begin (ir.code block) ∧
    (ir.code block).getLast? = some last ∧ (ir.nodes last).op.isEndBlock = true
  nodup : ir.order.Nodup
  args : ∀ block ∈ ir.blocks, ∀ n ∈ ir.code block, ∀ a ∈ (ir.nodes n).op.args, a = 0 ∨ a ∈ ir.order

/-- The one IR is the other with its nodes renamed. -/
structure Isomorphic (ir ir' : IR κ) (f : NodeID → NodeID) : Prop where
  injective : ∀ m ∈ ir.order, ∀ n ∈ ir.order, f m = f n → m = n
  zero : f 0 = 0
  header : ir'.header = (f ir.header.1, ir.header.2)
  blocks : ir'.blocks = ir.blocks.map f
  block_op : ∀ block ∈ ir.blocks, ∀ begin last, (ir.nodes block).op = .codeBlock begin last →
    (ir'.nodes (f block)).op = .codeBlock (f begin) (f last)
  code : ∀ block ∈ ir.blocks, ir'.code (f block) = (ir.code block).map f
  op : ∀ block ∈ ir.blocks, ∀ n ∈ ir.code block, (ir'.nodes (f n)).op = (ir.nodes n).op.mapArgs f
  numUses : ∀ block ∈ ir.blocks, ∀ n ∈ ir.code block, (ir'.nodes (f n)).numUses = (ir.nodes n).numUses
  args : ∀ block ∈ ir.blocks, ∀ n ∈ ir.code block, ∀ a ∈ (ir.nodes n).op.args,
    (a = 0 ∧ f a = 0) ∨ a ∈ ir.order ∧ f a ∈ ir'.order

/-- Names are in the order of the list, and those of a block without a gap. -/
structure Numbered (ir : IR κ) : Prop where
  consecutive : ∀ block ∈ ir.blocks, ∃ start, ir.code block = range' start (ir.code block).length
  increasing : ir.order.Pairwise (· < ·)

end IR

theorem createBlocks_spec (wf : ir.WellFormed) (builder : Builder κ) (stale : NodeID → NodeID) :
    ∃ st : State κ, createBlocks ir builder stale = (st, ir.blocks.map (fun block => (block, st.remap block))) ∧
      st.builder.ir.ssaCount = 2 + ir.blocks.length ∧ st.remap 0 = 0 ∧ st.remap IR.headerNode = 1 ∧
      ir.blocks.map st.remap = range' 2 ir.blocks.length ∧
      Linked st.builder.ir.next ((ir.blocks.map st.remap).headD 0) (ir.blocks.map st.remap) ∧
      (st.builder.ir.nodes 1).op = .irHeader ((ir.blocks.map st.remap).headD 0) ir.header.2 := by
  have nodup := wf.nodup
  rw [IR.order, nodup_cons, mem_append, not_or, nodup_append'] at nodup
  obtain ⟨⟨header, -⟩, nodupBlocks, -, -⟩ := nodup
  have zero : 0 ∉ ir.blocks := fun h => wf.blocks_linked.ne_zero 0 h rfl
  have ends0 : builder.resetWorkingList.CursorEnds := fun c hc => nomatch hc
  have count : (createHeader ir builder stale).builder.ir.ssaCount = 2 := Builder.ssaCount_createNode _ _ _
  have spec : Created ir.blocks (createHeader ir builder stale, []) (ir.blocks.foldl (createBlock IR.headerNode) _) :=
    created nodupBlocks (by simp [count]) (Builder.cursorEnds_createNode _ _ ends0)
  simp only [createBlocks]
  generalize ir.blocks.foldl (createBlock IR.headerNode) (createHeader ir builder stale, []) = acc' at *
  obtain ⟨st, generated⟩ := acc'
  have hgen : generated = ir.blocks.map (fun block => (block, st.remap block)) := by simpa using spec.generated
  have hsnd : generated.map Prod.snd = ir.blocks.map st.remap := by simp [hgen]
  have image := spec.image
  refine ⟨{ st with builder := st.builder.setOp IR.headerNode (.irHeader ((ir.blocks.map st.remap).headD 0) ir.header.2) },
    by rw [hsnd, hgen], ?_, ?_, ?_, image, ?_, ?_⟩
  · exact spec.ssaCount.trans (congrArg (· + ir.blocks.length) count)
  · rw [spec.remap_other 0 zero]
    rfl
  · rw [spec.remap_other _ header]
    rfl
  · rw [Builder.next_setOp]
    exact spec.linked
  · exact congrArg OrderedNode.op (Builder.nodes_setOp_self st.builder 1 _)

theorem getLastD_map_of_getLast? {l : List NodeID} {last : NodeID} (h : l.getLast? = some last) :
    (l.map f).getLastD 0 = f last := by
  rw [List.getLastD_eq_getLast?, List.getLast?_map, h]
  rfl

theorem headD_map_of_linked {next : NodeID → NodeID} {start : NodeID} {l : List NodeID}
    (linked : Linked next start l) (ne : l ≠ []) : (l.map f).headD 0 = f start := by
  cases l with
  | nil => exact absurd rfl ne
  | cons n ns => rw [linked.1]; rfl

/-- The copy with the arguments still to be fixed, and the table that is complete. -/
structure Laid (ir : IR κ) (b : Builder κ) (f : NodeID → NodeID) : Prop where
  zero : f 0 = 0
  header : f IR.headerNode = 1
  image_blocks : ir.blocks.map f = range' 2 ir.blocks.length
  image_code : (ir.blocks.flatMap ir.code).map f = range' (2 + ir.blocks.length) (ir.blocks.flatMap ir.code).length
  header_eq : b.ir.header = (f ir.header.1, ir.header.2)
  blocks : b.ir.blocks = ir.blocks.map f
  block_op : ∀ block ∈ ir.blocks, ∀ begin last, (ir.nodes block).op = .codeBlock begin last →
    (b.ir.nodes (f block)).op = .codeBlock (f begin) (f last)
  code : ∀ block ∈ ir.blocks, b.ir.code (f block) = (ir.code block).map f
  consecutive : ∀ block ∈ ir.blocks, ∃ start, (ir.code block).map f = range' start (ir.code block).length
  copy : ∀ n ∈ ir.blocks.flatMap ir.code, (b.ir.nodes (f n)).op = (ir.nodes n).op ∧ (b.ir.nodes (f n)).numUses = (ir.nodes n).numUses

theorem laid (wf : ir.WellFormed) (builder : Builder κ) (stale : NodeID → NodeID) :
    ∃ b f, Laid ir b f ∧ run ir builder stale = (((ir.blocks.map f).foldl (fixupBlock f) b).ir, f) := by
  obtain ⟨st, hcreate, count, zero, header, image, linked, headerOp⟩ := createBlocks_spec wf builder stale
  have nodup := wf.nodup
  rw [IR.order, nodup_cons, mem_append, not_or, nodup_append'] at nodup
  obtain ⟨⟨-, headerCode⟩, -, nodupCode, disjoint⟩ := nodup
  let l := ir.blocks.map (fun block => (block, st.remap block))
  have hcodes : codes ir l = ir.blocks.flatMap ir.code := by simp [codes, l, flatMap_map]
  have hsnd : l.map Prod.snd = ir.blocks.map st.remap := by simp [l]
  have copyable : Copyable ir l st.builder.ir.ssaCount := by
    refine ⟨by rwa [hcodes], ?_, ?_, ?_⟩
    · rw [hsnd, image]
      exact nodup_range'
    · intro b hb
      have mem : b.2 ∈ l.map Prod.snd := mem_map_of_mem hb
      rw [hsnd, image, mem_range'_1] at mem
      omega
    · intro b hb
      obtain ⟨block, hblock, rfl⟩ := mem_map.mp hb
      obtain ⟨begin, last, -, -, hlast, hend⟩ := wf.code block hblock
      exact ⟨last, hlast, hend⟩
  -- the blocks were made first, so their numbers are below those of all copies
  have spec := copyBlocks_spec (by omega) copyable
  have hrun : run ir builder stale = ((((l.map Prod.snd).foldl (fixupBlock (l.foldl (copyBlock ir) st).remap)
      (l.foldl (copyBlock ir) st).builder)).ir, (l.foldl (copyBlock ir) st).remap) := by
    simp only [run, hcreate]
    rfl
  rw [hrun, hsnd]
  generalize l.foldl (copyBlock ir) st = st' at *
  have zeroCode : 0 ∉ ir.blocks.flatMap ir.code := by
    intro h
    obtain ⟨block, hblock, h⟩ := List.mem_flatMap.mp h
    obtain ⟨begin, last, -, hlinked, -⟩ := wf.code block hblock
    exact hlinked.ne_zero 0 h rfl
  -- copying the code renames nothing outside of it
  have keep : ∀ n, n ∉ ir.blocks.flatMap ir.code → st'.remap n = st.remap n := by
    rw [← hcodes]
    exact spec.remap_other
  have keepBlocks : ir.blocks.map st'.remap = ir.blocks.map st.remap :=
    List.map_congr_left (fun n hn => keep n (fun h => disjoint hn h))
  have total : st'.builder.ir.ssaCount = 2 + ir.blocks.length + (ir.blocks.flatMap ir.code).length := by
    rw [spec.ssaCount, hcodes, count]
  have first := headD_map_of_linked wf.blocks_linked wf.blocks_ne (f := st'.remap)
  have headerEq : st'.builder.ir.header = (st'.remap ir.header.1, ir.header.2) := by
    have hop : (st'.builder.ir.nodes 1).op = .irHeader ((ir.blocks.map st.remap).headD 0) ir.header.2 := by
      rw [spec.old 1 (by omega), headerOp]
      rw [hsnd, image, mem_range'_1]
      omega
    rw [← keepBlocks, first] at hop
    rw [IR.header]
    simp [IR.headerNode, hop]
  refine ⟨st'.builder, st'.remap, ?_, by rw [keepBlocks]⟩
  constructor
  · exact (keep 0 zeroCode).trans zero
  · exact (keep _ headerCode).trans header
  · exact keepBlocks.trans image
  · rw [← hcodes, spec.image, count]
  · exact headerEq
  · have next : ∀ n ∈ ir.blocks.map st.remap, st'.builder.ir.next n = st.builder.ir.next n := by
      intro n hn
      rw [image, mem_range'_1] at hn
      exact spec.old_next n (by omega)
    have chain := linked_congr next linked
    rw [← keepBlocks, first] at chain
    rw [IR.blocks, headerEq]
    apply walk_eq chain
    rw [length_map]
    omega
  · intro block hblock begin last hop
    obtain ⟨begin', last', hop', hlinked, hlast, -⟩ := wf.code block hblock
    obtain ⟨rfl, rfl⟩ : begin = begin' ∧ last = last' := by simpa [hop] using hop'
    have ne : ir.code block ≠ [] := by
      intro h
      simp [h] at hlast
    have hnew := spec.block_op (block, st.remap block) (mem_map_of_mem hblock)
    rw [headD_map_of_linked hlinked ne, getLastD_map_of_getLast? hlast] at hnew
    rw [keep block (fun h => disjoint hblock h)]
    exact hnew
  · intro block hblock
    have mem : (block, st.remap block) ∈ l := mem_map_of_mem hblock
    have hop := spec.block_op _ mem
    rw [keep block (fun h => disjoint hblock h)]
    simp only [IR.code, hop]
    apply walk_eq (spec.linked _ mem)
    have sub := (List.Sublist.flatMap (List.singleton_sublist.mpr hblock) ir.code).length_le
    rw [List.flatMap_singleton] at sub
    show ((ir.code block).map st'.remap).length ≤ _
    rw [length_map]
    omega
  · exact fun block hblock => spec.consecutive (block, st.remap block) (mem_map_of_mem hblock)
  · rw [← hcodes]
    exact spec.copy

theorem Laid.image_order (h : Laid ir b f) :
    ir.order.map f = range' 1 (1 + (ir.blocks.length + (ir.blocks.flatMap ir.code).length)) := by
  rw [IR.order, map_cons, map_append, h.image_blocks, h.image_code, h.header, List.range'_append_1, Nat.add_comm 1,
    range'_succ]

theorem Laid.fixups (h : Laid ir b f) :
    (ir.blocks.map f).foldl (fixupBlock f) b = ((ir.blocks.flatMap ir.code).map f).foldl (fixupOp f) b := by
  have codeAll : (ir.blocks.map f).flatMap b.ir.code = (ir.blocks.flatMap ir.code).map f := by
    rw [flatMap_map, List.map_flatMap]
    exact flatMap_congr h.code
  rw [fixupBlocks_eq, codeAll]
  · rw [codeAll, h.image_code]
    exact nodup_range'
  · rw [codeAll, h.image_code, h.image_blocks]
    intro n hn hb
    rw [mem_range'_1] at hn hb
    omega

/-- Compaction is an isomorphism onto an IR that is numbered in the order of its lists, whatever the table held before. -/
theorem run_isomorphic {ir : IR κ} (wf : ir.WellFormed) (builder : Builder κ) (stale : NodeID → NodeID) :
    ir.Isomorphic (run ir builder stale).1 (run ir builder stale).2 ∧ (run ir builder stale).1.Numbered := by
  obtain ⟨b, f, h, hrun⟩ := laid wf builder stale
  have nodupCode : ((ir.blocks.flatMap ir.code).map f).Nodup := by
    rw [h.image_code]
    exact nodup_range'
  obtain ⟨finalCount, finalNext, finalCode, finalOther⟩ := fixupOps_spec nodupCode b (f := f)
  rw [hrun, h.fixups]
  generalize ((ir.blocks.flatMap ir.code).map f).foldl (fixupOp f) b = b' at *
  -- the fixups change the arguments of the code only, not the header or the blocks
  have same : ∀ n < 2 + ir.blocks.length, b'.ir.nodes n = b.ir.nodes n := by
    intro n lt
    apply finalOther
    rw [h.image_code, mem_range'_1]
    omega
  have sameBlock : ∀ block ∈ ir.blocks, b'.ir.nodes (f block) = b.ir.nodes (f block) := by
    intro block hblock
    have mem : f block ∈ ir.blocks.map f := mem_map_of_mem hblock
    rw [h.image_blocks, mem_range'_1] at mem
    exact same _ mem.2
  have header : b'.ir.header = (f ir.header.1, ir.header.2) := by
    rw [← h.header_eq]
    simp [IR.header, IR.headerNode, same 1 (by omega)]
  have blocks : b'.ir.blocks = ir.blocks.map f := by
    rw [← h.blocks]
    simp [IR.blocks, finalNext, finalCount, header, h.header_eq]
  have code : ∀ block ∈ ir.blocks, b'.ir.code (f block) = (ir.code block).map f := by
    intro block hblock
    rw [code_congr (congrArg OrderedNode.op (sameBlock block hblock)) finalNext finalCount, h.code block hblock]
  have order : b'.ir.order = ir.order.map f := by
    have flat : b'.ir.blocks.flatMap b'.ir.code = (ir.blocks.flatMap ir.code).map f := by
      rw [blocks, flatMap_map, List.map_flatMap]
      exact flatMap_congr code
    rw [IR.order, IR.order, flat, blocks, map_cons, map_append, h.header]
    rfl
  have nodupOrder : (ir.order.map f).Nodup := by
    rw [h.image_order]
    exact nodup_range'
  have mem : ∀ block ∈ ir.blocks, ∀ n ∈ ir.code block, n ∈ ir.blocks.flatMap ir.code :=
    fun block hblock n hn => List.mem_flatMap.mpr ⟨block, hblock, hn⟩
  refine ⟨⟨?_, h.zero, header, blocks, ?_, code, ?_, ?_, ?_⟩, ⟨?_, ?_⟩⟩
  · exact fun m hm n hn heq => List.inj_on_of_nodup_map nodupOrder hm hn heq
  · intro block hblock begin last hop
    rw [sameBlock block hblock]
    exact h.block_op block hblock begin last hop
  · intro block hblock n hn
    rw [finalCode _ (mem_map_of_mem (mem block hblock n hn)), (h.copy n (mem block hblock n hn)).1]
  · intro block hblock n hn
    rw [finalCode _ (mem_map_of_mem (mem block hblock n hn)), (h.copy n (mem block hblock n hn)).2]
  · intro block hblock n hn a ha
    rcases wf.args block hblock n hn a ha with rfl | live
    · exact .inl ⟨rfl, h.zero⟩
    · refine .inr ⟨live, ?_⟩
      rw [order]
      exact mem_map_of_mem live
  · intro block hblock
    rw [blocks] at hblock
    obtain ⟨old, hold, rfl⟩ := mem_map.mp hblock
    obtain ⟨start, hstart⟩ := h.consecutive old hold
    exact ⟨start, by rw [code old hold, length_map]; exact hstart⟩
  · rw [order, h.image_order]
    exact List.pairwise_lt_range'

def shuffledIR : IR Nat where
  ssaCount := 8
  nodes n :=
    if n = 1 then ⟨.irHeader 2 1, 2, 0⟩
    else if n = 2 then ⟨.codeBlock 7 3, 0, 2⟩
    else if n = 7 then ⟨.beginBlock 2, 5, 0⟩
    else if n = 5 then ⟨.other 10 [], 4, 2⟩
    else if n = 4 then ⟨.other 20 [5, 5], 3, 0⟩
    else if n = 3 then ⟨.endBlock 2, 0, 0⟩
    else ⟨.other 0 [], 0, 0⟩

theorem shuffledIR_wellFormed : shuffledIR.WellFormed := by
  have blocks : shuffledIR.blocks = [2] := by decide
  have code : shuffledIR.code 2 = [7, 5, 4, 3] := by decide
  have order : shuffledIR.order = [1, 2, 7, 5, 4, 3] := by decide
  constructor
  · exact ⟨rfl, by decide, rfl⟩
  · decide
  · rw [blocks]
    intro block hblock
    obtain rfl := mem_singleton.mp hblock
    exact ⟨7, 3, rfl, ⟨rfl, by decide, rfl, by decide, rfl, by decide, rfl, by decide, rfl⟩, rfl, rfl⟩
  · decide
  · rw [blocks, order]
    intro block hblock
    obtain rfl := mem_singleton.mp hblock
    decide

theorem run_isomorphic_shuffled :
    shuffledIR.Isomorphic (run shuffledIR ⟨shuffledIR, none⟩ id).1 (run shuffledIR ⟨shuffledIR, none⟩ id).2 :=
  (run_isomorphic shuffledIR_wellFormed ⟨shuffledIR, none⟩ id).1

end FexEmu.Compaction
