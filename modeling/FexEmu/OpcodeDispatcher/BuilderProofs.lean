import FexEmu.OpcodeDispatcher.Builder
/-!
# What the handlers leave of the code blocks

A builder is in the middle of a block (`Open`) or between blocks (`Done`), and the blocks that are linked but not written are
listed apart (`todo`).
-/
namespace FexEmu.OpcodeDispatcher

open Function (update_of_ne update_self)
open List (mem_cons mem_cons_self mem_singleton)

/-- A block that ends in a block exit and holds no terminator before it. -/
def Finished (ops : List IROp) : Prop :=
  ∃ init last, ops = init ++ [last] ∧ last.isBlockExit = true ∧ ∀ o ∈ init, o.isTerminator = false

namespace Builder

/-- The blocks of `b`: the targets of their ops are linked, and those of `todo`
are linked and empty. -/
structure Linked (b : Builder) (todo : List BlockId) : Prop where
  bounded : ∀ k ∈ b.blocks, k < b.count
  fresh : ∀ k, b.count ≤ k → b.code k = []
  current : b.current ∈ b.blocks
  targets : ∀ k, ∀ o ∈ b.code k, ∀ t ∈ o.targets, t ∈ b.blocks
  jumpTargets : ∀ t ∈ b.jumpTargets, t.blockEntry ∈ b.blocks
  waiting : ∀ k ∈ todo, k ∈ b.blocks ∧ b.code k = []

/-- Between blocks. -/
structure Done (b : Builder) (todo : List BlockId) : Prop extends Linked b todo where
  atStart : b.current ∈ todo → b.cursor = 0
  finished : ∀ k ∈ b.blocks, k ∉ todo → Finished (b.code k)

/-- In the middle of the current block. -/
structure Open (b : Builder) (todo : List BlockId) : Prop extends Linked b todo where
  notTodo : b.current ∉ todo
  cursor : b.cursor = (b.code b.current).length
  straight : ∀ o ∈ b.code b.current, o.isTerminator = false
  others : ∀ k ∈ b.blocks, k ≠ b.current → k ∉ todo → Finished (b.code k)

variable {b : Builder} {todo : List BlockId}

/-! ## Primitives -/

theorem Open.emit_code (h : Open b todo) (o : IROp) :
    (b.emit o).code = Function.update b.code b.current (b.code b.current ++ [o]) := by
  unfold emit
  rw [h.cursor, List.insertIdx_length_self]

variable {o : IROp} {k : BlockId}

theorem Open.linked_emit (h : Open b todo) (ho : ∀ t ∈ o.targets, t ∈ b.blocks) : Linked (b.emit o) todo where
  bounded := h.bounded
  fresh := by
    intro k hk
    have hne : k ≠ b.current := by
      rintro rfl
      exact Nat.not_lt.2 hk (h.bounded _ h.current)
    rw [h.emit_code, update_of_ne hne]
    exact h.fresh k hk
  current := h.current
  targets := by
    intro k o' ho'
    rw [h.emit_code] at ho'
    by_cases hk : k = b.current
    · subst hk
      rw [update_self, List.mem_append, mem_singleton] at ho'
      rcases ho' with ho' | rfl
      · exact h.targets _ _ ho'
      · exact ho
    · rw [update_of_ne hk] at ho'
      exact h.targets _ _ ho'
  jumpTargets := h.jumpTargets
  waiting := by
    intro k hk
    have hne : k ≠ b.current := fun he => h.notTodo (he ▸ hk)
    rw [h.emit_code, update_of_ne hne]
    exact h.waiting k hk

theorem Open.emit (h : Open b todo) (ho : o.isTerminator = false) : Open (b.emit o) todo := by
  have htargets : o.targets = [] := by cases o <;> first | rfl | cases ho
  refine { h.linked_emit (by simp [htargets]) with notTodo := h.notTodo, cursor := ?_, straight := ?_, others := ?_ }
  · rw [h.emit_code]
    show b.cursor + 1 = (Function.update b.code b.current _ b.current).length
    rw [update_self, List.length_append, h.cursor]
    rfl
  · intro o' ho'
    rw [h.emit_code] at ho'
    replace ho' : o' ∈ Function.update b.code b.current (b.code b.current ++ [o]) b.current := ho'
    rw [update_self, List.mem_append, mem_singleton] at ho'
    rcases ho' with ho' | rfl
    · exact h.straight _ ho'
    · exact ho
  · intro k hk hne hkt
    have hne' : k ≠ b.current := hne
    rw [h.emit_code, update_of_ne hne']
    exact h.others k hk hne' hkt

theorem Open.close (h : Open b todo) (ho : o.isBlockExit = true) (ht : ∀ t ∈ o.targets, t ∈ b.blocks) :
    Done (b.emit o) todo where
  toLinked := h.linked_emit ht
  atStart := fun hm => absurd hm h.notTodo
  finished := by
    intro k hk hkt
    rw [h.emit_code]
    by_cases hne : k = b.current
    · subst hne
      rw [update_self]
      exact ⟨_, _, rfl, ho, h.straight⟩
    · rw [update_of_ne hne]
      exact h.others k hk hne hkt

/-- `o` is the last op of the current block. -/
def EndsIn (b : Builder) (o : IROp) : Prop := ∃ init, b.code b.current = init ++ [o]

theorem Open.endsIn_emit (h : Open b todo) (o : IROp) : (b.emit o).EndsIn o := by
  refine ⟨b.code b.current, ?_⟩
  rw [h.emit_code]
  exact update_self ..

theorem Open.done (h : Open b todo) (he : b.EndsIn .brk) : Done b todo where
  toLinked := h.toLinked
  atStart := fun hm => absurd hm h.notTodo
  finished := by
    intro k hk hkt
    by_cases hne : k = b.current
    · subst hne
      obtain ⟨init, hinit⟩ := he
      refine ⟨init, .brk, hinit, rfl, ?_⟩
      intro o ho
      exact h.straight o (hinit ▸ List.mem_append_left _ ho)
    · exact h.others k hk hne hkt

theorem Done.enter (h : Done b (k :: todo)) (hk : k ∉ todo) : Open (b.setCurrentCodeBlock k) todo := by
  obtain ⟨hmem, hcode⟩ := h.waiting k mem_cons_self
  have hcode' : (b.setCurrentCodeBlock k).code (b.setCurrentCodeBlock k).current = [] := hcode
  exact {
    bounded := h.bounded
    fresh := h.fresh
    current := hmem
    targets := h.targets
    jumpTargets := h.jumpTargets
    waiting := fun j hj => h.waiting j (List.mem_cons_of_mem _ hj)
    notTodo := hk
    cursor := by rw [hcode']; rfl
    straight := by rw [hcode']; intro o ho; cases ho
    others := fun j hj hne hjt => h.finished j hj (fun hm => (mem_cons.1 hm).elim hne hjt) }

theorem mem_linkAfter {n : BlockId} {l : List BlockId} (hk : k ∈ l) {j : BlockId} :
    j ∈ linkAfter k n l ↔ j = n ∨ j ∈ l := by
  induction l with
  | nil => cases hk
  | cons x xs ih =>
    unfold linkAfter
    split
    · simp only [mem_cons]
      tauto
    · rename_i hx
      have hk' : k ∈ xs := (mem_cons.1 hk).resolve_left (fun h => hx h.symm)
      simp only [mem_cons, ih hk']
      tauto

theorem Open.create (h : Open b todo) {blocks : List BlockId} (hb : ∀ j, j ∈ blocks ↔ j = b.count ∨ j ∈ b.blocks) :
    Open { b with count := b.count + 1, blocks := blocks } (b.count :: todo) where
  bounded := by
    intro k hk
    rcases (hb k).1 hk with rfl | hk
    · exact Nat.lt_succ_self _
    · exact Nat.lt_succ_of_lt (h.bounded k hk)
  fresh := fun k hk => h.fresh k (Nat.le_of_succ_le hk)
  current := (hb _).2 (.inr h.current)
  targets := fun k o ho t ht => (hb t).2 (.inr (h.targets k o ho t ht))
  jumpTargets := fun t ht => (hb _).2 (.inr (h.jumpTargets t ht))
  waiting := by
    intro k hk
    rcases mem_cons.1 hk with rfl | hk
    · exact ⟨(hb _).2 (.inl rfl), h.fresh _ (Nat.le_refl _)⟩
    · exact ⟨(hb k).2 (.inr (h.waiting k hk).1), (h.waiting k hk).2⟩
  notTodo := by
    intro hm
    rcases mem_cons.1 hm with he | hm
    · exact Nat.ne_of_lt (h.bounded _ h.current) he
    · exact h.notTodo hm
  cursor := h.cursor
  straight := h.straight
  others := by
    intro k hk hne hkt
    rw [mem_cons, not_or] at hkt
    exact h.others k (((hb k).1 hk).resolve_left hkt.1) hne hkt.2

theorem Open.createAfter (h : Open b todo) (hk : k ∈ b.blocks) :
    Open (b.createNewCodeBlockAfter k) (b.count :: todo) := h.create (fun _ => mem_linkAfter hk)

theorem Open.createAtEnd (h : Open b todo) : Open b.createNewCodeBlockAtEnd (b.count :: todo) :=
  h.create (fun j => by rw [List.mem_append, mem_singleton, or_comm])

theorem Linked.reorder {todo' : List BlockId} (h : Linked b todo) (ht : ∀ k, k ∈ todo' ↔ k ∈ todo) : Linked b todo' :=
  { h with waiting := fun k hk => h.waiting k ((ht k).1 hk) }

theorem Done.reorder {todo' : List BlockId} (h : Done b todo) (ht : ∀ k, k ∈ todo' ↔ k ∈ todo) : Done b todo' :=
  { h.toLinked.reorder ht with
    atStart := fun hm => h.atStart ((ht _).1 hm)
    finished := fun k hk hkt => h.finished k hk (fun hm => hkt ((ht k).2 hm)) }

theorem Linked.not_mem_todo (h : Linked b todo) (hk : b.count ≤ k) : k ∉ todo :=
  fun hm => Nat.not_lt.2 hk (h.bounded k (h.waiting k hm).1)

theorem Open.emitAll (h : Open b todo) {os : List IROp} (hos : ∀ o ∈ os, o.isTerminator = false) :
    Open (b.emitAll os) todo := by
  induction os generalizing b with
  | nil => exact h
  | cons o os ih =>
    exact ih (h.emit (hos o mem_cons_self)) (fun o' ho' => hos o' (List.mem_cons_of_mem _ ho'))

theorem Open.emitOps (h : Open b todo) (n : Nat) : Open (b.emitOps n) todo := by
  apply h.emitAll
  intro o ho
  rw [List.eq_of_mem_replicate ho]
  rfl

section
variable (setRIP failure : Bool) (deferred : Option Nat)

theorem Linked.flags (h : Linked b todo) :
    Linked { b with blockSetRIP := setRIP, decodeFailure := failure, deferredFlags := deferred } todo :=
  ⟨h.bounded, h.fresh, h.current, h.targets, h.jumpTargets, h.waiting⟩

theorem Done.flags (h : Done b todo) :
    Done { b with blockSetRIP := setRIP, decodeFailure := failure, deferredFlags := deferred } todo :=
  ⟨h.toLinked.flags setRIP failure deferred, h.atStart, h.finished⟩

theorem Open.flags (h : Open b todo) :
    Open { b with blockSetRIP := setRIP, decodeFailure := failure, deferredFlags := deferred } todo :=
  ⟨h.toLinked.flags setRIP failure deferred, h.notTodo, h.cursor, h.straight, h.others⟩

end

theorem Open.calculateDeferredFlags (h : Open b todo) : Open b.calculateDeferredFlags todo :=
  (h.emitOps _).flags _ _ none

theorem Open.step (h : Open b todo) (s : Step) : Open (b.step s) todo := by
  cases s with
  | op => exact h.emit rfl
  | brk => exact h.emit rfl
  | calculateDeferredFlags => exact h.calculateDeferredFlags
  | generateFlags n => exact h.flags _ _ (some n)
  | invalidateDeferredFlags => exact h.flags _ _ none

theorem Open.steps (h : Open b todo) (ss : List Step) : Open (b.steps ss) todo := by
  induction ss generalizing b with
  | nil => exact h
  | cons s ss ih => exact ih (h.step s)

theorem emitAll_frame (b : Builder) (os : List IROp) :
    b.emitAll os = { b with code := (b.emitAll os).code, cursor := (b.emitAll os).cursor } := by
  induction os generalizing b with
  | nil => rfl
  | cons o os ih => exact ih (b.emit o)

theorem emitOps_frame (b : Builder) (n : Nat) :
    b.emitOps n = { b with code := (b.emitOps n).code, cursor := (b.emitOps n).cursor } := emitAll_frame b _

@[simp] theorem emit_blocks (o : IROp) : (b.emit o).blocks = b.blocks := rfl
@[simp] theorem setCurrentCodeBlock_blocks (k : BlockId) : (b.setCurrentCodeBlock k).blocks = b.blocks := rfl
@[simp] theorem emitOps_blocks (n : Nat) : (b.emitOps n).blocks = b.blocks := by rw [emitOps_frame]
@[simp] theorem emitOps_count (n : Nat) : (b.emitOps n).count = b.count := by rw [emitOps_frame]
@[simp] theorem emitOps_current (n : Nat) : (b.emitOps n).current = b.current := by rw [emitOps_frame]
@[simp] theorem emitOps_jumpTargets (n : Nat) : (b.emitOps n).jumpTargets = b.jumpTargets := by rw [emitOps_frame]
@[simp] theorem emitOps_multiblock (n : Nat) : (b.emitOps n).multiblock = b.multiblock := by rw [emitOps_frame]
@[simp] theorem emitOps_blockSetRIP (n : Nat) : (b.emitOps n).blockSetRIP = b.blockSetRIP := by rw [emitOps_frame]
theorem findJumpTarget_linked (h : Linked b todo) {rip : RIP} (hk : b.findJumpTarget rip = some k) : k ∈ b.blocks := by
  obtain ⟨t, ht, rfl⟩ := Option.map_eq_some_iff.1 hk
  exact h.jumpTargets t (List.mem_of_find?_eq_some ht)

/-! ## Handlers that end the block -/

theorem Open.exitOp (h : Open b todo) (ss : List Step) : Done (b.exitOp ss) todo :=
  ((h.steps ss).close rfl (by intro t ht; cases ht)).flags true _ _

theorem Done.exitBlock (h : Done b (k :: todo)) (hk : k ∉ todo) : Done (b.exitBlock k) todo :=
  ((h.enter hk).emitOps 1).close rfl (by intro t ht; cases ht)

theorem Open.closeCondJump {t f : BlockId} (h : Open b todo) (ht : t ∈ b.blocks) (hf : f ∈ b.blocks) :
    Done (b.emit (.condJump t f)) todo := by
  apply h.close rfl
  intro k hk
  simp only [IROp.targets, mem_cons, List.not_mem_nil, or_false] at hk
  rcases hk with rfl | rfl
  · exact ht
  · exact hf

theorem Open.closeJump {t : BlockId} (h : Open b todo) (ht : t ∈ b.blocks) : Done (b.emit (.jump t)) todo := by
  apply h.close rfl
  intro k hk
  rw [mem_singleton.1 hk]
  exact ht

theorem Open.condJUMPOp (h : Open b todo) (n : Nat) (afterTaken : Bool) (target next : RIP) :
    Done (b.condJUMPOp n afterTaken target next) todo := by
  have h' : Open { b.calculateDeferredFlags.emitOps n with blockSetRIP := true } todo :=
    (h.calculateDeferredFlags.emitOps n).flags true _ _
  unfold Builder.condJUMPOp
  generalize { b.calculateDeferredFlags.emitOps n with blockSetRIP := true } = c at h'
  have hfresh : c.count ∉ todo := h'.not_mem_todo (Nat.le_refl _)
  dsimp only
  split
  · rename_i t f ht hf
    exact h'.closeCondJump (findJumpTarget_linked h'.toLinked ht) (findJumpTarget_linked h'.toLinked hf)
  · rename_i t ht hf
    have hc := h'.createAfter h'.current
    refine (hc.closeCondJump ?_ (hc.waiting _ mem_cons_self).1).exitBlock hfresh
    exact (mem_linkAfter h'.current).2 (.inr (findJumpTarget_linked h'.toLinked ht))
  · rename_i f ht hf
    have hc := h'.createAtEnd
    refine (hc.closeCondJump (hc.waiting _ mem_cons_self).1 ?_).exitBlock hfresh
    exact List.mem_append_left _ (findJumpTarget_linked h'.toLinked hf)
  · have hc := h'.createAtEnd
    have hplace : (if afterTaken then c.count else c.current) ∈ c.createNewCodeBlockAtEnd.blocks := by
      split
      · exact (hc.waiting _ mem_cons_self).1
      · exact hc.current
    have hc' := hc.createAfter hplace
    have hd := hc'.closeCondJump (hc'.waiting c.count (List.mem_cons_of_mem _ mem_cons_self)).1
      (hc'.waiting (c.count + 1) mem_cons_self).1
    have hd' : Done _ (c.count :: (c.count + 1) :: todo) := hd.reorder (by
      simp only [mem_cons, createNewCodeBlockAtEnd]
      tauto)
    refine (hd'.exitBlock ?_).exitBlock (h'.not_mem_todo (Nat.le_succ _))
    simp only [mem_cons, not_or]
    exact ⟨Nat.ne_of_lt (Nat.lt_succ_self _), hfresh⟩

theorem Open.jumpOp (h : Open b todo) (n : Nat) (target : RIP) : Done (b.jumpOp n target) todo := by
  have h' : Open { b.calculateDeferredFlags.emitOps n with blockSetRIP := true } todo :=
    (h.calculateDeferredFlags.emitOps n).flags true _ _
  unfold Builder.jumpOp
  dsimp only
  split
  · split
    · rename_i t ht
      exact h'.closeJump (findJumpTarget_linked h'.toLinked ht)
    · have hc := h'.createAfter h'.current
      exact (hc.closeJump (hc.waiting _ mem_cons_self).1).exitBlock (h'.not_mem_todo (Nat.le_refl _))
  · exact (h'.emitOps 3).close rfl (by intro t ht; cases ht)

/-! ## Handlers that leave a block open -/

theorem Open.intOp (h : Open b todo) (n : Nat) : Open (b.intOp n) todo ∧ (b.intOp n).EndsIn .brk :=
  have hops := h.calculateDeferredFlags.emitOps n
  ⟨(hops.emit rfl).flags true _ _, hops.endsIn_emit .brk⟩

theorem EndsIn.create (h : b.EndsIn o) (k : BlockId) : (b.createNewCodeBlockAfter k).EndsIn o := h

theorem Open.unimplementedOp (h : Open b todo) (n : Nat) :
    Open (b.unimplementedOp n) todo ∧ (b.multiblock = false → (b.unimplementedOp n).EndsIn .brk) := by
  obtain ⟨hopen, hbrk⟩ := h.intOp n
  have he : b.unimplementedOp n = if (b.intOp n).multiblock then
      ((b.intOp n).createNewCodeBlockAfter (b.intOp n).current).setCurrentCodeBlock (b.intOp n).count
      else b.intOp n := rfl
  have hm : (b.intOp n).multiblock = b.multiblock := (emitOps_multiblock n).trans (emitOps_multiblock _)
  rw [he, hm]
  split
  · rename_i hmulti
    refine ⟨?_, fun hf => by rw [hf] at hmulti; cases hmulti⟩
    have hc := hopen.createAfter hopen.current
    exact (hc.done (hbrk.create _)).enter (hopen.not_mem_todo (Nat.le_refl _))
  · exact ⟨hopen, fun _ => hbrk⟩

theorem Open.create_two (h : Open b todo) :
    Open ((b.createNewCodeBlockAfter b.current).createNewCodeBlockAfter b.count) ((b.count + 1) :: b.count :: todo) := by
  have hc := h.createAfter h.current
  exact hc.createAfter (hc.waiting _ mem_cons_self).1

theorem Linked.two_fresh (h : Linked b todo) : b.count ∉ (b.count + 1) :: todo := by
  simp only [mem_cons, not_or]
  exact ⟨Nat.ne_of_lt (Nat.lt_succ_self _), h.not_mem_todo (Nat.le_refl _)⟩

theorem Open.intoOp (h : Open b todo) (n m : Nat) : Open (b.intoOp n m) todo := by
  unfold Builder.intoOp
  dsimp only
  rw [← emitOps_count n, ← emitOps_current n]
  have h' := h.calculateDeferredFlags.emitOps n
  generalize b.calculateDeferredFlags.emitOps n = c at h'
  have hc := h'.create_two
  have hd := hc.closeCondJump (hc.waiting (c.count + 1) mem_cons_self).1
    (hc.waiting c.count (List.mem_cons_of_mem _ mem_cons_self)).1
  have hfalse := ((hd.reorder fun _ => (List.Perm.swap (c.count + 1) c.count todo).mem_iff).enter h'.two_fresh).emitOps m
  exact ((hfalse.emit rfl).done (hfalse.endsIn_emit .brk)).enter (h'.not_mem_todo (Nat.le_succ _))

theorem Open.skipOp (h : Open b todo) (n m : Nat) : Open (b.skipOp n m) todo := by
  unfold Builder.skipOp
  rw [← emitOps_count n, ← emitOps_current n]
  have h' := h.emitOps n
  generalize b.emitOps n = c at h'
  have hc := h'.create_two
  have hnext := (hc.waiting (c.count + 1) mem_cons_self).1
  have hd := hc.closeCondJump hnext (hc.waiting c.count (List.mem_cons_of_mem _ mem_cons_self)).1
  have hbody := ((hd.reorder fun _ => (List.Perm.swap (c.count + 1) c.count todo).mem_iff).enter h'.two_fresh).emitOps m
  refine (hbody.closeJump ?_).enter (h'.not_mem_todo (Nat.le_succ _))
  rw [emitOps_blocks]
  exact hnext

theorem Open.maskmovOp (h : Open b todo) (bytes : List (Nat × Nat)) : Open (b.maskmovOp bytes) todo := by
  induction bytes generalizing b with
  | nil => exact h
  | cons nm bytes ih => exact ih (h.skipOp nm.1 nm.2)

theorem Open.repOp (h : Open b todo) (n m k : Nat) {close : (head loopEnd : BlockId) → IROp}
    (hexit : ∀ head loopEnd, (close head loopEnd).isBlockExit = true)
    (htargets : ∀ head loopEnd, ∀ t ∈ (close head loopEnd).targets, t = head ∨ t = loopEnd) :
    Open (b.repOp n m k close) todo := by
  unfold Builder.repOp
  dsimp only
  replace h := h.calculateDeferredFlags
  generalize b.calculateDeferredFlags = b at h
  have h2 := h.create_two
  have h3 := h2.createAfter (k := b.count + 1) (h2.waiting _ mem_cons_self).1
  have hhead := (h3.waiting b.count (by simp)).1
  have htail := (h3.waiting (b.count + 1) (by simp)).1
  have hend := (h3.waiting (b.count + 2) mem_cons_self).1
  have hjump := (h3.emitOps n).closeJump (t := b.count) (by rwa [emitOps_blocks])
  have hjump' : Done _ (b.count :: (b.count + 1) :: (b.count + 2) :: todo) := hjump.reorder (by
    simp only [mem_cons, createNewCodeBlockAfter]
    tauto)
  have hin : Open _ ((b.count + 1) :: (b.count + 2) :: todo) := hjump'.enter (by
    simp only [mem_cons, not_or]
    exact ⟨Nat.ne_of_lt (Nat.lt_succ_self _), Nat.ne_of_lt (by simp), h.not_mem_todo (Nat.le_refl _)⟩)
  have hcond := (hin.emitOps m).closeCondJump (t := b.count + 2) (f := b.count + 1)
    (by simpa using hend) (by simpa using htail)
  have htl : Open _ ((b.count + 2) :: todo) := hcond.enter (by
    simp only [mem_cons, not_or]
    exact ⟨Nat.ne_of_lt (Nat.lt_succ_self _), h.not_mem_todo (Nat.le_succ _)⟩)
  have hclose := (htl.emitOps k).close (hexit b.count (b.count + 2)) (by
    intro t ht
    rcases htargets _ _ t ht with rfl | rfl
    · simpa using hhead
    · simpa using hend)
  exact hclose.enter (h.not_mem_todo (Nat.le_add_right _ 2))

theorem Open.repAlways (h : Open b todo) (n m k : Nat) : Open (b.repAlways n m k) todo :=
  h.repOp n m k (fun _ _ => rfl) (fun _ _ _ ht => .inl (mem_singleton.1 ht))

theorem Open.repWhile (h : Open b todo) (n m k : Nat) : Open (b.repWhile n m k) todo :=
  h.repOp n m k (fun _ _ => rfl) (fun _ _ t ht => by simpa [IROp.targets] using ht)

/-! ## Everything but the blocks -/

/-- The members that have no part in the shape of the blocks. -/
structure Rest where
  jumpTargets : List JumpTargetInfo
  multiblock : Bool
  decodeFailure : Bool
  blockSetRIP : Bool
  deferredFlags : Option Nat

def rest (b : Builder) : Rest := ⟨b.jumpTargets, b.multiblock, b.decodeFailure, b.blockSetRIP, b.deferredFlags⟩

@[simp] theorem rest_emit (o : IROp) : (b.emit o).rest = b.rest := rfl
@[simp] theorem rest_setCurrentCodeBlock (k : BlockId) : (b.setCurrentCodeBlock k).rest = b.rest := rfl
@[simp] theorem rest_createAfter (k : BlockId) : (b.createNewCodeBlockAfter k).rest = b.rest := rfl
@[simp] theorem rest_createAtEnd : b.createNewCodeBlockAtEnd.rest = b.rest := rfl
@[simp] theorem rest_emitAll (os : List IROp) : (b.emitAll os).rest = b.rest := by rw [emitAll_frame]; rfl
@[simp] theorem rest_emitOps (n : Nat) : (b.emitOps n).rest = b.rest := rest_emitAll _
@[simp] theorem rest_exitBlock (k : BlockId) : (b.exitBlock k).rest = b.rest := by simp [exitBlock]

/-- What is deferred behind a step. -/
def deferred (flags : Option Nat) : Step → Option Nat
  | .op | .brk => flags
  | .calculateDeferredFlags | .invalidateDeferredFlags => none
  | .generateFlags n => some n

theorem rest_withDeferred {c : Builder} (h : c.rest = b.rest) (flags : Option Nat) :
    rest { c with deferredFlags := flags } = { b.rest with deferredFlags := flags } := by
  rw [← h]
  rfl

@[simp] theorem rest_calculateDeferredFlags : b.calculateDeferredFlags.rest = { b.rest with deferredFlags := none } :=
  rest_withDeferred (rest_emitOps _) none

theorem rest_steps (ss : List Step) :
    (b.steps ss).rest = { b.rest with deferredFlags := ss.foldl deferred b.deferredFlags } := by
  induction ss generalizing b with
  | nil => rfl
  | cons s ss ih =>
    have hstep : (b.step s).rest = { b.rest with deferredFlags := deferred b.deferredFlags s } := by
      cases s with
      | calculateDeferredFlags => exact rest_calculateDeferredFlags
      | _ => rfl
    have hflags : (b.step s).deferredFlags = deferred b.deferredFlags s := congrArg (·.deferredFlags) hstep
    show ((b.step s).steps ss).rest = _
    rw [ih, hstep, hflags]
    rfl

theorem rest_setRIP {c : Builder} {r : Rest} (h : c.rest = r) :
    rest { c with blockSetRIP := true } = { r with blockSetRIP := true } := by
  rw [← h]
  rfl

/-- Behind a handler that calculates the deferred flags and writes RIP. -/
def Rest.left (r : Rest) : Rest := { r with blockSetRIP := true, deferredFlags := none }

theorem rest_leave (n : Nat) : rest { b.calculateDeferredFlags.emitOps n with blockSetRIP := true } = b.rest.left :=
  rest_setRIP ((rest_emitOps n).trans rest_calculateDeferredFlags)

theorem rest_intOp (n : Nat) : (b.intOp n).rest = b.rest.left := rest_leave n

theorem rest_exitOp (ss : List Step) : (b.exitOp ss).rest =
    { b.rest with blockSetRIP := true, deferredFlags := ss.foldl deferred b.deferredFlags } :=
  rest_setRIP ((rest_emit _).trans (rest_steps ss))

theorem rest_condJUMPOp (n : Nat) (afterTaken : Bool) (target next : RIP) :
    (b.condJUMPOp n afterTaken target next).rest = b.rest.left := by
  have hc := rest_leave (b := b) n
  unfold condJUMPOp
  dsimp only
  split <;> simpa using hc

theorem rest_jumpOp (n : Nat) (target : RIP) : (b.jumpOp n target).rest = b.rest.left := by
  have hc := rest_leave (b := b) n
  unfold jumpOp
  dsimp only
  split
  · split <;> simpa using hc
  · simpa using hc

theorem rest_unimplementedOp (n : Nat) : (b.unimplementedOp n).rest = b.rest.left := by
  have hc := rest_intOp (b := b) n
  unfold intOp at hc
  unfold unimplementedOp
  dsimp only
  split <;> simpa using hc

theorem rest_intoOp (n m : Nat) : (b.intoOp n m).rest = { b.rest with deferredFlags := none } := by simp [intoOp]
theorem rest_skipOp (n m : Nat) : (b.skipOp n m).rest = b.rest := by simp [skipOp]
theorem rest_repOp (n m k : Nat) (close : (head loopEnd : BlockId) → IROp) :
    (b.repOp n m k close).rest = { b.rest with deferredFlags := none } := by simp [repOp]

theorem rest_maskmovOp (bytes : List (Nat × Nat)) : (b.maskmovOp bytes).rest = b.rest := by
  induction bytes generalizing b with
  | nil => rfl
  | cons nm bytes ih => exact ih.trans (rest_skipOp nm.1 nm.2)

end Builder

/-! ## Handlers -/

namespace Handler

/-- The handlers that leave no block open. -/
def closes : Handler → Bool
  | exit _ | condJump _ _ _ | jump _ _ => true
  | _ => false

/-- The handlers that set `BlockSetRIP`. -/
def setsRIP : Handler → Bool
  | exit _ | condJump _ _ _ | jump _ _ | int _ | unimplemented _ => true
  | _ => false

def fails : Handler → Bool
  | failing _ => true
  | _ => false

def isUnimplemented : Handler → Bool
  | unimplemented _ => true
  | _ => false

/-- The flags that are deferred behind a handler. -/
def deferred (flags : Option Nat) : Handler → Option Nat
  | straight steps | failing steps | exit steps => steps.foldl Builder.deferred flags
  | skip calculates _ => if calculates then none else flags
  | _ => none

variable {h : Handler} {next : RIP} {b : Builder} {todo : List BlockId}

theorem invoke_rest (h : Handler) (next : RIP) (b : Builder) : (h.invoke next b).rest =
    ⟨b.jumpTargets, b.multiblock, b.decodeFailure || h.fails, b.blockSetRIP || h.setsRIP, h.deferred b.deferredFlags⟩ := by
  have hkeep : ∀ flags, (⟨b.jumpTargets, b.multiblock, b.decodeFailure || false, b.blockSetRIP || false, flags⟩ :
      Builder.Rest) = { b.rest with deferredFlags := flags } := by
    intro flags
    rw [Bool.or_false, Bool.or_false]
    rfl
  have hset : ∀ flags, (⟨b.jumpTargets, b.multiblock, b.decodeFailure || false, b.blockSetRIP || true, flags⟩ :
      Builder.Rest) = { b.rest with blockSetRIP := true, deferredFlags := flags } := by
    intro flags
    rw [Bool.or_false, Bool.or_true]
    rfl
  cases h with
  | straight steps => exact (Builder.rest_steps steps).trans (hkeep _).symm
  | failing steps =>
    show ({ (b.steps steps).rest with decodeFailure := true } : Builder.Rest) = _
    rw [Builder.rest_steps]
    simp [Builder.rest, fails, setsRIP, deferred]
  | exit steps => exact (Builder.rest_exitOp steps).trans (hset _).symm
  | condJump n afterTaken target => exact (Builder.rest_condJUMPOp n afterTaken target next).trans (hset none).symm
  | jump n target => exact (Builder.rest_jumpOp n target).trans (hset none).symm
  | int n => exact (Builder.rest_intOp n).trans (hset none).symm
  | unimplemented n => exact (Builder.rest_unimplementedOp n).trans (hset none).symm
  | into n m => exact (Builder.rest_intoOp n m).trans (hkeep none).symm
  | skip calculates bytes =>
    cases calculates with
    | true => exact ((Builder.rest_maskmovOp bytes).trans Builder.rest_calculateDeferredFlags).trans (hkeep none).symm
    | false => exact (Builder.rest_maskmovOp bytes).trans (hkeep b.deferredFlags).symm
  | repAlways n m k => exact (Builder.rest_repOp n m k _).trans (hkeep none).symm
  | repWhile n m k => exact (Builder.rest_repOp n m k _).trans (hkeep none).symm

theorem deferred_of_setsRIP (hset : h.setsRIP = true) (hc : h.closes = false) (flags : Option Nat) :
    h.deferred flags = none := by
  cases h with
  | int n => rfl
  | unimplemented n => rfl
  | exit steps => cases hc
  | condJump n afterTaken target => cases hc
  | jump n target => cases hc
  | _ => cases hset

theorem invoke_done (hb : b.Open todo) (hc : h.closes = true) : (h.invoke next b).Done todo := by
  cases h with
  | exit steps => exact hb.exitOp steps
  | condJump n afterTaken target => exact hb.condJUMPOp n afterTaken target next
  | jump n target => exact hb.jumpOp n target
  | _ => cases hc

/-- If a handler that leaves its block open sets `BlockSetRIP`, that block has just trapped, but for an unimplemented
instruction in multiblock mode. -/
theorem invoke_open (hb : b.Open todo) (hc : h.closes = false) :
    (h.invoke next b).Open todo ∧ (h.setsRIP = true → (b.multiblock && h.isUnimplemented) = false →
      (h.invoke next b).EndsIn .brk) := by
  cases h with
  | straight steps => exact ⟨hb.steps steps, fun hs => by cases hs⟩
  | failing steps => exact ⟨(hb.steps steps).flags _ true _, fun hs => by cases hs⟩
  | exit steps => cases hc
  | condJump n afterTaken target => cases hc
  | jump n target => cases hc
  | int n => exact ⟨(hb.intOp n).1, fun _ _ => (hb.intOp n).2⟩
  | unimplemented n =>
    refine ⟨(hb.unimplementedOp n).1, fun _ hm => (hb.unimplementedOp n).2 ?_⟩
    simpa [isUnimplemented] using hm
  | into n m => exact ⟨hb.intoOp n m, fun hs => by cases hs⟩
  | skip calculates bytes =>
    refine ⟨?_, fun hs => by cases hs⟩
    cases calculates with
    | true => exact hb.calculateDeferredFlags.maskmovOp bytes
    | false => exact hb.maskmovOp bytes
  | repAlways n m k => exact ⟨hb.repAlways n m k, fun hs => by cases hs⟩
  | repWhile n m k => exact ⟨hb.repWhile n m k, fun hs => by cases hs⟩

end Handler

end FexEmu.OpcodeDispatcher
