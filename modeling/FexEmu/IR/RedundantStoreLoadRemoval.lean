import FexEmu.IR.RedundantStoreLoad
/-!
# Removing a store after the fact

A store is taken out of ops that the pass has already gone through. They differ then in its bytes and in unused nodes, if the
ops behind it read neither.
-/
namespace FexEmu.IR.RCLSE

variable (sys : SyscallHandler) (inline : InlineHandler)

/-- `t` differs from `s` in the bytes from `lo` to `hi` and in dead nodes only. -/
structure Agree (dead : NodeID → Prop) (lo hi : Nat) (s t : State) : Prop where
  events : t.events = s.events
  ctx : ∀ a, ¬ (lo ≤ a ∧ a < hi) → t.ctx a = s.ctx a
  ssa : ∀ i, ¬ dead i → t.ssa i = s.ssa i

/-- The op writes bytes from `lo` to `hi` and does nothing else. -/
def OnlyWrites (lo hi : Nat) (n : Node) : Prop :=
  match n.op with
  | .storeContext _ size offset _ => lo ≤ offset ∧ offset + size ≤ hi
  | .storeFlag flag _ => lo ≤ flagsOffset + flag ∧ flagsOffset + flag + 1 ≤ hi
  | .invalidateFlags _ => True
  | _ => False

/-- The op uses no dead node, and reads the bytes only if it is dead itself. -/
def Quiet (dead : NodeID → Prop) (lo hi : Nat) (n : Node) : Prop :=
  (∀ a ∈ n.op.args, ¬ dead a) ∧
  match n.op with
  | .loadContext _ size offset => dead n.id ∨ offset + size ≤ lo ∨ hi ≤ offset
  | .loadFlag flag => dead n.id ∨ flagsOffset + flag + 1 ≤ lo ∨ hi ≤ flagsOffset + flag
  | .syscall false _ | .loadContextIndexed _ _ _ _ => False
  | _ => True

/-- The op `st` of `ns` can be taken out. -/
structure Removable (dead : NodeID → Prop) (ns : List Node) (st : NodeID) (lo hi : Nat) : Prop where
  writes : ∀ n ∈ ns, n.id = st → OnlyWrites lo hi n
  quiet : ns.Pairwise (fun n m => n.id = st → Quiet dead lo hi m)

variable {dead : NodeID → Prop} {lo hi : Nat} {s t : State}

theorem Agree.refl (s : State) : Agree dead lo hi s s := ⟨rfl, fun _ _ => rfl, fun _ _ => rfl⟩

theorem Agree.set (h : Agree dead lo hi s t) (i : NodeID) {v v' : Value} (hv : dead i ∨ v' = v) :
    Agree dead lo hi (s.set i v) (t.set i v') where
  events := h.events
  ctx := h.ctx
  ssa := by
    intro j hj
    unfold State.set
    by_cases hji : j = i
    · subst hji
      rw [hv.resolve_left hj]
      simp
    · simp only [Function.update_of_ne hji]
      exact h.ssa j hj

theorem Agree.map_args (h : Agree dead lo hi s t) {as : List NodeID} (ha : ∀ a ∈ as, ¬ dead a) :
    as.map t.ssa = as.map s.ssa := List.map_congr_left (fun a hm => h.ssa a (ha a hm))

theorem Agree.store (h : Agree dead lo hi s t) (offset size : Nat) (v : Value) (inv inv' : Nat → Bool) :
    Agree dead lo hi { s with ctx := storeBytes s.ctx offset size v, invalid := inv }
      { t with ctx := storeBytes t.ctx offset size v, invalid := inv' } where
  events := h.events
  ctx := by
    intro a ha
    by_cases hm : offset ≤ a ∧ a < offset + size
    · dsimp only
      rw [storeBytes_of_mem hm, storeBytes_of_mem hm]
    · dsimp only
      rw [storeBytes_of_not_mem hm, storeBytes_of_not_mem hm]
      exact h.ctx a ha
  ssa := h.ssa

theorem Agree.load (h : Agree dead lo hi s t) {offset size : Nat} (hd : offset + size ≤ lo ∨ hi ≤ offset) :
    loadBytes t.ctx offset size = loadBytes s.ctx offset size :=
  loadBytes_congr (fun a h1 h2 => h.ctx a (by omega))

variable {n : Node} {ns : List Node} {st : NodeID}

theorem Agree.exec (h : Agree dead lo hi s t) (hq : Quiet dead lo hi n) :
    Agree dead lo hi (exec sys inline s n) (exec sys inline t n) := by
  obtain ⟨i, op⟩ := n
  obtain ⟨hargs, hq⟩ := hq
  cases op with
  | storeContext cls size offset v =>
    have hv : t.ssa v = s.ssa v := h.ssa v (hargs v (List.mem_singleton.2 rfl))
    simp only [RCLSE.exec]
    rw [hv]
    exact h.store offset size (s.ssa v) _ _
  | loadContext cls size offset => exact h.set i (hq.imp id h.load)
  | storeFlag flag v =>
    have hv : t.ssa v = s.ssa v := h.ssa v (hargs v (List.mem_singleton.2 rfl))
    simp only [RCLSE.exec]
    rw [hv]
    exact h.store (flagsOffset + flag) 1 (s.ssa v) _ _
  | loadFlag flag => exact h.set i (hq.imp id h.load)
  | invalidateFlags flags => exact ⟨h.events, h.ctx, h.ssa⟩
  | syscall through as =>
    cases through with
    | false => exact hq.elim
    | true =>
      have hm := h.map_args hargs
      simp only [RCLSE.exec]
      rw [show as.map t.ssa = as.map s.ssa from hm]
      have hset := h.set i (v := inline (as.map s.ssa)) (.inr rfl)
      exact ⟨by dsimp only; rw [h.events], hset.ctx, hset.ssa⟩
  | storeContextIndexed size base stride j v =>
    have hj : t.ssa j = s.ssa j := h.ssa j (hargs j (by simp [Op.args]))
    have hv : t.ssa v = s.ssa v := h.ssa v (hargs v (by simp [Op.args]))
    simp only [RCLSE.exec]
    rw [hj, hv]
    exact h.store (base + s.ssa j * stride) size (s.ssa v) s.invalid t.invalid
  | loadContextIndexed size base stride j => exact hq.elim
  | brk => exact ⟨by simp only [RCLSE.exec]; rw [h.events], h.ctx, h.ssa⟩
  | value f as =>
    have hm := h.map_args hargs
    simp only [RCLSE.exec]
    rw [show as.map t.ssa = as.map s.ssa from hm]
    have hset := h.set i (v := f (as.map s.ssa)) (.inr rfl)
    exact ⟨by dsimp only; rw [h.events], hset.ctx, hset.ssa⟩
  | constant v => exact h.set i (.inr rfl)
  | bfe width src =>
    have hv : t.ssa src = s.ssa src := h.ssa src (hargs src (List.mem_singleton.2 rfl))
    exact h.set i (.inr (by rw [hv]))
  | vmov size src =>
    have hv : t.ssa src = s.ssa src := h.ssa src (hargs src (List.mem_singleton.2 rfl))
    exact h.set i (.inr (by rw [hv]))

theorem Agree.skip (h : Agree dead lo hi s t) (hw : OnlyWrites lo hi n) :
    Agree dead lo hi (RCLSE.exec sys inline s n) t := by
  obtain ⟨i, op⟩ := n
  cases op with
  | storeContext cls size offset v =>
    obtain ⟨h1, h2⟩ := hw
    refine ⟨h.events, fun a ha => ?_, h.ssa⟩
    rw [h.ctx a ha]
    exact (storeBytes_of_not_mem (by omega)).symm
  | storeFlag flag v =>
    obtain ⟨h1, h2⟩ := hw
    refine ⟨h.events, fun a ha => ?_, h.ssa⟩
    rw [h.ctx a ha]
    exact (storeBytes_of_not_mem (by omega)).symm
  | invalidateFlags flags => exact ⟨h.events, h.ctx, h.ssa⟩
  | _ => exact hw.elim

theorem Agree.run (h : Agree dead lo hi s t) (hq : ∀ n ∈ ns, Quiet dead lo hi n)
    (hw : ∀ n ∈ ns, n.id = st → OnlyWrites lo hi n) :
    Agree dead lo hi (run sys inline s ns) (run sys inline t (ns.filter (fun n => n.id ≠ st))) := by
  induction ns generalizing s t with
  | nil => exact h
  | cons n ns ih =>
    have hq' : ∀ m ∈ ns, Quiet dead lo hi m := fun m hm => hq m (List.mem_cons_of_mem _ hm)
    have hw' : ∀ m ∈ ns, m.id = st → OnlyWrites lo hi m := fun m hm => hw m (List.mem_cons_of_mem _ hm)
    by_cases hn : n.id = st
    · rw [List.filter_cons_of_neg (by simpa using hn)]
      exact ih (h.skip sys inline (hw n List.mem_cons_self hn)) hq' hw'
    · rw [List.filter_cons_of_pos (by simpa using hn)]
      exact ih (h.exec sys inline (hq n List.mem_cons_self)) hq' hw'

theorem Removable.run (h : Removable dead ns st lo hi) (s : State) :
    Agree dead lo hi (run sys inline s ns) (run sys inline s (ns.filter (fun n => n.id ≠ st))) := by
  induction ns generalizing s with
  | nil => exact Agree.refl s
  | cons n ns ih =>
    obtain ⟨hq, hqs⟩ := List.pairwise_cons.1 h.quiet
    have hw' : ∀ m ∈ ns, m.id = st → OnlyWrites lo hi m := fun m hm => h.writes m (List.mem_cons_of_mem _ hm)
    by_cases hn : n.id = st
    · rw [List.filter_cons_of_neg (by simpa using hn)]
      exact ((Agree.refl s).skip sys inline (h.writes n List.mem_cons_self hn)).run sys inline
        (fun m hm => hq m hm hn) hw'
    · rw [List.filter_cons_of_pos (by simpa using hn)]
      exact ih ⟨hw', hqs⟩ _

/-! ## Keeping a store removable -/

theorem Quiet.mono {dead' : NodeID → Prop} (h : Quiet dead lo hi n) (hd : ∀ i, dead i → dead' i)
    (hargs : ∀ a ∈ n.op.args, ¬ dead' a) : Quiet dead' lo hi n := by
  obtain ⟨i, op⟩ := n
  refine ⟨hargs, ?_⟩
  cases op with
  | loadContext cls size offset => exact h.2.imp (hd i) id
  | loadFlag flag => exact h.2.imp (hd i) id
  | syscall through as => cases through <;> first | exact trivial | exact h.2.elim
  | loadContextIndexed size base stride j => exact h.2.elim
  | _ => trivial

theorem Removable.filter (h : Removable dead ns st lo hi) (f : Node → Bool) : Removable dead (ns.filter f) st lo hi :=
  ⟨fun n hn => h.writes n (List.mem_of_mem_filter hn), h.quiet.filter f⟩

theorem Removable.push (h : Removable dead ns st lo hi)
    (hn : n.id ≠ st) (hq : Quiet dead lo hi n) : Removable dead (ns ++ [n]) st lo hi where
  writes := by
    intro m hm
    rcases List.mem_append.1 hm with hm | hm
    · exact h.writes m hm
    · rw [List.mem_singleton.1 hm]
      exact fun he => absurd he hn
  quiet := by
    rw [List.pairwise_append]
    refine ⟨h.quiet, List.pairwise_singleton _ _, ?_⟩
    intro m _ m' hm' _
    rw [List.mem_singleton.1 hm']
    exact hq

theorem Removable.mono {dead' : NodeID → Prop} (h : Removable dead ns st lo hi)
    (hd : ∀ i, dead i → dead' i) (hargs : ∀ n ∈ ns, ∀ a ∈ n.op.args, ¬ dead' a) :
    Removable dead' ns st lo hi where
  writes := h.writes
  quiet := h.quiet.imp_of_mem (fun _ hm hq he => (hq he).mono hd (hargs _ hm))

theorem removable_self (hns : ∀ m ∈ ns, m.id ≠ n.id) (hw : OnlyWrites lo hi n) :
    Removable dead (ns ++ [n]) n.id lo hi where
  writes := by
    intro m hm he
    rcases List.mem_append.1 hm with hm | hm
    · exact absurd he (hns m hm)
    · rw [List.mem_singleton.1 hm]
      exact hw
  quiet := by
    rw [List.pairwise_append]
    refine ⟨?_, List.pairwise_singleton _ _, fun m hm _ _ he => absurd he (hns m hm)⟩
    exact List.Pairwise.imp_of_mem (fun hm _ _ he => absurd he (hns _ hm))
      (List.pairwise_of_forall (R := fun _ _ => True) (fun _ _ => trivial))

end FexEmu.IR.RCLSE
