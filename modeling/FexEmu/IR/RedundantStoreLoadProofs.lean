import FexEmu.IR.RedundantStoreLoadSim
/-!
# The pass preserves the block

One lemma for each kind of op the pass visits, put together from the moves of `RedundantStoreLoadSim`.
-/
namespace FexEmu.IR.RCLSE

open Function (update_of_ne update_self)
open List (mem_cons_self)

variable {avx : Bool} {sys : SyscallHandler} {inline : InlineHandler} {type : NodeID → NodeType} {bound : NodeID}
  {p : Pass} {rest : List Node} {n : Node} {s s₀ : State} {hole : Nat → Prop}

/-- The contexts agree but for invalid flags. -/
def NoHole : Nat → Prop := fun _ => False

/-- The block so far and its rewriting run side by side. -/
abbrev Runs (avx : Bool) (sys : SyscallHandler) (inline : InlineHandler) (type : NodeID → NodeType) (bound : NodeID)
    (limbo : Option NodeID) (p : Pass) (rest : List Node) (s s₀ : State) : Prop :=
  Sim avx type bound NoHole limbo p rest s (run sys inline s₀ p.done)

theorem args_mapArgs (f : NodeID → NodeID) (op : Op) : (op.mapArgs f).args = op.args.map f := by
  cases op <;> rfl

/-- The arguments of the visited op are nodes of before. -/
def ArgsBefore (bound : NodeID) (rest : List Node) (n : Node) : Prop :=
  ∀ a ∈ n.op.args, a < bound ∧ ∀ m ∈ n :: rest, m.id ≠ a

theorem Numbers.arg (h : Numbers type bound p none (n :: rest)) (ha : ArgsBefore bound rest n) {a : NodeID}
    (hm : a ∈ n.op.args) : Live p none (n :: rest) (p.subst a) := h.past a (ha a hm).1 (ha a hm).2 (by simp)

theorem Numbers.args_live (h : Numbers type bound p none (n :: rest)) (ha : ArgsBefore bound rest n) :
    ∀ a ∈ (n.op.mapArgs p.subst).args, Live p none (n :: rest) a := by
  rw [args_mapArgs]
  intro a hm
  obtain ⟨b, hb, rfl⟩ := List.mem_map.1 hm
  exact h.arg ha hb

theorem Sim.map_args {t : State} (h : Sim avx type bound hole none p (n :: rest) s t) {as : List NodeID}
    (ha : ∀ a ∈ as, a < bound) : (as.map p.subst).map t.ssa = as.map s.ssa := by
  rw [List.map_map]
  exact List.map_congr_left (fun a hm => h.ssa a (ha a hm) (by simp))

/-! ## Ops that leave the context alone -/

/-- The op does not read the context. -/
def Op.readsNothing : Op → Bool
  | .loadContext .. | .loadFlag _ | .syscall false _ | .loadContextIndexed .. => false
  | _ => true

theorem quiet_of_args {dead : NodeID → Prop} {i : NodeID} {op : Op} (lo hi : Nat) (hop : op.readsNothing = true)
    (hargs : ∀ a ∈ op.args, ¬ dead a) : Quiet dead lo hi ⟨i, op⟩ := by
  refine ⟨hargs, ?_⟩
  cases op with
  | syscall through as => cases through <;> trivial
  | _ => trivial

theorem LimboOf.none (n : Node) : LimboOf n .none := .inl rfl

theorem Sim.records_push (h : Runs avx sys inline type bound none p (n :: rest) s s₀) (op : Op)
    (hlive : ∀ a ∈ op.args, Live p none (n :: rest) a) (hop : op.readsNothing = true)
    (hctx : (exec sys inline s n).ctx = s.ctx)
    (hinv : ∀ k, ¬ InvalidByte (exec sys inline s n).invalid k → ¬ InvalidByte s.invalid k) (k : Nat) :
    RecordOk avx (p.push ⟨n.id, op⟩) none rest (exec sys inline s n).invalid (exec sys inline s n).ctx
      (exec sys inline (run sys inline s₀ p.done) ⟨n.id, op⟩).ssa k (p.info k) :=
  (h.records k).push sys inline h.numbers (LimboOf.none _) (hinv k) (fun _ _ _ _ => by rw [hctx])
    (fun _ _ => quiet_of_args _ _ hop (fun a hm => (hlive a hm).alive))
    (fun _ => quiet_of_args _ _ hop (fun a hm => (hlive a hm).alive))

/-- The state after an op that computes `f` of `as`. -/
def State.compute (u : State) (i : NodeID) (f : List Value → Value) (as : List NodeID) : State :=
  { u.set i (f (as.map u.ssa)) with events := u.events ++ [(i, as.map u.ssa)] }

/-- An op that computes, syscalls that are optimised through included. -/
theorem Sim.compute {f : List Value → Value}
    (h : Runs avx sys inline type bound none p (n :: rest) s s₀)
    (hids : ∀ m ∈ rest, m.id ≠ n.id) (ha : ArgsBefore bound rest n) (hok : OpOk avx sys inline type s n)
    (hop : (n.op.mapArgs p.subst).readsNothing = true) (hdest : n.op.hasDest = true)
    (hexec : ∀ (u : State) (g : NodeID → NodeID),
      exec sys inline u ⟨n.id, n.op.mapArgs g⟩ = u.compute n.id f (n.op.args.map g)) :
    Runs avx sys inline type bound none (p.push ⟨n.id, n.op.mapArgs p.subst⟩) rest (exec sys inline s n) s₀ := by
  have hmap := h.map_args (fun a hm => (ha a hm).1)
  have hs : exec sys inline s n = s.compute n.id f n.op.args := by
    have hid : n.op.mapArgs id = n.op := by cases n.op <;> simp [Op.mapArgs]
    have := hexec s id
    rwa [hid, List.map_id] at this
  have hrun : run sys inline s₀ (p.push ⟨n.id, n.op.mapArgs p.subst⟩).done =
      (run sys inline s₀ p.done).compute n.id f (n.op.args.map p.subst) := by
    rw [← hexec]
    exact run_push ..
  have hpush := h.push sys inline NoHole p.info (LimboOf.none _) hids (h.numbers.args_live ha)
  rw [hexec, hs] at hpush
  unfold Runs
  rw [hrun, hs]
  refine hpush ?_ h.ctx ?_ ?_ ?_
  · simp [State.compute, h.events, hmap]
  · intro _
    simp [State.compute, State.set, hmap]
  · intro _ hc
    rw [← hs]
    exact hok.1 hdest hc
  · intro k
    have hk := h.records_push _ (h.numbers.args_live ha) hop (by rw [hs]; rfl) (fun j => by rw [hs]; exact id) k
    rwa [hexec, hs] at hk

/-! ## Ops the pass does not track through -/

theorem recordOk_reset {limbo : Option NodeID} {inv : Nat → Bool} {c : Context} {e : NodeID → Value} (k : Nat) :
    RecordOk avx p limbo rest inv c e k (resetInfo avx k) := by
  have hidle : ¬ ((resetInfo avx k).accessed = .write ∨ (resetInfo avx k).accessed = .read) := by
    unfold resetInfo
    split <;> simp
  exact {
    idle := fun _ => rfl
    live := fun ha => absurd ha hidle
    active := fun ha => absurd ha hidle
    store := fun st hs => by cases hs
    flagStore := fun st hs => by cases hs
    lastStore := fun st hs => by cases hs }

theorem Sim.untracked (h : Runs avx sys inline type bound none p (n :: rest) s s₀)
    (hids : ∀ m ∈ rest, m.id ≠ n.id) (ha : ArgsBefore bound rest n)
    (hev : (exec sys inline (run sys inline s₀ p.done) ⟨n.id, n.op.mapArgs p.subst⟩).events = (exec sys inline s n).events)
    (hctx : ∀ a, ¬ InvalidByte (exec sys inline s n).invalid a →
      (exec sys inline (run sys inline s₀ p.done) ⟨n.id, n.op.mapArgs p.subst⟩).ctx a = (exec sys inline s n).ctx a)
    (hval : (exec sys inline (run sys inline s₀ p.done) ⟨n.id, n.op.mapArgs p.subst⟩).ssa n.id =
      (exec sys inline s n).ssa n.id)
    (hsmall : (type n.id).cls = .gpr → (exec sys inline s n).ssa n.id < 256 ^ (type n.id).size) :
    Runs avx sys inline type bound none ((p.reset avx).push ⟨n.id, n.op.mapArgs p.subst⟩) rest (exec sys inline s n) s₀ := by
  have hrun : run sys inline s₀ ((p.reset avx).push ⟨n.id, n.op.mapArgs p.subst⟩).done =
      exec sys inline (run sys inline s₀ p.done) ⟨n.id, n.op.mapArgs p.subst⟩ := run_push ..
  unfold Runs
  rw [hrun]
  exact h.push sys inline NoHole (resetInfo avx) (LimboOf.none _) hids (h.numbers.args_live ha) hev
    (fun a hv _ => hctx a hv) (fun _ => hval) (fun _ => hsmall) recordOk_reset

theorem Sim.ssa_visited {t : State} (h : Sim avx type bound hole none p (n :: rest) s t) : t.ssa n.id = s.ssa n.id := by
  have hv := h.ssa n.id (h.numbers.bounded n mem_cons_self) (by simp)
  rwa [(h.numbers.future n mem_cons_self).1] at hv

theorem Sim.small_visited {t : State} (h : Sim avx type bound hole none p (n :: rest) s t) (hc : (type n.id).cls = .gpr) :
    s.ssa n.id < 256 ^ (type n.id).size := by
  have hty := h.numbers.typeOf n.id (h.numbers.bounded n mem_cons_self)
  have hdead : ¬ Dead p none n.id := fun hd =>
    hd.elim (fun hs => hs (h.numbers.future n mem_cons_self).1) (by simp)
  have hs := h.small n.id hdead (by rw [hty]; exact hc)
  rwa [hty, h.ssa_visited] at hs

theorem storeBytes_agree {inv : Nat → Bool} {c c' : Context} (h : ∀ a, ¬ InvalidByte inv a → c' a = c a)
    (offset size : Nat) (v : Value) (a : Nat) (ha : ¬ InvalidByte inv a) :
    storeBytes c' offset size v a = storeBytes c offset size v a := by
  by_cases hm : offset ≤ a ∧ a < offset + size
  · rw [storeBytes_of_mem hm, storeBytes_of_mem hm]
  · rw [storeBytes_of_not_mem hm, storeBytes_of_not_mem hm]
    exact h a ha

theorem Sim.syscall {i : NodeID} {as : List NodeID}
    (h : Runs avx sys inline type bound none p (⟨i, .syscall false as⟩ :: rest) s s₀)
    (hids : ∀ m ∈ rest, m.id ≠ i) (ha : ArgsBefore bound rest ⟨i, .syscall false as⟩)
    (hok : OpOk avx sys inline type s ⟨i, .syscall false as⟩) :
    Runs avx sys inline type bound none ((p.reset avx).push ⟨i, .syscall false (as.map p.subst)⟩) rest
      (exec sys inline s ⟨i, .syscall false as⟩) s₀ := by
  have hmap : (as.map p.subst).map (run sys inline s₀ p.done).ssa = as.map s.ssa := h.map_args (fun a hm => (ha a hm).1)
  obtain ⟨hret, hctx⟩ := hok.2 (run sys inline s₀ p.done).ctx (fun a hv => h.ctx a hv (fun hf => hf))
  refine h.untracked hids ha ?_ ?_ ?_ ?_
  · simp [exec, Op.mapArgs, h.events, hmap]
  · intro a hv
    simp only [exec, Op.mapArgs, hmap]
    exact hctx a hv
  · simp only [exec, Op.mapArgs, State.set, hmap, update_self]
    exact hret
  · exact fun hc => hok.1 rfl hc

theorem Sim.storeContextIndexed {i size base stride j v : Nat}
    (h : Runs avx sys inline type bound none p (⟨i, .storeContextIndexed size base stride j v⟩ :: rest) s s₀)
    (hids : ∀ m ∈ rest, m.id ≠ i) (ha : ArgsBefore bound rest ⟨i, .storeContextIndexed size base stride j v⟩) :
    Runs avx sys inline type bound none
      ((p.reset avx).push ⟨i, .storeContextIndexed size base stride (p.subst j) (p.subst v)⟩) rest
      (exec sys inline s ⟨i, .storeContextIndexed size base stride j v⟩) s₀ := by
  have hj : (run sys inline s₀ p.done).ssa (p.subst j) = s.ssa j := h.ssa j (ha j (by simp [Op.args])).1 (by simp)
  have hv : (run sys inline s₀ p.done).ssa (p.subst v) = s.ssa v := h.ssa v (ha v (by simp [Op.args])).1 (by simp)
  refine h.untracked hids ha h.events ?_ h.ssa_visited h.small_visited
  intro a hva
  simp only [exec, Op.mapArgs, hj, hv]
  exact storeBytes_agree (fun b hb => h.ctx b hb (fun hf => hf)) _ _ _ a hva

theorem Sim.loadContextIndexed {i size base stride j : Nat}
    (h : Runs avx sys inline type bound none p (⟨i, .loadContextIndexed size base stride j⟩ :: rest) s s₀)
    (hids : ∀ m ∈ rest, m.id ≠ i) (ha : ArgsBefore bound rest ⟨i, .loadContextIndexed size base stride j⟩)
    (hok : OpOk avx sys inline type s ⟨i, .loadContextIndexed size base stride j⟩) :
    Runs avx sys inline type bound none ((p.reset avx).push ⟨i, .loadContextIndexed size base stride (p.subst j)⟩) rest
      (exec sys inline s ⟨i, .loadContextIndexed size base stride j⟩) s₀ := by
  have hj : (run sys inline s₀ p.done).ssa (p.subst j) = s.ssa j := h.ssa j (ha j (by simp [Op.args])).1 (by simp)
  refine h.untracked hids ha h.events ?_ ?_ (fun hc => hok.1 rfl hc)
  · exact fun a hv => h.ctx a hv (fun hf => hf)
  · simp only [exec, Op.mapArgs, State.set, hj, update_self]
    exact loadBytes_congr (fun a h1 h2 => h.ctx a (hok.2 a h1 h2) (fun hf => hf))

theorem Sim.brk {i : NodeID} (h : Runs avx sys inline type bound none p (⟨i, .brk⟩ :: rest) s s₀)
    (hids : ∀ m ∈ rest, m.id ≠ i) :
    Runs avx sys inline type bound none ((p.reset avx).push ⟨i, .brk⟩) rest (exec sys inline s ⟨i, .brk⟩) s₀ := by
  refine h.untracked hids (fun a hm => by cases hm) ?_ ?_ h.ssa_visited h.small_visited
  · simp [exec, Op.mapArgs, h.events]
  · exact fun a hv => h.ctx a hv (fun hf => hf)

/-! ## Stores -/

/-- The op stores `v` to bytes of the context. -/
inductive IsStore : Op → RegisterClass → (size offset : Nat) → NodeID → Prop
  | context {cls size offset v} : IsStore (.storeContext cls size offset v) cls size offset v
  | flag {flag v} (h : flag < numFlags) : IsStore (.storeFlag flag v) .gpr 1 (flagsOffset + flag) v

def State.store (u : State) (offset size : Nat) (v : NodeID) : State :=
  { u with
    ctx := storeBytes u.ctx offset size (u.ssa v)
    invalid := if isFlagByte offset then Function.update u.invalid (offset - flagsOffset) false else u.invalid }

theorem isFlagByte_flag {flag : Nat} (h : flag < numFlags) : isFlagByte (flagsOffset + flag) = true :=
  isFlagByte_iff.2 ⟨flag, h, rfl⟩

theorem exec_store {op : Op} {cls : RegisterClass} {size offset v : Nat} (h : IsStore op cls size offset v) (u : State)
    (i : NodeID) : exec sys inline u ⟨i, op⟩ = u.store offset size v := by
  cases h with
  | context => rfl
  | flag hf =>
    unfold State.store
    rw [if_pos (isFlagByte_flag hf), Nat.add_sub_cancel_left]
    rfl

theorem onlyWrites_store {op : Op} {cls : RegisterClass} {size offset v : Nat} (h : IsStore op cls size offset v)
    (i : NodeID) {lo hi : Nat} (h1 : lo ≤ offset) (h2 : offset + size ≤ hi) : OnlyWrites lo hi ⟨i, op⟩ := by
  cases h with
  | context => exact ⟨h1, h2⟩
  | flag _ => exact ⟨h1, h2⟩

theorem readsNothing_store {op : Op} {cls : RegisterClass} {size offset v : Nat} (h : IsStore op cls size offset v) :
    op.readsNothing = true ∧ op.args = [v] := by
  cases h with
  | context => exact ⟨rfl, rfl⟩
  | flag _ => exact ⟨rfl, rfl⟩

theorem member_flag {a : Nat} (h : isFlagByte (findMember avx a).offset = true) : findMember avx a = ⟨a, 1⟩ := by
  obtain ⟨flag, hf, hk⟩ := isFlagByte_iff.1 h
  have hm := findMember_mem avx a
  have he : findMember avx (flagsOffset + flag) = findMember avx a := findMember_eq avx (by omega) (by omega)
  rw [findMember_flag avx hf] at he
  rw [← he] at hm ⊢
  dsimp only at hm
  rw [show flagsOffset + flag = a by omega]

theorem flag_member {a : Nat} (h : isFlagByte a = true) : findMember avx a = ⟨a, 1⟩ := by
  obtain ⟨flag, hf, rfl⟩ := isFlagByte_iff.1 h
  exact findMember_flag avx hf

theorem isStore_mapArgs {op : Op} {cls : RegisterClass} {size offset v : Nat} (h : IsStore op cls size offset v)
    (f : NodeID → NodeID) : IsStore (op.mapArgs f) cls size offset (f v) := by
  cases h with
  | context => exact .context
  | flag hf => exact .flag hf

theorem invalid_store {u : State} {offset size v a : Nat} (h : InvalidByte u.invalid a) (hne : a ≠ offset) :
    InvalidByte (u.store offset size v).invalid a := by
  refine ⟨h.1, ?_⟩
  unfold State.store
  split
  · rename_i hf
    obtain ⟨f, hf, rfl⟩ := isFlagByte_iff.1 hf
    obtain ⟨g, hg, rfl⟩ := isFlagByte_iff.1 h.1
    dsimp only
    rw [update_of_ne (by omega)]
    exact h.2
  · exact h.2

/-- What a store has to meet. -/
structure StoreOk (avx : Bool) (type : NodeID → NodeType) (s : State) (i : NodeID) (cls : RegisterClass)
    (size offset v : Nat) : Prop where
  inside : Inside avx offset size
  ofClass : (type v).cls = cls
  ofSize : (type i).size = size
  flag : isFlagByte offset = true → cls = .gpr ∧ s.ssa v < 256
  fpr : cls = .fpr → (type v).size < size ∨ (type v).size = size ∧ size = (findMember avx offset).size →
    s.ssa v < 256 ^ (type v).size

theorem Sim.record_store {op : Op} {cls : RegisterClass} {size offset v : Nat} {last : MemberInfo}
    (h : Sim avx type bound hole none p (n :: rest) s (run sys inline s₀ p.done))
    (hids : ∀ m ∈ rest, m.id ≠ n.id) (hlive : Live p none (n :: rest) (p.subst v)) (hv : v < bound)
    (hop : IsStore op cls size offset (p.subst v)) (hok : StoreOk avx type s n.id cls size offset v) :
    RecordOk avx (p.push ⟨n.id, op⟩) none rest (s.store offset size v).invalid (s.store offset size v).ctx
      (exec sys inline (run sys inline s₀ p.done) ⟨n.id, op⟩).ssa (findMember avx offset).offset
      (recordAccess (findMember avx offset) last cls offset size .write (p.subst v) (some n.id)) := by
  have hssa : (exec sys inline (run sys inline s₀ p.done) ⟨n.id, op⟩).ssa (p.subst v) = s.ssa v := by
    rw [exec_store hop]
    exact h.ssa v hv (by simp)
  have hnum := h.numbers
  have hnew : ∀ m ∈ p.done, m.id ≠ n.id := fun m hm => ((hnum.ids m hm).1 n mem_cons_self).symm
  have hmem := findMember_mem avx offset
  exact {
    idle := fun ha => by rcases ha with ha | ha <;> cases ha
    live := fun _ => hlive.push (LimboOf.none _) _
    active := fun _ => {
      inside := hok.inside
      member := rfl
      cls := (hnum.cls v hv (by simp)).trans hok.ofClass
      flag := by
        intro hf
        have hm := member_flag hf
        rw [hm] at hf
        obtain ⟨hc, hlt⟩ := hok.flag hf
        exact ⟨hc, fun _ => hssa.symm ▸ hlt⟩
      written := by
        intro _ _
        refine ⟨?_, n.id, rfl, ?_⟩
        · show loadBytes (storeBytes s.ctx offset size (s.ssa v)) offset size = _
          rw [loadBytes_storeBytes]
          exact congrArg (· % 256 ^ size) hssa.symm
        · show (p.type n.id).size = size
          rw [hnum.typeOf n.id (hnum.bounded n mem_cons_self)]
          exact hok.ofSize
      loaded := fun hr => by cases hr
      fprWritten := by
        intro _ hc hz
        have hc' : cls = .fpr := hc
        have hsize := hnum.fprSize v hv (by simp) (hok.ofClass.trans hc')
        have hz' : (p.type (p.subst v)).size < size ∨
            (p.type (p.subst v)).size = size ∧ size = (findMember avx offset).size := hz
        show _ < 256 ^ (p.type (p.subst v)).size
        rw [hsize] at hz' ⊢
        exact hssa.symm ▸ hok.fpr hc' hz'
      fprLoaded := fun hr => by cases hr }
    store := by
      intro st hs
      obtain rfl := Option.some.inj hs
      exact ⟨hids, Nat.lt_of_lt_of_le (hnum.bounded n mem_cons_self) hnum.next⟩
    flagStore := by
      intro st hs hf
      obtain rfl := Option.some.inj hs
      have hm := member_flag hf
      have hin := hok.inside.2
      refine removable_self hnew (onlyWrites_store hop _ hmem.1 ?_)
      rw [hm] at hin ⊢
      exact hin
    lastStore := by
      intro st hs _
      obtain rfl := Option.some.inj hs
      exact removable_self hnew (onlyWrites_store hop _ (Nat.le_refl _) (Nat.le_refl _)) }

theorem Sim.store {cls : RegisterClass} {size offset v : Nat} {last : MemberInfo}
    (h : Sim avx type bound hole none p (n :: rest) s (run sys inline s₀ p.done))
    (hole_le : ∀ a, hole a → offset ≤ a ∧ a < offset + size)
    (hids : ∀ m ∈ rest, m.id ≠ n.id) (ha : ArgsBefore bound rest n) (hop : IsStore n.op cls size offset v)
    (hok : StoreOk avx type s n.id cls size offset v) :
    Sim avx type bound NoHole none
      ((p.setInfo (findMember avx offset).offset
        (recordAccess (findMember avx offset) last cls offset size .write (p.subst v) (some n.id))).push
        ⟨n.id, n.op.mapArgs p.subst⟩) rest (exec sys inline s n)
      (run sys inline s₀ (p.done ++ [⟨n.id, n.op.mapArgs p.subst⟩])) := by
  have hop' := isStore_mapArgs hop p.subst
  have hlive := h.numbers.args_live ha
  have hvm : v ∈ n.op.args := by rw [(readsNothing_store hop).2]; exact List.mem_singleton.2 rfl
  have hexec : exec sys inline s n = s.store offset size v := exec_store hop s n.id
  have hssa : (run sys inline s₀ p.done).ssa (p.subst v) = s.ssa v := h.ssa v (ha v hvm).1 (by simp)
  have hpush := h.push sys inline NoHole (Function.update p.info (findMember avx offset).offset
    (recordAccess (findMember avx offset) last cls offset size .write (p.subst v) (some n.id))) (LimboOf.none _) hids hlive
  rw [run_push]
  rw [hexec, exec_store hop'] at hpush
  rw [hexec, exec_store hop']
  refine hpush h.events ?_ (fun _ => h.ssa_visited) (fun _ => h.small_visited) ?_
  · intro a hv _
    show storeBytes _ offset size _ a = storeBytes _ offset size _ a
    rw [hssa]
    by_cases hm : offset ≤ a ∧ a < offset + size
    · rw [storeBytes_of_mem hm, storeBytes_of_mem hm]
    · rw [storeBytes_of_not_mem hm, storeBytes_of_not_mem hm]
      refine h.ctx a (fun hi => hv (invalid_store hi ?_)) (fun hh => hm (hole_le a hh))
      rintro rfl
      exact hm ⟨Nat.le_refl _, Nat.lt_add_of_pos_right hok.inside.1⟩
  · intro k
    by_cases hk : k = (findMember avx offset).offset
    · subst hk
      rw [update_self, ← exec_store hop']
      exact h.record_store hids (h.numbers.arg ha hvm) (ha v hvm).1 hop' hok
    · rw [update_of_ne hk, ← exec_store hop', ← hexec]
      have hq : ∀ lo hi, Quiet (Dead p none) lo hi ⟨n.id, n.op.mapArgs p.subst⟩ := fun lo hi =>
        quiet_of_args lo hi (readsNothing_store hop').1 (fun a hm => (hlive a hm).alive)
      refine (h.records k).push sys inline h.numbers (LimboOf.none _) ?_ ?_ (fun _ _ => hq _ _) (fun _ => hq _ _)
      · intro hv hi
        rw [hexec] at hv
        refine hv (invalid_store hi ?_)
        rintro rfl
        exact hk (by rw [flag_member hi.1])
      · intro hact a h1 h2
        have hr := (h.records k).active hact
        rw [hexec]
        refine storeBytes_of_not_mem (fun hm => ?_)
        have hap := hr.inside.apart avx hok.inside (by rw [hr.member]; exact hk)
        omega

theorem Sim.storeContext {i : NodeID} {cls : RegisterClass} {size offset v : Nat}
    (h : Runs avx sys inline type bound none p (⟨i, .storeContext cls size offset v⟩ :: rest) s s₀)
    (hids : ∀ m ∈ rest, m.id ≠ i) (ha : ArgsBefore bound rest ⟨i, .storeContext cls size offset v⟩)
    (hok : StoreOk avx type s i cls size offset v) :
    Runs avx sys inline type bound none (p.storeContext avx i cls size offset (p.subst v)) rest
      (exec sys inline s ⟨i, .storeContext cls size offset v⟩) s₀ := by
  unfold Pass.storeContext
  dsimp only
  split
  · rename_i hlast
    obtain ⟨hw, -, ho, hz⟩ := hlast
    split
    · rename_i st hst
      have hrem := h.remove sys inline ((h.records _).lastStore st hst hw)
      refine hrem.store ?_ hids ha .context hok
      rintro a (hf | hr)
      · exact hf.elim
      · omega
    · exact h.store (fun a hf => hf.elim) hids ha .context hok
  · exact h.store (fun a hf => hf.elim) hids ha .context hok

theorem Sim.storeFlag {i flag v : Nat}
    (h : Runs avx sys inline type bound none p (⟨i, .storeFlag flag v⟩ :: rest) s s₀)
    (hids : ∀ m ∈ rest, m.id ≠ i) (ha : ArgsBefore bound rest ⟨i, .storeFlag flag v⟩) (hf : flag < numFlags)
    (hok : StoreOk avx type s i .gpr 1 (flagsOffset + flag) v) :
    Runs avx sys inline type bound none (p.storeFlag avx i flag (p.subst v)) rest
      (exec sys inline s ⟨i, .storeFlag flag v⟩) s₀ := by
  have hm := findMember_flag avx hf
  unfold Pass.storeFlag
  dsimp only
  split
  · rename_i st hst
    have hflag : isFlagByte (findMember avx (flagsOffset + flag)).offset = true := by
      rw [hm]
      exact isFlagByte_flag hf
    have hrem := h.remove sys inline ((h.records _).flagStore st hst hflag)
    refine hrem.store ?_ hids ha (.flag hf) hok
    rintro a (hf | hr)
    · exact hf.elim
    · rw [hm] at hr
      exact hr
  · exact h.store (fun a hf => hf.elim) hids ha (.flag hf) hok

/-! ## Loads -/

/-- The op loads bytes of the context. -/
inductive IsLoad : Op → (size offset : Nat) → Prop
  | context {cls size offset} : IsLoad (.loadContext cls size offset) size offset
  | flag {flag} : IsLoad (.loadFlag flag) 1 (flagsOffset + flag)

theorem exec_load {op : Op} {size offset : Nat} (h : IsLoad op size offset) (u : State) (i : NodeID) :
    exec sys inline u ⟨i, op⟩ = u.set i (loadBytes u.ctx offset size) := by
  cases h with
  | context => rfl
  | flag => rfl

theorem args_load {op : Op} {size offset : Nat} (h : IsLoad op size offset) : op.args = [] := by
  cases h with
  | context => rfl
  | flag => rfl

theorem quiet_load {op : Op} {size offset lo hi : Nat} (h : IsLoad op size offset) {dead : NodeID → Prop} {i : NodeID}
    (hq : dead i ∨ offset + size ≤ lo ∨ hi ≤ offset) : Quiet dead lo hi ⟨i, op⟩ := by
  refine ⟨?_, ?_⟩
  · intro a ha
    rw [show (⟨i, op⟩ : Node).op.args = [] from args_load h] at ha
    cases ha
  · cases h with
    | context => exact hq
    | flag => exact hq

theorem Sim.no_args {t : State} {op : Op} (_ : Sim avx type bound hole none p (n :: rest) s t) (h : op.args = []) :
    ∀ a ∈ op.args, Live p none (n :: rest) a := by
  rw [h]
  intro a ha
  cases ha

theorem Sim.limbo {size offset : Nat} (h : Runs avx sys inline type bound none p (n :: rest) s s₀)
    (hids : ∀ m ∈ rest, m.id ≠ n.id) (hop : IsLoad n.op size offset) :
    Runs avx sys inline type bound (some n.id) (p.push n) rest (exec sys inline s n) s₀ := by
  have hexec : exec sys inline s n = s.set n.id (loadBytes s.ctx offset size) := exec_load hop s n.id
  have hexec' : exec sys inline (run sys inline s₀ p.done) ⟨n.id, n.op⟩ =
      (run sys inline s₀ p.done).set n.id (loadBytes (run sys inline s₀ p.done).ctx offset size) := exec_load hop _ _
  have hrun : run sys inline s₀ (p.push n).done = exec sys inline (run sys inline s₀ p.done) ⟨n.id, n.op⟩ := run_push ..
  have hpush := h.push sys inline NoHole p.info (.inr rfl) hids (h.no_args (args_load hop))
  unfold Runs
  rw [hrun]
  refine hpush ?_ ?_ (fun hl => by cases hl) (fun hl => by cases hl) ?_
  · rw [hexec', hexec]
    exact h.events
  · rw [hexec', hexec]
    exact h.ctx
  · intro k
    refine (h.records k).push sys inline h.numbers (.inr rfl) ?_ ?_ (fun _ _ => quiet_load hop (.inl (.inr rfl)))
      (fun _ => quiet_load hop (.inl (.inr rfl)))
    · rw [hexec]
      exact id
    · rw [hexec]
      exact fun _ _ _ _ => rfl

theorem Sim.forward {t : State} {x node : NodeID} {cls : RegisterClass} {size offset : Nat}
    (h : Sim avx type bound NoHole (some x) p rest s t) (hlive : Live p (some x) rest node)
    (hrest : ∀ m ∈ rest, m.id ≠ x) (hval : t.ssa node = s.ssa x) (hload : loadBytes s.ctx offset size = s.ssa x)
    (htype : type x = ⟨cls, size⟩) (hcls : (p.type node).cls = cls)
    (hsize : cls = .fpr → (p.type node).size = size) (hin : Inside avx offset size)
    (hflag : isFlagByte (findMember avx offset).offset = true → cls = .gpr) :
    Sim avx type bound NoHole none (p.forward (findMember avx offset) x cls size offset node) rest s t := by
  have hr := h.replaceUses hlive hrest hval (by rw [hcls, htype]) (fun hc => by rw [htype] at hc ⊢; exact hsize hc)
  have hold := hr.records (findMember avx offset).offset
  have halive : Live (p.replaceUses x node) none rest node := by
    have hself : (p.replaceUses x node).subst x = node := update_self ..
    have hb : x < bound := Nat.lt_of_not_le (fun hb => (h.numbers.fresh x hb).2 rfl)
    have := hr.numbers.past x hb hrest (by simp)
    rwa [hself] at this
  refine hr.setInfo (k := (findMember avx offset).offset) {
    idle := fun ha => by rcases ha with ha | ha <;> cases ha
    live := fun _ => halive
    active := fun _ => {
      inside := hin
      member := rfl
      cls := hcls
      flag := ?_
      written := fun hw => by cases hw
      loaded := fun _ _ => hload.trans hval.symm
      fprWritten := fun hw => by cases hw
      fprLoaded := fun _ hc => hsize hc }
    store := hold.store
    flagStore := hold.flagStore
    lastStore := fun _ _ hw => by cases hw }
  intro hf
  refine ⟨hflag hf, fun _ => ?_⟩
  have hm := member_flag hf
  have hone : size = 1 := by
    have h1 := hin.1
    have h2 := hin.2
    rw [hm] at h2
    dsimp only at h2
    omega
  show t.ssa node < 256
  rw [hval, ← hload, hone]
  exact loadBytes_lt s.ctx offset 1

theorem forward_setInfo {m : Member} {i node : NodeID} {cls : RegisterClass} {size offset : Nat} {r : MemberInfo}
    (h : r.storeNode = (p.info m.offset).storeNode) :
    (p.setInfo m.offset r).forward m i cls size offset node = p.forward m i cls size offset node := by
  unfold Pass.forward Pass.setInfo recordAccess
  dsimp only
  rw [update_self, Function.update_idem, h]

theorem not_invalid_member {offset : Nat} (h : isFlagByte offset = true → ¬ InvalidByte s.invalid offset) :
    ¬ InvalidByte s.invalid (findMember avx offset).offset := by
  intro hi
  have hm := member_flag hi.1
  rw [hm] at hi
  exact h hi.1 hi

theorem mod_pow_mod {v size z : Nat} (h : size ≤ z) : v % 256 ^ z % 256 ^ size = v % 256 ^ size :=
  Nat.mod_mod_of_dvd v (Nat.pow_dvd_pow 256 h)

theorem Sim.written {limbo : Option NodeID} {t : State} {k size : Nat}
    (h : Sim avx type bound hole limbo p rest s t) (hw : (p.info k).accessed = .write)
    (hvalid : ¬ InvalidByte s.invalid k) (hz : size ≤ (p.info k).size) :
    loadBytes s.ctx (p.info k).offset size = t.ssa (p.info k).node % 256 ^ size := by
  obtain ⟨hl, -⟩ := ((h.records k).active (.inl hw)).written hw hvalid
  rw [← loadBytes_mod s.ctx hz, hl, mod_pow_mod hz]

theorem Sim.forwardInserted {x : NodeID} {op : Op} {cls : RegisterClass} {size offset : Nat}
    (h : Runs avx sys inline type bound (some x) p rest s s₀) (hrest : ∀ m ∈ rest, m.id ≠ x)
    (hop : op.isInserted = true) (hargs : ∀ a ∈ op.args, Live p (some x) rest a)
    (hval : (exec sys inline (run sys inline s₀ p.done) ⟨p.next, op⟩).ssa p.next = s.ssa x)
    (hload : loadBytes s.ctx offset size = s.ssa x) (htype : type x = ⟨cls, size⟩) (hin : Inside avx offset size)
    (hflag : isFlagByte (findMember avx offset).offset = true → cls = .gpr) :
    Sim avx type bound NoHole none ((p.insert ⟨cls, size⟩ op).forward (findMember avx offset) x cls size offset p.next)
      rest s (run sys inline s₀ (p.insert ⟨cls, size⟩ op).done) := by
  have hnum := h.numbers
  have htypeNew : (p.insert ⟨cls, size⟩ op).type p.next = ⟨cls, size⟩ := update_self ..
  have hins := h.insert sys inline ⟨cls, size⟩ op hop hargs (fun _ => by
    rw [hval, ← hload]
    exact loadBytes_lt s.ctx offset size)
  refine hins.forward ?_ hrest ?_ hload htype (by rw [htypeNew]) (fun _ => by rw [htypeNew]) hin hflag
  · have hb := hnum.fresh p.next hnum.next
    exact {
      alive := fun hd => hd.elim (fun hs => hs hb.1) hb.2
      past := fun m hm => Nat.ne_of_lt (Nat.lt_of_lt_of_le (hnum.bounded m hm) hnum.next)
      known := Nat.lt_succ_self _ }
  · rw [← hval]
    exact congrArg (fun u => State.ssa u p.next) (run_push ..)

section Forward

variable {x st : NodeID} {size offset : Nat} {r last : MemberInfo} {m : Member}

theorem forwardGPR_eq (hr : r.storeNode = (p.info m.offset).storeNode) (hst : last.storeNode = some st)
    (hstz : (p.type st).size = last.size) (hz : size ≤ last.size) :
    (p.setInfo m.offset r).forwardGPR m x size offset last =
      if size < (p.type last.node).size then
        (p.insert ⟨.gpr, size⟩ (.bfe (size * 8) last.node)).forward m x .gpr size offset p.next
      else p.forward m x .gpr size offset last.node := by
  have htype : (p.setInfo m.offset r).type = p.type := rfl
  unfold Pass.forwardGPR
  dsimp only
  rw [htype, hst, Option.map_some, Option.getD_some, hstz]
  by_cases hlt : size < (p.type last.node).size
  · have hmin : min (min (p.type last.node).size last.size) size = size := by omega
    rw [hmin, if_pos (by omega), if_pos hlt]
    exact forward_setInfo (p := p.insert ⟨.gpr, size⟩ (.bfe (size * 8) last.node)) hr
  · rw [if_neg (by omega), if_neg hlt]
    exact forward_setInfo hr

theorem Sim.forwardGPR (h : Runs avx sys inline type bound (some x) p rest s s₀)
    (hrest : ∀ m ∈ rest, m.id ≠ x) (hload : loadBytes s.ctx offset size = s.ssa x) (htype : type x = ⟨.gpr, size⟩)
    (hin : Inside avx offset size) (hvalid : ¬ InvalidByte s.invalid (findMember avx offset).offset)
    (hlast : p.info (findMember avx offset).offset = last) (hr : r.storeNode = last.storeNode)
    (hw : last.accessed = .write) (hc : last.cls = .gpr) (ho : last.offset = offset) (hz : size ≤ last.size) :
    Runs avx sys inline type bound none
      ((p.setInfo (findMember avx offset).offset r).forwardGPR (findMember avx offset) x size offset last) rest s s₀ := by
  subst hlast
  have hval := h.written hw hvalid hz
  have hrec := h.records (findMember avx offset).offset
  have hact := hrec.active (.inl hw)
  have hlive := hrec.live (.inl hw)
  obtain ⟨-, st, hst, hstz⟩ := hact.written hw hvalid
  have hnode := h.small _ hlive.alive (hact.cls.trans hc)
  rw [ho, hload] at hval
  rw [forwardGPR_eq hr hst hstz hz]
  split
  · refine h.forwardInserted hrest rfl ?_ ?_ hload htype hin (fun _ => rfl)
    · intro a ha
      rw [List.mem_singleton.1 ha]
      exact hlive
    · have hpow : (2 : Nat) ^ (size * 8) = 256 ^ size := by rw [Nat.mul_comm, Nat.pow_mul]
      simp only [exec, State.set, update_self, hpow]
      exact hval.symm
  · rename_i hnz
    -- the node has no byte above the load
    refine h.forward hlive hrest ?_ hload htype (hact.cls.trans hc) (fun hc => by cases hc) hin (fun _ => rfl)
    rw [hval, Nat.mod_eq_of_lt]
    exact Nat.lt_of_lt_of_le hnode (Nat.pow_le_pow_right (by decide) (Nat.le_of_not_lt hnz))

theorem forwardFPR_eq (hr : r.storeNode = (p.info m.offset).storeNode) (hpart : r.isPartial = decide (size < m.size))
    (hz : size ≤ last.size) (hm : size ≤ m.size) :
    (p.setInfo m.offset r).forwardFPR m x size offset last =
      if (p.type last.node).size = size ∧ (size < last.size ∨ size = m.size) then
        p.forward m x .fpr size offset last.node
      else (p.insert ⟨.fpr, size⟩ (.vmov size last.node)).forward m x .fpr size offset p.next := by
  have htype : (p.setInfo m.offset r).type = p.type := rfl
  have hinfo : (p.setInfo m.offset r).info m.offset = r := update_self ..
  have hdirect : (p.setInfo m.offset r).forward m x .fpr size offset last.node =
      p.forward m x .fpr size offset last.node := forward_setInfo hr
  have hmove : ((p.setInfo m.offset r).insert ⟨.fpr, size⟩ (.vmov size last.node)).forward m x .fpr size offset p.next =
      (p.insert ⟨.fpr, size⟩ (.vmov size last.node)).forward m x .fpr size offset p.next :=
    forward_setInfo (p := p.insert ⟨.fpr, size⟩ (.vmov size last.node)) hr
  have hnext : (p.setInfo m.offset r).next = p.next := rfl
  unfold Pass.forwardFPR
  rw [htype, hinfo, hpart, hdirect, hnext, hmove]
  by_cases hfull : last.size = size ∧ last.size = (p.type last.node).size
  · rw [if_pos hfull]
    by_cases hlt : size < m.size
    · rw [if_pos (decide_eq_true hlt), if_neg (by omega)]
    · rw [if_neg (by simpa using hlt), if_pos (by omega)]
  · rw [if_neg hfull]
    simp only [hz, true_and]
    by_cases hnz : size = (p.type last.node).size
    · rw [if_pos hnz, if_pos (by omega)]
    · rw [if_neg hnz]
      by_cases hlt : size < (p.type last.node).size
      · rw [if_pos hlt, if_neg (by omega)]
      · rw [if_neg hlt, if_pos (by omega), if_neg (by omega)]

theorem Sim.forwardFPR (h : Runs avx sys inline type bound (some x) p rest s s₀)
    (hrest : ∀ m ∈ rest, m.id ≠ x) (hload : loadBytes s.ctx offset size = s.ssa x) (htype : type x = ⟨.fpr, size⟩)
    (hin : Inside avx offset size) (hvalid : ¬ InvalidByte s.invalid (findMember avx offset).offset)
    (hlast : p.info (findMember avx offset).offset = last) (hr : r.storeNode = last.storeNode)
    (hpart : r.isPartial = decide (size < (findMember avx offset).size))
    (hw : last.accessed = .write) (hc : last.cls = .fpr) (ho : last.offset = offset) (hz : size ≤ last.size) :
    Runs avx sys inline type bound none
      ((p.setInfo (findMember avx offset).offset r).forwardFPR (findMember avx offset) x size offset last) rest s s₀ := by
  subst hlast
  have hval := h.written hw hvalid hz
  have hrec := h.records (findMember avx offset).offset
  have hact := hrec.active (.inl hw)
  have hlive := hrec.live (.inl hw)
  have hnode := hact.fprWritten hw hc
  rw [ho, hload] at hval
  rw [ho] at hnode
  have hflag : isFlagByte (findMember avx offset).offset = true → RegisterClass.fpr = .gpr := fun hf =>
    hc.symm.trans (hact.flag hf).1
  have hmem := (findMember_mem avx offset).1
  have hend := hin.2
  rw [forwardFPR_eq hr hpart hz (by omega)]
  split
  · rename_i hfit
    refine h.forward hlive hrest ?_ hload htype (hact.cls.trans hc) (fun _ => hfit.1) hin hflag
    rw [hval, Nat.mod_eq_of_lt]
    rw [hfit.1] at hnode
    exact hnode (by omega)
  · refine h.forwardInserted hrest rfl ?_ ?_ hload htype hin hflag
    · intro a ha
      rw [List.mem_singleton.1 ha]
      exact hlive
    · simp only [exec, State.set, update_self]
      exact hval.symm

theorem Sim.forwardRead {t : State} {cls : RegisterClass} (h : Sim avx type bound NoHole (some x) p rest s t)
    (hrest : ∀ m ∈ rest, m.id ≠ x) (hload : loadBytes s.ctx offset size = s.ssa x) (htype : type x = ⟨cls, size⟩)
    (hvalid : ¬ InvalidByte s.invalid (findMember avx offset).offset)
    (hlast : p.info (findMember avx offset).offset = last) (hr : r.storeNode = last.storeNode)
    (hread : last.accessed = .read) (hc : last.cls = cls) (ho : last.offset = offset) (hz : last.size = size) :
    Sim avx type bound NoHole none
      ((p.setInfo (findMember avx offset).offset r).forward (findMember avx offset) x cls size offset last.node) rest s
      t := by
  subst hlast
  have hrec := h.records (findMember avx offset).offset
  have hact := hrec.active (.inr hread)
  have hval := hact.loaded hread hvalid
  have hin := hact.inside
  rw [ho, hz] at hval hin
  rw [forward_setInfo hr]
  exact h.forward (hrec.live (.inr hread)) hrest (hval.symm.trans hload) hload htype (hact.cls.trans hc)
    (fun hf => (hact.fprLoaded hread (hc.trans hf)).trans hz) hin (fun hf => hc.symm.trans (hact.flag hf).1)

end Forward

theorem Sim.load_eq {t : State} {size offset : Nat} (h : Sim avx type bound NoHole none p (n :: rest) s t)
    (hin : Inside avx offset size) (hvalid : ¬ InvalidByte s.invalid (findMember avx offset).offset) :
    loadBytes t.ctx offset size = loadBytes s.ctx offset size := by
  refine loadBytes_congr (fun a h1 h2 => h.ctx a (fun hi => ?_) (fun hf => hf))
  -- a flag is a member of its own, so the load is of this flag
  have hmem := (findMember_mem avx offset).1
  have hend := hin.2
  have he : findMember avx a = findMember avx offset := findMember_eq avx (by omega) (by omega)
  rw [flag_member hi.1] at he
  rw [← he] at hvalid
  exact hvalid hi

theorem Sim.loaded {size offset : Nat} (h : Runs avx sys inline type bound none p (n :: rest) s s₀)
    (hids : ∀ m ∈ rest, m.id ≠ n.id) (hop : IsLoad n.op size offset) (hin : Inside avx offset size)
    (hvalid : ¬ InvalidByte s.invalid (findMember avx offset).offset)
    (hsmall : (type n.id).cls = .gpr → (exec sys inline s n).ssa n.id < 256 ^ (type n.id).size)
    (info : Nat → MemberInfo) (hother : ∀ k, k ≠ (findMember avx offset).offset → info k = p.info k)
    (hrec : RecordOk avx (p.push n) none rest (exec sys inline s n).invalid (exec sys inline s n).ctx
      (exec sys inline (run sys inline s₀ p.done) n).ssa (findMember avx offset).offset
      (info (findMember avx offset).offset)) :
    Sim avx type bound NoHole none { p.push n with info := info } rest (exec sys inline s n)
      (run sys inline s₀ (p.push n).done) := by
  have hexec : exec sys inline s n = s.set n.id (loadBytes s.ctx offset size) := exec_load hop s n.id
  have hexec' : exec sys inline (run sys inline s₀ p.done) ⟨n.id, n.op⟩ =
      (run sys inline s₀ p.done).set n.id (loadBytes (run sys inline s₀ p.done).ctx offset size) := exec_load hop _ _
  have hrun : run sys inline s₀ (p.push n).done = exec sys inline (run sys inline s₀ p.done) ⟨n.id, n.op⟩ := run_push ..
  have hpush := h.push sys inline NoHole info (LimboOf.none n) hids (h.no_args (args_load hop))
  rw [hrun]
  refine hpush ?_ ?_ ?_ (fun _ => hsmall) ?_
  · rw [hexec', hexec]
    exact h.events
  · rw [hexec', hexec]
    exact h.ctx
  · intro _
    rw [hexec', hexec, h.load_eq hin hvalid]
    simp [State.set]
  · intro k
    by_cases hk : k = (findMember avx offset).offset
    · rw [hk]
      exact hrec
    · rw [hother k hk]
      refine (h.records k).push sys inline h.numbers (LimboOf.none n) ?_ ?_ ?_ ?_
      · rw [hexec]
        exact id
      · rw [hexec]
        exact fun _ _ _ _ => rfl
      · intro hf _
        have hk' : findMember avx k = ⟨k, 1⟩ := flag_member hf
        have hone : Inside avx k 1 := ⟨Nat.one_pos, by rw [hk']⟩
        refine quiet_load hop (.inr (hin.apart avx hone ?_))
        rw [hk']
        exact Ne.symm hk
      · intro hw
        have hact := (h.records k).active (.inl hw)
        refine quiet_load hop (.inr (hin.apart avx hact.inside ?_))
        rw [hact.member]
        exact Ne.symm hk

theorem Sim.idle_flag {t : State} {limbo : Option NodeID} {k : Nat} (h : Sim avx type bound hole limbo p rest s t)
    (hidle : ¬ ((p.info k).accessed = .write ∨ (p.info k).accessed = .read)) : (p.info k).storeNode = none := by
  refine (h.records k).idle ?_
  cases hacc : (p.info k).accessed with
  | none => exact .inl rfl
  | invalid => exact .inr rfl
  | write => exact absurd (.inl hacc) hidle
  | read => exact absurd (.inr hacc) hidle

theorem Active.of_flag {type' : NodeID → NodeType} {inv : Nat → Bool} {c : Context} {e : NodeID → Value} {r : MemberInfo}
    {offset size : Nat} (h : Active avx type' inv c e (findMember avx offset).offset r) (hin : Inside avx offset size)
    (hf : isFlagByte (findMember avx offset).offset = true) : r.cls = .gpr ∧ r.offset = offset ∧ r.size = size := by
  have hm := member_flag hf
  have hmr : findMember avx r.offset = ⟨r.offset, 1⟩ := member_flag (by rw [h.member]; exact hf)
  have hoff := h.member
  obtain ⟨h1, h2⟩ := h.inside
  obtain ⟨h3, h4⟩ := hin
  rw [hm, hmr] at hoff
  rw [hmr] at h2
  rw [hm] at h4
  dsimp only at h2 h4 hoff
  exact ⟨(h.flag hf).1, hoff, by omega⟩

/-- What a load has to meet. -/
structure LoadOk (avx : Bool) (type : NodeID → NodeType) (s : State) (i : NodeID) (cls : RegisterClass)
    (size offset : Nat) : Prop where
  inside : Inside avx offset size
  ofType : type i = ⟨cls, size⟩
  flag : isFlagByte offset = true → cls = .gpr ∧ ¬ InvalidByte s.invalid offset

theorem LoadOk.valid {i : NodeID} {cls : RegisterClass} {size offset : Nat} (h : LoadOk avx type s i cls size offset) :
    ¬ InvalidByte s.invalid (findMember avx offset).offset := not_invalid_member (fun hf => (h.flag hf).2)

theorem LoadOk.flag_cls {i : NodeID} {cls : RegisterClass} {size offset : Nat} (h : LoadOk avx type s i cls size offset)
    (hf : isFlagByte (findMember avx offset).offset = true) : cls = .gpr := by
  rw [member_flag hf] at hf
  exact (h.flag hf).1

theorem Sim.record_loaded {cls : RegisterClass} {size offset : Nat} {last : MemberInfo}
    (h : Runs avx sys inline type bound none p (n :: rest) s s₀)
    (hids : ∀ m ∈ rest, m.id ≠ n.id) (hop : IsLoad n.op size offset) (hok : LoadOk avx type s n.id cls size offset)
    (hlast : p.info (findMember avx offset).offset = last)
    (hidle : isFlagByte (findMember avx offset).offset = true → last.storeNode = none) :
    RecordOk avx (p.push n) none rest (exec sys inline s n).invalid (exec sys inline s n).ctx
      (exec sys inline (run sys inline s₀ p.done) n).ssa (findMember avx offset).offset
      (recordAccess (findMember avx offset) last cls offset size .read n.id none) := by
  subst hlast
  have hnum := h.numbers
  have hb := hnum.bounded n mem_cons_self
  have htype : (p.push n).type n.id = ⟨cls, size⟩ := (hnum.typeOf n.id hb).trans hok.ofType
  have hold := h.records (findMember avx offset).offset
  have hval : (exec sys inline (run sys inline s₀ p.done) n).ssa n.id = loadBytes s.ctx offset size := by
    rw [exec_load hop, ← h.load_eq hok.inside hok.valid]
    simp [State.set]
  have hctx : (exec sys inline s n).ctx = s.ctx := by rw [exec_load hop]; rfl
  rw [hctx]
  exact {
    idle := fun ha => by rcases ha with ha | ha <;> cases ha
    live := fun _ => {
      alive := fun hd => hd.elim (fun hs => hs (hnum.future n mem_cons_self).1) (by simp)
      past := hids
      known := Nat.lt_of_lt_of_le hb hnum.next }
    active := fun _ => {
      inside := hok.inside
      member := rfl
      cls := congrArg NodeType.cls htype
      flag := by
        intro hf
        refine ⟨hok.flag_cls hf, fun _ => ?_⟩
        have hm := member_flag hf
        have hone := hok.inside
        unfold Inside at hone
        rw [hm] at hone
        dsimp only at hone
        show (exec sys inline (run sys inline s₀ p.done) n).ssa n.id < 256
        rw [hval, show size = 1 by omega]
        exact loadBytes_lt s.ctx offset 1
      written := fun hw => by cases hw
      loaded := fun _ _ => hval.symm
      fprWritten := fun hw => by cases hw
      fprLoaded := fun _ _ => congrArg NodeType.size htype }
    store := fun st hs => ⟨fun m hm => (hold.store st hs).1 m (List.mem_cons_of_mem _ hm), (hold.store st hs).2⟩
    flagStore := by
      intro st hs hf
      have hs' : (p.info (findMember avx offset).offset).storeNode = some st := hs
      rw [hidle hf] at hs'
      cases hs'
    lastStore := fun _ _ hw => by cases hw }

theorem Sim.loadContext {i : NodeID} {cls : RegisterClass} {size offset : Nat}
    (h : Runs avx sys inline type bound none p (⟨i, .loadContext cls size offset⟩ :: rest) s s₀)
    (hids : ∀ m ∈ rest, m.id ≠ i) (hok : LoadOk avx type s i cls size offset) :
    Runs avx sys inline type bound none (p.loadContext avx i cls size offset) rest
      (exec sys inline s ⟨i, .loadContext cls size offset⟩) s₀ := by
  have hlimbo := h.limbo hids .context
  have hload : loadBytes (exec sys inline s ⟨i, .loadContext cls size offset⟩).ctx offset size =
      (exec sys inline s ⟨i, .loadContext cls size offset⟩).ssa i := by
    simp [exec, State.set]
  unfold Pass.loadContext
  dsimp only
  split
  · rename_i hlast
    obtain ⟨hw, hc, ho, hz⟩ := hlast
    cases cls with
    | gpr => exact hlimbo.forwardGPR hids hload hok.ofType hok.inside hok.valid rfl rfl hw hc ho hz
    | fpr => exact hlimbo.forwardFPR hids hload hok.ofType hok.inside hok.valid rfl rfl rfl hw hc ho hz
  split
  · rename_i hlast
    obtain ⟨hr, hc, ho, hz⟩ := hlast
    exact hlimbo.forwardRead hids hload hok.ofType hok.valid rfl rfl hr hc ho hz
  · rename_i hwrite hread
    have hfree : isFlagByte (findMember avx offset).offset = true →
        (p.info (findMember avx offset).offset).storeNode = none := by
      intro hf
      refine h.idle_flag (fun hact => ?_)
      obtain ⟨hc, ho, hz⟩ := ((h.records _).active hact).of_flag hok.inside hf
      rw [← hok.flag_cls hf] at hc
      rcases hact with hw | hr
      · exact hwrite ⟨hw, hc, ho, Nat.le_of_eq hz.symm⟩
      · exact hread ⟨hr, hc, ho, hz⟩
    refine h.loaded hids .context hok.inside hok.valid ?_ _ (fun k hk => update_of_ne hk _ _) ?_
    · intro _
      show (exec sys inline s ⟨i, .loadContext cls size offset⟩).ssa i < 256 ^ (type i).size
      rw [← hload, hok.ofType]
      exact loadBytes_lt _ offset size
    · unfold Pass.setInfo
      dsimp only
      rw [update_self]
      exact h.record_loaded hids .context hok rfl hfree

theorem Sim.forwardFlag {x : NodeID} {flag : Nat} (h : Runs avx sys inline type bound (some x) p rest s s₀)
    (hrest : ∀ m ∈ rest, m.id ≠ x) (hload : loadBytes s.ctx (flagsOffset + flag) 1 = s.ssa x)
    (htype : type x = ⟨.gpr, 1⟩) (hin : Inside avx (flagsOffset + flag) 1) (hf : flag < numFlags)
    (hvalid : ¬ InvalidByte s.invalid (findMember avx (flagsOffset + flag)).offset)
    (hlast : (p.info (findMember avx (flagsOffset + flag)).offset).accessed = .write ∨
      (p.info (findMember avx (flagsOffset + flag)).offset).accessed = .read) :
    Sim avx type bound NoHole none (p.forward (findMember avx (flagsOffset + flag)) x .gpr 1 (flagsOffset + flag)
      (p.info (findMember avx (flagsOffset + flag)).offset).node) rest s (run sys inline s₀ p.done) := by
  have hrec := h.records (findMember avx (flagsOffset + flag)).offset
  have hact := hrec.active hlast
  have hflag : isFlagByte (findMember avx (flagsOffset + flag)).offset = true := by
    rw [findMember_flag avx hf]
    exact isFlagByte_flag hf
  obtain ⟨hc, ho, hz⟩ := hact.of_flag hin hflag
  refine h.forward (hrec.live hlast) hrest ?_ hload htype (hact.cls.trans hc) (fun hf => by cases hf) hin (fun _ => rfl)
  rw [← hload]
  rcases hlast with hw | hr
  · have hval := (hact.written hw hvalid).1
    rw [ho, hz, Nat.pow_one, Nat.mod_eq_of_lt ((hact.flag hflag).2 hvalid)] at hval
    exact hval.symm
  · have hval := hact.loaded hr hvalid
    rw [ho, hz] at hval
    exact hval.symm

theorem Sim.loadFlag {i flag : Nat}
    (h : Runs avx sys inline type bound none p (⟨i, .loadFlag flag⟩ :: rest) s s₀)
    (hids : ∀ m ∈ rest, m.id ≠ i) (hf : flag < numFlags) (hok : LoadOk avx type s i .gpr 1 (flagsOffset + flag)) :
    Runs avx sys inline type bound none (p.loadFlag avx i flag) rest (exec sys inline s ⟨i, .loadFlag flag⟩) s₀ := by
  have hload : loadBytes (exec sys inline s ⟨i, .loadFlag flag⟩).ctx (flagsOffset + flag) 1 =
      (exec sys inline s ⟨i, .loadFlag flag⟩).ssa i := by
    simp [exec, State.set]
  unfold Pass.loadFlag
  dsimp only
  split
  · rename_i hlast
    exact (h.limbo hids .flag).forwardFlag hids hload hok.ofType hok.inside hf hok.valid hlast
  · rename_i hlast
    have hfree := h.idle_flag hlast
    refine h.loaded hids .flag hok.inside hok.valid ?_ p.info (fun k _ => rfl) ?_
    · intro _
      show (exec sys inline s ⟨i, .loadFlag flag⟩).ssa i < 256 ^ (type i).size
      rw [← hload, hok.ofType]
      exact loadBytes_lt _ _ 1
    · exact {
        idle := fun _ => hfree
        live := fun hact => absurd hact hlast
        active := fun hact => absurd hact hlast
        store := fun st hs => by rw [hfree] at hs; cases hs
        flagStore := fun st hs => by rw [hfree] at hs; cases hs
        lastStore := fun st hs => by rw [hfree] at hs; cases hs }

/-! ## Invalidated flags -/

theorem Sim.absorb {t : State} {limbo : Option NodeID} (h : Sim avx type bound hole limbo p rest s t)
    (hh : ∀ a, hole a → InvalidByte s.invalid a) : Sim avx type bound NoHole limbo p rest s t :=
  ⟨h.numbers, h.events, fun a hv _ => h.ctx a hv (fun hc => hv (hh a hc)), h.ssa, h.small, h.records⟩

/-- The state of the pass while it goes over the flags of the `InvalidateFlags` `i`. -/
structure Invalidating (avx : Bool) (sys : SyscallHandler) (inline : InlineHandler) (type : NodeID → NodeType)
    (bound : NodeID) (rest : List Node) (s s₀ : State) (i : NodeID) (p : Pass) : Prop where
  sim : Runs avx sys inline type bound none p rest s s₀
  removable : ∀ lo hi, Removable (Dead p none) p.done i lo hi
  past : ∀ m ∈ rest, m.id ≠ i
  known : i < p.next

theorem Invalidating.invalidateFlag {i : NodeID} {flags : BitVec 64} {flag : Nat}
    (h : Invalidating avx sys inline type bound rest s s₀ i p)
    (hmark : ∀ f, flags.getLsbD f = true → s.invalid f = true) (hf : flag < numFlags) :
    Invalidating avx sys inline type bound rest s s₀ i (Pass.invalidateFlag avx i flags p flag) := by
  have hm := findMember_flag avx hf
  have hflag : isFlagByte (flagsOffset + flag) = true := isFlagByte_flag hf
  unfold Pass.invalidateFlag
  dsimp only
  rw [hm]
  split
  · rename_i hbit
    have hinv : InvalidByte s.invalid (flagsOffset + flag) :=
      ⟨hflag, by rw [Nat.add_sub_cancel_left]; exact hmark flag hbit⟩
    split
    · rename_i st hst
      have hrem := h.sim.remove sys inline ((h.sim.records (flagsOffset + flag)).flagStore st hst hflag)
      -- the byte that the store leaves out is one of an invalid flag
      have habs := hrem.absorb (fun a ha => by
        rcases ha with ha | ha
        · exact ha.elim
        · rw [show a = flagsOffset + flag by omega]
          exact hinv)
      have hins := habs.insert sys inline ⟨.gpr, 8⟩ (.constant 0) rfl (fun a ha => by cases ha)
        (fun _ => by simp [exec, State.set])
      have hnum := habs.numbers
      have hfresh := hnum.fresh p.next hnum.next
      have hin : Inside avx (flagsOffset + flag) 1 := ⟨Nat.one_pos, by rw [hm]⟩
      have htype : ((p.remove st).insert ⟨.gpr, 8⟩ (.constant 0)).type p.next = ⟨.gpr, 8⟩ := update_self ..
      -- the invalidation itself becomes the record's store
      have hself : ∀ lo hi, Removable (Dead ((p.remove st).insert ⟨.gpr, 8⟩ (.constant 0)) none)
          ((p.remove st).insert ⟨.gpr, 8⟩ (.constant 0)).done i lo hi := fun lo hi =>
        ((h.removable lo hi).filter _).push (Nat.ne_of_gt h.known) ⟨(fun a ha => by cases ha), trivial⟩
      refine ⟨hins.setInfo ?_, hself, h.past, Nat.lt_succ_of_lt h.known⟩
      exact {
        idle := fun ha => by rcases ha with ha | ha <;> cases ha
        live := fun _ => {
          alive := fun hd => hd.elim (fun hs => hs hfresh.1) (by simp)
          past := fun m hm => Nat.ne_of_lt (Nat.lt_of_lt_of_le (hnum.bounded m hm) hnum.next)
          known := Nat.lt_succ_self _ }
        active := fun _ => {
          inside := hin
          member := congrArg Member.offset hm
          cls := congrArg NodeType.cls htype
          flag := fun _ => ⟨rfl, fun hv => absurd hinv hv⟩
          written := fun _ hv => absurd hinv hv
          loaded := fun hr => by cases hr
          fprWritten := fun _ hc => by cases hc
          fprLoaded := fun hr => by cases hr }
        store := by
          intro st' hs
          obtain rfl := Option.some.inj hs
          exact ⟨h.past, Nat.lt_succ_of_lt h.known⟩
        flagStore := by
          intro st' hs _
          obtain rfl := Option.some.inj hs
          exact hself _ _
        lastStore := by
          intro st' hs _
          obtain rfl := Option.some.inj hs
          exact hself _ _ }
    · exact h
  · exact h

theorem Invalidating.foldl {i : NodeID} {flags : BitVec 64} (l : List Nat)
    (h : Invalidating avx sys inline type bound rest s s₀ i p)
    (hmark : ∀ f, flags.getLsbD f = true → s.invalid f = true) (hl : ∀ f ∈ l, f < numFlags) :
    Invalidating avx sys inline type bound rest s s₀ i (l.foldl (Pass.invalidateFlag avx i flags) p) := by
  induction l generalizing p with
  | nil => exact h
  | cons f l ih =>
    exact ih (h.invalidateFlag hmark (hl f mem_cons_self)) (fun f hf => hl f (List.mem_cons_of_mem _ hf))

theorem Sim.invalidateFlags {i : NodeID} {flags : BitVec 64}
    (h : Runs avx sys inline type bound none p (⟨i, .invalidateFlags flags⟩ :: rest) s s₀)
    (hids : ∀ m ∈ rest, m.id ≠ i) :
    Runs avx sys inline type bound none (p.invalidateFlags avx i flags) rest
      (exec sys inline s ⟨i, .invalidateFlags flags⟩) s₀ := by
  have hnum := h.numbers
  have hinv : ∀ k, ¬ InvalidByte (exec sys inline s ⟨i, .invalidateFlags flags⟩).invalid k → ¬ InvalidByte s.invalid k := by
    intro k hk hi
    exact hk ⟨hi.1, by simp only [exec, hi.2, Bool.true_or]⟩
  have hrun : run sys inline s₀ (p.push ⟨i, .invalidateFlags flags⟩).done =
      exec sys inline (run sys inline s₀ p.done) ⟨i, .invalidateFlags flags⟩ := run_push ..
  have hpush : Runs avx sys inline type bound none (p.push ⟨i, .invalidateFlags flags⟩) rest
    (exec sys inline s ⟨i, .invalidateFlags flags⟩) s₀ := by
    unfold Runs
    rw [hrun]
    refine h.push sys inline NoHole p.info (LimboOf.none _) hids (fun a ha => by cases ha) h.events ?_
      (fun _ => h.ssa_visited) (fun _ => h.small_visited) ?_
    · exact fun a hv hh => h.ctx a (hinv a hv) hh
    · exact h.records_push (.invalidateFlags flags) (fun a ha => by cases ha) rfl rfl hinv
  have hstart : Invalidating avx sys inline type bound rest (exec sys inline s ⟨i, .invalidateFlags flags⟩) s₀ i
      (p.push ⟨i, .invalidateFlags flags⟩) := {
    sim := hpush
    removable := fun lo hi => removable_self (n := ⟨i, .invalidateFlags flags⟩)
      (fun m hm => ((hnum.ids m hm).1 _ mem_cons_self).symm) trivial
    past := hids
    known := Nat.lt_of_lt_of_le (hnum.bounded _ mem_cons_self) hnum.next }
  refine (hstart.foldl (List.range Pass.numEflagBits) ?_ ?_).sim
  · intro f hf
    simp [exec, hf]
  · intro f hf
    exact Nat.lt_of_lt_of_le (List.mem_range.1 hf) (by decide)

/-! ## The block -/

theorem inside_flag {flag : Nat} (h : flag < numFlags) : Inside avx (flagsOffset + flag) 1 :=
  ⟨Nat.one_pos, by rw [findMember_flag avx h]⟩

theorem Sim.visit (h : Runs avx sys inline type bound none p (n :: rest) s s₀)
    (hids : ∀ m ∈ rest, m.id ≠ n.id) (ha : ArgsBefore bound rest n) (hty : Typed avx type n)
    (hok : OpOk avx sys inline type s n) :
    Runs avx sys inline type bound none (p.visit avx n) rest (exec sys inline s n) s₀ := by
  obtain ⟨i, op⟩ := n
  cases op with
  | storeContext cls size offset v =>
    obtain ⟨hc, hz, hin⟩ := hty
    exact h.storeContext hids ha ⟨hin, hc, hz, hok.2.1, hok.2.2⟩
  | loadContext cls size offset =>
    obtain ⟨ht, hin⟩ := hty
    exact h.loadContext hids ⟨hin, ht, hok.2⟩
  | storeFlag flag v =>
    obtain ⟨hc, hz, hf⟩ := hty
    exact h.storeFlag hids ha hf ⟨inside_flag hf, hc, hz, fun _ => ⟨rfl, hok.2⟩, fun hc => by cases hc⟩
  | loadFlag flag =>
    obtain ⟨ht, hf⟩ := hty
    exact h.loadFlag hids hf ⟨inside_flag hf, ht, fun _ => ⟨rfl, hok.2⟩⟩
  | invalidateFlags flags => exact h.invalidateFlags hids
  | syscall through as =>
    cases through with
    | true => exact h.compute (f := inline) hids ha hok rfl rfl (fun _ _ => rfl)
    | false => exact h.syscall hids ha hok
  | storeContextIndexed size base stride j v => exact h.storeContextIndexed hids ha
  | loadContextIndexed size base stride j => exact h.loadContextIndexed hids ha hok
  | brk => exact h.brk hids
  | value f as => exact h.compute (f := f) hids ha hok rfl rfl (fun _ _ => rfl)
  | _ => exact hty.elim

theorem sim_start {block : List Node} (hwf : WellFormed avx type bound block)
    (hsmall : ∀ i, (type i).cls = .gpr → s.ssa i < 256 ^ (type i).size) :
    Sim avx type bound NoHole none (Pass.start avx type bound) block s s where
  numbers := {
    next := Nat.le_refl _
    bounded := hwf.bounded
    future := fun _ _ => ⟨rfl, by simp⟩
    fresh := fun _ _ => ⟨rfl, by simp⟩
    idem := fun _ _ _ hd => hd.elim (fun hs => hs rfl) (by simp)
    past := fun i hi hr _ => ⟨fun hd => hd.elim (fun hs => hs rfl) (by simp), hr, hi⟩
    ids := fun _ hm => by cases hm
    args := fun _ hm => by cases hm
    typeOf := fun _ _ => rfl
    cls := fun _ _ _ => rfl
    fprSize := fun _ _ _ _ => rfl }
  events := rfl
  ctx := fun _ _ _ => rfl
  ssa := fun _ _ _ => rfl
  small := fun i _ hc => hsmall i hc
  records := recordOk_reset

theorem WellFormed.tail (h : WellFormed avx type bound (n :: rest)) : WellFormed avx type bound rest where
  ids := h.ids.of_cons
  bounded := fun m hm => h.bounded m (List.mem_cons_of_mem _ hm)
  args := fun m hm => h.args m (List.mem_cons_of_mem _ hm)
  dominates := h.dominates.of_cons
  typed := fun m hm => h.typed m (List.mem_cons_of_mem _ hm)

theorem WellFormed.argsBefore (h : WellFormed avx type bound (n :: rest)) : ArgsBefore bound rest n := by
  intro a ha
  obtain ⟨hb, hne⟩ := h.args n mem_cons_self a ha
  refine ⟨hb, fun m hm => ?_⟩
  rcases List.mem_cons.1 hm with rfl | hm
  · exact Ne.symm hne
  · exact Ne.symm ((List.pairwise_cons.1 h.dominates).1 m hm a ha)

theorem Sim.run {block : List Node} (h : Runs avx sys inline type bound none p block s s₀)
    (hwf : WellFormed avx type bound block) (hadm : Admissible avx sys inline type s block) :
    Sim avx type bound NoHole none (block.foldl (Pass.visit avx) p) [] (RCLSE.run sys inline s block)
      (RCLSE.run sys inline s₀ (block.foldl (Pass.visit avx) p).done) := by
  induction block generalizing p s with
  | nil => exact h
  | cons n ns ih =>
    obtain ⟨hok, hrest⟩ := hadm
    have hids : ∀ m ∈ ns, m.id ≠ n.id := fun m hm => Ne.symm ((List.pairwise_cons.1 hwf.ids).1 m hm)
    exact ih (h.visit hids hwf.argsBefore (hwf.typed n mem_cons_self) hok) hwf.tail hrest

/-- Every op but the context accesses gets the same values, and the context is the same but for flags that were marked and
not stored since. -/
theorem redundantStoreLoadElimination_preserves {block : List Node} (hwf : WellFormed avx type bound block)
    (hsmall : ∀ i, (type i).cls = .gpr → s.ssa i < 256 ^ (type i).size)
    (hadm : Admissible avx sys inline type s block) :
    (run sys inline s (redundantStoreLoadElimination avx type bound block)).events = (run sys inline s block).events ∧
    ∀ a, ¬ InvalidByte (run sys inline s block).invalid a →
      (run sys inline s (redundantStoreLoadElimination avx type bound block)).ctx a = (run sys inline s block).ctx a := by
  have hstart : Sim avx type bound NoHole none (Pass.start avx type bound) block s
      (run sys inline s (Pass.start avx type bound).done) := sim_start hwf hsmall
  have h := hstart.run hwf hadm
  exact ⟨h.events, fun a ha => h.ctx a ha (fun hf => hf)⟩

/-! ### A store cut short, and a flag read after it was invalidated -/

def exampleType (i : NodeID) : NodeType := ⟨.gpr, if i = 2 then 4 else if i = 4 ∨ i = 7 then 1 else 8⟩

def exampleState : State :=
  { ssa := fun i => if i = 0 then 0x112233445566 else 1, ctx := fun _ => 0, events := [], invalid := fun _ => false }

def exampleSyscall : SyscallHandler := fun c _ => (c, 0)

def exampleInline : InlineHandler := fun _ => 0

/-- Two stores, a shorter load, a flag and its invalidation. -/
def storeStoreLoad : List Node :=
  [⟨1, .storeContext .gpr 8 8 9⟩, ⟨6, .storeContext .gpr 8 8 0⟩, ⟨2, .loadContext .gpr 4 8⟩, ⟨3, .value List.sum [2]⟩,
    ⟨4, .storeFlag 0 9⟩, ⟨5, .invalidateFlags 1⟩]

theorem exampleState_small (i : NodeID) (_ : (exampleType i).cls = .gpr) :
    exampleState.ssa i < 256 ^ (exampleType i).size := by
  unfold exampleState exampleType
  dsimp only
  by_cases h0 : i = 0
  · subst h0
    decide
  · rw [if_neg h0]
    split
    · decide
    · split <;> decide

theorem storeStoreLoad_wellFormed : WellFormed false exampleType 10 storeStoreLoad where
  ids := by decide
  bounded := by decide
  args := by decide
  dominates := by decide
  typed := by
    simp [storeStoreLoad, Typed, exampleType, Inside, findMember, memberIn, gregsOffset, numFlags]

theorem storeStoreLoad_admissible :
    Admissible false exampleSyscall exampleInline exampleType exampleState storeStoreLoad := by
  simp [storeStoreLoad, Admissible, OpOk, Op.hasDest, exampleType, exampleState, exec, State.set, isFlagByte, flagsOffset,
    numFlags, loadBytes, storeBytes]

theorem redundantStoreLoadElimination_preserves_storeStoreLoad :
    (redundantStoreLoadElimination false exampleType 10 storeStoreLoad).map Node.id = [6, 2, 10, 3, 5, 11] ∧
    (run exampleSyscall exampleInline exampleState
      (redundantStoreLoadElimination false exampleType 10 storeStoreLoad)).events = [(3, [0x33445566])] := by
  refine ⟨by decide, ?_⟩
  rw [(redundantStoreLoadElimination_preserves storeStoreLoad_wellFormed exampleState_small storeStoreLoad_admissible).1]
  decide

/-- A flag is stored, invalidated and read. -/
def readInvalidated : List Node :=
  [⟨4, .storeFlag 0 9⟩, ⟨5, .invalidateFlags 1⟩, ⟨7, .loadFlag 0⟩, ⟨8, .value List.sum [7]⟩]

/-- The op behind the read gets 1 in the block and 0 in its rewriting. -/
theorem readInvalidated_differs :
    WellFormed false exampleType 10 readInvalidated ∧
    (∀ i, (exampleType i).cls = .gpr → exampleState.ssa i < 256 ^ (exampleType i).size) ∧
    (run exampleSyscall exampleInline exampleState readInvalidated).events = [(8, [1])] ∧
    (run exampleSyscall exampleInline exampleState
      (redundantStoreLoadElimination false exampleType 10 readInvalidated)).events = [(8, [0])] := by
  refine ⟨⟨by decide, by decide, by decide, by decide, ?_⟩, exampleState_small, by decide, by decide⟩
  simp [readInvalidated, Typed, exampleType, numFlags]

end FexEmu.IR.RCLSE
