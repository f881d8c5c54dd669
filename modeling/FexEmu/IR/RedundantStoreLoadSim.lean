import FexEmu.IR.RedundantStoreLoadRemoval
/-!
# The records of the pass and the two runs

`Sim` relates the runs of the block and of what the pass has made of it so far. Each record says something true about the
context (`RecordOk`), and a store that may still be removed is removable.
-/
namespace FexEmu.IR.RCLSE
open Function (update_of_ne update_self)
open List (mem_append mem_singleton mem_cons_self mem_cons_of_mem mem_cons)

/-! ## Members -/

variable (avx : Bool)

theorem memberIn_mem {base size a : Nat} (hs : 0 < size) (ha : base ≤ a) :
    (memberIn base size a).offset ≤ a ∧ a < (memberIn base size a).offset + (memberIn base size a).size := by
  have hd := Nat.div_add_mod (a - base) size
  have hm := Nat.mod_lt (a - base) hs
  rw [Nat.mul_comm] at hd
  unfold memberIn
  dsimp only
  omega

theorem memberIn_eq {base size a b : Nat} (h1 : (memberIn base size a).offset ≤ b)
    (h2 : b < (memberIn base size a).offset + (memberIn base size a).size) :
    memberIn base size b = memberIn base size a := by
  unfold memberIn at *
  dsimp only at h1 h2
  have hq : (b - base) / size = (a - base) / size := by
    apply Nat.div_eq_of_lt_le
    · omega
    · rw [Nat.succ_mul]
      omega
  rw [hq]

/-- `a` is in an array of `count` members of one size. -/
structure InArray (base size count a : Nat) : Prop where
  pos : 0 < size
  lo : base ≤ a
  hi : a < base + count * size
  eq : ∀ b, base ≤ b → b < base + count * size → findMember avx b = memberIn base size b

theorem findMember_array (a : Nat) : ∃ base size count, InArray avx base size count a := by
  rcases Nat.lt_or_ge a 8 with h8 | h8
  · refine ⟨0, 8, 1, by decide, by omega, by omega, fun b _ h => ?_⟩
    simp (disch := omega) only [findMember, gregsOffset, ripOffset, if_pos]
  rcases Nat.lt_or_ge a 136 with h136 | h136
  · refine ⟨8, 8, 16, by decide, by omega, by omega, fun b _ h => ?_⟩
    simp (disch := omega) only [findMember, gregsOffset, if_pos, if_neg]
  rcases Nat.lt_or_ge a 144 with h144 | h144
  · refine ⟨136, 2, 4, by decide, by omega, by omega, fun b _ h => ?_⟩
    simp (disch := omega) only [findMember, gregsOffset, if_pos, if_neg]
  rcases Nat.lt_or_ge a 160 with h160 | h160
  · refine ⟨144, 8, 2, by decide, by omega, by omega, fun b _ h => ?_⟩
    simp (disch := omega) only [findMember, gregsOffset, xmmOffset, if_pos, if_neg]
  rcases Nat.lt_or_ge a 672 with h672 | h672
  · cases avx with
    | true =>
      refine ⟨160, 32, 16, by decide, by omega, by omega, fun b _ h => ?_⟩
      simp (disch := omega) only [findMember, gregsOffset, xmmOffset, flagsOffset, if_pos, if_neg, if_true]
    | false =>
      rcases Nat.lt_or_ge a 416 with h416 | h416
      · refine ⟨160, 16, 16, by decide, by omega, by omega, fun b _ h => ?_⟩
        simp (disch := omega) only [findMember, gregsOffset, xmmOffset, flagsOffset, if_pos, if_neg, Bool.false_eq_true,
          if_false]
      · refine ⟨416, 256, 1, by decide, by omega, by omega, fun b _ h => ?_⟩
        simp (disch := omega) only [findMember, gregsOffset, xmmOffset, flagsOffset, if_pos, if_neg, Bool.false_eq_true,
          if_false]
  rcases Nat.lt_or_ge a 720 with h720 | h720
  · refine ⟨672, 1, 48, by decide, by omega, by omega, fun b _ h => ?_⟩
    simp (disch := omega) only [findMember, gregsOffset, xmmOffset, flagsOffset, mmOffset, if_pos, if_neg]
  rcases Nat.lt_or_ge a 848 with h848 | h848
  · refine ⟨720, 16, 8, by decide, by omega, by omega, fun b _ h => ?_⟩
    simp (disch := omega) only [findMember, gregsOffset, xmmOffset, flagsOffset, mmOffset, if_pos, if_neg]
  rcases Nat.lt_or_ge a 976 with h976 | h976
  · refine ⟨848, 4, 32, by decide, by omega, by omega, fun b _ h => ?_⟩
    simp (disch := omega) only [findMember, gregsOffset, xmmOffset, flagsOffset, mmOffset, if_pos, if_neg]
  · refine ⟨976, 2, a, by decide, by omega, by omega, fun b _ h => ?_⟩
    simp (disch := omega) only [findMember, gregsOffset, xmmOffset, flagsOffset, mmOffset, if_neg]

theorem findMember_mem (a : Nat) :
    (findMember avx a).offset ≤ a ∧ a < (findMember avx a).offset + (findMember avx a).size := by
  obtain ⟨base, size, count, h⟩ := findMember_array avx a
  rw [h.eq a h.lo h.hi]
  exact memberIn_mem h.pos h.lo

theorem findMember_eq {a b : Nat} (h1 : (findMember avx a).offset ≤ b)
    (h2 : b < (findMember avx a).offset + (findMember avx a).size) : findMember avx b = findMember avx a := by
  obtain ⟨base, size, count, h⟩ := findMember_array avx a
  rw [h.eq a h.lo h.hi] at h1 h2 ⊢
  have hq : (a - base) / size < count := by
    rw [Nat.div_lt_iff_lt_mul h.pos]
    have := h.lo
    have := h.hi
    omega
  have hend : ((a - base) / size + 1) * size ≤ count * size := Nat.mul_le_mul_right size hq
  rw [h.eq b]
  · exact memberIn_eq h1 h2
  · exact Nat.le_trans (Nat.le_add_right _ _) h1
  · unfold memberIn at h2
    dsimp only at h2
    rw [Nat.succ_mul] at hend
    omega

theorem findMember_flag {flag : Nat} (h : flag < numFlags) :
    findMember avx (flagsOffset + flag) = ⟨flagsOffset + flag, 1⟩ := by
  unfold numFlags at h
  simp (disch := omega) only [findMember, gregsOffset, xmmOffset, flagsOffset, mmOffset, if_pos, if_neg, memberIn,
    Nat.add_sub_cancel_left, Nat.div_one, Nat.mul_one]

theorem isFlagByte_iff {a : Nat} : isFlagByte a = true ↔ ∃ flag, flag < numFlags ∧ a = flagsOffset + flag := by
  unfold isFlagByte
  simp only [Bool.and_eq_true, decide_eq_true_eq]
  constructor
  · rintro ⟨h1, h2⟩
    exact ⟨a - flagsOffset, by omega, by omega⟩
  · rintro ⟨flag, h, rfl⟩
    omega

/-- An access to `size` bytes that stays inside the member of its offset. -/
def Inside (offset size : Nat) : Prop :=
  0 < size ∧ offset + size ≤ (findMember avx offset).offset + (findMember avx offset).size

theorem Inside.apart {o z o' z' : Nat} (h : Inside avx o z) (h' : Inside avx o' z')
    (hne : (findMember avx o).offset ≠ (findMember avx o').offset) : o + z ≤ o' ∨ o' + z' ≤ o := by
  by_contra hc
  have hm := findMember_mem avx o
  have hm' := findMember_mem avx o'
  obtain ⟨h1, h2⟩ := h
  obtain ⟨h1', h2'⟩ := h'
  have e := findMember_eq avx (a := o) (b := max o o') (by omega) (by omega)
  have e' := findMember_eq avx (a := o') (b := max o o') (by omega) (by omega)
  rw [← e, ← e'] at hne
  exact hne rfl

/-! ## Blocks the pass may meet -/

/-- The flag at `a` is marked. -/
def InvalidByte (inv : Nat → Bool) (a : Nat) : Prop := isFlagByte a = true ∧ inv (a - flagsOffset) = true

def Op.hasDest : Op → Bool
  | .storeContext .. | .storeFlag .. | .invalidateFlags _ | .storeContextIndexed .. | .brk => false
  | _ => true

/-- The types of an op fit, and its accesses stay inside a member. -/
def Typed (type : NodeID → NodeType) (n : Node) : Prop :=
  match n.op with
  | .storeContext cls size offset v => (type v).cls = cls ∧ (type n.id).size = size ∧ Inside avx offset size
  | .loadContext cls size offset => type n.id = ⟨cls, size⟩ ∧ Inside avx offset size
  | .storeFlag flag v => (type v).cls = .gpr ∧ (type n.id).size = 1 ∧ flag < numFlags
  | .loadFlag flag => type n.id = ⟨.gpr, 1⟩ ∧ flag < numFlags
  | .constant _ | .bfe _ _ | .vmov _ _ => False
  | _ => True

/-- A block in SSA form whose nodes, and those it uses, are numbered below `bound`. -/
structure WellFormed (type : NodeID → NodeType) (bound : NodeID) (block : List Node) : Prop where
  ids : block.Pairwise (fun n m => n.id ≠ m.id)
  bounded : ∀ n ∈ block, n.id < bound
  args : ∀ n ∈ block, ∀ a ∈ n.op.args, a < bound ∧ a ≠ n.id
  dominates : block.Pairwise (fun n m => ∀ a ∈ n.op.args, a ≠ m.id)
  typed : ∀ n ∈ block, Typed avx type n

variable (sys : SyscallHandler) (inline : InlineHandler) (type : NodeID → NodeType)

/-- An op may not read a marked flag, access a flag as a vector, store more than a byte to a flag, or store a vector that is
not zero above its op size to a larger place or a whole member. -/
def OpOk (s : State) (n : Node) : Prop :=
  (n.op.hasDest = true → (type n.id).cls = .gpr → (exec sys inline s n).ssa n.id < 256 ^ (type n.id).size) ∧
  match n.op with
  | .storeContext cls size offset v =>
    (isFlagByte offset = true → cls = .gpr ∧ s.ssa v < 256) ∧
    (cls = .fpr → (type v).size < size ∨ (type v).size = size ∧ size = (findMember avx offset).size →
      s.ssa v < 256 ^ (type v).size)
  | .loadContext cls _ offset => isFlagByte offset = true → cls = .gpr ∧ ¬ InvalidByte s.invalid offset
  | .storeFlag _ v => s.ssa v < 256
  | .loadFlag flag => ¬ InvalidByte s.invalid (flagsOffset + flag)
  | .loadContextIndexed size base stride i =>
    ∀ a, base + s.ssa i * stride ≤ a → a < base + s.ssa i * stride + size → ¬ InvalidByte s.invalid a
  | .syscall false as =>
    ∀ c, (∀ a, ¬ InvalidByte s.invalid a → c a = s.ctx a) →
      (sys c (as.map s.ssa)).2 = (sys s.ctx (as.map s.ssa)).2 ∧
      ∀ a, ¬ InvalidByte s.invalid a → (sys c (as.map s.ssa)).1 a = (sys s.ctx (as.map s.ssa)).1 a
  | _ => True

/-- Every op of the run is one the pass may meet. -/
def Admissible : State → List Node → Prop
  | _, [] => True
  | s, n :: ns => OpOk avx sys inline type s n ∧ Admissible (exec sys inline s n) ns

/-! ## The relation -/

/-- The nodes nothing uses any more: those with a replacement, and the load the
pass is about to replace. -/
def Dead (p : Pass) (limbo : Option NodeID) (i : NodeID) : Prop := p.subst i ≠ i ∨ limbo = some i

/-- A node that a record, or a replacement, may name. -/
structure Live (p : Pass) (limbo : Option NodeID) (rest : List Node) (i : NodeID) : Prop where
  alive : ¬ Dead p limbo i
  past : ∀ n ∈ rest, n.id ≠ i
  known : i < p.next

/-- What a record says, in the context `c` of the block and under the values `e` of the rewritten block. -/
structure Active (type : NodeID → NodeType) (inv : Nat → Bool) (c : Context) (e : NodeID → Value) (k : Nat)
    (r : MemberInfo) : Prop where
  inside : Inside avx r.offset r.size
  member : (findMember avx r.offset).offset = k
  cls : (type r.node).cls = r.cls
  flag : isFlagByte k = true → r.cls = .gpr ∧ (¬ InvalidByte inv k → e r.node < 256)
  written : r.accessed = .write → ¬ InvalidByte inv k →
    loadBytes c r.offset r.size = e r.node % 256 ^ r.size ∧
    ∃ st, r.storeNode = some st ∧ (type st).size = r.size
  loaded : r.accessed = .read → ¬ InvalidByte inv k → loadBytes c r.offset r.size = e r.node
  fprWritten : r.accessed = .write → r.cls = .fpr →
    (type r.node).size < r.size ∨ (type r.node).size = r.size ∧ r.size = (findMember avx r.offset).size →
    e r.node < 256 ^ (type r.node).size
  fprLoaded : r.accessed = .read → r.cls = .fpr → (type r.node).size = r.size

/-- The record of the member at `k`. -/
structure RecordOk (p : Pass) (limbo : Option NodeID) (rest : List Node) (inv : Nat → Bool) (c : Context)
    (e : NodeID → Value) (k : Nat) (r : MemberInfo) : Prop where
  idle : r.accessed = .none ∨ r.accessed = .invalid → r.storeNode = none
  live : r.accessed = .write ∨ r.accessed = .read → Live p limbo rest r.node
  active : r.accessed = .write ∨ r.accessed = .read → Active avx p.type inv c e k r
  store : ∀ st, r.storeNode = some st → (∀ n ∈ rest, n.id ≠ st) ∧ st < p.next
  flagStore : ∀ st, r.storeNode = some st → isFlagByte k = true → Removable (Dead p limbo) p.done st k (k + 1)
  lastStore : ∀ st, r.storeNode = some st → r.accessed = .write →
    Removable (Dead p limbo) p.done st r.offset (r.offset + r.size)

/-- How the nodes of the rewritten block are numbered, and which of them replace others. -/
structure Numbers (type : NodeID → NodeType) (bound : NodeID) (p : Pass) (limbo : Option NodeID) (rest : List Node) :
    Prop where
  next : bound ≤ p.next
  bounded : ∀ n ∈ rest, n.id < bound
  future : ∀ n ∈ rest, p.subst n.id = n.id ∧ limbo ≠ some n.id
  fresh : ∀ i, bound ≤ i → p.subst i = i ∧ limbo ≠ some i
  idem : ∀ i, i < bound → limbo ≠ some i → ¬ Dead p limbo (p.subst i)
  past : ∀ i, i < bound → (∀ n ∈ rest, n.id ≠ i) → limbo ≠ some i → Live p limbo rest (p.subst i)
  ids : ∀ n ∈ p.done, (∀ m ∈ rest, m.id ≠ n.id) ∧ n.id < p.next
  args : ∀ n ∈ p.done, ∀ a ∈ n.op.args, ¬ Dead p limbo a ∧ (∀ m ∈ rest, m.id ≠ a) ∧ a < p.next
  typeOf : ∀ i, i < bound → p.type i = type i
  cls : ∀ i, i < bound → limbo ≠ some i → (p.type (p.subst i)).cls = (type i).cls
  fprSize : ∀ i, i < bound → limbo ≠ some i → (type i).cls = .fpr → (p.type (p.subst i)).size = (type i).size

/-- The block so far ends in `s`, its rewriting in `t`. In the bytes of `hole` the contexts may differ. -/
structure Sim (type : NodeID → NodeType) (bound : NodeID) (hole : Nat → Prop) (limbo : Option NodeID) (p : Pass)
    (rest : List Node) (s t : State) : Prop where
  numbers : Numbers type bound p limbo rest
  events : t.events = s.events
  ctx : ∀ a, ¬ InvalidByte s.invalid a → ¬ hole a → t.ctx a = s.ctx a
  ssa : ∀ i, i < bound → limbo ≠ some i → t.ssa (p.subst i) = s.ssa i
  small : ∀ i, ¬ Dead p limbo i → (p.type i).cls = .gpr → t.ssa i < 256 ^ (p.type i).size
  records : ∀ k, RecordOk avx p limbo rest s.invalid s.ctx t.ssa k (p.info k)

/-! ## Moves of the pass -/

theorem run_push (s : State) (ns : List Node) (n : Node) :
    run sys inline s (ns ++ [n]) = exec sys inline (run sys inline s ns) n := List.foldl_append

theorem exec_ssa_of_ne (s : State) {n : Node} {i : NodeID} (h : i ≠ n.id) :
    (exec sys inline s n).ssa i = s.ssa i := by
  obtain ⟨j, op⟩ := n
  cases op with
  | syscall through as => cases through <;> exact update_of_ne h _ _
  | storeContext cls size offset v => rfl
  | storeFlag flag v => rfl
  | invalidateFlags flags => rfl
  | storeContextIndexed size base stride i v => rfl
  | brk => rfl
  | _ => exact update_of_ne h _ _

section Moves

variable {avx type} {bound : NodeID} {p p' : Pass} {limbo limbo' : Option NodeID} {rest : List Node} {s s₀ t : State}
  {hole : Nat → Prop} {k : Nat} {r : MemberInfo} {inv inv' : Nat → Bool} {c c' : Context} {e e' : NodeID → Value}

theorem Active.frame {type' : NodeID → NodeType} (h : Active avx type inv c e k r)
    (htype : type' r.node = type r.node) (hst : ∀ st, r.storeNode = some st → type' st = type st)
    (he : e' r.node = e r.node) (hinv : ¬ InvalidByte inv' k → ¬ InvalidByte inv k)
    (hc : ∀ a, r.offset ≤ a → a < r.offset + r.size → c' a = c a) : Active avx type' inv' c' e' k r where
  inside := h.inside
  member := h.member
  cls := by rw [htype]; exact h.cls
  flag := fun hf => ⟨(h.flag hf).1, fun hv => by rw [he]; exact (h.flag hf).2 (hinv hv)⟩
  written := by
    intro hw hv
    obtain ⟨hl, st, hs, hz⟩ := h.written hw (hinv hv)
    rw [he, loadBytes_congr hc]
    exact ⟨hl, st, hs, by rw [hst st hs]; exact hz⟩
  loaded := fun hr hv => by rw [he, loadBytes_congr hc]; exact h.loaded hr (hinv hv)
  fprWritten := by rw [htype, he]; exact h.fprWritten
  fprLoaded := by rw [htype]; exact h.fprLoaded

theorem Active.of_ssa (h : Active avx type inv c e k r) (he : e' r.node = e r.node) : Active avx type inv c e' k r :=
  h.frame rfl (fun _ _ => rfl) he id (fun _ _ _ => rfl)

theorem Live.congr {i : NodeID} (h : Live p limbo rest i) (hs : p'.subst = p.subst) (hn : p.next ≤ p'.next) :
    Live p' limbo rest i where
  alive := by
    unfold Dead
    rw [hs]
    exact h.alive
  past := h.past
  known := Nat.lt_of_lt_of_le h.known hn

/-- Taking out a store the pass no longer needs opens a hole in the context. -/
theorem Sim.remove (h : Sim avx type bound hole limbo p rest s (run sys inline s₀ p.done)) {st lo hi : Nat}
    (hr : Removable (Dead p limbo) p.done st lo hi) :
    Sim avx type bound (fun a => hole a ∨ lo ≤ a ∧ a < hi) limbo (p.remove st) rest s
      (run sys inline s₀ (p.remove st).done) := by
  have hag := hr.run sys inline s₀
  have hn := h.numbers
  have hmem : ∀ n ∈ (p.remove st).done, n ∈ p.done := fun n hm => List.mem_of_mem_filter hm
  exact {
    numbers := ⟨hn.next, hn.bounded, hn.future, hn.fresh, hn.idem,
      fun i h1 h2 h3 => (hn.past i h1 h2 h3).congr rfl (Nat.le_refl _),
      fun n hm => hn.ids n (hmem n hm), fun n hm => hn.args n (hmem n hm), hn.typeOf, hn.cls, hn.fprSize⟩
    events := hag.events.trans h.events
    ctx := fun a hv hh => (hag.ctx a (fun hc => hh (.inr hc))).trans (h.ctx a hv (fun hc => hh (.inl hc)))
    ssa := fun i h1 h2 => (hag.ssa _ (hn.idem i h1 h2)).trans (h.ssa i h1 h2)
    small := fun i h1 h2 => (hag.ssa i h1).symm ▸ h.small i h1 h2
    records := by
      intro k
      have hk := h.records k
      exact {
        idle := hk.idle
        live := fun ha => (hk.live ha).congr rfl (Nat.le_refl _)
        active := fun ha => (hk.active ha).of_ssa (hag.ssa _ (hk.live ha).alive)
        store := hk.store
        flagStore := fun st' hs hf => (hk.flagStore st' hs hf).filter _
        lastStore := fun st' hs hw => (hk.lastStore st' hs hw).filter _ } }

theorem RecordOk.of_info (h : RecordOk avx p limbo rest inv c e k r) (f : Nat → MemberInfo) :
    RecordOk avx { p with info := f } limbo rest inv c e k r :=
  ⟨h.idle, fun ha => (h.live ha).congr rfl (Nat.le_refl _), h.active, h.store, h.flagStore, h.lastStore⟩

theorem Numbers.of_info (h : Numbers type bound p limbo rest) (f : Nat → MemberInfo) :
    Numbers type bound { p with info := f } limbo rest :=
  ⟨h.next, h.bounded, h.future, h.fresh, h.idem, fun i h1 h2 h3 => (h.past i h1 h2 h3).congr rfl (Nat.le_refl _),
    h.ids, h.args, h.typeOf, h.cls, h.fprSize⟩

theorem Sim.setInfo (h : Sim avx type bound hole limbo p rest s t)
    (hr : RecordOk avx p limbo rest s.invalid s.ctx t.ssa k r) :
    Sim avx type bound hole limbo (p.setInfo k r) rest s t where
  numbers := h.numbers.of_info _
  events := h.events
  ctx := h.ctx
  ssa := h.ssa
  small := h.small
  records := by
    intro j
    unfold Pass.setInfo
    by_cases hjk : j = k
    · subst hjk
      simp only [update_self]
      exact hr.of_info _
    · simp only [update_of_ne hjk]
      exact (h.records j).of_info _

theorem Numbers.subst_lt (h : Numbers type bound p limbo rest) {i : NodeID} (hi : i < bound) (hl : limbo ≠ some i) :
    p.subst i < p.next := by
  by_cases hf : ∃ n ∈ rest, n.id = i
  · obtain ⟨n, hn, rfl⟩ := hf
    rw [(h.future n hn).1]
    exact Nat.lt_of_lt_of_le hi h.next
  · exact (h.past i hi (fun n hn he => hf ⟨n, hn, he⟩) hl).known

/-! ### Inserting -/

def Op.isInserted : Op → Bool
  | .constant _ | .bfe _ _ | .vmov _ _ => true
  | _ => false

theorem exec_inserted {op : Op} (h : op.isInserted = true) (u : State) (i : NodeID) :
    ∃ v, exec sys inline u ⟨i, op⟩ = u.set i v := by
  cases op with
  | constant v => exact ⟨_, rfl⟩
  | bfe width src => exact ⟨_, rfl⟩
  | vmov size src => exact ⟨_, rfl⟩
  | _ => cases h

theorem quiet_inserted {op : Op} (h : op.isInserted = true) {dead : NodeID → Prop} (i : NodeID) (lo hi : Nat)
    (hargs : ∀ a ∈ op.args, ¬ dead a) : Quiet dead lo hi ⟨i, op⟩ := by
  refine ⟨hargs, ?_⟩
  cases op <;> trivial

theorem Sim.insert (h : Sim avx type bound hole limbo p rest s (run sys inline s₀ p.done)) (ty : NodeType) (op : Op)
    (hop : op.isInserted = true) (hargs : ∀ a ∈ op.args, Live p limbo rest a)
    (hsmall : ty.cls = .gpr → (exec sys inline (run sys inline s₀ p.done) ⟨p.next, op⟩).ssa p.next < 256 ^ ty.size) :
    Sim avx type bound hole limbo (p.insert ty op) rest s (run sys inline s₀ (p.insert ty op).done) := by
  have hn := h.numbers
  have hrun : run sys inline s₀ (p.insert ty op).done = exec sys inline (run sys inline s₀ p.done) ⟨p.next, op⟩ :=
    run_push ..
  rw [hrun]
  obtain ⟨v, hv⟩ := exec_inserted sys inline hop (run sys inline s₀ p.done) p.next
  rw [hv] at hsmall ⊢
  have hssa : ∀ i, i < p.next → ((run sys inline s₀ p.done).set p.next v).ssa i = (run sys inline s₀ p.done).ssa i :=
    fun i hi => update_of_ne (Nat.ne_of_lt hi) _ _
  have htype : ∀ i, i < p.next → (p.insert ty op).type i = p.type i :=
    fun i hi => update_of_ne (Nat.ne_of_lt hi) _ _
  -- the new op reads and writes nothing of the context, so a store that could be removed still can
  have hpush : ∀ st lo hi, st < p.next → Removable (Dead p limbo) p.done st lo hi →
      Removable (Dead (p.insert ty op) limbo) (p.insert ty op).done st lo hi := fun st lo hi hst hr =>
    hr.push (Nat.ne_of_gt hst) (quiet_inserted hop _ lo hi (fun a ha => (hargs a ha).alive))
  exact {
    numbers := {
      next := Nat.le_succ_of_le hn.next
      bounded := hn.bounded
      future := hn.future
      fresh := hn.fresh
      idem := hn.idem
      past := fun i h1 h2 h3 => (hn.past i h1 h2 h3).congr rfl (Nat.le_succ _)
      ids := by
        intro n hm
        rcases mem_append.1 hm with hm | hm
        · exact ⟨(hn.ids n hm).1, Nat.lt_succ_of_lt (hn.ids n hm).2⟩
        · rw [mem_singleton.1 hm]
          exact ⟨fun m hm => Nat.ne_of_lt (Nat.lt_of_lt_of_le (hn.bounded m hm) hn.next), Nat.lt_succ_self _⟩
      args := by
        intro n hm a ha
        rcases mem_append.1 hm with hm | hm
        · exact ⟨(hn.args n hm a ha).1, (hn.args n hm a ha).2.1, Nat.lt_succ_of_lt (hn.args n hm a ha).2.2⟩
        · rw [mem_singleton.1 hm] at ha
          exact ⟨(hargs a ha).alive, (hargs a ha).past, Nat.lt_succ_of_lt (hargs a ha).known⟩
      typeOf := fun i hi => (htype i (Nat.lt_of_lt_of_le hi hn.next)).trans (hn.typeOf i hi)
      cls := fun i h1 h2 => by
        rw [htype _ (show (p.insert ty op).subst i < p.next from hn.subst_lt h1 h2)]
        exact hn.cls i h1 h2
      fprSize := fun i h1 h2 h3 => by
        rw [htype _ (show (p.insert ty op).subst i < p.next from hn.subst_lt h1 h2)]
        exact hn.fprSize i h1 h2 h3 }
    events := h.events
    ctx := h.ctx
    ssa := fun i h1 h2 => (hssa _ (hn.subst_lt h1 h2)).trans (h.ssa i h1 h2)
    small := by
      intro i hd hc
      by_cases hi : i = p.next
      · subst hi
        have hty : (p.insert ty op).type p.next = ty := update_self ..
        rw [hty] at hc ⊢
        exact hsmall hc
      · have hty : (p.insert ty op).type i = p.type i := update_of_ne hi _ _
        have hs : ((run sys inline s₀ p.done).set p.next v).ssa i = (run sys inline s₀ p.done).ssa i :=
          update_of_ne hi _ _
        rw [hty] at hc ⊢
        rw [hs]
        exact h.small i hd hc
    records := by
      intro k
      have hk := h.records k
      exact {
        idle := hk.idle
        live := fun ha => (hk.live ha).congr rfl (Nat.le_succ _)
        active := fun ha => (hk.active ha).frame (htype _ (hk.live ha).known) (fun st hs => htype st (hk.store st hs).2)
          (hssa _ (hk.live ha).known) id (fun _ _ _ => rfl)
        store := fun st hs => ⟨(hk.store st hs).1, Nat.lt_succ_of_lt (hk.store st hs).2⟩
        flagStore := fun st hs hf => hpush st _ _ (hk.store st hs).2 (hk.flagStore st hs hf)
        lastStore := fun st hs hw => hpush st _ _ (hk.store st hs).2 (hk.lastStore st hs hw) } }

/-! ### Replacing -/

theorem Sim.replaceUses {x node : NodeID} (h : Sim avx type bound hole (some x) p rest s t) (hlive : Live p (some x) rest node)
    (hrest : ∀ m ∈ rest, m.id ≠ x) (hval : t.ssa node = s.ssa x) (hcls : (p.type node).cls = (type x).cls)
    (hsize : (type x).cls = .fpr → (p.type node).size = (type x).size) :
    Sim avx type bound hole none (p.replaceUses x node) rest s t := by
  have hn := h.numbers
  have hne : node ≠ x := fun he => hlive.alive (.inr (by rw [he]))
  have hself : (p.replaceUses x node).subst x = node := update_self ..
  have hother : ∀ i, i ≠ x → (p.replaceUses x node).subst i = p.subst i := fun i hi => update_of_ne hi _ _
  -- the load leaves limbo as a replaced node
  have hdead : Dead (p.replaceUses x node) none = Dead p (some x) := by
    funext i
    apply propext
    unfold Dead
    by_cases hi : i = x
    · subst hi
      rw [hself]
      exact ⟨fun _ => .inr rfl, fun _ => .inl hne⟩
    · rw [hother i hi]
      simp [Ne.symm hi]
  have hsome : ∀ i, i ≠ x → (some x : Option NodeID) ≠ some i := fun i hi he => hi (Option.some.inj he).symm
  have hlive' : ∀ i, Live p (some x) rest i → Live (p.replaceUses x node) none rest i := fun i hi =>
    ⟨hdead ▸ hi.alive, hi.past, hi.known⟩
  exact {
    numbers := {
      next := hn.next
      bounded := hn.bounded
      future := fun m hm => ⟨by rw [hother _ (hrest m hm)]; exact (hn.future m hm).1, by simp⟩
      fresh := fun i hi => by
        have hix : i ≠ x := fun he => (hn.fresh i hi).2 (by rw [he])
        exact ⟨by rw [hother i hix]; exact (hn.fresh i hi).1, by simp⟩
      idem := by
        intro i hi _
        rw [hdead]
        by_cases hix : i = x
        · rw [hix, hself]
          exact hlive.alive
        · rw [hother i hix]
          exact hn.idem i hi (hsome i hix)
      past := by
        intro i hi hr _
        by_cases hix : i = x
        · rw [hix, hself]
          exact hlive' node hlive
        · rw [hother i hix]
          exact hlive' _ (hn.past i hi hr (hsome i hix))
      ids := hn.ids
      args := by rw [hdead]; exact hn.args
      typeOf := hn.typeOf
      cls := by
        intro i hi _
        by_cases hix : i = x
        · rw [hix, hself]
          exact hcls
        · rw [hother i hix]
          exact hn.cls i hi (hsome i hix)
      fprSize := by
        intro i hi _ hf
        by_cases hix : i = x
        · rw [hix, hself]
          rw [hix] at hf
          exact hsize hf
        · rw [hother i hix]
          exact hn.fprSize i hi (hsome i hix) hf }
    events := h.events
    ctx := h.ctx
    ssa := by
      intro i hi _
      by_cases hix : i = x
      · rw [hix, hself]
        exact hval
      · rw [hother i hix]
        exact h.ssa i hi (hsome i hix)
    small := by rw [hdead]; exact h.small
    records := by
      intro k
      have hk := h.records k
      exact {
        idle := hk.idle
        live := fun ha => hlive' _ (hk.live ha)
        active := hk.active
        store := hk.store
        flagStore := by rw [hdead]; exact hk.flagStore
        lastStore := by rw [hdead]; exact hk.lastStore } }

/-! ### Pushing the visited op -/

variable {n : Node} {op : Op}

/-- While an op is visited its node may be in limbo. -/
def LimboOf (n : Node) (limbo : Option NodeID) : Prop := limbo = none ∨ limbo = some n.id

theorem LimboOf.ne (h : LimboOf n limbo) {i : NodeID} (hi : i ≠ n.id) : limbo ≠ some i := by
  rcases h with rfl | rfl
  · simp
  · exact fun he => hi (Option.some.inj he).symm

theorem LimboOf.alive (h : LimboOf n limbo) {i : NodeID} (ha : ¬ Dead p none i) (hi : i ≠ n.id) :
    ¬ Dead p limbo i := fun hd => hd.elim (fun hs => ha (.inl hs)) (h.ne hi)

theorem Live.push {i : NodeID} (h : Live p none (n :: rest) i) (hl : LimboOf n limbo) (m : Node) :
    Live (p.push m) limbo rest i where
  alive := hl.alive h.alive (h.past n mem_cons_self).symm
  past := fun m hm => h.past m (mem_cons_of_mem _ hm)
  known := h.known

theorem Numbers.subst_ne (h : Numbers type bound p none (n :: rest)) (hids : ∀ m ∈ rest, m.id ≠ n.id) {i : NodeID}
    (hi : i < bound) (hin : i ≠ n.id) : p.subst i ≠ n.id := by
  by_cases hf : ∃ m ∈ rest, m.id = i
  · obtain ⟨m, hm, rfl⟩ := hf
    rw [(h.future m (mem_cons_of_mem _ hm)).1]
    exact hids m hm
  · refine ((h.past i hi ?_ (by simp)).past n mem_cons_self).symm
    intro m hm he
    rcases mem_cons.1 hm with rfl | hm
    · exact hin he.symm
    · exact hf ⟨m, hm, he⟩

theorem Numbers.push (h : Numbers type bound p none (n :: rest)) (hl : LimboOf n limbo)
    (hids : ∀ m ∈ rest, m.id ≠ n.id) (hargs : ∀ a ∈ op.args, Live p none (n :: rest) a) :
    Numbers type bound (p.push ⟨n.id, op⟩) limbo rest where
  next := h.next
  bounded := fun m hm => h.bounded m (mem_cons_of_mem _ hm)
  future := fun m hm => ⟨(h.future m (mem_cons_of_mem _ hm)).1, hl.ne (hids m hm)⟩
  fresh := fun i hi => ⟨(h.fresh i hi).1, hl.ne (fun he => by
    have hb := h.bounded n mem_cons_self
    rw [← he] at hb
    exact Nat.not_lt.2 hi hb)⟩
  idem := by
    intro i hi hne
    by_cases hin : i = n.id
    · subst hin
      have hsub := (h.future n mem_cons_self).1
      have hsub' : (p.push ⟨n.id, op⟩).subst n.id = n.id := hsub
      rw [hsub']
      exact fun hd => hd.elim (fun hs => hs hsub) hne
    · exact hl.alive (h.idem i hi (by simp)) (h.subst_ne hids hi hin)
  past := by
    intro i hi hr hne
    by_cases hin : i = n.id
    · subst hin
      have hsub := (h.future n mem_cons_self).1
      have hsub' : (p.push ⟨n.id, op⟩).subst n.id = n.id := hsub
      rw [hsub']
      exact ⟨fun hd => hd.elim (fun hs => hs hsub) hne, hr, Nat.lt_of_lt_of_le hi h.next⟩
    · refine (h.past i hi ?_ (by simp)).push hl _
      intro m hm
      rcases mem_cons.1 hm with rfl | hm
      · exact Ne.symm hin
      · exact hr m hm
  ids := by
    intro m hm
    rcases mem_append.1 hm with hm | hm
    · exact ⟨fun m' hm' => (h.ids m hm).1 m' (mem_cons_of_mem _ hm'), (h.ids m hm).2⟩
    · rw [mem_singleton.1 hm]
      exact ⟨hids, Nat.lt_of_lt_of_le (h.bounded n mem_cons_self) h.next⟩
  args := by
    intro m hm a ha
    have hlive : Live p none (n :: rest) a := by
      rcases mem_append.1 hm with hm | hm
      · exact ⟨(h.args m hm a ha).1, (h.args m hm a ha).2.1, (h.args m hm a ha).2.2⟩
      · rw [mem_singleton.1 hm] at ha
        exact hargs a ha
    exact ⟨(hlive.push hl ⟨n.id, op⟩).alive, (hlive.push hl ⟨n.id, op⟩).past, hlive.known⟩
  typeOf := h.typeOf
  cls := fun i hi _ => h.cls i hi (by simp)
  fprSize := fun i hi _ => h.fprSize i hi (by simp)

theorem Removable.pushVisited {st lo hi : Nat} (h : Removable (Dead p none) p.done st lo hi)
    (hnum : Numbers type bound p none (n :: rest)) (hl : LimboOf n limbo) (hst : n.id ≠ st)
    (hq : Quiet (Dead p limbo) lo hi ⟨n.id, op⟩) :
    Removable (Dead (p.push ⟨n.id, op⟩) limbo) (p.push ⟨n.id, op⟩).done st lo hi := by
  have hm : Removable (Dead p limbo) p.done st lo hi := by
    refine h.mono (fun i hd => ?_) (fun m hm a ha => ?_)
    · exact .inl (hd.resolve_right (by simp))
    · have harg := hnum.args m hm a ha
      exact hl.alive harg.1 (harg.2.1 n mem_cons_self).symm
  exact hm.push hst hq

theorem RecordOk.push (h : RecordOk avx p none (n :: rest) s.invalid s.ctx t.ssa k r)
    (hnum : Numbers type bound p none (n :: rest)) (hl : LimboOf n limbo)
    (hinv : ¬ InvalidByte (exec sys inline s n).invalid k → ¬ InvalidByte s.invalid k)
    (hctx : r.accessed = .write ∨ r.accessed = .read →
      ∀ a, r.offset ≤ a → a < r.offset + r.size → (exec sys inline s n).ctx a = s.ctx a)
    (hflag : isFlagByte k = true → r.storeNode ≠ none → Quiet (Dead p limbo) k (k + 1) ⟨n.id, op⟩)
    (hlast : r.accessed = .write → Quiet (Dead p limbo) r.offset (r.offset + r.size) ⟨n.id, op⟩) :
    RecordOk avx (p.push ⟨n.id, op⟩) limbo rest (exec sys inline s n).invalid (exec sys inline s n).ctx
      (exec sys inline t ⟨n.id, op⟩).ssa k r where
  idle := h.idle
  live := fun ha => (h.live ha).push hl _
  active := fun ha => (h.active ha).frame rfl (fun _ _ => rfl)
    (exec_ssa_of_ne sys inline t ((h.live ha).past n mem_cons_self).symm) hinv (hctx ha)
  store := fun st hs => ⟨fun m hm => (h.store st hs).1 m (mem_cons_of_mem _ hm), (h.store st hs).2⟩
  flagStore := fun st hs hf => (h.flagStore st hs hf).pushVisited hnum hl ((h.store st hs).1 n mem_cons_self)
    (hflag hf (by rw [hs]; simp))
  lastStore := fun st hs hw => (h.lastStore st hs hw).pushVisited hnum hl ((h.store st hs).1 n mem_cons_self)
    (hlast hw)

theorem Sim.push (h : Sim avx type bound hole none p (n :: rest) s t) (hole' : Nat → Prop) (info : Nat → MemberInfo)
    (hl : LimboOf n limbo) (hids : ∀ m ∈ rest, m.id ≠ n.id) (hargs : ∀ a ∈ op.args, Live p none (n :: rest) a)
    (hev : (exec sys inline t ⟨n.id, op⟩).events = (exec sys inline s n).events)
    (hctx : ∀ a, ¬ InvalidByte (exec sys inline s n).invalid a → ¬ hole' a →
      (exec sys inline t ⟨n.id, op⟩).ctx a = (exec sys inline s n).ctx a)
    (hval : limbo = none → (exec sys inline t ⟨n.id, op⟩).ssa n.id = (exec sys inline s n).ssa n.id)
    (hsmall : limbo = none → (type n.id).cls = .gpr → (exec sys inline s n).ssa n.id < 256 ^ (type n.id).size)
    (hrec : ∀ k, RecordOk avx (p.push ⟨n.id, op⟩) limbo rest (exec sys inline s n).invalid (exec sys inline s n).ctx
      (exec sys inline t ⟨n.id, op⟩).ssa k (info k)) :
    Sim avx type bound hole' limbo { p.push ⟨n.id, op⟩ with info := info } rest (exec sys inline s n)
      (exec sys inline t ⟨n.id, op⟩) where
  numbers := (h.numbers.push hl hids hargs).of_info info
  events := hev
  ctx := hctx
  ssa := by
    intro i hi hne
    by_cases hin : i = n.id
    · subst hin
      have hsub : p.subst n.id = n.id := (h.numbers.future n mem_cons_self).1
      show (exec sys inline t ⟨n.id, op⟩).ssa (p.subst n.id) = _
      rw [hsub]
      refine hval ?_
      exact hl.resolve_right hne
    · have hsub : p.subst i ≠ n.id := h.numbers.subst_ne hids hi hin
      rw [exec_ssa_of_ne sys inline s hin]
      exact (exec_ssa_of_ne sys inline t (n := ⟨n.id, op⟩) hsub).trans (h.ssa i hi (by simp))
  small := by
    intro i hd hc
    by_cases hin : i = n.id
    · subst hin
      have hnone : limbo = none := hl.resolve_right (fun he => hd (.inr he))
      have hty : p.type n.id = type n.id := h.numbers.typeOf n.id (h.numbers.bounded n mem_cons_self)
      have hc' : (p.type n.id).cls = .gpr := hc
      show _ < 256 ^ (p.type n.id).size
      rw [hty] at hc' ⊢
      rw [hval hnone]
      exact hsmall hnone hc'
    · rw [exec_ssa_of_ne sys inline t (n := ⟨n.id, op⟩) hin]
      exact h.small i (fun hd' => hd (.inl (hd'.resolve_right (by simp)))) hc
  records := fun k => (hrec k).of_info info

end Moves

end FexEmu.IR.RCLSE
