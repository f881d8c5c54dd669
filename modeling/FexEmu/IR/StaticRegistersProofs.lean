import FexEmu.IR.StaticRegisters
/-!
# Placing nodes in static registers is sound

`Tracked` is what the pass knows about the registers, `Rel` relates the runs with and without the placement: a static register
differs only while a pre-write waits for its store.
-/
namespace FexEmu.IR.SRA

open Function (update_apply update_of_ne update_self)
open List (mem_cons mem_cons_of_mem mem_cons_self mem_singleton)

variable {avx : Bool} {isGlobal : NodeID → Bool} {nodeCls : NodeID → Option RegisterClass}

/-! ## Blocks -/

/-- A node that stores a value to all of a static register. -/
def FullStore (avx : Bool) (n : Node) (v : NodeID) (r : PhysicalRegister) : Prop :=
  ∃ offset cls staticCls size, n.op = .storeRegister v offset cls staticCls size ∧
    getRegAndClassFromOffset avx offset = some r ∧ isPreWritable size staticCls = true

/-- The static class of a class. -/
def Fixed (cls staticCls : RegisterClass) : Prop :=
  cls = .gpr ∧ staticCls = .gprFixed ∨ cls = .fpr ∧ staticCls = .fprFixed

/-- The accesses are to static registers of the class of their node, and one of a whole register
starts where it does. -/
def Typed (avx : Bool) (isGlobal : NodeID → Bool) (block : List Node) (n : Node) : Prop :=
  match n.op with
  | .loadRegister offset cls staticCls _ =>
    Fixed cls staticCls ∧ ∃ r, getRegAndClassFromOffset avx offset = some r ∧ r.cls = staticCls
  | .storeRegister v offset cls staticCls size =>
    Fixed cls staticCls ∧
    (∃ r, getRegAndClassFromOffset avx offset = some r ∧ r.cls = staticCls ∧
      (size = r.cls.regSize → r.regOffs offset = 0)) ∧
    (isGlobal v = false → ∃ m ∈ block, m.id = v ∧ m.op.dest = some cls)
  | .value _ _ _ => True

/-- A block in SSA form. -/
structure WellFormed (avx : Bool) (isGlobal : NodeID → Bool) (block : List Node) : Prop where
  ids : block.Pairwise (fun n m => n.id ≠ m.id)
  args : ∀ n ∈ block, ∀ a ∈ n.op.args, a ≠ n.id
  dominates : block.Pairwise (fun n m => ∀ a ∈ n.op.args, a ≠ m.id)
  typed : ∀ n ∈ block, Typed avx isGlobal block n

/-- No op of `rest` defines `x`. -/
def Past (rest : List Node) (x : NodeID) : Prop := ∀ m ∈ rest, m.id ≠ x

theorem Past.tail {n : Node} {rest : List Node} {x : NodeID} (h : Past (n :: rest) x) : Past rest x :=
  fun m hm => h m (mem_cons_of_mem _ hm)

theorem Past.cons {n : Node} {rest : List Node} {x : NodeID} (h : Past rest x) (hne : x ≠ n.id) : Past (n :: rest) x := by
  intro m hm
  rcases mem_cons.1 hm with rfl | hm
  · exact Ne.symm hne
  · exact h m hm

theorem insertBytes_full (width : Nat) (old v : Value) : insertBytes width old v 0 width = v % 256 ^ width := by
  unfold insertBytes
  rw [pow_zero, Nat.mod_one, Nat.zero_add, Nat.mul_one, Nat.zero_add, Nat.add_mul_mod_self_right, Nat.mod_mod]

theorem insertBytes_lt (width : Nat) (old v : Value) (offset size : Nat) :
    insertBytes width old v offset size < 256 ^ width := Nat.mod_lt _ (Nat.pow_pos (by decide))

theorem extractBytes_le (v : Value) (offset size : Nat) : extractBytes v offset size ≤ v :=
  (Nat.mod_le _ _).trans (Nat.div_le_self _ _)

theorem extractBytes_full {width : Nat} {v : Value} (h : v < 256 ^ width) : extractBytes v 0 width = v := by
  unfold extractBytes
  rw [pow_zero, Nat.div_one, Nat.mod_eq_of_lt h]

/-! ## What a visit does to a live range -/

namespace Pass

variable {p : Pass} {x i : NodeID} {r : PhysicalRegister}

theorem range_setRange (p : Pass) (i : NodeID) (l : LiveRange) (x : NodeID) :
    (p.setRange i l).range x = if x = i then l else p.range x := update_apply ..

theorem range_demoteArgs (as : List NodeID) (p : Pass) (x : NodeID) :
    (as.foldl (demoteWritten nodeCls) p).range x =
      if x ∈ as ∧ (p.range x).written = true then { p.range x with prefferedRegister := none, cls := nodeCls x }
      else p.range x := by
  induction as generalizing p with
  | nil => simp
  | cons a as ih =>
    rw [List.foldl_cons, ih]
    have hw : (demoteWritten nodeCls p a).range x =
        if x = a ∧ (p.range x).written = true then { p.range x with prefferedRegister := none, cls := nodeCls x }
        else p.range x := by
      unfold demoteWritten
      by_cases hx : x = a
      · subst hx
        by_cases hwx : (p.range x).written = true
        · rw [if_pos hwx, range_setRange, if_pos rfl, if_pos ⟨rfl, hwx⟩]
        · rw [if_neg hwx, if_neg (fun h => hwx h.2)]
      · have hno : ¬ (x = a ∧ (p.range x).written = true) := fun h => hx h.1
        rw [if_neg hno]
        by_cases hwa : (p.range a).written = true
        · rw [if_pos hwa, range_setRange, if_neg hx]
        · rw [if_neg hwa]
    rw [hw]
    by_cases hx : x = a
    · subst hx
      by_cases hwx : (p.range x).written = true
      · simp [hwx]
      · simp [hwx]
    · simp [hx]

theorem staticMap_demoteArgs (as : List NodeID) (p : Pass) :
    (as.foldl (demoteWritten nodeCls) p).staticMap = p.staticMap := by
  induction as generalizing p with
  | nil => rfl
  | cons a as ih =>
    rw [List.foldl_cons, ih]
    unfold demoteWritten
    split <;> rfl

theorem range_markWritten (p : Pass) (r : PhysicalRegister) (x : NodeID) :
    (p.markWritten r).range x = if p.staticMap r = some x then { p.range x with written := true } else p.range x := by
  unfold markWritten
  split
  · rename_i u hu
    rw [range_setRange, hu]
    by_cases hx : x = u
    · subst hx
      simp
    · rw [if_neg hx, if_neg (fun h => hx (Option.some.inj h).symm)]
  · rename_i hu
    rw [hu, if_neg (by simp)]

theorem staticMap_markWritten (p : Pass) (r : PhysicalRegister) : (p.markWritten r).staticMap = p.staticMap := by
  unfold markWritten
  split <;> rfl

@[simp] theorem preffered_markWritten (p : Pass) (r : PhysicalRegister) (x : NodeID) :
    ((p.markWritten r).range x).prefferedRegister = (p.range x).prefferedRegister := by
  rw [range_markWritten]
  split <;> rfl

@[simp] theorem preWritten_markWritten (p : Pass) (r : PhysicalRegister) (x : NodeID) :
    ((p.markWritten r).range x).preWritten = (p.range x).preWritten := by
  rw [range_markWritten]
  split <;> rfl

theorem written_markWritten (h : (p.range x).written = true) : ((p.markWritten r).range x).written = true := by
  rw [range_markWritten]
  split
  · rfl
  · exact h

theorem unwritten_markWritten (h : ((p.markWritten r).range x).written = false) :
    (p.range x).written = false ∧ p.staticMap r ≠ some x := by
  rw [range_markWritten] at h
  split at h
  · cases h
  · rename_i hne
    exact ⟨h, hne⟩

@[simp] theorem preffered_trackPreWrite (p : Pass) (i x : NodeID) :
    ((p.trackPreWrite i).range x).prefferedRegister = (p.range x).prefferedRegister := by
  unfold trackPreWrite
  split
  · exact preffered_markWritten ..
  · rfl

@[simp] theorem preWritten_trackPreWrite (p : Pass) (i x : NodeID) :
    ((p.trackPreWrite i).range x).preWritten = (p.range x).preWritten := by
  unfold trackPreWrite
  split
  · exact preWritten_markWritten ..
  · rfl

theorem trackPreWrite_some (h : (p.range i).prefferedRegister = some r) :
    p.trackPreWrite i = (p.markWritten r).setMap r i := by
  unfold trackPreWrite
  rw [h]

theorem staticMap_trackPreWrite (h : (p.range i).prefferedRegister = some r) :
    (p.trackPreWrite i).staticMap = Function.update p.staticMap r (some i) := by
  rw [trackPreWrite_some h]
  unfold setMap
  rw [staticMap_markWritten]

theorem written_trackPreWrite (h : (p.range x).written = true) : ((p.trackPreWrite i).range x).written = true := by
  unfold trackPreWrite
  split
  · exact written_markWritten h
  · exact h

theorem range_demotePreWrite (p : Pass) (r : PhysicalRegister) (c : RegisterClass) (x : NodeID) :
    (p.demotePreWrite r c).range x =
      if p.staticMap r = some x ∧ (p.range x).preWritten ≠ none then
        { p.range x with prefferedRegister := none, preWritten := none, cls := some c }
      else p.range x := by
  unfold demotePreWrite
  split
  · rename_i u hu
    rw [hu]
    by_cases hx : x = u
    · subst hx
      by_cases hp : (p.range x).preWritten ≠ none
      · rw [if_pos hp, if_pos ⟨rfl, hp⟩, range_setRange, if_pos rfl]
      · rw [if_neg hp, if_neg (fun h => hp h.2)]
    · have hno : ¬ (some u = some x ∧ (p.range x).preWritten ≠ none) := fun h => hx (Option.some.inj h.1).symm
      rw [if_neg hno]
      by_cases hp : (p.range u).preWritten ≠ none
      · rw [if_pos hp, range_setRange, if_neg hx]
      · rw [if_neg hp]
  · rename_i hu
    rw [hu, if_neg (by simp)]

theorem staticMap_demotePreWrite (p : Pass) (r : PhysicalRegister) (c : RegisterClass) :
    (p.demotePreWrite r c).staticMap = p.staticMap := by
  unfold demotePreWrite
  split
  · split <;> rfl
  · rfl

theorem written_demotePreWrite (p : Pass) (r : PhysicalRegister) (c : RegisterClass) (x : NodeID) :
    ((p.demotePreWrite r c).range x).written = (p.range x).written := by
  rw [range_demotePreWrite]
  split <;> rfl

variable {c : RegisterClass}

theorem preffered_demotePreWrite {r' : PhysicalRegister}
    (h : ((p.demotePreWrite r c).range x).prefferedRegister = some r') :
    (p.range x).prefferedRegister = some r' ∧ (p.demotePreWrite r c).range x = p.range x := by
  rw [range_demotePreWrite] at h ⊢
  split at h
  · cases h
  · rename_i hno
    exact ⟨h, if_neg hno⟩

theorem range_readAlias_of_ne {offset size : Nat} (hx : x ≠ i) :
    ((p.readAlias isGlobal i r offset size c).range x).prefferedRegister = (p.range x).prefferedRegister ∧
    ((p.readAlias isGlobal i r offset size c).range x).preWritten = (p.range x).preWritten := by
  unfold readAlias
  split
  · dsimp only [setMap]
    rw [range_setRange, if_neg hx]
    exact ⟨preffered_markWritten .., preWritten_markWritten ..⟩
  · exact ⟨rfl, rfl⟩

theorem written_readAlias {offset size : Nat} (h : (p.range x).written = true) :
    ((p.readAlias isGlobal i r offset size c).range x).written = true := by
  unfold readAlias
  split
  · dsimp only [setMap]
    rw [range_setRange]
    split
    · rename_i hx
      subst hx
      exact written_markWritten h
    · exact written_markWritten h
  · exact h

def markStored (p : Pass) (i : NodeID) (r : PhysicalRegister) : Pass :=
  match p.staticMap r with
  | some u => if (p.range u).preWritten ≠ some i then p.markWritten r else p
  | none => p

theorem storeRegister_eq (p : Pass) (i v : NodeID) (r : PhysicalRegister) :
    p.storeRegister i v r =
      if ((p.markStored i r).range v).preWritten = some i then
        (p.markStored i r).setRange v { (p.markStored i r).range v with preWritten := none }
      else p.markStored i r := rfl

theorem markStored_cases (p : Pass) (i : NodeID) (r : PhysicalRegister) :
    p.markStored i r = p.markWritten r ∨
    p.markStored i r = p ∧ ∀ x, p.staticMap r = some x → (p.range x).preWritten = some i := by
  unfold markStored
  split
  · rename_i u hu
    split
    · exact .inl rfl
    · rename_i hp
      refine .inr ⟨rfl, fun x hx => ?_⟩
      rw [hu] at hx
      rw [← Option.some.inj hx]
      exact not_not.1 hp
  · rename_i hu
    exact .inr ⟨rfl, fun x hx => by rw [hu] at hx; cases hx⟩

theorem range_storeRegister (p : Pass) (i v : NodeID) (r : PhysicalRegister) (x : NodeID) :
    (p.storeRegister i v r).range x =
      if x = v ∧ ((p.markStored i r).range x).preWritten = some i then
        { (p.markStored i r).range x with preWritten := none }
      else (p.markStored i r).range x := by
  rw [storeRegister_eq]
  by_cases hx : x = v
  · subst hx
    by_cases hp : ((p.markStored i r).range x).preWritten = some i
    · rw [if_pos hp, if_pos ⟨rfl, hp⟩, range_setRange, if_pos rfl]
    · rw [if_neg hp, if_neg (fun h => hp h.2)]
  · have hno : ¬ (x = v ∧ ((p.markStored i r).range x).preWritten = some i) := fun h => hx h.1
    rw [if_neg hno]
    by_cases hp : ((p.markStored i r).range v).preWritten = some i
    · rw [if_pos hp, range_setRange, if_neg hx]
    · rw [if_neg hp]

theorem staticMap_storeRegister (p : Pass) (i v : NodeID) (r : PhysicalRegister) :
    (p.storeRegister i v r).staticMap = p.staticMap := by
  have hm : (p.markStored i r).staticMap = p.staticMap := by
    rcases markStored_cases p i r with h | ⟨h, -⟩
    · rw [h, staticMap_markWritten]
    · rw [h]
  rw [storeRegister_eq]
  split
  · exact hm
  · exact hm

theorem preffered_storeRegister (p : Pass) (i v : NodeID) (r : PhysicalRegister) (x : NodeID) :
    ((p.storeRegister i v r).range x).prefferedRegister = (p.range x).prefferedRegister := by
  have hm : ((p.markStored i r).range x).prefferedRegister = (p.range x).prefferedRegister := by
    rcases markStored_cases p i r with h | ⟨h, -⟩
    · rw [h, preffered_markWritten]
    · rw [h]
  rw [range_storeRegister]
  split
  · exact hm
  · exact hm

theorem preWritten_storeRegister (p : Pass) (i v : NodeID) (r : PhysicalRegister) (x : NodeID) :
    ((p.storeRegister i v r).range x).preWritten =
      if x = v ∧ (p.range x).preWritten = some i then none else (p.range x).preWritten := by
  have hm : ((p.markStored i r).range x).preWritten = (p.range x).preWritten := by
    rcases markStored_cases p i r with h | ⟨h, -⟩
    · rw [h, preWritten_markWritten]
    · rw [h]
  rw [range_storeRegister, hm]
  split
  · rfl
  · exact hm

theorem written_storeRegister {v : NodeID} (h : (p.range x).written = true) :
    ((p.storeRegister i v r).range x).written = true := by
  have hm : ((p.markStored i r).range x).written = true := by
    rcases markStored_cases p i r with he | ⟨he, -⟩
    · rw [he]
      exact written_markWritten h
    · rw [he]
      exact h
  rw [range_storeRegister]
  split
  · exact hm
  · exact hm

theorem unwritten_storeRegister {v : NodeID} (h : ((p.storeRegister i v r).range x).written = false) :
    (p.range x).written = false ∧ (p.staticMap r = some x → (p.range x).preWritten = some i) := by
  have hm : ((p.markStored i r).range x).written = false := by
    rw [range_storeRegister] at h
    split at h
    · exact h
    · exact h
  rcases markStored_cases p i r with he | ⟨he, hpre⟩
  · rw [he] at hm
    obtain ⟨hw, hne⟩ := unwritten_markWritten hm
    exact ⟨hw, fun hx => absurd hx hne⟩
  · rw [he] at hm
    exact ⟨hm, hpre x⟩

end Pass

/-! ## A placement is only taken back -/

section Visit

variable {p : Pass} {n : Node} {rest : List Node} {x : NodeID} {r : PhysicalRegister}

theorem preffered_demoteArgs {as : List NodeID}
    (h : ((as.foldl (Pass.demoteWritten nodeCls) p).range x).prefferedRegister = some r) :
    (p.range x).prefferedRegister = some r ∧ ¬ (x ∈ as ∧ (p.range x).written = true) := by
  rw [Pass.range_demoteArgs] at h
  split at h
  · cases h
  · rename_i hno
    exact ⟨h, hno⟩

theorem written_demoteArgs (as : List NodeID) (p : Pass) (x : NodeID) :
    ((as.foldl (Pass.demoteWritten nodeCls) p).range x).written = (p.range x).written := by
  rw [Pass.range_demoteArgs]
  split <;> rfl

theorem preWritten_demoteArgs (as : List NodeID) (p : Pass) (x : NodeID) :
    ((as.foldl (Pass.demoteWritten nodeCls) p).range x).preWritten = (p.range x).preWritten := by
  rw [Pass.range_demoteArgs]
  split <;> rfl

theorem preffered_visit (hx : x ≠ n.id)
    (h : ((p.visit avx isGlobal nodeCls n).range x).prefferedRegister = some r) :
    (p.range x).prefferedRegister = some r ∧ ¬ (x ∈ n.op.args ∧ (p.range x).written = true) := by
  suffices h1 : ((n.op.args.foldl (Pass.demoteWritten nodeCls) p).range x).prefferedRegister = some r from
    preffered_demoteArgs h1
  unfold Pass.visit at h
  cases hop : n.op with
  | loadRegister offset cls staticCls size =>
    rw [hop] at h
    dsimp only at h
    split at h
    · rw [(Pass.range_readAlias_of_ne hx).1] at h
      have h' := (Pass.preffered_demotePreWrite h).1
      rwa [Pass.preffered_trackPreWrite] at h'
    · rwa [Pass.preffered_trackPreWrite] at h
  | storeRegister v offset cls staticCls size =>
    rw [hop] at h
    dsimp only at h
    split at h
    · rwa [Pass.preffered_storeRegister] at h
    · exact h
  | value dest f as =>
    rw [hop] at h
    cases dest with
    | some c =>
      rwa [Pass.preffered_trackPreWrite] at h
    | none => exact h

theorem written_visit (h : (p.range x).written = true) :
    ((p.visit avx isGlobal nodeCls n).range x).written = true := by
  have h1 : ((n.op.args.foldl (Pass.demoteWritten nodeCls) p).range x).written = true := by
    rw [written_demoteArgs]
    exact h
  unfold Pass.visit
  cases hop : n.op with
  | loadRegister offset cls staticCls size =>
    rw [hop] at h1
    dsimp only
    split
    · apply Pass.written_readAlias
      rw [Pass.written_demotePreWrite]
      exact Pass.written_trackPreWrite h1
    · exact Pass.written_trackPreWrite h1
  | storeRegister v offset cls staticCls size =>
    rw [hop] at h1
    dsimp only
    split
    · exact Pass.written_storeRegister h1
    · exact h1
  | value dest f as =>
    rw [hop] at h1
    cases dest with
    | some c => exact Pass.written_trackPreWrite h1
    | none => exact h1

/-- The placement the rest of the pass ends with. -/
def finalPlace (avx : Bool) (isGlobal : NodeID → Bool) (nodeCls : NodeID → Option RegisterClass) (p : Pass)
    (rest : List Node) : Placement :=
  fun x => ((rest.foldl (Pass.visit avx isGlobal nodeCls) p).range x).prefferedRegister

theorem preffered_of_final (hx : Past rest x) (h : finalPlace avx isGlobal nodeCls p rest x = some r) :
    (p.range x).prefferedRegister = some r := by
  induction rest generalizing p with
  | nil => exact h
  | cons n rest ih => exact (preffered_visit (hx n mem_cons_self).symm (ih hx.tail h)).1

theorem unwritten_of_final {m : Node} (hx : Past rest x) (h : finalPlace avx isGlobal nodeCls p rest x = some r)
    (hm : m ∈ rest) (ha : x ∈ m.op.args) : (p.range x).written = false := by
  by_contra hw
  rw [Bool.not_eq_false] at hw
  induction rest generalizing p with
  | nil => cases hm
  | cons n rest ih =>
    have hne : x ≠ n.id := (hx n mem_cons_self).symm
    rcases mem_cons.1 hm with rfl | hm
    · exact (preffered_visit hne (preffered_of_final hx.tail h)).2 ⟨ha, hw⟩
    · exact ih hx.tail h hm (written_visit hw)

end Visit

/-! ## What the pass tracks -/

/-- The live ranges and the span of each register, before the ops of `rest`. -/
structure Tracked (avx : Bool) (block rest : List Node) (p : Pass) : Prop where
  mapPast : ∀ r u, p.staticMap r = some u → Past rest u
  pre : ∀ x k, (p.range x).preWritten = some k → ∃ st ∈ rest, st.id = k ∧ ∃ r, FullStore avx st x r ∧
    ∀ r', (p.range x).prefferedRegister = some r' → r' = r
  future : ∀ m ∈ rest, ((p.range m.id).prefferedRegister = none ↔ (p.range m.id).preWritten = none)
  typed : ∀ x r, (p.range x).prefferedRegister = some r →
    ∃ m ∈ block, m.id = x ∧ ∃ c, m.op.dest = some c ∧ c.regSize = r.cls.regSize
  mapped : ∀ x r, Past rest x → (p.range x).prefferedRegister = some r → (p.range x).written = false →
    p.staticMap r = some x

section Tracking

variable {block rest : List Node} {p : Pass} {n : Node} {r : PhysicalRegister} {v : NodeID}

theorem Tracked.demoteArgs {as : List NodeID} (h : Tracked avx block rest p) (has : ∀ a ∈ as, Past rest a) :
    Tracked avx block rest (as.foldl (Pass.demoteWritten nodeCls) p) where
  mapPast := by
    rw [Pass.staticMap_demoteArgs]
    exact h.mapPast
  pre := by
    intro x k hk
    rw [preWritten_demoteArgs] at hk
    obtain ⟨st, hst, hid, r, hfull, hr⟩ := h.pre x k hk
    exact ⟨st, hst, hid, r, hfull, fun r' hr' => hr r' (preffered_demoteArgs hr').1⟩
  future := by
    intro m hm
    have hno : ¬ (m.id ∈ as ∧ (p.range m.id).written = true) := fun hc => has m.id hc.1 m hm rfl
    rw [Pass.range_demoteArgs, if_neg hno]
    exact h.future m hm
  typed := fun x r hx => h.typed x r (preffered_demoteArgs hx).1
  mapped := by
    intro x r hpast hx hw
    rw [Pass.staticMap_demoteArgs]
    rw [written_demoteArgs] at hw
    exact h.mapped x r hpast (preffered_demoteArgs hx).1 hw

theorem pre_tail {x : NodeID} {k : NodeID} (h : Tracked avx block (n :: rest) p)
    (hn : ∀ y r, ¬ FullStore avx n y r) (hk : (p.range x).preWritten = some k) :
    ∃ st ∈ rest, st.id = k ∧ ∃ r, FullStore avx st x r ∧ ∀ r', (p.range x).prefferedRegister = some r' → r' = r := by
  obtain ⟨st, hst, hid, r, hfull, hr⟩ := h.pre x k hk
  rcases mem_cons.1 hst with rfl | hst
  · exact absurd hfull (hn x r)
  · exact ⟨st, hst, hid, r, hfull, hr⟩

theorem Tracked.skip (h : Tracked avx block (n :: rest) p) (hn : ∀ y r, ¬ FullStore avx n y r)
    (hdest : (p.range n.id).prefferedRegister = none) : Tracked avx block rest p where
  mapPast := fun r u hu => (h.mapPast r u hu).tail
  pre := fun x k hk => pre_tail h hn hk
  future := fun m hm => h.future m (mem_cons_of_mem _ hm)
  typed := h.typed
  mapped := by
    intro x r hpast hx hw
    refine h.mapped x r (hpast.cons ?_) hx hw
    rintro rfl
    rw [hdest] at hx
    cases hx

theorem Tracked.trackPreWrite (h : Tracked avx block (n :: rest) p) (hn : ∀ y r, ¬ FullStore avx n y r)
    (hids : Past rest n.id) : Tracked avx block rest (p.trackPreWrite n.id) := by
  cases hp : (p.range n.id).prefferedRegister with
  | none =>
    have he : p.trackPreWrite n.id = p := by
      unfold Pass.trackPreWrite
      rw [hp]
    rw [he]
    exact h.skip hn hp
  | some r =>
    have he := Pass.trackPreWrite_some hp
    have hmap := Pass.staticMap_trackPreWrite hp
    exact {
      mapPast := by
        intro r' u hu
        rw [hmap, update_apply] at hu
        split at hu
        · rw [← Option.some.inj hu]
          exact hids
        · exact (h.mapPast r' u hu).tail
      pre := by
        intro x k hk
        rw [Pass.preWritten_trackPreWrite] at hk
        rw [Pass.preffered_trackPreWrite]
        exact pre_tail h hn hk
      future := by
        intro m hm
        rw [Pass.preWritten_trackPreWrite, Pass.preffered_trackPreWrite]
        exact h.future m (mem_cons_of_mem _ hm)
      typed := by
        intro x r' hx
        rw [Pass.preffered_trackPreWrite] at hx
        exact h.typed x r' hx
      mapped := by
        intro x r' hpast hx hw
        rw [Pass.preffered_trackPreWrite] at hx
        rw [hmap]
        by_cases hxn : x = n.id
        · subst hxn
          rw [hp] at hx
          rw [Option.some.inj hx, update_self]
        · rw [he] at hw
          obtain ⟨hw, hne⟩ := Pass.unwritten_markWritten hw
          have hold := h.mapped x r' (hpast.cons hxn) hx hw
          -- the old span of `r` has just been marked
          have hr : r' ≠ r := fun hr => hne (hr ▸ hold)
          rw [update_of_ne hr]
          exact hold }

theorem Tracked.demotePreWrite {c : RegisterClass} (h : Tracked avx block rest p) :
    Tracked avx block rest (p.demotePreWrite r c) where
  mapPast := by
    rw [Pass.staticMap_demotePreWrite]
    exact h.mapPast
  pre := by
    intro x k hk
    rw [Pass.range_demotePreWrite] at hk ⊢
    split at hk
    · cases hk
    · rename_i hno
      rw [if_neg hno]
      exact h.pre x k hk
  future := by
    intro m hm
    rw [Pass.range_demotePreWrite]
    split
    · exact ⟨fun _ => rfl, fun _ => rfl⟩
    · exact h.future m hm
  typed := fun x r' hx => h.typed x r' (Pass.preffered_demotePreWrite hx).1
  mapped := by
    intro x r' hpast hx hw
    rw [Pass.staticMap_demotePreWrite]
    rw [Pass.written_demotePreWrite] at hw
    exact h.mapped x r' hpast (Pass.preffered_demotePreWrite hx).1 hw

variable {i : NodeID} {offset size : Nat} {cls staticCls : RegisterClass}

theorem Tracked.readAlias {c : RegisterClass} (h : Tracked avx block rest p)
    (hids : Past rest i) (hpre : (p.range i).prefferedRegister = none → (p.range i).preWritten = none)
    (hty : ∃ m ∈ block, m.id = i ∧ ∃ c, m.op.dest = some c ∧ c.regSize = r.cls.regSize) :
    Tracked avx block rest (p.readAlias isGlobal i r offset size c) := by
  unfold Pass.readAlias
  split
  · rename_i hc
    have hmap : (((p.markWritten r).setRange i { (p.markWritten r).range i with
        prefferedRegister := some r, cls := some c }).setMap r i).staticMap = Function.update p.staticMap r (some i) := by
      unfold Pass.setMap Pass.setRange
      rw [Pass.staticMap_markWritten]
    -- all other ranges are those after the register is marked as written
    have hself : ∀ x, x ≠ i → (((p.markWritten r).setRange i { (p.markWritten r).range i with
        prefferedRegister := some r, cls := some c }).setMap r i).range x = (p.markWritten r).range x := by
      intro x hx
      unfold Pass.setMap
      rw [Pass.range_setRange, if_neg hx]
    have hi : (((p.markWritten r).setRange i { (p.markWritten r).range i with
        prefferedRegister := some r, cls := some c }).setMap r i).range i =
        { (p.markWritten r).range i with prefferedRegister := some r, cls := some c } := by
      unfold Pass.setMap
      rw [Pass.range_setRange, if_pos rfl]
    exact {
      mapPast := by
        intro r' u hu
        rw [hmap, update_apply] at hu
        split at hu
        · rw [← Option.some.inj hu]
          exact hids
        · exact h.mapPast r' u hu
      pre := by
        intro x k hk
        by_cases hx : x = i
        · subst hx
          rw [hi] at hk
          have hk' : (p.range x).preWritten = some k := (Pass.preWritten_markWritten p r x).symm.trans hk
          rw [hpre hc.2.1] at hk'
          cases hk'
        · rw [hself x hx, Pass.preWritten_markWritten] at hk
          rw [hself x hx, Pass.preffered_markWritten]
          exact h.pre x k hk
      future := by
        intro m hm
        rw [hself m.id (hids m hm), Pass.preWritten_markWritten, Pass.preffered_markWritten]
        exact h.future m hm
      typed := by
        intro x r' hx
        by_cases hxi : x = i
        · subst hxi
          rw [hi] at hx
          rw [← Option.some.inj hx]
          exact hty
        · rw [hself x hxi, Pass.preffered_markWritten] at hx
          exact h.typed x r' hx
      mapped := by
        intro x r' hpast hx hw
        rw [hmap]
        by_cases hxi : x = i
        · subst hxi
          rw [hi] at hx
          rw [Option.some.inj hx, update_self]
        · rw [hself x hxi] at hx hw
          rw [Pass.preffered_markWritten] at hx
          obtain ⟨hw, hne⟩ := Pass.unwritten_markWritten hw
          have hold := h.mapped x r' hpast hx hw
          -- the range that was mapped to r is written by now
          have hr : r' ≠ r := fun hr => hne (hr ▸ hold)
          rw [update_of_ne hr]
          exact hold }
  · exact h

theorem Tracked.storeRegister (h : Tracked avx block (n :: rest) p) (hn : ∀ y r', FullStore avx n y r' → y = v)
    (hv : Past rest v) (hdest : (p.range n.id).prefferedRegister = none) :
    Tracked avx block rest (p.storeRegister n.id v r) where
  mapPast := by
    rw [Pass.staticMap_storeRegister]
    exact fun r' u hu => (h.mapPast r' u hu).tail
  pre := by
    intro x k hk
    rw [Pass.preWritten_storeRegister] at hk
    rw [Pass.preffered_storeRegister]
    split at hk
    · cases hk
    · rename_i hno
      obtain ⟨st, hst, hid, r', hfull, hr⟩ := h.pre x k hk
      rcases mem_cons.1 hst with rfl | hst
      · exact absurd ⟨hn x r' hfull, by rw [hid]; exact hk⟩ hno
      · exact ⟨st, hst, hid, r', hfull, hr⟩
  future := by
    intro m hm
    rw [Pass.preWritten_storeRegister, Pass.preffered_storeRegister]
    have hno : ¬ (m.id = v ∧ (p.range m.id).preWritten = some n.id) := fun hc => hv m hm hc.1
    rw [if_neg hno]
    exact h.future m (mem_cons_of_mem _ hm)
  typed := by
    intro x r' hx
    rw [Pass.preffered_storeRegister] at hx
    exact h.typed x r' hx
  mapped := by
    intro x r' hpast hx hw
    rw [Pass.preffered_storeRegister] at hx
    rw [Pass.staticMap_storeRegister]
    refine h.mapped x r' (hpast.cons ?_) hx (Pass.unwritten_storeRegister hw).1
    rintro rfl
    rw [hdest] at hx
    cases hx

/-- What the op about to be visited is in its block. -/
structure Visited (avx : Bool) (isGlobal : NodeID → Bool) (block rest : List Node) (n : Node) : Prop where
  mem : n ∈ block
  unique : ∀ m ∈ block, m.id = n.id → m = n
  ids : Past rest n.id
  args : ∀ a ∈ n.op.args, Past (n :: rest) a
  typed : Typed avx isGlobal block n

theorem Tracked.no_dest (h : Tracked avx block (n :: rest) p) (hn : Visited avx isGlobal block rest n) (hd : n.op.dest = none) :
    (p.range n.id).prefferedRegister = none := by
  cases hp : (p.range n.id).prefferedRegister with
  | none => rfl
  | some r =>
    obtain ⟨m, hm, hid, c, hc, -⟩ := h.typed n.id r hp
    rw [hn.unique m hm hid, hd] at hc
    cases hc

theorem Fixed.regSize_eq (h : Fixed cls staticCls) : cls.regSize = staticCls.regSize := by
  rcases h with ⟨rfl, rfl⟩ | ⟨rfl, rfl⟩
  · rfl
  · rfl

theorem Tracked.visit (h : Tracked avx block (n :: rest) p) (hn : Visited avx isGlobal block rest n) :
    Tracked avx block rest (p.visit avx isGlobal nodeCls n) := by
  obtain ⟨i, op⟩ := n
  have h1 : Tracked avx block (⟨i, op⟩ :: rest) (op.args.foldl (Pass.demoteWritten nodeCls) p) := h.demoteArgs hn.args
  cases op with
  | loadRegister offset cls staticCls size =>
    obtain ⟨hfix, r, hr, hcls⟩ := hn.typed
    have hstore : ∀ y r', ¬ FullStore avx ⟨i, .loadRegister offset cls staticCls size⟩ y r' := by
      rintro y r' ⟨o, c, sc, z, he, -⟩
      cases he
    have h3 := (h1.trackPreWrite hstore hn.ids).demotePreWrite (r := r) (c := cls)
    unfold Pass.visit
    dsimp only
    rw [hr]
    refine h3.readAlias hn.ids ?_ ⟨_, hn.mem, rfl, cls, rfl, by rw [hcls]; exact hfix.regSize_eq⟩
    rw [Pass.range_demotePreWrite]
    split
    · exact fun _ => rfl
    · rw [Pass.preffered_trackPreWrite, Pass.preWritten_trackPreWrite]
      exact (h1.future _ mem_cons_self).1
  | storeRegister v offset cls staticCls size =>
    obtain ⟨-, ⟨r, hr, -⟩, -⟩ := hn.typed
    unfold Pass.visit
    dsimp only
    rw [hr]
    refine h1.storeRegister ?_ (hn.args v (mem_singleton.2 rfl)).tail (h1.no_dest hn rfl)
    rintro y r' ⟨o, c, sc, z, he, -⟩
    cases he
    rfl
  | value dest f as =>
    have hstore : ∀ y r', ¬ FullStore avx ⟨i, .value dest f as⟩ y r' := by
      rintro y r' ⟨o, c, sc, z, he, -⟩
      cases he
    cases dest with
    | some c => exact h1.trackPreWrite hstore hn.ids
    | none => exact h1.skip hstore (h1.no_dest hn rfl)

/-- A load that is left placed is a pre-write, or an alias of the register it reads. -/
theorem visit_loadRegister {r₀ : PhysicalRegister}
    (h : Tracked avx block (⟨i, .loadRegister offset cls staticCls size⟩ :: rest) p)
    (hr₀ : getRegAndClassFromOffset avx offset = some r₀)
    (hp : ((p.visit avx isGlobal nodeCls ⟨i, .loadRegister offset cls staticCls size⟩).range i).prefferedRegister = some r) :
    (p.visit avx isGlobal nodeCls ⟨i, .loadRegister offset cls staticCls size⟩).staticMap r = some i ∧
    (((p.visit avx isGlobal nodeCls ⟨i, .loadRegister offset cls staticCls size⟩).range i).preWritten ≠ none ∨
      r = r₀ ∧ isAliasable size staticCls offset = true) := by
  have hv : p.visit avx isGlobal nodeCls ⟨i, .loadRegister offset cls staticCls size⟩ =
      ((p.trackPreWrite i).demotePreWrite r₀ cls).readAlias isGlobal i r₀ offset size staticCls := by
    unfold Pass.visit
    dsimp only [Op.args, List.foldl]
    rw [hr₀]
  rw [hv] at hp ⊢
  unfold Pass.readAlias at hp ⊢
  split at hp
  · rename_i hc
    rw [if_pos hc]
    dsimp only [Pass.setMap] at hp ⊢
    rw [Pass.range_setRange, if_pos rfl] at hp
    rw [← Option.some.inj hp]
    exact ⟨update_self .., .inr ⟨rfl, hc.2.2⟩⟩
  · rename_i hc
    rw [if_neg hc]
    obtain ⟨hp, he⟩ := Pass.preffered_demotePreWrite hp
    rw [Pass.preffered_trackPreWrite] at hp
    rw [he, Pass.staticMap_demotePreWrite, Pass.preWritten_trackPreWrite]
    refine ⟨?_, .inl (fun hn => ?_)⟩
    · rw [Pass.staticMap_trackPreWrite hp]
      exact update_self ..
    · rw [(h.future _ mem_cons_self).2 hn] at hp
      cases hp

/-- A pre-write that stays placed is not read before its store. -/
theorem visit_loadRegister_pre {x : NodeID} {r₀ : PhysicalRegister}
    (hr₀ : getRegAndClassFromOffset avx offset = some r₀) (hx : x ≠ i)
    (hp : ((p.visit avx isGlobal nodeCls ⟨i, .loadRegister offset cls staticCls size⟩).range x).prefferedRegister = some r)
    (hpre : (p.range x).preWritten ≠ none) :
    ((p.visit avx isGlobal nodeCls ⟨i, .loadRegister offset cls staticCls size⟩).range x).preWritten ≠ none ∧
    (p.trackPreWrite i).staticMap r₀ ≠ some x := by
  have hv : p.visit avx isGlobal nodeCls ⟨i, .loadRegister offset cls staticCls size⟩ =
      ((p.trackPreWrite i).demotePreWrite r₀ cls).readAlias isGlobal i r₀ offset size staticCls := by
    unfold Pass.visit
    dsimp only [Op.args, List.foldl]
    rw [hr₀]
  rw [hv] at hp ⊢
  rw [(Pass.range_readAlias_of_ne hx).1] at hp
  rw [(Pass.range_readAlias_of_ne hx).2]
  have hpre' : ((p.trackPreWrite i).range x).preWritten ≠ none := by
    rw [Pass.preWritten_trackPreWrite]
    exact hpre
  rw [Pass.range_demotePreWrite] at hp ⊢
  split at hp
  · cases hp
  · rename_i hno
    rw [if_neg hno]
    exact ⟨hpre', fun hm => hno ⟨hm, hpre'⟩⟩

end Tracking

/-! ## The two runs -/

/-- The run with temporaries is in `s`, the run under the final placement in `t`. -/
structure Rel (place : Placement) (rest : List Node) (p : Pass) (s t : State) : Prop where
  trace : t.trace = s.trace
  env : ∀ x, place x = none → t.env x = s.env x
  placed : ∀ x r, Past rest x → place x = some r → (p.range x).written = false → t.regs r = s.env x
  regs : ∀ r, t.regs r = s.regs r ∨ ∃ v, place v = some r ∧ Past rest v ∧ (p.range v).preWritten ≠ none
  boundS : ∀ r, s.regs r < 256 ^ r.cls.regSize
  boundT : ∀ r, t.regs r < 256 ^ r.cls.regSize

section Runs

variable {block rest : List Node} {p : Pass} {n : Node} {s t : State} {place : Placement}

theorem Rel.log (h : Rel place rest p s t) (i : NodeID) (vs : List Value) : Rel place rest p (s.log i vs) (t.log i vs) :=
  ⟨by unfold State.log; rw [h.trace], h.env, h.placed, h.regs, h.boundS, h.boundT⟩

theorem Rel.get_eq (h : Rel place (n :: rest) p s t) (hplace : place = finalPlace avx isGlobal nodeCls p (n :: rest))
    {a : NodeID} (ha : a ∈ n.op.args) (hpast : Past (n :: rest) a) : t.get place a = s.env a := by
  unfold State.get
  cases hp : place a with
  | none => exact h.env a hp
  | some r =>
    have hw : (p.range a).written = false := by
      rw [hplace] at hp
      exact unwritten_of_final hpast hp mem_cons_self ha
    exact h.placed a r hpast hp hw

theorem Rel.map_get (h : Rel place (n :: rest) p s t) (hplace : place = finalPlace avx isGlobal nodeCls p (n :: rest))
    {as : List NodeID} (has : ∀ a ∈ as, a ∈ n.op.args) (hargs : ∀ a ∈ n.op.args, Past (n :: rest) a) :
    as.map (t.get place) = as.map (s.get separate) :=
  List.map_congr_left (fun a ha => h.get_eq hplace (has a ha) (hargs a (has a ha)))

theorem Rel.skip {p' : Pass} (h : Rel place (n :: rest) p s t) (hn : place n.id = none)
    (hw : ∀ x, (p'.range x).written = (p.range x).written)
    (hpre : ∀ x, (p'.range x).preWritten = (p.range x).preWritten) : Rel place rest p' s t where
  trace := h.trace
  env := h.env
  placed := by
    intro x r hpast hx hwx
    rw [hw] at hwx
    refine h.placed x r (hpast.cons ?_) hx hwx
    rintro rfl
    rw [hn] at hx
    cases hx
  regs := by
    intro r
    rcases h.regs r with he | ⟨v, hv, hpast, hp⟩
    · exact .inl he
    · exact .inr ⟨v, hv, hpast.tail, by rw [hpre]; exact hp⟩
  boundS := h.boundS
  boundT := h.boundT

theorem Rel.define {p' : Pass} {v : Value} (h : Rel place (n :: rest) p s t) (htr : Tracked avx block rest p')
    (hfinal : ∀ x r, Past rest x → place x = some r → (p'.range x).prefferedRegister = some r)
    (hw : ∀ x, (p.range x).written = true → (p'.range x).written = true)
    (hpre : ∀ x r, Past rest x → x ≠ n.id → place x = some r → (p.range x).preWritten ≠ none →
      (p'.range x).preWritten ≠ none)
    (hids : Past rest n.id) (hbound : ∀ r, place n.id = some r → v < 256 ^ r.cls.regSize)
    (hmap : ∀ r, place n.id = some r → p'.staticMap r = some n.id)
    (hself : ∀ r, place n.id = some r →
      (p'.range n.id).preWritten ≠ none ∨ v = s.regs r) :
    Rel place rest p' (s.define separate n.id v) (t.define place n.id v) := by
  have hold : ∀ x r, Past rest x → x ≠ n.id → place x = some r → (p'.range x).written = false → t.regs r = s.env x := by
    intro x r hpast hx hp hwx
    refine h.placed x r (hpast.cons hx) hp ?_
    cases hwp : (p.range x).written with
    | false => rfl
    | true => rw [hw x hwp] at hwx; cases hwx
  have henv : ∀ x, x ≠ n.id → (s.define separate n.id v).env x = s.env x := fun x hx => update_of_ne hx _ _
  have hnew : (s.define separate n.id v).env n.id = v := update_self ..
  cases hp : place n.id with
  | none =>
    have ht : t.define place n.id v = { t with env := Function.update t.env n.id v } := by
      unfold State.define
      rw [hp]
    have hne : ∀ {x r}, place x = some r → x ≠ n.id := by
      rintro x r hx rfl
      rw [hp] at hx
      cases hx
    rw [ht]
    exact {
      trace := h.trace
      env := by
        intro x hx
        by_cases hxn : x = n.id
        · subst hxn
          rw [hnew]
          exact update_self ..
        · rw [henv x hxn]
          exact (update_of_ne hxn _ _).trans (h.env x hx)
      placed := by
        intro x r hpast hx hwx
        rw [henv x (hne hx)]
        exact hold x r hpast (hne hx) hx hwx
      regs := by
        intro r
        rcases h.regs r with he | ⟨u, hu, hpast, hpu⟩
        · exact .inl he
        · exact .inr ⟨u, hu, hpast.tail, hpre u r hpast.tail (hne hu) hu hpu⟩
      boundS := h.boundS
      boundT := h.boundT }
  | some r =>
    have ht : t.define place n.id v = { t with regs := Function.update t.regs r v } := by
      unfold State.define
      rw [hp]
      dsimp only
      rw [Nat.mod_eq_of_lt (hbound r hp)]
    rw [ht]
    exact {
      trace := h.trace
      env := by
        intro x hx
        have hxn : x ≠ n.id := by
          rintro rfl
          rw [hp] at hx
          cases hx
        rw [henv x hxn]
        exact h.env x hx
      placed := by
        intro x r' hpast hx hwx
        dsimp only
        by_cases hxn : x = n.id
        · subst hxn
          rw [hp] at hx
          rw [Option.some.inj hx, hnew, update_self]
        · -- the register of another span is another register
          have hmx := htr.mapped x r' hpast (hfinal x r' hpast hx) hwx
          have hr : r' ≠ r := by
            rintro rfl
            rw [hmap r' hp] at hmx
            exact hxn (Option.some.inj hmx).symm
          rw [update_of_ne hr, henv x hxn]
          exact hold x r' hpast hxn hx hwx
      regs := by
        intro r'
        dsimp only
        by_cases hr : r' = r
        · subst hr
          rcases hself r' hp with hpn | hv
          · exact .inr ⟨n.id, hp, hids, hpn⟩
          · rw [update_self]
            exact .inl hv
        · rw [update_of_ne hr]
          rcases h.regs r' with he | ⟨u, hu, hpast, hpu⟩
          · exact .inl he
          · have hun : u ≠ n.id := by
              rintro rfl
              rw [hp] at hu
              exact hr (Option.some.inj hu).symm
            exact .inr ⟨u, hu, hpast.tail, hpre u r' hpast.tail hun hu hpu⟩
      boundS := h.boundS
      boundT := by
        intro r'
        dsimp only
        rw [update_apply]
        split
        · rename_i hr
          rw [hr]
          exact hbound r hp
        · exact h.boundT r' }

variable {r : PhysicalRegister} {i : NodeID} {offset size : Nat} {cls staticCls : RegisterClass}

/-- What the visit of an op leaves placed at the end was placed after it. -/
theorem final_visit (hplace : place = finalPlace avx isGlobal nodeCls p (n :: rest)) {x : NodeID}
    (hpast : Past rest x) (hx : place x = some r) :
    ((p.visit avx isGlobal nodeCls n).range x).prefferedRegister = some r := by
  rw [hplace] at hx
  exact preffered_of_final hpast hx

theorem Tracked.size_eq {c : RegisterClass} (h : Tracked avx block rest p)
    (hn : Visited avx isGlobal block rest n) (hd : n.op.dest = some c) (hp : (p.range n.id).prefferedRegister = some r) :
    c.regSize = r.cls.regSize := by
  obtain ⟨m, hm, hid, c', hc, hz⟩ := h.typed n.id r hp
  rw [hn.unique m hm hid, hd] at hc
  rw [Option.some.inj hc]
  exact hz

theorem Rel.value {dest : Option RegisterClass} {f : List Value → Value} {as : List NodeID}
    (h : Rel place (⟨i, .value dest f as⟩ :: rest) p s t) (htr : Tracked avx block (⟨i, .value dest f as⟩ :: rest) p)
    (hn : Visited avx isGlobal block rest ⟨i, .value dest f as⟩)
    (hplace : place = finalPlace avx isGlobal nodeCls p (⟨i, .value dest f as⟩ :: rest)) :
    Rel place rest (p.visit avx isGlobal nodeCls ⟨i, .value dest f as⟩) (exec avx separate s ⟨i, .value dest f as⟩)
      (exec avx place t ⟨i, .value dest f as⟩) := by
  have htr' : Tracked avx block rest (p.visit avx isGlobal nodeCls ⟨i, .value dest f as⟩) := htr.visit hn
  have hdem : Tracked avx block (⟨i, .value dest f as⟩ :: rest) (as.foldl (Pass.demoteWritten nodeCls) p) :=
    htr.demoteArgs hn.args
  have hvs : as.map (t.get place) = as.map (s.get separate) := h.map_get hplace (fun a ha => ha) hn.args
  cases dest with
  | none =>
    have hnone : place i = none := by
      cases hp : place i with
      | none => rfl
      | some r =>
        have hpi := final_visit hplace hn.ids hp
        exact absurd (hpi.symm.trans (hdem.no_dest hn rfl)) (by simp)
    unfold exec
    dsimp only
    rw [hvs]
    exact (h.skip hnone (fun x => written_demoteArgs as p x) (fun x => preWritten_demoteArgs as p x)).log i _
  | some c =>
    have hv : p.visit avx isGlobal nodeCls ⟨i, .value (some c) f as⟩ =
        (as.foldl (Pass.demoteWritten nodeCls) p).trackPreWrite i := rfl
    unfold exec
    dsimp only
    rw [hvs]
    refine Rel.log (h.define htr' (fun x r hpast hx => final_visit hplace hpast hx) (fun x hx => written_visit hx) ?_ hn.ids
      ?_ ?_ ?_) i _
    · intro x r _ _ _ hx
      rw [hv, Pass.preWritten_trackPreWrite, preWritten_demoteArgs]
      exact hx
    · intro r hp
      have hz := htr'.size_eq hn rfl (final_visit hplace hn.ids hp)
      rw [← hz]
      exact Nat.mod_lt _ (Nat.pow_pos (by decide))
    · intro r hp
      have hpi := final_visit hplace hn.ids hp
      rw [hv, Pass.preffered_trackPreWrite] at hpi
      rw [hv, Pass.staticMap_trackPreWrite hpi]
      exact update_self ..
    · intro r hp
      have hpi := final_visit hplace hn.ids hp
      rw [hv, Pass.preffered_trackPreWrite] at hpi
      rw [hv, Pass.preWritten_trackPreWrite]
      refine .inl (fun hnone => ?_)
      exact absurd (hpi.symm.trans ((hdem.future _ mem_cons_self).2 hnone)) (by simp)

theorem Tracked.pending {v : NodeID} (h : Tracked avx block rest p)
    (hp : finalPlace avx isGlobal nodeCls p rest v = some r) (hpast : Past rest v) (hpre : (p.range v).preWritten ≠ none) :
    p.staticMap r = some v ∧ ∃ st ∈ rest, (p.range v).preWritten = some st.id ∧ FullStore avx st v r := by
  obtain ⟨k, hk⟩ := Option.ne_none_iff_exists'.1 hpre
  obtain ⟨st, hst, hid, r', hfull, hr⟩ := h.pre v k hk
  have hpref := preffered_of_final hpast hp
  have harg : v ∈ st.op.args := by
    obtain ⟨o, c, sc, z, he, -⟩ := hfull
    rw [he]
    exact mem_singleton.2 rfl
  refine ⟨h.mapped v r hpast hpref (unwritten_of_final hpast hp hst harg), st, hst, by rw [hid]; exact hk, ?_⟩
  rw [hr r hpref]
  exact hfull

theorem Rel.read_eq {r₀ : PhysicalRegister} (h : Rel place (⟨i, .loadRegister offset cls staticCls size⟩ :: rest) p s t)
    (htr : Tracked avx block (⟨i, .loadRegister offset cls staticCls size⟩ :: rest) p)
    (hplace : place = finalPlace avx isGlobal nodeCls p (⟨i, .loadRegister offset cls staticCls size⟩ :: rest))
    (hr₀ : getRegAndClassFromOffset avx offset = some r₀) : t.regs r₀ = s.regs r₀ := by
  rcases h.regs r₀ with he | ⟨v, hv, hpast, hpre⟩
  · exact he
  · exfalso
    have hvi : v ≠ i := (hpast _ mem_cons_self).symm
    obtain ⟨hmap, st, hst, -, hfull⟩ := htr.pending (hplace ▸ hv) hpast hpre
    have hst' : st ∈ rest := by
      rcases mem_cons.1 hst with rfl | hst
      · obtain ⟨o, c, sc, z, he, -⟩ := hfull
        cases he
      · exact hst
    have harg : v ∈ st.op.args := by
      obtain ⟨o, c, sc, z, he, -⟩ := hfull
      rw [he]
      exact mem_singleton.2 rfl
    have hvis := visit_loadRegister_pre hr₀ hvi (final_visit hplace hpast.tail hv) hpre
    -- the load is itself a pre-write of the register, and so writes it
    cases hp : (p.range i).prefferedRegister with
    | none =>
      refine hvis.2 ?_
      unfold Pass.trackPreWrite
      rw [hp]
      exact hmap
    | some r =>
      by_cases hr : r = r₀
      · subst hr
        have hw : ((p.visit avx isGlobal nodeCls ⟨i, .loadRegister offset cls staticCls size⟩).range v).written = true := by
          unfold Pass.visit
          dsimp only [Op.args, List.foldl]
          rw [hr₀]
          apply Pass.written_readAlias
          rw [Pass.written_demotePreWrite]
          rw [Pass.trackPreWrite_some hp]
          show ((p.markWritten r).range v).written = true
          rw [Pass.range_markWritten, if_pos hmap]
        rw [hplace] at hv
        have hunw := unwritten_of_final hpast.tail hv hst' harg
        rw [hw] at hunw
        cases hunw
      · refine hvis.2 ?_
        rw [Pass.staticMap_trackPreWrite hp, update_of_ne (Ne.symm hr)]
        exact hmap

theorem isAliasable_full (h : isAliasable size r.cls offset = true) : r.regOffs offset = 0 ∧ size = r.cls.regSize := by
  unfold isAliasable at h
  unfold PhysicalRegister.regOffs
  split at h
  · rename_i hc
    rw [Bool.and_eq_true, decide_eq_true_eq, decide_eq_true_eq] at h
    rw [hc]
    exact ⟨h.2, h.1⟩
  · rename_i hc
    rw [Bool.and_eq_true, decide_eq_true_eq, decide_eq_true_eq] at h
    rw [hc]
    exact ⟨h.2, h.1⟩
  · cases h

theorem isPreWritable_full {c : RegisterClass} (h : isPreWritable size c = true) : size = c.regSize := by
  unfold isPreWritable at h
  split at h
  · exact of_decide_eq_true h
  · exact of_decide_eq_true h
  · cases h

theorem Rel.loadRegister (h : Rel place (⟨i, .loadRegister offset cls staticCls size⟩ :: rest) p s t)
    (htr : Tracked avx block (⟨i, .loadRegister offset cls staticCls size⟩ :: rest) p)
    (hn : Visited avx isGlobal block rest ⟨i, .loadRegister offset cls staticCls size⟩)
    (hplace : place = finalPlace avx isGlobal nodeCls p (⟨i, .loadRegister offset cls staticCls size⟩ :: rest)) :
    Rel place rest (p.visit avx isGlobal nodeCls ⟨i, .loadRegister offset cls staticCls size⟩)
      (exec avx separate s ⟨i, .loadRegister offset cls staticCls size⟩)
      (exec avx place t ⟨i, .loadRegister offset cls staticCls size⟩) := by
  obtain ⟨hfix, r₀, hr₀, hcls⟩ := hn.typed
  have htr' : Tracked avx block rest (p.visit avx isGlobal nodeCls ⟨i, .loadRegister offset cls staticCls size⟩) :=
    htr.visit hn
  have hread := h.read_eq htr hplace hr₀
  unfold exec
  dsimp only
  rw [hr₀]
  dsimp only
  rw [hread]
  refine Rel.log (h.define htr' (fun x r hpast hx => final_visit hplace hpast hx) (fun x hx => written_visit hx) ?_ hn.ids
    ?_ ?_ ?_) i _
  · intro x r hpast hxi hx hpre
    exact (visit_loadRegister_pre hr₀ hxi (final_visit hplace hpast hx) hpre).1
  · intro r hp
    have hz := htr'.size_eq hn rfl (final_visit hplace hn.ids hp)
    have hb := h.boundS r₀
    rw [hcls, ← hfix.regSize_eq, hz] at hb
    exact Nat.lt_of_le_of_lt (extractBytes_le _ _ _) hb
  · intro r hp
    exact (visit_loadRegister htr hr₀ (final_visit hplace hn.ids hp)).1
  · intro r hp
    refine (visit_loadRegister htr hr₀ (final_visit hplace hn.ids hp)).2.imp id ?_
    rintro ⟨rfl, hal⟩
    rw [← hcls] at hal
    obtain ⟨hoff, hsize⟩ := isAliasable_full hal
    rw [hoff, hsize]
    exact extractBytes_full (h.boundS r)

theorem Rel.storeRegister {v : NodeID} (h : Rel place (⟨i, .storeRegister v offset cls staticCls size⟩ :: rest) p s t)
    (htr : Tracked avx block (⟨i, .storeRegister v offset cls staticCls size⟩ :: rest) p)
    (hn : Visited avx isGlobal block rest ⟨i, .storeRegister v offset cls staticCls size⟩)
    (hplace : place = finalPlace avx isGlobal nodeCls p (⟨i, .storeRegister v offset cls staticCls size⟩ :: rest)) :
    Rel place rest (p.visit avx isGlobal nodeCls ⟨i, .storeRegister v offset cls staticCls size⟩)
      (exec avx separate s ⟨i, .storeRegister v offset cls staticCls size⟩)
      (exec avx place t ⟨i, .storeRegister v offset cls staticCls size⟩) := by
  obtain ⟨-, ⟨r₀, hr₀, hcls, halign⟩, -⟩ := hn.typed
  have hget : t.get place v = s.get separate v := h.get_eq hplace (mem_singleton.2 rfl)
    (hn.args v (mem_singleton.2 rfl))
  have hdem : Tracked avx block (⟨i, .storeRegister v offset cls staticCls size⟩ :: rest)
      ([v].foldl (Pass.demoteWritten nodeCls) p) := htr.demoteArgs hn.args
  have hv : p.visit avx isGlobal nodeCls ⟨i, .storeRegister v offset cls staticCls size⟩ =
      ([v].foldl (Pass.demoteWritten nodeCls) p).storeRegister i v r₀ := by
    unfold Pass.visit
    dsimp only
    rw [hr₀]
    rfl
  have hunw : ∀ x, ((p.visit avx isGlobal nodeCls ⟨i, .storeRegister v offset cls staticCls size⟩).range x).written = false →
      (p.range x).written = false ∧ (p.staticMap r₀ = some x → (p.range x).preWritten = some i) := by
    intro x hx
    rw [hv] at hx
    have hu := Pass.unwritten_storeRegister hx
    rwa [written_demoteArgs, Pass.staticMap_demoteArgs, preWritten_demoteArgs] at hu
  have hpw : ∀ x, ((p.visit avx isGlobal nodeCls ⟨i, .storeRegister v offset cls staticCls size⟩).range x).preWritten =
      if x = v ∧ (p.range x).preWritten = some i then none else (p.range x).preWritten := by
    intro x
    rw [hv, Pass.preWritten_storeRegister, preWritten_demoteArgs]
  have hfull : ∀ x r, place x = some r → Past (⟨i, .storeRegister v offset cls staticCls size⟩ :: rest) x →
      (p.range x).preWritten = some i → x = v ∧ r = r₀ ∧ size = r₀.cls.regSize := by
    intro x r hx hpast hpre
    obtain ⟨-, st, hst, hid, o, c, sc, z, he, hr, hz⟩ := htr.pending (hplace ▸ hx) hpast (by rw [hpre]; simp)
    have hsti : st.id = i := Option.some.inj (hid.symm.trans hpre)
    have hst' : st = ⟨i, .storeRegister v offset cls staticCls size⟩ := by
      rcases mem_cons.1 hst with rfl | hst
      · rfl
      · exact absurd hsti (hn.ids st hst)
    rw [hst'] at he
    cases he
    rw [hr₀] at hr
    rw [← hcls] at hz
    exact ⟨rfl, (Option.some.inj hr).symm, isPreWritable_full hz⟩
  have hnone : place i = none := by
    cases hp : place i with
    | none => rfl
    | some r =>
      have hpi := final_visit hplace hn.ids hp
      rw [hv, Pass.preffered_storeRegister] at hpi
      exact absurd (hpi.symm.trans (hdem.no_dest hn rfl)) (by simp)
  have hwhole : ∀ old, size = r₀.cls.regSize →
      insertBytes r₀.cls.regSize old (s.get separate v) (r₀.regOffs offset) size =
        s.get separate v % 256 ^ r₀.cls.regSize := by
    intro old hz
    rw [halign hz, hz]
    exact insertBytes_full ..
  unfold exec
  dsimp only
  rw [hr₀]
  rw [hget]
  refine Rel.log ?_ i _
  exact {
    trace := h.trace
    env := h.env
    placed := by
      intro x r hpast hx hwx
      have hxi : x ≠ i := by
        rintro rfl
        rw [hnone] at hx
        cases hx
      obtain ⟨hw, hpre⟩ := hunw x hwx
      have hold := h.placed x r (hpast.cons hxi) hx hw
      dsimp only
      by_cases hr : r = r₀
      · subst hr
        -- the span of the register is unwritten only if it is the value stored
        have hmap := htr.mapped x r (hpast.cons hxi) (preffered_of_final (hpast.cons hxi) (hplace ▸ hx)) hw
        obtain ⟨rfl, -, hz⟩ := hfull x r hx (hpast.cons hxi) (hpre hmap)
        have hb := h.boundT r
        rw [hold] at hb
        rw [update_self, hwhole _ hz]
        exact Nat.mod_eq_of_lt hb
      · rw [update_of_ne hr]
        exact hold
    regs := by
      intro r
      dsimp only
      by_cases hr : r = r₀
      · subst hr
        refine .inl ?_
        rw [update_self, update_self]
        rcases h.regs r with he | ⟨w, hw, hpast, hpre⟩
        · rw [he]
        · obtain ⟨hmap, st, hst, hid, hst'⟩ := htr.pending (hplace ▸ hw) hpast hpre
          by_cases hsi : st.id = i
          · obtain ⟨-, -, hz⟩ := hfull w r hw hpast (hsi ▸ hid)
            rw [hwhole _ hz, hwhole _ hz]
          · exfalso
            have hmem : st ∈ rest := by
              rcases mem_cons.1 hst with rfl | hst
              · exact absurd rfl hsi
              · exact hst
            have harg : w ∈ st.op.args := by
              obtain ⟨o, c, sc, z, he, -⟩ := hst'
              rw [he]
              exact mem_singleton.2 rfl
            rw [hplace] at hw
            have hpi := (hunw w (unwritten_of_final hpast.tail hw hmem harg)).2 hmap
            exact hsi (Option.some.inj (hid.symm.trans hpi))
      · rw [update_of_ne hr, update_of_ne hr]
        rcases h.regs r with he | ⟨w, hw, hpast, hpre⟩
        · exact .inl he
        · refine .inr ⟨w, hw, hpast.tail, ?_⟩
          rw [hpw]
          have hno : ¬ (w = v ∧ (p.range w).preWritten = some i) := fun hc => hr (hfull w r hw hpast hc.2).2.1
          rw [if_neg hno]
          exact hpre
    boundS := by
      intro r
      dsimp only
      rw [update_apply]
      split
      · rename_i hr
        rw [hr]
        exact insertBytes_lt ..
      · exact h.boundS r
    boundT := by
      intro r
      dsimp only
      rw [update_apply]
      split
      · rename_i hr
        rw [hr]
        exact insertBytes_lt ..
      · exact h.boundT r }

theorem Rel.visit (h : Rel place (n :: rest) p s t) (htr : Tracked avx block (n :: rest) p)
    (hn : Visited avx isGlobal block rest n) (hplace : place = finalPlace avx isGlobal nodeCls p (n :: rest)) :
    Rel place rest (p.visit avx isGlobal nodeCls n) (exec avx separate s n) (exec avx place t n) := by
  obtain ⟨i, op⟩ := n
  cases op with
  | loadRegister offset cls staticCls size => exact h.loadRegister htr hn hplace
  | storeRegister v offset cls staticCls size => exact h.storeRegister htr hn hplace
  | value dest f as => exact h.value htr hn hplace

/-- What is known of the ops of `rest` in their block. -/
structure Remaining (avx : Bool) (isGlobal : NodeID → Bool) (block rest : List Node) : Prop where
  mem : ∀ n ∈ rest, n ∈ block
  ids : rest.Pairwise (fun n m => n.id ≠ m.id)
  dominates : rest.Pairwise (fun n m => ∀ a ∈ n.op.args, a ≠ m.id)

theorem Remaining.visited (h : Remaining avx isGlobal block (n :: rest)) (hwf : WellFormed avx isGlobal block) :
    Visited avx isGlobal block rest n where
  mem := h.mem n mem_cons_self
  unique := by
    intro m hm hid
    by_contra hne
    have hsymm : Std.Symm (fun n m : Node => n.id ≠ m.id) := ⟨fun _ _ hc => Ne.symm hc⟩
    exact hwf.ids.forall hm (h.mem n mem_cons_self) hne hid
  ids := fun m hm => Ne.symm ((List.pairwise_cons.1 h.ids).1 m hm)
  args := by
    intro a ha m hm
    rcases mem_cons.1 hm with rfl | hm
    · exact Ne.symm (hwf.args _ (h.mem _ mem_cons_self) a ha)
    · exact Ne.symm ((List.pairwise_cons.1 h.dominates).1 m hm a ha)
  typed := hwf.typed n (h.mem n mem_cons_self)

theorem Remaining.tail (h : Remaining avx isGlobal block (n :: rest)) : Remaining avx isGlobal block rest :=
  ⟨fun m hm => h.mem m (mem_cons_of_mem _ hm), h.ids.of_cons, h.dominates.of_cons⟩

theorem Rel.run (hwf : WellFormed avx isGlobal block) (hrem : Remaining avx isGlobal block rest)
    (h : Rel place rest p s t) (htr : Tracked avx block rest p)
    (hplace : place = finalPlace avx isGlobal nodeCls p rest) :
    Tracked avx block [] (rest.foldl (Pass.visit avx isGlobal nodeCls) p) ∧
    Rel place [] (rest.foldl (Pass.visit avx isGlobal nodeCls) p) (SRA.run avx separate s rest)
      (SRA.run avx place t rest) := by
  induction rest generalizing p s t with
  | nil => exact ⟨htr, h⟩
  | cons n rest ih =>
    have hn := hrem.visited hwf
    exact ih hrem.tail (h.visit htr hn hplace) (htr.visit hn) hplace

/-! ## The first pass -/

/-- What the first pass makes of the live range of a node. -/
def Marked (avx : Bool) (isGlobal : NodeID → Bool) (block : List Node) (x : NodeID) (l : LiveRange) : Prop :=
  l.prefferedRegister = none ∧ l.preWritten = none ∨
  ∃ st ∈ block, ∃ r, FullStore avx st x r ∧ l.prefferedRegister = some r ∧ l.preWritten = some st.id ∧ isGlobal x = false

theorem marked_preWrites (hwf : WellFormed avx isGlobal block) (x : NodeID) :
    Marked avx isGlobal block x (preWrites avx isGlobal block x) := by
  suffices h : ∀ (l : List Node) (ranges : NodeID → LiveRange), (∀ n ∈ l, n ∈ block) →
      (∀ y, Marked avx isGlobal block y (ranges y)) →
      ∀ y, Marked avx isGlobal block y (l.foldl (markPreWrite avx isGlobal) ranges y) from
    h block (freshRange block) (fun n hn => hn) (fun y => .inl ⟨rfl, rfl⟩) x
  intro l
  induction l with
  | nil => exact fun ranges _ h => h
  | cons n l ih =>
    intro ranges hl h
    refine ih _ (fun m hm => hl m (mem_cons_of_mem _ hm)) (fun y => ?_)
    have hn := hwf.typed n (hl n mem_cons_self)
    unfold markPreWrite
    cases hop : n.op with
    | storeRegister v offset cls staticCls size =>
      unfold Typed at hn
      rw [hop] at hn
      obtain ⟨-, ⟨r, hr, -⟩, -⟩ := hn
      dsimp only
      split
      · rename_i hc
        rw [update_apply]
        split
        · rename_i hy
          subst hy
          exact .inr ⟨n, hl n mem_cons_self, r, ⟨offset, cls, staticCls, size, hop, hr, hc.1⟩, hr, rfl, hc.2.2⟩
        · exact h y
      · exact h y
    | loadRegister offset cls staticCls size => exact h y
    | value dest f as => exact h y

theorem tracked_start (hwf : WellFormed avx isGlobal block) :
    Tracked avx block block ⟨preWrites avx isGlobal block, fun _ => none⟩ := by
  have htyped : ∀ x r, (preWrites avx isGlobal block x).prefferedRegister = some r →
      ∃ m ∈ block, m.id = x ∧ ∃ c, m.op.dest = some c ∧ c.regSize = r.cls.regSize := by
    intro x r hx
    rcases marked_preWrites hwf x with ⟨hnone, -⟩ | ⟨st, hst, r', ⟨o, c, sc, z, hop, hr, -⟩, hp, -, hg⟩
    · rw [hnone] at hx
      cases hx
    · have hty := hwf.typed st hst
      unfold Typed at hty
      rw [hop] at hty
      obtain ⟨hfix, ⟨r'', hr'', hcls, -⟩, hdef⟩ := hty
      obtain ⟨m, hm, hid, hd⟩ := hdef hg
      rw [hp] at hx
      rw [hr] at hr''
      rw [← Option.some.inj hx, Option.some.inj hr'', hcls]
      exact ⟨m, hm, hid, c, hd, hfix.regSize_eq⟩
  exact {
    mapPast := fun r u hu => by cases hu
    pre := by
      intro x k hk
      rcases marked_preWrites hwf x with ⟨-, hnone⟩ | ⟨st, hst, r, hfull, hp, hpre, -⟩
      · exact absurd (hk.symm.trans hnone) (by simp)
      · refine ⟨st, hst, Option.some.inj (hpre.symm.trans hk), r, hfull, fun r' hr' => ?_⟩
        exact Option.some.inj (hr'.symm.trans hp)
    future := by
      intro m _
      rcases marked_preWrites hwf m.id with ⟨h1, h2⟩ | ⟨st, -, r, -, h1, h2, -⟩
      · exact ⟨fun _ => h2, fun _ => h1⟩
      · exact ⟨fun h => absurd (h.symm.trans h1) (by simp), fun h => absurd (h.symm.trans h2) (by simp)⟩
    typed := htyped
    mapped := by
      intro x r hpast hx _
      obtain ⟨m, hm, hid, -⟩ := htyped x r hx
      exact absurd hid (hpast m hm) }

theorem rel_start (hwf : WellFormed avx isGlobal block) (hregs : ∀ r : PhysicalRegister, s.regs r < 256 ^ r.cls.regSize) :
    Rel (placement avx isGlobal block) block ⟨preWrites avx isGlobal block, fun _ => none⟩ s s where
  trace := rfl
  env := fun _ _ => rfl
  placed := by
    intro x r hpast hx _
    obtain ⟨m, hm, hid, -⟩ := (tracked_start hwf).typed x r (preffered_of_final hpast hx)
    exact absurd hid (hpast m hm)
  regs := fun r => .inl rfl
  boundS := hregs
  boundT := hregs

/-- With its nodes where the pass leaves them, a block gives every op the arguments, every `LoadRegister` the value and every
static register the final contents it has with the nodes in temporaries. -/
theorem optimizeStaticRegisters_sound (hwf : WellFormed avx isGlobal block) (s : State)
    (hregs : ∀ r : PhysicalRegister, s.regs r < 256 ^ r.cls.regSize) :
    (run avx (placement avx isGlobal block) s block).trace = (run avx separate s block).trace ∧
    (run avx (placement avx isGlobal block) s block).regs = (run avx separate s block).regs := by
  have hrem : Remaining avx isGlobal block block := ⟨fun n hn => hn, hwf.ids, hwf.dominates⟩
  obtain ⟨htr, h⟩ := Rel.run hwf hrem (rel_start hwf hregs) (tracked_start hwf) rfl
  refine ⟨h.trace, ?_⟩
  funext r
  rcases h.regs r with he | ⟨v, -, -, hpre⟩
  · exact he
  · -- every pre-write has met its store
    obtain ⟨k, hk⟩ := Option.ne_none_iff_exists'.1 hpre
    obtain ⟨st, hst, -⟩ := htr.pre v k hk
    cases hst

end Runs

/-- `rcx := 2 * rax`, and a use of `ecx` and `rax`. -/
def doubled : List Node :=
  [⟨1, .loadRegister 8 .gpr .gprFixed 8⟩, ⟨2, .value (some .gpr) List.sum [1, 1]⟩,
    ⟨3, .storeRegister 2 16 .gpr .gprFixed 8⟩, ⟨4, .loadRegister 16 .gpr .gprFixed 4⟩, ⟨5, .value none List.sum [4, 1]⟩]

def doubledStart : State := { env := fun _ => 0, regs := fun r => if r.reg = 0 then 21 else 0, trace := [] }

theorem doubled_wellFormed : WellFormed false (fun _ => false) doubled where
  ids := by decide
  args := by decide
  dominates := by decide
  typed := by
    simp [doubled, Typed, Fixed, getRegAndClassFromOffset, gregsOffset, RegisterClass.regSize,
      PhysicalRegister.regOffs, Op.dest]

/-- The load is an alias, the sum a pre-write. -/
theorem optimizeStaticRegisters_sound_doubled :
    placement false (fun _ => false) doubled 1 = some ⟨.gprFixed, 0⟩ ∧
    placement false (fun _ => false) doubled 2 = some ⟨.gprFixed, 1⟩ ∧
    (run false (placement false (fun _ => false) doubled) doubledStart doubled).trace =
      [(1, [21]), (2, [21, 21]), (3, [42]), (4, [42]), (5, [42, 21])] := by
  have hregs : ∀ r : PhysicalRegister, doubledStart.regs r < 256 ^ r.cls.regSize := by
    intro r
    have hsize : 8 ≤ r.cls.regSize := by cases r.cls <;> decide
    have hpow : 256 ^ 8 ≤ 256 ^ r.cls.regSize := Nat.pow_le_pow_right (by decide) hsize
    have hle : doubledStart.regs r ≤ 21 := by
      unfold doubledStart
      dsimp only
      split <;> decide
    exact Nat.lt_of_le_of_lt hle (Nat.lt_of_lt_of_le (by decide) hpow)
  refine ⟨by decide, by decide, ?_⟩
  rw [(optimizeStaticRegisters_sound doubled_wellFormed doubledStart hregs).1]
  decide

end FexEmu.IR.SRA
