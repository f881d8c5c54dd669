import FexEmu.IR.DeadStoreElimination
/-!
# The dataflow of dead store elimination

The rounds of pass 2 do not reach a fixed point. A block drops only what all its next blocks count as written and do not
read.
-/
namespace FexEmu.IR.DeadStoreElimination

/-! ## The dataflow -/

section Dataflow

variable {w : Nat}

/-- What a block drops, every next block writes without reading it, and what it counts as written it writes itself or drops.
-/
structure Consistent (succs : Nat → List Nat) (own info : Nat → BitInfo w) : Prop where
  reads : ∀ i, (info i).reads = (own i).reads
  writes : ∀ i n, (info i).writes.getLsbD n = true →
    (own i).writes.getLsbD n = true ∨ (info i).kill.getLsbD n = true
  kill : ∀ i n, (info i).kill.getLsbD n = true → (info i).reads.getLsbD n = false ∧ succs i ≠ [] ∧
    ∀ t ∈ succs i, (info t).writes.getLsbD n = true ∧ (info t).reads.getLsbD n = false

theorem getLsbD_dropped (b t : BitInfo w) (n : Nat) : (b.dropped t).getLsbD n = true ↔
    t.writes.getLsbD n = true ∧ t.reads.getLsbD n = false ∧ b.reads.getLsbD n = false := by
  unfold BitInfo.dropped
  simp only [BitVec.getLsbD_and, BitVec.getLsbD_not, Bool.and_eq_true, Bool.not_eq_true', decide_eq_true_eq]
  constructor
  · rintro ⟨⟨h1, -, h2⟩, -, h3⟩
    exact ⟨h1, h2, h3⟩
  · rintro ⟨h1, h2, h3⟩
    have := BitVec.lt_of_getLsbD h1
    exact ⟨⟨h1, this, h2⟩, this, h3⟩

theorem Consistent.update {succs : Nat → List Nat} {own info : Nat → BitInfo w} (h : Consistent succs own info)
    (i : Nat) (kill : BitVec w) (hs : succs i ≠ [])
    (hk : ∀ n, kill.getLsbD n = true ↔ ∀ t ∈ succs i, ((info i).dropped (info t)).getLsbD n = true) :
    Consistent succs own (Function.update info i ((info i).withKill kill)) := by
  have hreads : ∀ j, (Function.update info i ((info i).withKill kill) j).reads = (info j).reads := by
    intro j
    rw [Function.update_apply]
    split
    · subst j; rfl
    · rfl
  have hgrow : ∀ j n, (info j).writes.getLsbD n = true →
      (Function.update info i ((info i).withKill kill) j).writes.getLsbD n = true := by
    intro j n hj
    rw [Function.update_apply]
    split
    · subst j
      simp [BitInfo.withKill, hj]
    · exact hj
  -- what was dead stays dead: kills are only added
  have hold : ∀ n, (info i).kill.getLsbD n = true → kill.getLsbD n = true := by
    intro n hn
    obtain ⟨h1, -, h3⟩ := h.kill i n hn
    rw [hk]
    intro t ht
    rw [getLsbD_dropped]
    exact ⟨(h3 t ht).1, (h3 t ht).2, h1⟩
  refine ⟨fun j => (hreads j).trans (h.reads j), fun j n hj => ?_, fun j n hj => ?_⟩
  · rw [Function.update_apply] at hj ⊢
    split
    · subst j
      simp only [if_true, BitInfo.withKill, BitVec.getLsbD_or, BitVec.getLsbD_and, Bool.or_eq_true,
        Bool.and_eq_true] at hj ⊢
      rcases hj with hj | ⟨hj, -⟩
      · exact (h.writes i n hj).imp_right (hold n)
      · exact .inr hj
    · rw [if_neg ‹_›] at hj
      exact h.writes j n hj
  · rw [hreads]
    have hkj : succs j ≠ [] ∧ (info j).reads.getLsbD n = false ∧
        ∀ t ∈ succs j, (info t).writes.getLsbD n = true ∧ (info t).reads.getLsbD n = false := by
      rw [Function.update_apply] at hj
      split at hj
      · subst j
        have hall := (hk n).1 hj
        simp only [getLsbD_dropped] at hall
        obtain ⟨t, ht⟩ := List.exists_mem_of_ne_nil _ hs
        exact ⟨hs, (hall t ht).2.2, fun t ht => ⟨(hall t ht).1, (hall t ht).2.1⟩⟩
      · obtain ⟨h1, h2, h3⟩ := h.kill j n hj
        exact ⟨h2, h1, h3⟩
    refine ⟨hkj.2.1, hkj.1, fun t ht => ⟨hgrow t n (hkj.2.2 t ht).1, ?_⟩⟩
    rw [hreads]
    exact (hkj.2.2 t ht).2

end Dataflow

def successors (p : Program) (i : Nat) : List Nat := (p[i]?).elim [] Block.successors

/-- The three kinds of sets are consistent. -/
structure InfoConsistent (p : Program) (own info : Nat → Info) : Prop where
  flag : Consistent (successors p) (fun i => (own i).flag) (fun i => (info i).flag)
  gpr : Consistent (successors p) (fun i => (own i).gpr) (fun i => (info i).gpr)
  fpr : Consistent (successors p) (fun i => (own i).fpr) (fun i => (info i).fpr)

theorem update_comp {w : Nat} (g : Info → BitInfo w) (info : Nat → Info) (i : Nat) (x : Info) :
    (fun j => g (Function.update info i x j)) = Function.update (fun j => g (info j)) i (g x) := by
  funext j
  rw [Function.update_apply, Function.update_apply]
  split <;> rfl

theorem consistent_propagateBlock {p : Program} {own info : Nat → Info} (h : InfoConsistent p own info) (i : Nat) :
    InfoConsistent p own (propagateBlock p info i) := by
  unfold propagateBlock
  split
  · rename_i t ht
    have hs : successors p i = [t] := by
      obtain ⟨b, hb, hbt⟩ := Option.map_eq_some_iff.1 ht
      simp [successors, hb, Block.successors, hbt]
    constructor
    · rw [update_comp Info.flag]
      exact h.flag.update i _ (by simp [hs]) (by simp [hs])
    · rw [update_comp Info.gpr]
      exact h.gpr.update i _ (by simp [hs]) (by simp [hs])
    · rw [update_comp Info.fpr]
      exact h.fpr.update i _ (by simp [hs]) (by simp [hs])
  · rename_i c a t f ht
    have hs : successors p i = [t, f] := by
      obtain ⟨b, hb, hbt⟩ := Option.map_eq_some_iff.1 ht
      simp [successors, hb, Block.successors, hbt]
    constructor
    · rw [update_comp Info.flag]
      exact h.flag.update i _ (by simp [hs]) (by simp [hs])
    · rw [update_comp Info.gpr]
      exact h.gpr.update i _ (by simp [hs]) (by simp [hs])
    · rw [update_comp Info.fpr]
      exact h.fpr.update i _ (by simp [hs]) (by simp [hs])
  · exact h

theorem consistent_start {w : Nat} (succs : Nat → List Nat) {own : Nat → BitInfo w} (h : ∀ i, (own i).kill = 0) :
    Consistent succs own own where
  reads _ := rfl
  writes _ _ := .inl
  kill i n hn := by simp [h] at hn

variable (avx : Bool)

/-- What the blocks read and write themselves. -/
def ownInfo (p : Program) (i : Nat) : Info := (p[i]?).elim {} (fun b => blockInfo avx b.ops)

theorem kill_foldl (ops : List Op) (info : Info) :
    (ops.foldl (fun info op => info.add (opInfo avx op)) info).flag.kill = info.flag.kill ∧
      (ops.foldl (fun info op => info.add (opInfo avx op)) info).gpr.kill = info.gpr.kill ∧
      (ops.foldl (fun info op => info.add (opInfo avx op)) info).fpr.kill = info.fpr.kill := by
  induction ops generalizing info with
  | nil => exact ⟨rfl, rfl, rfl⟩
  | cons op ops ih => exact ih _

theorem kill_ownInfo (p : Program) (i : Nat) :
    (ownInfo avx p i).flag.kill = 0 ∧ (ownInfo avx p i).gpr.kill = 0 ∧ (ownInfo avx p i).fpr.kill = 0 := by
  unfold ownInfo
  cases p[i]? with
  | none => exact ⟨rfl, rfl, rfl⟩
  | some b => exact kill_foldl avx b.ops {}

theorem consistent_infoMap (p : Program) : InfoConsistent p (ownInfo avx p) (infoMap avx p) := by
  have hround : ∀ (l : List Nat) info, InfoConsistent p (ownInfo avx p) info →
      InfoConsistent p (ownInfo avx p) (l.foldl (propagateBlock p) info) := by
    intro l
    induction l with
    | nil => exact fun _ => id
    | cons i l ih => exact fun info h => ih _ (consistent_propagateBlock h i)
  have hrounds : ∀ n, InfoConsistent p (ownInfo avx p) ((propagateRound p)^[n] (ownInfo avx p)) := by
    intro n
    induction n with
    | zero =>
      exact ⟨consistent_start _ (fun i => (kill_ownInfo avx p i).1),
        consistent_start _ (fun i => (kill_ownInfo avx p i).2.1),
        consistent_start _ (fun i => (kill_ownInfo avx p i).2.2)⟩
    | succ n ih =>
      rw [Function.iterate_succ_apply']
      exact hround _ _ ih
  exact hrounds propagationRounds

/-! ## Locations -/

/-- What a bit of the sets stands for. -/
inductive Loc where
  | flag (n : Nat)
  | gpr (r : Nat)
  | fpr (r lane : Nat)

/-- Whether a location is in one of the three sets of a block. -/
def Info.has (sel : {w : Nat} → BitInfo w → BitVec w) (info : Info) : Loc → Bool
  | .flag n => (sel info.flag).getLsbD n
  | .gpr r => (sel info.gpr).getLsbD r
  | .fpr r lane => (sel info.fpr).getLsbD (3 * r + lane)

/-- The block reads the location. -/
def Reads (info : Info) (l : Loc) : Prop := info.has BitInfo.reads l = true

/-- The block writes the location. -/
def Writes (info : Info) (l : Loc) : Prop := info.has BitInfo.writes l = true

/-- The block writes the location before it reads it. -/
def Kills (info : Info) (l : Loc) : Prop := info.has BitInfo.kill l = true

theorem kills_cases {p : Program} {i : Nat} {l : Loc} (h : Kills (infoMap avx p i) l) :
    ¬ Reads (infoMap avx p i) l ∧ successors p i ≠ [] ∧
      ∀ t ∈ successors p i, Writes (infoMap avx p t) l ∧ ¬ Reads (infoMap avx p t) l := by
  have hc := consistent_infoMap avx p
  unfold Kills Reads Writes Info.has at *
  simp only [Bool.not_eq_true]
  cases l with
  | flag n => exact hc.flag.kill i n h
  | gpr r => exact hc.gpr.kill i r h
  | fpr r lane => exact hc.fpr.kill i _ h

theorem writes_cases {p : Program} {i : Nat} {l : Loc} (h : Writes (infoMap avx p i) l) :
    Writes (ownInfo avx p i) l ∨ Kills (infoMap avx p i) l := by
  have hc := consistent_infoMap avx p
  cases l with
  | flag n => exact hc.flag.writes i n h
  | gpr r => exact hc.gpr.writes i r h
  | fpr r lane => exact hc.fpr.writes i _ h

theorem reads_infoMap (p : Program) (i : Nat) (l : Loc) :
    Reads (infoMap avx p i) l ↔ Reads (ownInfo avx p i) l := by
  have hc := consistent_infoMap avx p
  cases l with
  | flag n => exact Eq.congr_left (congrArg (BitVec.getLsbD · n) (hc.flag.reads i))
  | gpr r => exact Eq.congr_left (congrArg (BitVec.getLsbD · r) (hc.gpr.reads i))
  | fpr r lane => exact Eq.congr_left (congrArg (BitVec.getLsbD · (3 * r + lane)) (hc.fpr.reads i))

theorem has_add (sel : {w : Nat} → BitInfo w → BitVec w) (hsel : ∀ {w} (x y : BitInfo w) n,
    (sel (x.add y)).getLsbD n = ((sel x).getLsbD n || (sel y).getLsbD n)) (a b : Info) (l : Loc) :
    (a.add b).has sel l = (a.has sel l || b.has sel l) := by
  cases l <;> exact hsel _ _ _

theorem has_foldl (sel : {w : Nat} → BitInfo w → BitVec w) (hsel : ∀ {w} (x y : BitInfo w) n,
    (sel (x.add y)).getLsbD n = ((sel x).getLsbD n || (sel y).getLsbD n)) (ops : List Op) (info : Info) (l : Loc) :
    (ops.foldl (fun info op => info.add (opInfo avx op)) info).has sel l = true ↔
      info.has sel l = true ∨ ∃ op ∈ ops, (opInfo avx op).has sel l = true := by
  induction ops generalizing info with
  | nil => simp
  | cons op ops ih =>
    rw [List.foldl_cons, ih, has_add sel hsel]
    simp [or_assoc]

theorem reads_blockInfo (ops : List Op) (l : Loc) :
    Reads (blockInfo avx ops) l ↔ ∃ op ∈ ops, Reads (opInfo avx op) l := by
  unfold Reads blockInfo
  rw [has_foldl avx BitInfo.reads (fun x y n => BitVec.getLsbD_or ..)]
  cases l <;> simp [Info.has]

theorem writes_blockInfo (ops : List Op) (l : Loc) :
    Writes (blockInfo avx ops) l ↔ ∃ op ∈ ops, Writes (opInfo avx op) l := by
  unfold Writes blockInfo
  rw [has_foldl avx BitInfo.writes (fun x y n => BitVec.getLsbD_or ..)]
  cases l <;> simp [Info.has]

/-! ## Dead locations -/

/-- Some op of the block reads the location. -/
def BlockReads (p : Program) (i : Nat) (l : Loc) : Prop := ∃ b, p[i]? = some b ∧ ∃ op ∈ b.ops, Reads (opInfo avx op) l

/-- Some op of the block writes the location. -/
def BlockWrites (p : Program) (i : Nat) (l : Loc) : Prop := ∃ b, p[i]? = some b ∧ ∃ op ∈ b.ops, Writes (opInfo avx op) l

/-- On some path from the start of a block, a block reads the location, or the path leaves, before a block writes it. -/
inductive Live (p : Program) : Nat → Loc → Prop
  | reads {i l} : BlockReads avx p i l → Live p i l
  | leaves {i l} : successors p i = [] → ¬ BlockWrites avx p i l → Live p i l
  | next {i t l} : ¬ BlockWrites avx p i l → t ∈ successors p i → Live p t l → Live p i l

/-- The block does not read the location, and goes only to blocks in which it is not live. -/
def Dead (p : Program) (i : Nat) (l : Loc) : Prop :=
  ¬ BlockReads avx p i l ∧ successors p i ≠ [] ∧ ∀ t ∈ successors p i, ¬ Live avx p t l

def Op.isStore : Op → Prop
  | .storeContext .. | .storeFlag .. => True
  | _ => False

/-- Behind these ops of a block, the last store to the location may have been one to a dead location: on some path, such a
store was made, and no op since has written the location where it is not dead. -/
inductive Stale (p : Program) : Nat → List Op → Loc → Prop
  | enter {j i b l} : p[j]? = some b → i ∈ successors p j → Stale p j b.ops l → Stale p i [] l
  | store {i b done op l} : p[i]? = some b → done ++ [op] <+: b.ops → op.isStore → Writes (opInfo avx op) l →
      Dead avx p i l → Stale p i (done ++ [op]) l
  | keep {i b done op l} : p[i]? = some b → done ++ [op] <+: b.ops → ¬ Writes (opInfo avx op) l → Stale p i done l →
      Stale p i (done ++ [op]) l

variable {avx} {p : Program} {i : Nat} {l : Loc}

theorem reads_iff : Reads (infoMap avx p i) l ↔ BlockReads avx p i l := by
  rw [reads_infoMap]
  unfold BlockReads ownInfo
  cases h : p[i]? with
  | none => simp [Reads, Info.has]; cases l <;> simp
  | some b => simp [reads_blockInfo]

theorem writes_ownInfo : Writes (ownInfo avx p i) l ↔ BlockWrites avx p i l := by
  unfold BlockWrites ownInfo
  cases h : p[i]? with
  | none => simp [Writes, Info.has]; cases l <;> simp
  | some b => simp [writes_blockInfo]

/-- A location that the pass has as written and not read is not live. -/
theorem not_live (hw : Writes (infoMap avx p i) l) (hr : ¬ Reads (infoMap avx p i) l) : ¬ Live avx p i l := by
  intro hlive
  induction hlive with
  | reads h => exact hr (reads_iff.2 h)
  | leaves hs h =>
    rcases writes_cases avx hw with hw | hk
    · exact h (writes_ownInfo.1 hw)
    · exact (kills_cases avx hk).2.1 hs
  | next h ht _ ih =>
    rcases writes_cases avx hw with hw | hk
    · exact h (writes_ownInfo.1 hw)
    · obtain ⟨hw, hr⟩ := (kills_cases avx hk).2.2 _ ht
      exact ih hw hr

theorem dead_of_kills (h : Kills (infoMap avx p i) l) : Dead avx p i l := by
  obtain ⟨hr, hs, hnext⟩ := kills_cases avx h
  exact ⟨fun hreads => hr (reads_iff.2 hreads), hs, fun t ht => not_live (hnext t ht).1 (hnext t ht).2⟩

end FexEmu.IR.DeadStoreElimination
