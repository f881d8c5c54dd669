import FexEmu.Frontend.Decoder
/-!
# Multiblock discovery is closed

Decoding a block adds only addresses that are not done, so the done addresses are distinct and at most `2 ^ 64`.
-/
namespace FexEmu.Frontend

variable (cfg : Config) (decode : DecodeInstruction)

/-- The instructions follow one another from `pc`. -/
def ContiguousFrom : UInt64 → List DecodedInst → Prop
  | _, [] => True
  | pc, i :: is => i.pc = pc ∧ ContiguousFrom (pc + i.instSize) is

/-- The one-byte and two-byte `Jcc`. -/
def IsJcc (op : UInt16) : Prop := 0x70 ≤ op ∧ op ≤ 0x7F ∨ 0x80 ≤ op ∧ op ≤ 0x8F

/-- `JMP` with a relative target. -/
def IsJmp (op : UInt16) : Prop := op = 0xE9 ∨ op = 0xEB

/-- `LOOPNE`, `LOOPE`, `LOOP` and `JrCXZ`. -/
def IsLoop (op : UInt16) : Prop := 0xE0 ≤ op ∧ op ≤ 0xE3

instance (op : UInt16) : Decidable (IsLoop op) := inferInstanceAs (Decidable (_ ∧ _))

/-- The instruction ends its block. -/
def SetsRIP (i : DecodedInst) : Prop := ∃ info, i.tableInfo = some info ∧ info.setsRIP = true

/-- The address is done or waiting. -/
def Known (d : Decoder) (a : UInt64) : Prop := a ∈ d.hasBlocks ∨ a ∈ d.blocksToDecode

/-- The targets of the instruction, if it is a branch into the range, are `K`. -/
def BranchClosed (entryPoint : UInt64) (K : UInt64 → Prop) (i : DecodedInst) : Prop :=
  SetsRIP i → IsJcc i.op ∨ IsJmp i.op →
    entryPoint ≤ targetRIP cfg i ∧ targetRIP cfg i < cfg.sectionMaxAddress →
    K (targetRIP cfg i) ∧ (IsJcc i.op → K (fallthroughRIP i))

variable {x a rip : UInt64} {l : List UInt64} {d d' : Decoder} {is : List DecodedInst}

theorem mem_setEmplace : a ∈ setEmplace x l ↔ a = x ∨ a ∈ l := by
  unfold setEmplace
  split
  · constructor
    · exact .inr
    · rintro (rfl | h) <;> assumption
  · rw [List.mem_orderedInsert]

theorem nodup_setEmplace (h : l.Nodup) : (setEmplace x l).Nodup := by
  unfold setEmplace
  split
  · exact h
  · exact (List.perm_orderedInsert _ x l).nodup_iff.2 (List.nodup_cons.2 ⟨‹_›, h⟩)

theorem length_setEmplace (h : x ∉ l) : (setEmplace x l).length = l.length + 1 := by
  unfold setEmplace
  rw [if_neg h, List.orderedInsert_length]

theorem length_le_of_nodup (h : l.Nodup) : l.length ≤ 2 ^ 64 := by
  have hinj : Function.Injective UInt64.toFin := fun a b e => UInt64.toFin_inj.1 e
  have := (h.map hinj).length_le_card
  simpa using this

/-! ## Decoding one block -/

/-- What decoding may do to the blocks: only new targets are added. -/
structure Grows (d d' : Decoder) : Prop where
  entryPoint : d'.entryPoint = d.entryPoint
  blocks : d'.blocks = d.blocks
  hasBlocks : d'.hasBlocks = d.hasBlocks
  keeps : ∀ a ∈ d.blocksToDecode, a ∈ d'.blocksToDecode
  adds : ∀ a ∈ d'.blocksToDecode, a ∈ d.blocksToDecode ∨ a ∉ d.hasBlocks
  nodup : d.blocksToDecode.Nodup → d'.blocksToDecode.Nodup

theorem Grows.refl (d : Decoder) : Grows d d := ⟨rfl, rfl, rfl, fun _ => id, fun _ => .inl, id⟩

theorem Grows.trans {d'' : Decoder} (h : Grows d d') (h' : Grows d' d'') : Grows d d'' where
  entryPoint := h'.entryPoint.trans h.entryPoint
  blocks := h'.blocks.trans h.blocks
  hasBlocks := h'.hasBlocks.trans h.hasBlocks
  keeps a ha := h'.keeps a (h.keeps a ha)
  adds a ha := by
    rcases h'.adds a ha with h1 | h1
    · exact h.adds a h1
    · exact .inr (h.hasBlocks ▸ h1)
  nodup hn := h'.nodup (h.nodup hn)

theorem Grows.known (h : Grows d d') (ha : Known d a) : Known d' a := by
  rcases ha with ha | ha
  · exact .inl (h.hasBlocks ▸ ha)
  · exact .inr (h.keeps a ha)

theorem grows_addTarget (d : Decoder) (rip : UInt64) : Grows d (addTarget d rip) ∧ Known (addTarget d rip) rip := by
  unfold addTarget
  split
  · exact ⟨.refl d, ‹_›⟩
  · rename_i hn
    rw [not_or] at hn
    refine ⟨⟨rfl, rfl, rfl, fun a ha => mem_setEmplace.2 (.inr ha), fun a ha => ?_, nodup_setEmplace⟩,
      .inr (mem_setEmplace.2 (.inl rfl))⟩
    rcases mem_setEmplace.1 ha with rfl | ha
    · exact .inr hn.1
    · exact .inl ha

theorem grows_externalBranch (d : Decoder) (rip : UInt64) : Grows d (externalBranch d rip) :=
  ⟨rfl, rfl, rfl, fun _ => id, fun _ => .inl, id⟩

theorem branchKind_jcc {op : UInt16} (h : IsJcc op) : branchKind op = some true := by
  unfold branchKind
  rcases h with h | h
  · rw [if_pos h]
  · rw [if_pos h, ite_self]

theorem branchKind_jmp {op : UInt16} (h : IsJmp op) : branchKind op = some false := by
  rcases h with rfl | rfl <;> decide

theorem branchTarget_closed (d : Decoder) (i : DecodedInst) :
    Grows d (branchTargetInMultiblockRange cfg d i) ∧
      (cfg.multiblock = true →
        BranchClosed cfg d.entryPoint (Known (branchTargetInMultiblockRange cfg d i)) i) := by
  unfold branchTargetInMultiblockRange
  split
  · cases hk : branchKind i.op with
    | none =>
      refine ⟨by dsimp only; split; exacts [grows_externalBranch d _, .refl d], fun _ _ hj => ?_⟩
      rcases hj with hj | hj
      · rw [branchKind_jcc hj] at hk; cases hk
      · rw [branchKind_jmp hj] at hk; cases hk
    | some conditional =>
      dsimp only
      split
      · rename_i hin
        obtain ⟨g1, k1⟩ : Grows d (if conditional = true then addTarget { d with
              maxCondBranchForward := max d.maxCondBranchForward (targetRIP cfg i)
              maxCondBranchBackwards := min d.maxCondBranchBackwards (targetRIP cfg i) } (fallthroughRIP i)
            else d) ∧ (conditional = true → Known (if conditional = true then addTarget { d with
              maxCondBranchForward := max d.maxCondBranchForward (targetRIP cfg i)
              maxCondBranchBackwards := min d.maxCondBranchBackwards (targetRIP cfg i) } (fallthroughRIP i)
            else d) (fallthroughRIP i)) := by
          cases conditional with
          | false => exact ⟨.refl d, fun h => by cases h⟩
          | true =>
            obtain ⟨h1, h2⟩ := grows_addTarget { d with
              maxCondBranchForward := max d.maxCondBranchForward (targetRIP cfg i)
              maxCondBranchBackwards := min d.maxCondBranchBackwards (targetRIP cfg i) } (fallthroughRIP i)
            exact ⟨⟨h1.entryPoint, h1.blocks, h1.hasBlocks, h1.keeps, h1.adds, h1.nodup⟩, fun _ => h2⟩
        obtain ⟨g2, k2⟩ := grows_addTarget _ (targetRIP cfg i)
        refine ⟨g1.trans g2, fun _ _ _ _ => ⟨k2, fun hj => g2.known (k1 ?_)⟩⟩
        rw [branchKind_jcc hj] at hk
        exact (Option.some.inj hk).symm
      · rename_i hin
        exact ⟨grows_externalBranch d _, fun _ _ _ h => absurd h hin⟩
  · rename_i hm
    exact ⟨.refl d, fun h => absurd h hm⟩

theorem grows_enterPage (d : Decoder) (page : UInt64) :
    Grows d (enterPage d page) ∧ (enterPage d page).decodedSize = d.decodedSize := by
  unfold enterPage
  split
  · exact ⟨.refl d, rfl⟩
  · exact ⟨⟨rfl, rfl, rfl, fun _ => id, fun _ => .inl, id⟩, rfl⟩

theorem instAt_pc (rip pc : UInt64) : (instAt decode rip pc).pc = pc := by
  unfold instAt
  split <;> rfl

theorem decodedSize_addTarget (d : Decoder) (a : UInt64) : (addTarget d a).decodedSize = d.decodedSize := by
  unfold addTarget
  split <;> rfl

theorem decodedSize_branchTarget (d : Decoder) (i : DecodedInst) :
    (branchTargetInMultiblockRange cfg d i).decodedSize = d.decodedSize := by
  unfold branchTargetInMultiblockRange
  split
  · split
    · split <;> rfl
    · dsimp only
      split
      · rw [decodedSize_addTarget]
        split
        · rw [decodedSize_addTarget]
        · rfl
      · rfl
  · rfl

/-- The decoder grows by one instruction, and if it ends the block its branch targets are known. A block goes on only below
the size of the buffer. -/
theorem decodeNext_spec {pc : UInt64} {i : DecodedInst} {more : Bool}
    (h : decodeNext cfg decode d rip pc = (d', i, more)) :
    Grows d d' ∧ i.pc = pc ∧ d'.decodedSize = d.decodedSize + 1 ∧
      (cfg.multiblock = true → BranchClosed cfg d.entryPoint (Known d') i) ∧
      (more = true → d'.decodedSize < defaultDecodedBufferSize) := by
  obtain ⟨g1, s1⟩ := grows_enterPage d (pageMask pc)
  obtain ⟨g2, s2⟩ := grows_enterPage (enterPage d (pageMask pc)) (pageMask (pc + maxInstSize))
  -- entering pages and counting adds no blocks
  have g : Grows d (countInst (enterPage (enterPage d (pageMask pc)) (pageMask (pc + maxInstSize)))
      (instAt decode rip pc)) := by
    have g := g1.trans g2
    exact ⟨g.entryPoint, g.blocks, g.hasBlocks, g.keeps, g.adds, g.nodup⟩
  have hs : (countInst (enterPage (enterPage d (pageMask pc)) (pageMask (pc + maxInstSize)))
      (instAt decode rip pc)).decodedSize = d.decodedSize + 1 := by
    unfold countInst
    rw [s2, s1]
  unfold decodeNext at h
  dsimp only at h
  generalize countInst _ _ = d₁ at h g hs
  have hpc := instAt_pc decode rip pc
  generalize instAt decode rip pc = i₁ at h hpc
  cases ht : i₁.tableInfo with
  | none =>
    rw [ht] at h
    cases h
    refine ⟨g, hpc, hs, fun _ hsr => ?_, fun hm => by cases hm⟩
    obtain ⟨info, hi, -⟩ := hsr
    rw [ht] at hi
    cases hi
  | some info =>
    rw [ht] at h
    dsimp only at h
    cases hr : info.setsRIP with
    | true =>
      rw [hr] at h
      cases h
      obtain ⟨gb, kb⟩ := branchTarget_closed cfg d₁ i
      refine ⟨g.trans gb, hpc, ?_, fun hm => ?_, fun hm => by simp at hm⟩
      · rw [if_pos rfl, decodedSize_branchTarget, hs]
      · rw [← g.entryPoint]
        exact kb hm
    | false =>
      rw [hr] at h
      cases h
      refine ⟨g, hpc, hs, fun _ hsr => ?_, fun hm => ?_⟩
      · obtain ⟨info', hi, hs'⟩ := hsr
        rw [ht] at hi
        cases hi
        rw [hr] at hs'
        cases hs'
      · simp only [Bool.false_eq_true, if_false, Bool.and_eq_true, Bool.not_eq_true', decide_eq_false_iff_not] at hm
        unfold limitReached at hm
        simp only [Bool.false_eq_true, if_false]
        omega

theorem BranchClosed.mono {entryPoint : UInt64} {K K' : UInt64 → Prop} {i : DecodedInst}
    (h : BranchClosed cfg entryPoint K i) (hk : ∀ a, K a → K' a) : BranchClosed cfg entryPoint K' i := by
  intro hs hj hr
  obtain ⟨h1, h2⟩ := h hs hj hr
  exact ⟨hk _ h1, fun hc => hk _ (h2 hc)⟩

theorem decodeBlock_spec {fuel : Nat} {pc : UInt64} (h : decodeBlock cfg decode fuel d rip pc = some (d', is)) :
    Grows d d' ∧ is ≠ [] ∧ ContiguousFrom pc is ∧
      (cfg.multiblock = true → ∀ i ∈ is, BranchClosed cfg d.entryPoint (Known d') i) := by
  induction fuel generalizing d pc is with
  | zero => cases h
  | succ fuel ih =>
    unfold decodeBlock at h
    split at h
    · rename_i d₁ i hn
      cases h
      obtain ⟨g, hpc, -, hc, -⟩ := decodeNext_spec cfg decode hn
      refine ⟨g, by simp, ⟨hpc, trivial⟩, fun hm j hj => ?_⟩
      rw [List.mem_singleton.1 hj]
      exact hc hm
    · rename_i d₁ i hn
      obtain ⟨⟨d₂, is'⟩, hb, he⟩ := Option.map_eq_some_iff.1 h
      cases he
      obtain ⟨g, hpc, -, hc, -⟩ := decodeNext_spec cfg decode hn
      obtain ⟨g', -, hcont, hc'⟩ := ih hb
      refine ⟨g.trans g', by simp, ⟨hpc, hcont⟩, fun hm j hj => ?_⟩
      rcases List.mem_cons.1 hj with rfl | hj
      · exact (hc hm).mono cfg (fun a => g'.known)
      · rw [← g.entryPoint]
        exact hc' hm j hj

theorem decodeBlock_terminates {fuel : Nat} {d : Decoder} {rip pc : UInt64}
    (hf : defaultDecodedBufferSize - d.decodedSize < fuel) :
    ∃ r, decodeBlock cfg decode fuel d rip pc = some r := by
  induction fuel generalizing d pc with
  | zero => omega
  | succ fuel ih =>
    unfold decodeBlock
    split
    · exact ⟨_, rfl⟩
    · rename_i d₁ i hn
      obtain ⟨-, -, hs, -, hm⟩ := decodeNext_spec cfg decode hn
      have hlt := hm rfl
      obtain ⟨r, hr⟩ := @ih d₁ (pc + i.instSize) (by omega)
      exact ⟨_, by rw [hr]; rfl⟩

/-! ## The worklist -/

/-- The invariant of the outer loop. -/
structure Inv (d : Decoder) : Prop where
  entries : ∀ a, a ∈ d.hasBlocks ↔ a ∈ d.blocks.map DecodedBlocks.entry
  distinct : (d.blocks.map DecodedBlocks.entry).Nodup
  doneNodup : d.hasBlocks.Nodup
  waitingNodup : d.blocksToDecode.Nodup
  apart : ∀ a ∈ d.blocksToDecode, a ∉ d.hasBlocks
  entryPoint : Known d d.entryPoint
  contiguous : ∀ b ∈ d.blocks, b.instructions ≠ [] ∧ ContiguousFrom b.entry b.instructions
  closed : cfg.multiblock = true →
    ∀ b ∈ d.blocks, ∀ i ∈ b.instructions, BranchClosed cfg d.entryPoint (Known d) i

theorem inv_start (ext : Option (List UInt64)) (pc : UInt64) : Inv cfg (.start ext pc) where
  entries _ := Iff.rfl
  distinct := List.nodup_nil
  doneNodup := List.nodup_nil
  waitingNodup := List.nodup_singleton _
  apart _ _ := List.not_mem_nil
  entryPoint := .inr (List.mem_singleton.2 rfl)
  contiguous b hb := by cases hb
  closed _ b hb := by cases hb

theorem known_finishBlock (h : Known d a) : Known (finishBlock d rip is) a := by
  unfold finishBlock Known
  rw [mem_setEmplace]
  by_cases ha : a = rip
  · exact .inl (.inl ha)
  · rcases h with h | h
    · exact .inl (.inr h)
    · exact .inr ((List.mem_erase_of_ne ha).2 h)

theorem inv_finishBlock (h : Inv cfg d) (hr : rip ∈ d.blocksToDecode)
    (hb : decodeBlock cfg decode (defaultDecodedBufferSize + 1) d rip rip = some (d', is)) :
    Inv cfg (finishBlock d' rip is) ∧ (finishBlock d' rip is).hasBlocks.length = d.hasBlocks.length + 1 ∧
      (finishBlock d' rip is).entryPoint = d.entryPoint := by
  obtain ⟨g, hne, hcont, hc⟩ := decodeBlock_spec cfg decode hb
  have hfresh : rip ∉ d.hasBlocks := h.apart rip hr
  have hnd := g.nodup h.waitingNodup
  -- one entry more, and it is no longer waiting
  have hent : ∀ a, a ∈ (finishBlock d' rip is).blocks.map DecodedBlocks.entry ↔
      a ∈ d.blocks.map DecodedBlocks.entry ∨ a = rip := by
    intro a
    unfold finishBlock
    rw [g.blocks, List.map_append, List.mem_append]
    simp
  refine ⟨?_, ?_, g.entryPoint⟩
  · constructor
    case entries =>
      intro a
      rw [hent, ← h.entries]
      unfold finishBlock
      rw [mem_setEmplace, g.hasBlocks, or_comm]
    case distinct =>
      unfold finishBlock
      rw [g.blocks, List.map_append, List.nodup_append]
      refine ⟨h.distinct, by simp, ?_⟩
      rintro a ha b hb rfl
      have hab : a = rip := by simpa using hb
      rw [hab, ← h.entries] at ha
      exact hfresh ha
    case doneNodup =>
      unfold finishBlock
      rw [g.hasBlocks]
      exact nodup_setEmplace h.doneNodup
    case waitingNodup => exact hnd.erase rip
    case apart =>
      intro a ha
      unfold finishBlock at ha ⊢
      rw [hnd.mem_erase_iff] at ha
      rw [mem_setEmplace, g.hasBlocks]
      rintro (h1 | h1)
      · exact ha.1 h1
      · rcases g.adds a ha.2 with h2 | h2
        · exact h.apart a h2 h1
        · exact h2 h1
    case entryPoint =>
      have he : (finishBlock d' rip is).entryPoint = d.entryPoint := g.entryPoint
      rw [he]
      exact known_finishBlock (g.known h.entryPoint)
    case contiguous =>
      intro b hb
      unfold finishBlock at hb
      rw [g.blocks] at hb
      rcases List.mem_append.1 hb with hb | hb
      · exact h.contiguous b hb
      · rw [List.mem_singleton.1 hb]
        exact ⟨hne, hcont⟩
    case closed =>
      intro hm b hb i hi
      have he : (finishBlock d' rip is).entryPoint = d.entryPoint := g.entryPoint
      rw [he]
      unfold finishBlock at hb
      rw [g.blocks] at hb
      rcases List.mem_append.1 hb with hb | hb
      · exact (h.closed hm b hb i hi).mono cfg (fun a ha => known_finishBlock (g.known ha))
      · rw [List.mem_singleton.1 hb] at hi
        exact (hc hm i hi).mono cfg (fun a ha => known_finishBlock ha)
  · unfold finishBlock
    rw [g.hasBlocks, length_setEmplace hfresh]

theorem decodeBlocks_spec {fuel : Nat} (h : Inv cfg d) (hf : 2 ^ 64 - d.hasBlocks.length < fuel) :
    ∃ d', (∀ n, fuel ≤ n → decodeBlocks cfg decode n d = some d') ∧ Inv cfg d' ∧ d'.blocksToDecode = [] ∧
      d'.entryPoint = d.entryPoint := by
  induction fuel generalizing d with
  | zero => omega
  | succ fuel ih =>
    cases hw : d.blocksToDecode with
    | nil =>
      refine ⟨d, fun n hn => ?_, h, hw, rfl⟩
      cases n with
      | zero => omega
      | succ n =>
        unfold decodeBlocks
        rw [hw]
    | cons rip rest =>
      obtain ⟨⟨d₁, is⟩, hb⟩ := @decodeBlock_terminates cfg decode (defaultDecodedBufferSize + 1) d rip rip
        (by omega)
      have hr : rip ∈ d.blocksToDecode := by rw [hw]; exact List.mem_cons_self
      obtain ⟨hi, hlen, hep⟩ := inv_finishBlock cfg decode h hr hb
      have hle := length_le_of_nodup hi.doneNodup
      obtain ⟨d', hd', hi', hw', hep'⟩ := ih hi (by omega)
      refine ⟨d', fun n hn => ?_, hi', hw', hep'.trans hep⟩
      cases n with
      | zero => omega
      | succ n =>
        unfold decodeBlocks
        rw [hw]
        dsimp only
        rw [hb]
        exact hd' n (by omega)

/-! ## The theorem -/

theorem sorted_entries {bs : List DecodedBlocks} (h : (bs.map DecodedBlocks.entry).Nodup) :
    ((bs.insertionSort (fun a b => a.entry ≤ b.entry)).map DecodedBlocks.entry).Pairwise (· < ·) := by
  have hp := List.perm_insertionSort (fun a b : DecodedBlocks => a.entry ≤ b.entry) bs
  have hnd := (hp.map DecodedBlocks.entry).nodup_iff.2 h
  have hs := List.pairwise_insertionSort (fun a b : DecodedBlocks => a.entry ≤ b.entry) bs
  have hs' := List.pairwise_map.2 (hs : List.Pairwise (fun a b : DecodedBlocks => a.entry ≤ b.entry) _)
  refine (List.pairwise_and_iff.2 ⟨hs', hnd⟩).imp ?_
  rintro a b ⟨h1, h2⟩
  exact UInt64.lt_of_le_of_ne h1 h2

/-- The decode ends. Its blocks are sorted by their distinct entries; their instructions follow one another; and in
multiblock mode a relative `JMP` or `Jcc` into the range has a block at its target and, if conditional, behind it. -/
theorem decodeInstructionsAtEntry_closed (ext : Option (List UInt64)) (pc : UInt64) :
    ∃ d, (∃ fuel, ∀ n, fuel ≤ n → decodeInstructionsAtEntry cfg decode n ext pc = some d) ∧
      (d.blocks.map DecodedBlocks.entry).Pairwise (· < ·) ∧
      pc ∈ d.blocks.map DecodedBlocks.entry ∧
      (∀ b ∈ d.blocks, b.instructions ≠ [] ∧ ContiguousFrom b.entry b.instructions) ∧
      (cfg.multiblock = true → ∀ b ∈ d.blocks, ∀ i ∈ b.instructions,
        BranchClosed cfg pc (· ∈ d.blocks.map DecodedBlocks.entry) i) := by
  obtain ⟨d, hd, hi, hw, hep⟩ := decodeBlocks_spec cfg decode (inv_start cfg ext pc) (Nat.lt_succ_self _)
  have hep' : d.entryPoint = pc := hep
  have hknown : ∀ a, Known d a → a ∈ d.blocks.map DecodedBlocks.entry := by
    rintro a (ha | ha)
    · exact (hi.entries a).1 ha
    · rw [hw] at ha
      cases ha
  have hmem : ∀ a, a ∈ (d.blocks.insertionSort (fun a b => a.entry ≤ b.entry)).map DecodedBlocks.entry ↔
      a ∈ d.blocks.map DecodedBlocks.entry :=
    fun a => ((List.perm_insertionSort _ d.blocks).map _).mem_iff
  refine ⟨{ d with blocks := d.blocks.insertionSort (fun a b => a.entry ≤ b.entry) },
    ⟨_, fun n hn => by unfold decodeInstructionsAtEntry; rw [hd n hn]; rfl⟩, sorted_entries hi.distinct,
    (hmem pc).2 (hknown pc (hep' ▸ hi.entryPoint)), fun b hb => ?_, fun hm b hb i hib => ?_⟩
  · exact hi.contiguous b ((List.mem_insertionSort _).1 hb)
  · have hb' := (List.mem_insertionSort _).1 hb
    have hc := hi.closed hm b hb' i hib
    rw [hep'] at hc
    exact hc.mono cfg (fun a ha => (hmem a).2 (hknown a ha))

/-- `jrcxz +1; ret; ret; ...` at 0x1000. -/
def jrcxzStream : DecodeInstruction := fun _ pc =>
  if pc = 0x1000 then some (2, 0xE3, 1, ⟨true, false⟩) else some (1, 0xC3, 0, ⟨true, true⟩)

/-- `JrCXZ` and the `LOOP`s are relative and conditional and end a block, but
their targets are not looked for. -/
theorem jrcxz_target_missed :
    ¬ (∀ (cfg : Config) (decode : DecodeInstruction) (ext : Option (List UInt64)) (pc : UInt64) (n : Nat)
        (d : Decoder), cfg.multiblock = true → decodeInstructionsAtEntry cfg decode n ext pc = some d →
        ∀ b ∈ d.blocks, ∀ i ∈ b.instructions.getLast?, SetsRIP i → IsJcc i.op ∨ IsJmp i.op ∨ IsLoop i.op →
          pc ≤ targetRIP cfg i ∧ targetRIP cfg i < cfg.sectionMaxAddress →
          targetRIP cfg i ∈ d.blocks.map DecodedBlocks.entry) := by
  intro h
  have := h ⟨true, true, 5000, 0xFFFFFFFFFFFFFFFF⟩ jrcxzStream none 0x1000 2 _ rfl rfl
    ⟨0x1000, [⟨0x1000, 2, 0xE3, 1, some ⟨true, false⟩⟩], false⟩ (List.mem_singleton.2 rfl)
    ⟨0x1000, 2, 0xE3, 1, some ⟨true, false⟩⟩ rfl ⟨_, rfl, rfl⟩ (.inr (.inr (by decide))) (by decide)
  exact absurd (List.mem_singleton.1 this) (by decide)

end FexEmu.Frontend
