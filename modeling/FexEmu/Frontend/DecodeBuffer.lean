import FexEmu.Data.Worklist
import FexEmu.Frontend.DecoderProofs
/-!
# The decode buffer

The size checks end the block, not the worklist: once the limit is reached, every block still to come writes one more
instruction.
-/
namespace FexEmu.Frontend

open Worklist

variable (cfg : Config) (decode : DecodeInstruction)

/-- The indices that the inner loop writes. -/
def decodeBlockWrites : Nat → Decoder → (rip pc : UInt64) → List Nat
  | 0, _, _, _ => []
  | fuel + 1, d, rip, pc =>
    d.decodedSize ::
      match decodeNext cfg decode d rip pc with
      | (_, _, false) => []
      | (d', i, true) => decodeBlockWrites fuel d' rip (pc + i.instSize)

/-- The indices that the outer loop writes. -/
def decodeBlocksWrites : Nat → Decoder → List Nat
  | 0, _ => []
  | fuel + 1, d =>
    match d.blocksToDecode with
    | [] => []
    | rip :: _ =>
      decodeBlockWrites cfg decode (defaultDecodedBufferSize + 1) d rip rip ++
        match decodeBlock cfg decode (defaultDecodedBufferSize + 1) d rip rip with
        | none => []
        | some r => decodeBlocksWrites fuel (finishBlock r.1 rip r.2)

/-- More turns than the outer loop takes. -/
def decodeFuel : Nat := 2 ^ 64 + 1

/-- The indices that `DecodeInstructionsAtEntry` writes. -/
def decodedBufferWrites (externalBranches : Option (List UInt64)) (pc : UInt64) : List Nat :=
  decodeBlocksWrites cfg decode decodeFuel (.start externalBranches pc)

/-! ## After the limit -/

/-- The size at which a block is cut short. -/
def instLimit : Nat := min cfg.maxInstPerBlock defaultDecodedBufferSize

/-- The decoder when it has reached the limit, or is done before. -/
def decodeUntilLimit : Nat → Decoder → Decoder
  | 0, d => d
  | fuel + 1, d =>
    if instLimit cfg ≤ d.decodedSize then d
    else match d.blocksToDecode with
      | [] => d
      | rip :: _ =>
        match decodeBlock cfg decode (defaultDecodedBufferSize + 1) d rip rip with
        | none => d
        | some r => decodeUntilLimit fuel (finishBlock r.1 rip r.2)

/-- The blocks that a branch adds unless they are known. -/
def branchTargets (entryPoint : UInt64) (i : DecodedInst) : Set UInt64 :=
  { a | SetsRIP i ∧ cfg.multiblock = true ∧
    ∃ conditional, branchKind i.op = some conditional ∧
      (entryPoint ≤ targetRIP cfg i ∧ targetRIP cfg i < cfg.sectionMaxAddress) ∧
      (a = targetRIP cfg i ∨ conditional = true ∧ a = fallthroughRIP i) }

/-- The blocks still to come if each is the one instruction at its entry. -/
def pendingBlocks (d : Decoder) : Set UInt64 :=
  { a | Pending (fun a => branchTargets cfg d.entryPoint (instAt decode a a)) {b | b ∈ d.blocksToDecode}
    {b | b ∈ d.hasBlocks} a }

variable {d d' : Decoder} {a rip pc : UInt64} {i : DecodedInst} {fuel : Nat} {is : List DecodedInst}

theorem mem_addTarget {b : UInt64} :
    b ∈ (addTarget d a).blocksToDecode ↔ b ∈ d.blocksToDecode ∨ b = a ∧ b ∉ d.hasBlocks := by
  unfold addTarget
  by_cases hk : a ∈ d.hasBlocks ∨ a ∈ d.blocksToDecode
  · rw [if_pos hk]
    constructor
    · exact .inl
    · rintro (hb | ⟨rfl, hb⟩)
      · exact hb
      · exact hk.resolve_left hb
  · rw [if_neg hk]
    rw [mem_setEmplace]
    constructor
    · rintro (rfl | hb)
      · exact .inr ⟨rfl, fun hin => hk (.inl hin)⟩
      · exact .inl hb
    · rintro (hb | ⟨rfl, -⟩)
      · exact .inr hb
      · exact .inl rfl

theorem mem_branchTarget (hs : SetsRIP i) : a ∈ (branchTargetInMultiblockRange cfg d i).blocksToDecode ↔
      a ∈ d.blocksToDecode ∨ a ∈ branchTargets cfg d.entryPoint i ∧ a ∉ d.hasBlocks := by
  unfold branchTargetInMultiblockRange branchTargets
  by_cases hm : cfg.multiblock = true
  · rw [if_pos hm]
    cases hk : branchKind i.op with
    | none =>
      dsimp only
      split <;> simp [externalBranch]
    | some conditional =>
      dsimp only
      by_cases hin : inSymbolRange cfg d (targetRIP cfg i)
      · rw [if_pos hin, mem_addTarget]
        cases conditional with
        | true =>
          rw [if_pos rfl, mem_addTarget, (grows_addTarget _ _).1.hasBlocks]
          constructor
          · rintro ((ha | ⟨ha, hn⟩) | ⟨ha, hn⟩)
            · exact .inl ha
            · exact .inr ⟨⟨hs, hm, true, rfl, hin, .inr ⟨rfl, ha⟩⟩, hn⟩
            · exact .inr ⟨⟨hs, hm, true, rfl, hin, .inl ha⟩, hn⟩
          · rintro (ha | ⟨⟨-, -, c, -, -, ha | ⟨-, ha⟩⟩, hn⟩)
            · exact .inl (.inl ha)
            · exact .inr ⟨ha, hn⟩
            · exact .inl (.inr ⟨ha, hn⟩)
        | false =>
          constructor
          · rintro (ha | ⟨ha, hn⟩)
            · exact .inl ha
            · exact .inr ⟨⟨hs, hm, false, rfl, hin, .inl ha⟩, hn⟩
          · rintro (ha | ⟨⟨-, -, c, hc, -, ha | ⟨hc', -⟩⟩, hn⟩)
            · exact .inl ha
            · exact .inr ⟨ha, hn⟩
            · rw [hc'] at hc
              cases hc
      · rw [if_neg hin]
        constructor
        · exact .inl
        · rintro (ha | ⟨⟨-, -, c, -, hr, -⟩, -⟩)
          · exact ha
          · exact absurd hr hin
  · rw [if_neg hm]
    constructor
    · exact .inl
    · rintro (ha | ⟨⟨-, hm', -⟩, -⟩)
      · exact ha
      · exact absurd hm' hm

theorem branchTargets_eq_empty {entryPoint : UInt64} (h : ¬ SetsRIP i) (a : UInt64) :
    a ∉ branchTargets cfg entryPoint i :=
  fun ha => h ha.1

/-- What an instruction adds to the worklist. A block does not go on after the limit. -/
theorem decodeNext_adds {more : Bool} (h : decodeNext cfg decode d rip pc = (d', i, more)) : i = instAt decode rip pc ∧
      (∀ a, a ∈ d'.blocksToDecode ↔
        a ∈ d.blocksToDecode ∨ a ∈ branchTargets cfg d.entryPoint i ∧ a ∉ d.hasBlocks) ∧
      (instLimit cfg ≤ d.decodedSize → more = false) := by
  have hpages : ∀ p q, (enterPage (enterPage d p) q).blocksToDecode = d.blocksToDecode := by
    intro p q
    unfold enterPage
    split_ifs <;> rfl
  obtain ⟨g1, s1⟩ := grows_enterPage d (pageMask pc)
  obtain ⟨g2, s2⟩ := grows_enterPage (enterPage d (pageMask pc)) (pageMask (pc + maxInstSize))
  have hcount : (countInst (enterPage (enterPage d (pageMask pc)) (pageMask (pc + maxInstSize)))
      (instAt decode rip pc)).decodedSize = d.decodedSize + 1 := by
    unfold countInst
    rw [s2, s1]
  have hwait : (countInst (enterPage (enterPage d (pageMask pc)) (pageMask (pc + maxInstSize)))
      (instAt decode rip pc)).blocksToDecode = d.blocksToDecode := hpages _ _
  have hdone : (countInst (enterPage (enterPage d (pageMask pc)) (pageMask (pc + maxInstSize)))
      (instAt decode rip pc)).hasBlocks = d.hasBlocks := (g1.trans g2).hasBlocks
  have hentry : (countInst (enterPage (enterPage d (pageMask pc)) (pageMask (pc + maxInstSize)))
      (instAt decode rip pc)).entryPoint = d.entryPoint := (g1.trans g2).entryPoint
  unfold decodeNext at h
  dsimp only at h
  generalize countInst _ _ = d₁ at h hcount hwait hdone hentry
  generalize instAt decode rip pc = j at h ⊢
  -- only an instruction that sets the RIP has targets
  have hsame : ¬ SetsRIP j → ∀ a, a ∈ d₁.blocksToDecode ↔
      a ∈ d.blocksToDecode ∨ a ∈ branchTargets cfg d.entryPoint j ∧ a ∉ d.hasBlocks := by
    intro hs a
    rw [hwait]
    constructor
    · exact .inl
    · rintro (ha | ⟨ha, -⟩)
      · exact ha
      · exact absurd ha (branchTargets_eq_empty cfg hs a)
  cases ht : j.tableInfo with
  | none =>
    rw [ht] at h
    cases h
    refine ⟨rfl, hsame ?_, fun _ => rfl⟩
    rintro ⟨info, hinfo, -⟩
    rw [ht] at hinfo
    cases hinfo
  | some info =>
    rw [ht] at h
    dsimp only at h
    cases hr : info.setsRIP with
    | true =>
      rw [hr, if_pos rfl] at h
      cases h
      refine ⟨rfl, fun a => ?_, fun _ => rfl⟩
      rw [mem_branchTarget cfg ⟨info, ht, hr⟩, hwait, hdone, hentry]
    | false =>
      rw [hr, if_neg (by decide)] at h
      cases h
      refine ⟨rfl, hsame ?_, fun hlim => ?_⟩
      · rintro ⟨info', hinfo, hs⟩
        rw [ht] at hinfo
        cases hinfo
        rw [hr] at hs
        cases hs
      · have hreached : limitReached cfg d' := by
          unfold limitReached
          unfold instLimit at hlim
          omega
        simp [hreached]

theorem decodeBlock_after_limit (hlim : instLimit cfg ≤ d.decodedSize)
    (h : decodeBlock cfg decode (fuel + 1) d rip pc = some (d', is)) :
    d'.decodedSize = d.decodedSize + 1 ∧
      ∀ a, a ∈ d'.blocksToDecode ↔
        a ∈ d.blocksToDecode ∨ a ∈ branchTargets cfg d.entryPoint (instAt decode rip pc) ∧ a ∉ d.hasBlocks := by
  unfold decodeBlock at h
  split at h
  · rename_i d₁ i hn
    cases h
    obtain ⟨-, -, hsize, -, -⟩ := decodeNext_spec cfg decode hn
    obtain ⟨rfl, hadds, -⟩ := decodeNext_adds cfg decode hn
    exact ⟨hsize, hadds⟩
  · rename_i d₁ i hn
    obtain ⟨-, -, hmore⟩ := decodeNext_adds cfg decode hn
    cases hmore hlim

theorem pendingBlocks_finishBlock (hi : Inv cfg d) (hr : rip ∈ d.blocksToDecode) (hlim : instLimit cfg ≤ d.decodedSize)
    (h : decodeBlock cfg decode (defaultDecodedBufferSize + 1) d rip rip = some (d', is)) :
    (pendingBlocks cfg decode d).ncard = (pendingBlocks cfg decode (finishBlock d' rip is)).ncard + 1 := by
  obtain ⟨-, hadds⟩ := decodeBlock_after_limit cfg decode hlim h
  obtain ⟨g, -⟩ := decodeBlock_spec cfg decode h
  have hentry : (finishBlock d' rip is).entryPoint = d.entryPoint := g.entryPoint
  unfold pendingBlocks
  rw [hentry]
  have : Finite UInt64 := Finite.of_injective UInt64.toFin (fun a b e => UInt64.toFin_inj.1 e)
  apply Takes.ncard_pending (a := rip)
  refine ⟨hr, fun b => ?_, fun b => ?_⟩
  · have hnd := g.nodup hi.waitingNodup
    change b ∈ d'.blocksToDecode.erase rip ↔ _
    rw [hnd.mem_erase_iff, hadds]
    rfl
  · change b ∈ setEmplace rip d'.hasBlocks ↔ _
    rw [mem_setEmplace, g.hasBlocks]
    rfl

theorem pendingBlocks_nil (h : d.blocksToDecode = []) : pendingBlocks cfg decode d = ∅ := by
  apply pending_empty
  intro b hb
  rw [h] at hb
  cases hb

theorem decodeBlocks_after_limit (hi : Inv cfg d)
    (hlim : instLimit cfg ≤ d.decodedSize) (h : decodeBlocks cfg decode fuel d = some d') :
    d'.decodedSize = d.decodedSize + (pendingBlocks cfg decode d).ncard := by
  induction fuel generalizing d with
  | zero => cases h
  | succ fuel ih =>
    unfold decodeBlocks at h
    cases hw : d.blocksToDecode with
    | nil =>
      rw [hw] at h
      rw [pendingBlocks_nil cfg decode hw, Set.ncard_empty, Nat.add_zero, Option.some.inj h]
    | cons rip rest =>
      have hr : rip ∈ d.blocksToDecode := by
        rw [hw]
        exact List.mem_cons_self
      rw [hw] at h
      obtain ⟨⟨d₁, is⟩, hb, h⟩ := Option.bind_eq_some_iff.mp h
      obtain ⟨hi₁, -, -⟩ := inv_finishBlock cfg decode hi hr hb
      obtain ⟨hsize, -⟩ := decodeBlock_after_limit cfg decode hlim hb
      have hsize' : (finishBlock d₁ rip is).decodedSize = d.decodedSize + 1 := hsize
      rw [ih hi₁ (by omega) h, pendingBlocks_finishBlock cfg decode hi hr hlim hb]
      omega

theorem decodeUntilLimit_spec (hi : Inv cfg d) (h : decodeBlocks cfg decode fuel d = some d') :
    Inv cfg (decodeUntilLimit cfg decode fuel d) ∧
      (∃ n, decodeBlocks cfg decode n (decodeUntilLimit cfg decode fuel d) = some d') ∧
      (instLimit cfg ≤ (decodeUntilLimit cfg decode fuel d).decodedSize ∨
        (decodeUntilLimit cfg decode fuel d).blocksToDecode = []) := by
  induction fuel generalizing d with
  | zero => cases h
  | succ fuel ih =>
    have h' := h
    unfold decodeBlocks at h
    unfold decodeUntilLimit
    by_cases hlim : instLimit cfg ≤ d.decodedSize
    · rw [if_pos hlim]
      exact ⟨hi, ⟨fuel + 1, h'⟩, .inl hlim⟩
    · rw [if_neg hlim]
      cases hw : d.blocksToDecode with
      | nil => exact ⟨hi, ⟨fuel + 1, h'⟩, .inr hw⟩
      | cons rip rest =>
        have hr : rip ∈ d.blocksToDecode := by
          rw [hw]
          exact List.mem_cons_self
        rw [hw] at h
        obtain ⟨⟨d₁, is⟩, hb, h⟩ := Option.bind_eq_some_iff.mp h
        dsimp only
        rw [hb]
        exact ih (inv_finishBlock cfg decode hi hr hb).1 h

/-! ## The writes -/

theorem mem_decodeBlockWrites (h : decodeBlock cfg decode fuel d rip pc = some (d', is)) :
    d.decodedSize < d'.decodedSize ∧
      ∀ n, n ∈ decodeBlockWrites cfg decode fuel d rip pc ↔ d.decodedSize ≤ n ∧ n < d'.decodedSize := by
  induction fuel generalizing d pc is with
  | zero => cases h
  | succ fuel ih =>
    rcases hn : decodeNext cfg decode d rip pc with ⟨d₁, i, more⟩
    obtain ⟨-, -, hsize, -, -⟩ := decodeNext_spec cfg decode hn
    rw [decodeBlock, hn] at h
    rw [decodeBlockWrites, hn]
    cases more with
    | false =>
      cases h
      refine ⟨by omega, fun n => ?_⟩
      rw [List.mem_singleton]
      omega
    | true =>
      obtain ⟨⟨d₂, is'⟩, hb, he⟩ := Option.map_eq_some_iff.1 h
      cases he
      obtain ⟨hlt, hmem⟩ := ih hb
      refine ⟨by omega, fun n => ?_⟩
      rw [List.mem_cons, hmem]
      omega

theorem mem_decodeBlocksWrites (h : decodeBlocks cfg decode fuel d = some d') : d.decodedSize ≤ d'.decodedSize ∧
      ∀ n, n ∈ decodeBlocksWrites cfg decode fuel d ↔ d.decodedSize ≤ n ∧ n < d'.decodedSize := by
  induction fuel generalizing d with
  | zero => cases h
  | succ fuel ih =>
    unfold decodeBlocks at h
    unfold decodeBlocksWrites
    cases hw : d.blocksToDecode with
    | nil =>
      rw [hw] at h
      cases h
      refine ⟨le_rfl, fun n => ?_⟩
      constructor
      · exact fun hn => absurd hn List.not_mem_nil
      · omega
    | cons rip rest =>
      rw [hw] at h
      obtain ⟨⟨d₁, is⟩, hb, h⟩ := Option.bind_eq_some_iff.mp h
      obtain ⟨hlt, hmem⟩ := mem_decodeBlockWrites cfg decode hb
      obtain ⟨hle, hmem'⟩ := ih h
      change d₁.decodedSize ≤ d'.decodedSize at hle
      refine ⟨by omega, fun n => ?_⟩
      dsimp only
      rw [hb]
      rw [List.mem_append, hmem, hmem']
      change _ ∨ d₁.decodedSize ≤ n ∧ _ ↔ _
      omega

theorem decodeBlocks_start (ext : Option (List UInt64)) (pc : UInt64) :
    ∃ d, decodeBlocks cfg decode decodeFuel (.start ext pc) = some d := by
  obtain ⟨d, hd, -⟩ := decodeBlocks_spec cfg decode (inv_start cfg ext pc) (Nat.lt_succ_self _)
  exact ⟨d, hd decodeFuel le_rfl⟩

/-- For every stream, entry point and limit, the decode stays inside of the buffer if and only if the blocks that are pending
at the limit fit into the rest of it. -/
theorem decodedBuffer_inBounds_iff (ext : Option (List UInt64)) (pc : UInt64) :
    (∀ n ∈ decodedBufferWrites cfg decode ext pc, n < defaultDecodedBufferSize) ↔
      let d := decodeUntilLimit cfg decode decodeFuel (.start ext pc)
      d.decodedSize + (pendingBlocks cfg decode d).ncard ≤ defaultDecodedBufferSize := by
  obtain ⟨d', hd'⟩ := decodeBlocks_start cfg decode ext pc
  obtain ⟨-, hmem⟩ := mem_decodeBlocksWrites cfg decode hd'
  obtain ⟨hi, ⟨n, hn⟩, hstop⟩ := decodeUntilLimit_spec cfg decode (inv_start cfg ext pc) hd'
  generalize decodeUntilLimit cfg decode decodeFuel (.start ext pc) = d at hi hn hstop
  have hsize : d'.decodedSize = d.decodedSize + (pendingBlocks cfg decode d).ncard := by
    rcases hstop with hlim | hempty
    · exact decodeBlocks_after_limit cfg decode hi hlim hn
    · cases n with
      | zero => cases hn
      | succ n =>
        unfold decodeBlocks at hn
        rw [hempty] at hn
        rw [pendingBlocks_nil cfg decode hempty, Set.ncard_empty, Nat.add_zero, Option.some.inj hn]
  dsimp only
  constructor
  · intro hall
    by_contra hlt
    have hwrite := (hmem defaultDecodedBufferSize).mpr ⟨Nat.zero_le _, by omega⟩
    exact absurd (hall _ hwrite) (Nat.lt_irrefl _)
  · intro hle n hn
    have hlt := ((hmem n).mp hn).2
    omega

/-! ## A chain of branches -/

/-- `jz +0` from 0x10000 on, 65537 times, then `ret`. -/
def jzStream : DecodeInstruction := fun _ pc =>
  if pc < 0x30002 then some (2, 0x74, 0, ⟨true, false⟩) else some (1, 0xC3, 0, ⟨true, true⟩)

/-- Multiblock with the default limit. -/
def jzConfig : Config := ⟨true, true, 5000, 0xFFFFFFFFFFFFFFFF⟩

theorem instAt_jz (h : a.toNat < 0x30002) : instAt jzStream a a = ⟨a, 2, 0x74, 0, some ⟨true, false⟩⟩ := by
  have hlt : a < 0x30002 := UInt64.lt_iff_toNat_lt.mpr h
  unfold instAt jzStream
  rw [if_pos hlt]

theorem toNat_add_two (h : a.toNat < 0x30002) : (a + 2).toNat = a.toNat + 2 := by
  change (a.toNat + 2) % 2 ^ 64 = a.toNat + 2
  omega

theorem mem_branchTargets_jz (h1 : 0x10000 ≤ a.toNat) (h2 : a.toNat < 0x30002) (b : UInt64) :
    b ∈ branchTargets jzConfig 0x10000 (instAt jzStream a a) ↔ b = a + 2 := by
  have htarget : targetRIP jzConfig ⟨a, 2, 0x74, 0, some ⟨true, false⟩⟩ = a + 2 := by
    simp [targetRIP, jzConfig]
  have hkind : branchKind 0x74 = some true := by decide
  rw [instAt_jz h2]
  constructor
  · rintro ⟨-, -, c, -, -, hb | ⟨-, hb⟩⟩
    · exact hb.trans htarget
    · exact hb
  · rintro rfl
    refine ⟨⟨_, rfl, rfl⟩, rfl, true, hkind, ?_, .inr ⟨rfl, rfl⟩⟩
    rw [htarget, UInt64.le_iff_toNat_le, UInt64.lt_iff_toNat_lt, toNat_add_two h2]
    constructor
    · change 0x10000 ≤ a.toNat + 2
      omega
    · change a.toNat + 2 < 0xFFFFFFFFFFFFFFFF
      omega

theorem decodeBlock_jz (h1 : 0x10000 ≤ a.toNat) (h2 : a.toNat < 0x30002)
    (hentry : d.entryPoint = 0x10000) (hw : d.blocksToDecode = [a]) (hdone : ∀ b ∈ d.hasBlocks, b.toNat < a.toNat) :
    ∃ d', decodeBlock jzConfig jzStream (defaultDecodedBufferSize + 1) d a a = some (d', [instAt jzStream a a]) ∧
      d'.decodedSize = d.decodedSize + 1 ∧ d'.blocksToDecode.erase a = [a + 2] := by
  obtain ⟨d', hd'⟩ : ∃ d', decodeNext jzConfig jzStream d a a = (d', instAt jzStream a a, false) := by
    unfold decodeNext
    rw [instAt_jz h2]
    exact ⟨_, rfl⟩
  obtain ⟨g, -, hsize, -, -⟩ := decodeNext_spec _ _ hd'
  obtain ⟨-, hadds, -⟩ := decodeNext_adds _ _ hd'
  have hblock : decodeBlock jzConfig jzStream (defaultDecodedBufferSize + 1) d a a = some (d', [instAt jzStream a a]) := by
    unfold decodeBlock
    rw [hd']
  refine ⟨d', hblock, hsize, ?_⟩
  have hnd : d'.blocksToDecode.Nodup := g.nodup (hw ▸ List.nodup_singleton a)
  rw [← List.perm_singleton, List.perm_ext_iff_of_nodup (hnd.erase a) (List.nodup_singleton _)]
  intro b
  rw [hnd.mem_erase_iff, hadds, hentry, mem_branchTargets_jz h1 h2, hw, List.mem_singleton, List.mem_singleton]
  constructor
  · rintro ⟨hne, hb | ⟨hb, -⟩⟩
    · exact absurd hb hne
    · exact hb
  · rintro rfl
    have hto := toNat_add_two h2
    refine ⟨?_, .inr ⟨rfl, ?_⟩⟩
    · intro heq
      rw [heq] at hto
      omega
    · intro hin
      have hlt := hdone _ hin
      omega

theorem mem_decodeBlocksWrites_jz (n : Nat) :
    ∀ (fuel : Nat) (d : Decoder) (a : UInt64), n < fuel → 0x10000 ≤ a.toNat → a.toNat + 2 * n < 0x30002 →
      d.entryPoint = 0x10000 → d.blocksToDecode = [a] → (∀ b ∈ d.hasBlocks, b.toNat < a.toNat) →
      d.decodedSize + n ∈ decodeBlocksWrites jzConfig jzStream fuel d := by
  induction n with
  | zero =>
    intro fuel d a hfuel _ _ _ hw _
    obtain ⟨fuel, rfl⟩ := Nat.exists_eq_add_of_lt hfuel
    unfold decodeBlocksWrites
    rw [hw]
    apply List.mem_append_left
    exact List.mem_cons_self
  | succ n ih =>
    intro fuel d a hfuel h1 h2 hentry hw hdone
    obtain ⟨d', hb, hsize, hw'⟩ := decodeBlock_jz h1 (by omega) hentry hw hdone
    obtain ⟨g, -⟩ := decodeBlock_spec _ _ hb
    have hto : (a + 2).toNat = a.toNat + 2 := toNat_add_two (by omega)
    cases fuel with
    | zero => omega
    | succ fuel =>
      unfold decodeBlocksWrites
      rw [hw]
      apply List.mem_append_right
      rw [hb]
      have hnext := ih fuel (finishBlock d' a [instAt jzStream a a]) (a + 2) (by omega) (by omega) (by omega)
        (g.entryPoint.trans hentry) hw' ?_
      · change d'.decodedSize + n ∈ _ at hnext
        rwa [hsize, Nat.add_assoc, Nat.add_comm 1 n] at hnext
      · intro b hin
        rcases mem_setEmplace.mp hin with rfl | hin
        · omega
        · have hlt := hdone b (g.hasBlocks ▸ hin)
          omega

/-- 65537 branches to the next instruction write one instruction past the end of the buffer. -/
theorem jz_chain_overruns_decodedBuffer :
    ¬ ∀ n ∈ decodedBufferWrites jzConfig jzStream none 0x10000, n < defaultDecodedBufferSize := by
  intro h
  have hwrite := mem_decodeBlocksWrites_jz 0x10000 decodeFuel (.start none 0x10000) 0x10000 (by decide) (by decide)
    (by decide) rfl rfl (fun b hb => by cases hb)
  exact absurd (h _ hwrite) (by decide)

end FexEmu.Frontend
