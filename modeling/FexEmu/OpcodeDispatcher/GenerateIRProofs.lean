import FexEmu.Frontend.DecoderProofs
import FexEmu.OpcodeDispatcher.BuilderProofs
import FexEmu.OpcodeDispatcher.GenerateIR
/-!
# The translated function is made of finished blocks

One instruction takes an open block to an open one or ends it, and `Finalize` ends the jump targets that no decoded block
reached.
-/
namespace FexEmu.OpcodeDispatcher

open Frontend (DecodedInst DecodedBlocks fallthroughRIP)
open List (map_map mem_cons_of_mem mem_cons_self mem_map mem_map_of_mem mem_range)

variable (cfg : Config) (info : DecodedInst → InstDispatch)

/-! ## Dispatch results -/

/-- The instruction ends its block by itself: a branch, or one without a handler. -/
def closesBlock (i : DecodedInst) : Bool := ((handlerOf info i).map Handler.closes).getD true

/-- A decode failure or an unhandled lock. -/
def failsDispatch (i : DecodedInst) : Bool :=
  ((handlerOf info i).map (fun h => h.fails || (info i).handledLock != (info i).isLocked)).getD false

def isUnimplemented (i : DecodedInst) : Bool := ((handlerOf info i).map Handler.isUnimplemented).getD false

/-- The flags that are deferred behind an instruction. `InvalidOp` calculates them. -/
def deferredAfter (flags : Option Nat) (i : DecodedInst) : Option Nat := (handlerOf info i).bind (Handler.deferred flags)

/-- No flags are deferred behind a branch, nor behind an instruction whose dispatch fails, the last of its block that is
translated. -/
def flagsSettled : Option Nat → List DecodedInst → Bool
  | _, [] => true
  | flags, i :: is =>
    let flags := deferredAfter info flags i
    (!(closesBlock info i || failsDispatch info i) || flags.isNone) && (failsDispatch info i || flagsSettled flags is)

/-- What the decoder leaves for an entry: its block is among blocks of distinct entries, and none is empty. -/
structure DecodedAt (rip : RIP) (blocks : List DecodedBlocks) : Prop where
  entry : rip ∈ blocks.map DecodedBlocks.entry
  distinct : (blocks.map DecodedBlocks.entry).Nodup
  nonempty : ∀ block ∈ blocks, block.instructions ≠ []

theorem decodedAt_of_decode (dcfg : Frontend.Config) (decode : Frontend.DecodeInstruction) (ext : Option (List UInt64))
    (rip : RIP) : ∃ d, (∃ fuel, ∀ n, fuel ≤ n → Frontend.decodeInstructionsAtEntry dcfg decode n ext rip = some d) ∧
      DecodedAt rip d.blocks := by
  obtain ⟨d, hd, hi, hw, hep⟩ :=
    Frontend.decodeBlocks_spec dcfg decode (Frontend.inv_start dcfg ext rip) (Nat.lt_succ_self _)
  have hperm := (d.blocks.perm_insertionSort (fun a b => a.entry ≤ b.entry)).map DecodedBlocks.entry
  refine ⟨{ d with blocks := d.blocks.insertionSort (fun a b => a.entry ≤ b.entry) },
    ⟨_, fun n hn => by unfold Frontend.decodeInstructionsAtEntry; rw [hd n hn]; rfl⟩, ?_, ?_, ?_⟩
  · have hep' : d.entryPoint = rip := hep
    have hknown : Frontend.Known d rip := hep' ▸ hi.entryPoint
    rcases hknown with hk | hk
    · exact hperm.mem_iff.2 ((hi.entries rip).1 hk)
    · rw [hw] at hk
      cases hk
  · exact hperm.nodup_iff.2 hi.distinct
  · exact fun block hb => (hi.contiguous block ((List.mem_insertionSort _).1 hb)).1

/-- Only the last instruction of a block ends it, one that fails does not, and neither does the first of a block after a
failure; in multiblock mode no block ends with an unimplemented instruction; where a block is left, no flags are deferred. -/
structure Dispatchable (blocks : List DecodedBlocks) : Prop where
  body : ∀ block ∈ blocks, ∀ i ∈ block.instructions.dropLast, closesBlock info i = false
  last : cfg.multiblock = true → ∀ block ∈ blocks, ∀ i ∈ block.instructions.getLast?, isUnimplemented info i = false
  failed : ∀ block ∈ blocks, ∀ i ∈ block.instructions, failsDispatch info i = true → closesBlock info i = false
  after : blocks.Pairwise (fun block later => (∃ i ∈ block.instructions, failsDispatch info i = true) →
    ∀ i ∈ later.instructions.head?, closesBlock info i = false ∧ deferredAfter info none i = none)
  flags : ∀ block ∈ blocks, flagsSettled info none block.instructions = true

/-- Every linked block is finished and names linked blocks only. -/
def WellFormed (b : Builder) : Prop :=
  ∀ k ∈ b.blocks, Finished (b.code k) ∧ ∀ o ∈ b.code k, ∀ t ∈ o.targets, t ∈ b.blocks

namespace Builder

variable {b : Builder} {todo : List BlockId}

theorem Open.validateCode (h : Open b todo) : Open b.validateCode todo := by
  unfold Builder.validateCode
  rw [← emitOps_count 1, ← emitOps_current 1]
  have h' := h.emitOps 1
  generalize b.emitOps 1 = c at h'
  have hend := h'.createAtEnd
  have hc := hend.createAfter hend.current
  have hd := hc.closeCondJump (hc.waiting c.count (mem_cons_of_mem _ mem_cons_self)).1
    (hc.waiting (c.count + 1) mem_cons_self).1
  have hd' : Done _ (c.count :: (c.count + 1) :: todo) :=
    hd.reorder (fun _ => (List.Perm.swap (c.count + 1) c.count todo).mem_iff)
  have hexit := ((hd'.enter h'.two_fresh).emitOps 2).close (o := .exitFunction) rfl (by intro t ht; cases ht)
  exact hexit.enter (h'.not_mem_todo (Nat.le_succ _))

@[simp] theorem rest_validateCode : b.validateCode.rest = b.rest := by simp [Builder.validateCode]

/-- The jump targets that have not been emitted. -/
def pending (ts : List JumpTargetInfo) : List BlockId :=
  (ts.filter (fun t => !t.haveEmitted)).map JumpTargetInfo.blockEntry

theorem done_finalizeTargets {ts : List JumpTargetInfo} (hn : (ts.map JumpTargetInfo.blockEntry).Nodup)
    (h : Done b (pending ts)) : Done (ts.foldl finalizeTarget b) [] := by
  induction ts generalizing b with
  | nil => exact h
  | cons t ts ih =>
    obtain ⟨hfresh, hn⟩ := List.nodup_cons.1 hn
    refine ih hn ?_
    unfold finalizeTarget
    cases he : t.haveEmitted with
    | true =>
      have hp : pending (t :: ts) = pending ts := by simp [pending, he]
      rw [hp] at h
      exact h
    | false =>
      have hp : pending (t :: ts) = t.blockEntry :: pending ts := by simp [pending, he]
      rw [hp] at h
      refine h.exitBlock ?_
      intro hm
      obtain ⟨t', ht', he'⟩ := mem_map.1 hm
      exact hfresh (he' ▸ mem_map_of_mem (List.mem_of_mem_filter ht'))

theorem calculateDeferredFlags_none (h : b.deferredFlags = none) : b.calculateDeferredFlags = b := by
  unfold Builder.calculateDeferredFlags
  rw [h]
  show { b with deferredFlags := none } = b
  rw [← h]

theorem wellFormed_finalize (hn : (b.jumpTargets.map JumpTargetInfo.blockEntry).Nodup)
    (hflags : b.deferredFlags = none) (h : Done b (pending b.jumpTargets)) : WellFormed b.finalize := by
  have hd : Done b.finalize [] := by
    unfold finalize
    rw [calculateDeferredFlags_none hflags]
    exact done_finalizeTargets hn h
  exact fun k hk => ⟨hd.finished k hk List.not_mem_nil, hd.targets k⟩

end Builder

/-! ## One instruction -/

variable {todo : List BlockId}

theorem preamble_open {b : Builder} (h : b.Open todo) :
    (preamble cfg b).Open todo ∧ (preamble cfg b).rest = b.rest := by
  unfold preamble
  cases cfg.extendedDebugInfo <;> cases cfg.smcChecksFull
  · exact ⟨h, rfl⟩
  · exact ⟨h.validateCode, b.rest_validateCode⟩
  · exact ⟨h.emitOps 1, b.rest_emitOps 1⟩
  · exact ⟨(h.emitOps 1).validateCode, by simp⟩

theorem dispatchInst_frame (s : GenState) (i : DecodedInst) :
    (dispatchInst info s i).builder.jumpTargets = s.builder.jumpTargets ∧
    (dispatchInst info s i).builder.multiblock = s.builder.multiblock ∧
    (dispatchInst info s i).builder.deferredFlags = deferredAfter info s.builder.deferredFlags i ∧
    (dispatchInst info s i).hadDispatchError = (s.hadDispatchError || failsDispatch info i) := by
  unfold dispatchInst failsDispatch deferredAfter
  cases hh : handlerOf info i with
  | none =>
    have hr : (((s.builder.invalidOp 1).emitOps 1).emit .exitFunction).rest = s.builder.rest.left :=
      (Builder.rest_emitOps (b := s.builder.invalidOp 1) 1).trans (Builder.rest_intOp 1)
    exact ⟨congrArg (·.jumpTargets) hr, congrArg (·.multiblock) hr, congrArg (·.deferredFlags) hr, by simp⟩
  | some h =>
    have hr := Handler.invoke_rest h (fallthroughRIP i) { s.builder with decodeFailure := false }
    have hj := congrArg (·.jumpTargets) hr
    have hm := congrArg (·.multiblock) hr
    have hflags := congrArg (·.deferredFlags) hr
    have hf := congrArg (·.decodeFailure) hr
    simp only [Builder.rest, Bool.false_or] at hf
    simp only [hf, Option.map_some, Option.getD_some]
    cases hfails : h.fails with
    | true => exact ⟨hj, hm, hflags, by simp⟩
    | false => exact ⟨hj, hm, hflags, by simp⟩

variable {s s' : GenState} {i : DecodedInst}

theorem dispatchInst_builder {h : Handler} (hh : handlerOf info i = some h) :
    (dispatchInst info s i).builder = h.invoke (fallthroughRIP i) { s.builder with decodeFailure := false } := by
  unfold dispatchInst
  rw [hh]
  dsimp only
  split <;> rfl

theorem dispatchInst_done (ho : s.builder.Open todo) (hc : closesBlock info i = true) :
    (dispatchInst info s i).builder.Done todo ∧ (dispatchInst info s i).builder.blockSetRIP = true := by
  unfold closesBlock at hc
  cases hh : handlerOf info i with
  | none =>
    unfold dispatchInst
    rw [hh]
    refine ⟨((ho.intOp 1).1.emitOps 1).close rfl (by intro t ht; cases ht), ?_⟩
    exact congrArg (·.blockSetRIP) (Builder.rest_intOp (b := s.builder) 1)
  | some h =>
    rw [hh] at hc
    rw [dispatchInst_builder info hh]
    refine ⟨Handler.invoke_done (ho.flags _ false _) hc, ?_⟩
    have hr := congrArg (·.blockSetRIP)
      (Handler.invoke_rest h (fallthroughRIP i) { s.builder with decodeFailure := false })
    have hset : h.setsRIP = true := by
      cases h <;> first | rfl | cases hc
    simpa [Builder.rest, hset] using hr

theorem dispatchInst_open (ho : s.builder.Open todo) (hc : closesBlock info i = false) :
    (dispatchInst info s i).builder.Open todo ∧
    (s.builder.blockSetRIP = false → (dispatchInst info s i).builder.blockSetRIP = true →
      deferredAfter info s.builder.deferredFlags i = none ∧ ((s.builder.multiblock && isUnimplemented info i) = false →
        (dispatchInst info s i).builder.EndsIn .brk)) := by
  unfold closesBlock at hc
  unfold isUnimplemented deferredAfter
  cases hh : handlerOf info i with
  | none => rw [hh] at hc; cases hc
  | some h =>
    rw [hh] at hc
    rw [dispatchInst_builder info hh]
    obtain ⟨hopen, hbrk⟩ := @Handler.invoke_open h (fallthroughRIP i) _ _
      (ho.flags s.builder.blockSetRIP false s.builder.deferredFlags) hc
    refine ⟨hopen, ?_⟩
    intro hr hset
    have hrest : _ = (s.builder.blockSetRIP || h.setsRIP) := congrArg (·.blockSetRIP)
      (Handler.invoke_rest h (fallthroughRIP i) { s.builder with decodeFailure := false })
    rw [hr, Bool.false_or] at hrest
    exact ⟨Handler.deferred_of_setsRIP (hrest.symm.trans hset) hc _, hbrk (hrest.symm.trans hset)⟩

/-! ## The instructions of a block -/

theorem finishOp_last {b : Builder} (rip : RIP) (hdone : b.blockSetRIP = true → b.Done todo ∧ b.deferredFlags = none)
    (hopen : b.blockSetRIP = false → b.Open todo) :
    (b.finishOp rip true).1.Done todo ∧ (b.finishOp rip true).1.blockSetRIP = false ∧
      (b.finishOp rip true).1.deferredFlags = none := by
  unfold Builder.finishOp
  cases hr : b.blockSetRIP with
  | true => exact ⟨(hdone hr).1.flags false _ _, rfl, (hdone hr).2⟩
  | false =>
    have ho := (hopen hr).calculateDeferredFlags
    have hflags := congrArg (·.deferredFlags) (Builder.rest_calculateDeferredFlags (b := b))
    simp only [Bool.not_false, Bool.and_self, if_true]
    split
    · refine ⟨((ho.emitOps 1).close rfl (by intro t ht; cases ht)).flags false _ _, rfl, ?_⟩
      exact (congrArg (·.deferredFlags) (Builder.rest_emitOps (b := b.calculateDeferredFlags) 1)).trans hflags
    · rename_i k hk
      exact ⟨ho.closeJump (Builder.findJumpTarget_linked ho.toLinked hk), (Builder.emitOps_blockSetRIP _).trans hr, hflags⟩

theorem finishOp_frame (b : Builder) (rip : RIP) (last : Bool) :
    (b.finishOp rip last).1.jumpTargets = b.jumpTargets ∧ (b.finishOp rip last).1.multiblock = b.multiblock := by
  have hcalculate := Builder.rest_calculateDeferredFlags (b := b)
  have hj : b.calculateDeferredFlags.jumpTargets = b.jumpTargets := congrArg (·.jumpTargets) hcalculate
  have hm : b.calculateDeferredFlags.multiblock = b.multiblock := congrArg (·.multiblock) hcalculate
  unfold Builder.finishOp
  split
  · dsimp only
    split
    · exact ⟨(Builder.emitOps_jumpTargets 1).trans hj, (Builder.emitOps_multiblock 1).trans hm⟩
    · exact ⟨hj, hm⟩
  · exact ⟨rfl, rfl⟩

/-- What the translation of a run of instructions leaves behind. -/
structure Translated (s s' : GenState) (is : List DecodedInst) (todo : List BlockId) : Prop where
  done : s'.builder.Done todo
  jumpTargets : s'.builder.jumpTargets = s.builder.jumpTargets
  multiblock : s'.builder.multiblock = s.builder.multiblock
  deferredFlags : s'.builder.deferredFlags = none
  blockSetRIP : s'.hadDispatchError = false → s'.builder.blockSetRIP = false
  error : s'.hadDispatchError = true → s.hadDispatchError = true ∨ ∃ i ∈ is, failsDispatch info i = true

/-- What the dispatch of an instruction leaves behind: its block is closed, or it is open. -/
structure Dispatched (s t : GenState) (i : DecodedInst) (todo : List BlockId) : Prop where
  jumpTargets : t.builder.jumpTargets = s.builder.jumpTargets
  multiblock : t.builder.multiblock = s.builder.multiblock
  deferredFlags : t.builder.deferredFlags = deferredAfter info s.builder.deferredFlags i
  error : t.hadDispatchError = (s.hadDispatchError || failsDispatch info i)
  closed : closesBlock info i = true → t.builder.Done todo ∧ t.builder.blockSetRIP = true
  opened : closesBlock info i = false → t.builder.Open todo ∧
    (s.builder.blockSetRIP = false → t.builder.blockSetRIP = true →
      deferredAfter info s.builder.deferredFlags i = none ∧
        ((s.builder.multiblock && isUnimplemented info i) = false → t.builder.EndsIn .brk))

theorem dispatched_preamble (ho : s.builder.Open todo) (i : DecodedInst) :
    Dispatched info s (dispatchInst info { s with builder := preamble cfg s.builder } i) i todo := by
  obtain ⟨hpo, hpr⟩ := preamble_open cfg ho
  have hpj := congrArg (·.jumpTargets) hpr
  have hpm := congrArg (·.multiblock) hpr
  have hpb := congrArg (·.blockSetRIP) hpr
  have hpd := congrArg (·.deferredFlags) hpr
  simp only [Builder.rest] at hpj hpm hpb hpd
  obtain ⟨hj, hm, hd, he⟩ := dispatchInst_frame info { s with builder := preamble cfg s.builder } i
  have hopen := dispatchInst_open info (s := { s with builder := preamble cfg s.builder }) (i := i) hpo
  dsimp only at hd hopen
  rw [hpd] at hd hopen
  rw [hpb, hpm] at hopen
  exact ⟨hj.trans hpj, hm.trans hpm, hd, he, dispatchInst_done info hpo, hopen⟩

section Dispatched
variable {t : GenState} {is : List DecodedInst}

/-- Behind a failed dispatch the block is left, whatever comes in it. -/
theorem Dispatched.failed (h : Dispatched info s t i todo) (herr : t.hadDispatchError = true)
    (hc : closesBlock info i = false) (hnone : t.builder.deferredFlags = none) :
    Translated info s { t with builder := (t.builder.emitOps 1).emit .exitFunction } (i :: is) todo where
  done := ((h.opened hc).1.emitOps 1).close rfl (by intro k hk; cases hk)
  jumpTargets := (Builder.emitOps_jumpTargets 1).trans h.jumpTargets
  multiblock := (Builder.emitOps_multiblock 1).trans h.multiblock
  deferredFlags := (congrArg (·.deferredFlags) (Builder.rest_emitOps (b := t.builder) 1)).trans hnone
  blockSetRIP hf := absurd (herr.symm.trans hf) (by decide)
  error _ := (Bool.or_eq_true_iff.1 (h.error.symm.trans herr)).imp id fun hf => ⟨i, mem_cons_self, hf⟩

/-- `FinishOp` closes the block behind its last instruction. -/
theorem Dispatched.last (h : Dispatched info s t i todo) (herr : t.hadDispatchError = false)
    (hr : s.builder.blockSetRIP = false) (hsettled : closesBlock info i = true → t.builder.deferredFlags = none)
    (hbrk : (s.builder.multiblock && isUnimplemented info i) = false) :
    Translated info s { t with builder := (t.builder.finishOp (fallthroughRIP i) true).1 } [i] todo := by
  obtain ⟨hdone, hreset, hnone⟩ := @finishOp_last todo t.builder (fallthroughRIP i)
    (fun hset => by
      cases hc : closesBlock info i with
      | true => exact ⟨(h.closed hc).1, hsettled hc⟩
      | false =>
        obtain ⟨hopen, hafter⟩ := h.opened hc
        obtain ⟨hflags, hends⟩ := hafter hr hset
        exact ⟨hopen.done (hends hbrk), h.deferredFlags.trans hflags⟩)
    (fun hset => by
      cases hc : closesBlock info i with
      | true => exact absurd ((h.closed hc).2.symm.trans hset) (by decide)
      | false => exact (h.opened hc).1)
  obtain ⟨hj, hm⟩ := finishOp_frame t.builder (fallthroughRIP i) true
  exact {
    done := hdone
    jumpTargets := hj.trans h.jumpTargets
    multiblock := hm.trans h.multiblock
    deferredFlags := hnone
    blockSetRIP := fun _ => hreset
    error := fun hf => absurd (herr.symm.trans hf) (by decide) }

end Dispatched

theorem genInsts_translated {is : List DecodedInst} (ho : s.builder.Open todo)
    (hr : s.hadDispatchError = false → s.builder.blockSetRIP = false) (hm : s.builder.multiblock = cfg.multiblock)
    (hne : is ≠ []) (hbody : ∀ i ∈ is.dropLast, closesBlock info i = false)
    (hlast : cfg.multiblock = true → ∀ i ∈ is.getLast?, isUnimplemented info i = false)
    (hfailed : ∀ i ∈ is, failsDispatch info i = true → closesBlock info i = false)
    (hfirst : s.hadDispatchError = true → ∀ i ∈ is.head?,
      closesBlock info i = false ∧ deferredAfter info s.builder.deferredFlags i = none)
    (hflags : flagsSettled info s.builder.deferredFlags is = true)
    (h : genInsts cfg info s is = some s') : Translated info s s' is todo := by
  induction is generalizing s with
  | nil => exact absurd rfl hne
  | cons i is ih =>
    unfold flagsSettled at hflags
    dsimp only at hflags
    obtain ⟨hleft, hflags⟩ := Bool.and_eq_true_iff.1 hflags
    have hi := dispatched_preamble cfg info ho i
    unfold genInsts at h
    generalize dispatchInst info { s with builder := preamble cfg s.builder } i = t at h hi
    dsimp only at h
    cases herr : t.hadDispatchError with
    | true =>
      rw [if_pos herr] at h
      have hor := Bool.or_eq_true_iff.1 (hi.error.symm.trans herr)
      -- the failing instruction, or the first after an earlier failure, leaves its block open
      have hc : closesBlock info i = false := hor.elim (fun hs => (hfirst hs i rfl).1) (hfailed i mem_cons_self)
      have hnone : t.builder.deferredFlags = none := by
        rw [hi.deferredFlags]
        rcases hor with hs | hf
        · exact (hfirst hs i rfl).2
        · rw [hf, Bool.or_true, Bool.not_true, Bool.false_or] at hleft
          exact Option.isNone_iff_eq_none.1 hleft
      split at h
      · cases h
      · obtain rfl := Option.some.inj h
        exact hi.failed info herr hc hnone
    | false =>
      rw [if_neg (Bool.not_eq_true _ ▸ herr)] at h
      obtain ⟨hse, hfalse⟩ := Bool.or_eq_false_iff.1 (hi.error.symm.trans herr)
      cases is with
      | nil =>
        have hsettled : closesBlock info i = true → t.builder.deferredFlags = none := by
          intro hc
          rw [hc, Bool.true_or, Bool.not_true, Bool.false_or] at hleft
          exact hi.deferredFlags.trans (Option.isNone_iff_eq_none.1 hleft)
        have hbrk : (s.builder.multiblock && isUnimplemented info i) = false := by
          rw [hm]
          cases hmulti : cfg.multiblock with
          | false => rfl
          | true => exact hlast hmulti i rfl
        have hs' : s' = { t with builder := (t.builder.finishOp (fallthroughRIP i) true).1 } := by
          split at h
          · exact (Option.some.inj h).symm
          · exact (Option.some.inj h).symm
        rw [hs']
        exact hi.last info herr (hr hse) hsettled hbrk
      | cons j js =>
        have hc : closesBlock info i = false := hbody i (by simp)
        have htr := ih (s := { t with builder := { t.builder with blockSetRIP := false } })
          ((hi.opened hc).1.flags false _ _) (fun _ => rfl) (hi.multiblock.trans hm) (List.cons_ne_nil _ _)
          (fun k hk => hbody k (by simp [hk])) (fun hmulti k hk => hlast hmulti k (by simpa using hk))
          (fun k hk => hfailed k (mem_cons_of_mem _ hk))
          (fun hf => absurd (herr.symm.trans hf) (by decide)) (by simpa [hfalse, hi.deferredFlags] using hflags) h
        exact {
          done := htr.done
          jumpTargets := htr.jumpTargets.trans hi.jumpTargets
          multiblock := htr.multiblock.trans hi.multiblock
          deferredFlags := htr.deferredFlags
          blockSetRIP := htr.blockSetRIP
          error := fun hf => (htr.error hf).elim (fun hf => absurd (herr.symm.trans hf) (by decide))
            (fun hk => .inr (hk.imp fun _ => And.imp_left (mem_cons_of_mem _))) }

/-! ## The blocks -/

section JumpTargets

variable {ts : List JumpTargetInfo} {t : JumpTargetInfo}

theorem mem_pending {k : BlockId} :
    k ∈ Builder.pending ts ↔ ∃ t ∈ ts, t.haveEmitted = false ∧ t.blockEntry = k := by
  simp [Builder.pending, and_assoc]

theorem mem_pending_markEmitted {rip : RIP} {k : BlockId} :
    k ∈ Builder.pending (ts.map (Builder.markEmitted rip)) ↔
      ∃ t ∈ ts, t.rip ≠ rip ∧ t.haveEmitted = false ∧ t.blockEntry = k := by
  rw [mem_pending]
  constructor
  · rintro ⟨_, hm, he, rfl⟩
    obtain ⟨t, ht, rfl⟩ := mem_map.1 hm
    unfold Builder.markEmitted at he ⊢
    split at he
    · cases he
    · rename_i hne
      rw [if_neg hne]
      exact ⟨t, ht, hne, he, rfl⟩
  · rintro ⟨t, ht, hne, he, rfl⟩
    refine ⟨t, mem_map.2 ⟨t, ht, if_neg hne⟩, he, rfl⟩

theorem pending_cons (hrips : (ts.map JumpTargetInfo.rip).Nodup)
    (hentries : (ts.map JumpTargetInfo.blockEntry).Nodup) (ht : t ∈ ts) (he : t.haveEmitted = false) :
    (∀ k, k ∈ t.blockEntry :: Builder.pending (ts.map (Builder.markEmitted t.rip)) ↔ k ∈ Builder.pending ts) ∧
    t.blockEntry ∉ Builder.pending (ts.map (Builder.markEmitted t.rip)) := by
  constructor
  · intro k
    rw [List.mem_cons, mem_pending_markEmitted, mem_pending]
    constructor
    · rintro (rfl | ⟨t', ht', -, he', rfl⟩)
      · exact ⟨t, ht, he, rfl⟩
      · exact ⟨t', ht', he', rfl⟩
    · rintro ⟨t', ht', he', rfl⟩
      by_cases hr : t'.rip = t.rip
      · rw [List.inj_on_of_nodup_map hrips ht' ht hr]
        exact .inl rfl
      · exact .inr ⟨t', ht', hr, he', rfl⟩
  · rw [mem_pending_markEmitted]
    rintro ⟨t', ht', hr, -, hk⟩
    exact hr (by rw [List.inj_on_of_nodup_map hentries ht' ht hk])

theorem find_jumpTarget (hrips : (ts.map JumpTargetInfo.rip).Nodup) (ht : t ∈ ts) :
    ts.find? (fun t' => t'.rip = t.rip) = some t := by
  obtain ⟨t', hfind⟩ : ∃ t', ts.find? (fun t' => t'.rip = t.rip) = some t' := by
    rw [← Option.isSome_iff_exists, List.find?_isSome]
    exact ⟨t, ht, by simp⟩
  have hr : t'.rip = t.rip := by simpa using List.find?_some hfind
  rw [hfind, List.inj_on_of_nodup_map hrips (List.mem_of_find?_eq_some hfind) ht hr]

end JumpTargets

theorem setNewBlock_open {b : Builder} {t : JumpTargetInfo} (hd : b.Done (Builder.pending b.jumpTargets))
    (hrips : (b.jumpTargets.map JumpTargetInfo.rip).Nodup)
    (hentries : (b.jumpTargets.map JumpTargetInfo.blockEntry).Nodup) (ht : t ∈ b.jumpTargets)
    (he : t.haveEmitted = false) :
    (b.setNewBlockIfChanged t.rip).Open (Builder.pending (b.jumpTargets.map (Builder.markEmitted t.rip))) ∧
    (b.setNewBlockIfChanged t.rip).rest = { b.rest with jumpTargets := b.jumpTargets.map (Builder.markEmitted t.rip) } := by
  obtain ⟨hmem, hfresh⟩ := pending_cons hrips hentries ht he
  have hd' := hd.reorder hmem
  have hmark : Builder.Done { b with jumpTargets := b.jumpTargets.map (Builder.markEmitted t.rip) }
      (t.blockEntry :: Builder.pending (b.jumpTargets.map (Builder.markEmitted t.rip))) := by
    refine ⟨⟨hd'.bounded, hd'.fresh, hd'.current, hd'.targets, ?_, hd'.waiting⟩, hd'.atStart, hd'.finished⟩
    intro t' ht'
    obtain ⟨t'', ht'', rfl⟩ := mem_map.1 ht'
    have hsame : (Builder.markEmitted t.rip t'').blockEntry = t''.blockEntry := by
      unfold Builder.markEmitted
      split <;> rfl
    rw [hsame]
    exact hd.jumpTargets t'' ht''
  have henter := hmark.enter hfresh
  unfold Builder.setNewBlockIfChanged Builder.findJumpTarget
  rw [find_jumpTarget hrips ht]
  dsimp only [Option.map_some]
  split
  · rename_i hcur
    have hzero : b.cursor = 0 := hmark.atStart (hcur ▸ mem_cons_self)
    refine ⟨?_, rfl⟩
    convert henter using 1
    unfold Builder.setCurrentCodeBlock
    rw [← hcur, ← hzero]
  · exact ⟨henter, rfl⟩

/-- The state between two decoded blocks, with the blocks still to come. -/
structure Ready (s : GenState) (blocks : List DecodedBlocks) : Prop where
  done : s.builder.Done (Builder.pending s.builder.jumpTargets)
  rips : (s.builder.jumpTargets.map JumpTargetInfo.rip).Nodup
  entries : (s.builder.jumpTargets.map JumpTargetInfo.blockEntry).Nodup
  unseen : ∀ block ∈ blocks, ∃ t ∈ s.builder.jumpTargets, t.rip = block.entry ∧ t.haveEmitted = false
  multiblock : s.builder.multiblock = cfg.multiblock
  deferredFlags : s.builder.deferredFlags = none
  blockSetRIP : s.hadDispatchError = false → s.builder.blockSetRIP = false
  error : s.hadDispatchError = true → ∀ block ∈ blocks, ∀ i ∈ block.instructions.head?,
    closesBlock info i = false ∧ deferredAfter info none i = none

theorem ready_genBlock {block : DecodedBlocks} {rest : List DecodedBlocks}
    (hs : Ready cfg info s (block :: rest)) (hd : Dispatchable cfg info (block :: rest))
    (hdistinct : ((block :: rest).map DecodedBlocks.entry).Nodup) (hne : block.instructions ≠ [])
    (h : genBlock cfg info s block = some s') : Ready cfg info s' rest := by
  obtain ⟨t, ht, hrip, he⟩ := hs.unseen block mem_cons_self
  obtain ⟨hopen, hrest⟩ := setNewBlock_open hs.done hs.rips hs.entries ht he
  rw [hrip] at hopen hrest
  unfold genBlock at h
  -- the synchronised RIP adds ops to the open block only
  have hsync : ∃ b : Builder, b.Open (Builder.pending (s.builder.jumpTargets.map (Builder.markEmitted block.entry))) ∧
      b.rest = { s.builder.rest with jumpTargets := s.builder.jumpTargets.map (Builder.markEmitted block.entry) } ∧
      genInsts cfg info { s with builder := b } block.instructions = some s' := by
    cases hc : cfg.synchronizeRIPOnAllBlocks with
    | false => exact ⟨_, hopen, hrest, by simpa [hc] using h⟩
    | true => exact ⟨_, hopen.emitOps 2, (Builder.rest_emitOps 2).trans hrest, by simpa [hc] using h⟩
  obtain ⟨b, hb, hbrest, hgen⟩ := hsync
  have hbj : b.jumpTargets = _ := congrArg (·.jumpTargets) hbrest
  have hbm : b.multiblock = s.builder.multiblock := congrArg (·.multiblock) hbrest
  have hbr : b.blockSetRIP = s.builder.blockSetRIP := congrArg (·.blockSetRIP) hbrest
  have hbd : b.deferredFlags = none := (congrArg (·.deferredFlags) hbrest).trans hs.deferredFlags
  have htr := genInsts_translated cfg info (s := { s with builder := b }) hb (fun hf => hbr.trans (hs.blockSetRIP hf))
    (hbm.trans hs.multiblock) hne (hd.body block mem_cons_self) (fun hm => hd.last hm block mem_cons_self)
    (hd.failed block mem_cons_self) (fun hf => hbd.symm ▸ hs.error hf block mem_cons_self)
    (hbd.symm ▸ hd.flags block mem_cons_self) hgen
  have hjt : s'.builder.jumpTargets = s.builder.jumpTargets.map (Builder.markEmitted block.entry) :=
    htr.jumpTargets.trans hbj
  have hkeep : ∀ t' : JumpTargetInfo, (Builder.markEmitted block.entry t').rip = t'.rip ∧
      (Builder.markEmitted block.entry t').blockEntry = t'.blockEntry := by
    intro t'
    unfold Builder.markEmitted
    split <;> exact ⟨rfl, rfl⟩
  exact {
    done := by rw [hjt]; exact htr.done
    rips := by
      rw [hjt, map_map]
      exact (List.map_congr_left (fun t' _ => (hkeep t').1)).symm ▸ hs.rips
    entries := by
      rw [hjt, map_map]
      exact (List.map_congr_left (fun t' _ => (hkeep t').2)).symm ▸ hs.entries
    unseen := by
      intro later hl
      obtain ⟨t', ht', hr', he'⟩ := hs.unseen later (mem_cons_of_mem _ hl)
      have hne' : t'.rip ≠ block.entry := by
        intro heq
        refine (List.nodup_cons.1 hdistinct).1 ?_
        rw [← heq, hr']
        exact mem_map_of_mem hl
      exact ⟨t', by rw [hjt]; exact mem_map.2 ⟨t', ht', if_neg hne'⟩, hr', he'⟩
    multiblock := htr.multiblock.trans (hbm.trans hs.multiblock)
    deferredFlags := htr.deferredFlags
    blockSetRIP := htr.blockSetRIP
    error := by
      intro hf later hl
      rcases htr.error hf with hse | hfail
      · exact hs.error hse later (mem_cons_of_mem _ hl)
      · exact List.rel_of_pairwise_cons hd.after hl hfail }

theorem Dispatchable.tail {block : DecodedBlocks} {rest : List DecodedBlocks}
    (h : Dispatchable cfg info (block :: rest)) : Dispatchable cfg info rest where
  body := fun b hb => h.body b (mem_cons_of_mem _ hb)
  last := fun hm b hb => h.last hm b (mem_cons_of_mem _ hb)
  failed := fun b hb => h.failed b (mem_cons_of_mem _ hb)
  after := (List.pairwise_cons.1 h.after).2
  flags := fun b hb => h.flags b (mem_cons_of_mem _ hb)

theorem ready_genBlocks {blocks : List DecodedBlocks} (hs : Ready cfg info s blocks)
    (hd : Dispatchable cfg info blocks) (hdistinct : (blocks.map DecodedBlocks.entry).Nodup)
    (hne : ∀ block ∈ blocks, block.instructions ≠ []) (h : genBlocks cfg info s blocks = some s') :
    Ready cfg info s' [] := by
  induction blocks generalizing s with
  | nil =>
    obtain rfl := Option.some.inj h
    exact hs
  | cons block rest ih =>
    obtain ⟨s₁, hblock, hrest⟩ := Option.bind_eq_some_iff.1 h
    exact ih (ready_genBlock cfg info hs hd hdistinct (hne block mem_cons_self) hblock) (hd.tail cfg info)
      (List.nodup_cons.1 hdistinct).2 (fun b hb => hne b (mem_cons_of_mem _ hb)) hrest

theorem jumpTargets_create (multiblock : Bool) (entries : List RIP) :
    ((Builder.createJumpBlocks multiblock entries).jumpTargets.map JumpTargetInfo.rip = entries) ∧
    ((Builder.createJumpBlocks multiblock entries).jumpTargets.map JumpTargetInfo.blockEntry =
      List.range entries.length) := by
  unfold Builder.createJumpBlocks
  rw [map_map, map_map]
  exact ⟨List.zipIdx_map_fst 0 entries, (List.zipIdx_map_snd 0 entries).trans (List.range_eq_range' ..).symm⟩

theorem haveEmitted_create {multiblock : Bool} {entries : List RIP} {t : JumpTargetInfo}
    (ht : t ∈ (Builder.createJumpBlocks multiblock entries).jumpTargets) : t.haveEmitted = false := by
  obtain ⟨p, -, rfl⟩ := mem_map.1 ht
  rfl

theorem done_create {multiblock : Bool} {entries : List RIP} {k : BlockId} (hk : k < entries.length) :
    ((Builder.createJumpBlocks multiblock entries).setCurrentCodeBlock k).Done
      (Builder.pending (Builder.createJumpBlocks multiblock entries).jumpTargets) := by
  have hall : ∀ j, j ∈ Builder.pending (Builder.createJumpBlocks multiblock entries).jumpTargets ↔
      j < entries.length := by
    intro j
    rw [mem_pending, ← mem_range, ← (jumpTargets_create multiblock entries).2, mem_map]
    exact ⟨fun ⟨t, ht, _, he⟩ => ⟨t, ht, he⟩, fun ⟨t, ht, he⟩ => ⟨t, ht, haveEmitted_create ht, he⟩⟩
  exact {
    bounded := fun j hj => mem_range.1 hj
    fresh := fun _ _ => rfl
    current := mem_range.2 hk
    targets := fun _ o ho => by cases ho
    jumpTargets := by
      intro t ht
      have hm := mem_map_of_mem (f := JumpTargetInfo.blockEntry) ht
      rw [Builder.setCurrentCodeBlock, (jumpTargets_create multiblock entries).2] at hm
      exact hm
    waiting := fun j hj => ⟨mem_range.2 ((hall j).1 hj), rfl⟩
    atStart := fun _ => rfl
    finished := fun j hj hjt => absurd ((hall j).2 (mem_range.1 hj)) hjt }

theorem ready_start {rip : RIP} {blocks : List DecodedBlocks} (h : DecodedAt rip blocks) :
    Ready cfg info ⟨Builder.beginFunction cfg.multiblock rip (blocks.map DecodedBlocks.entry), false, 0⟩ blocks := by
  obtain ⟨hrips, hentries⟩ := jumpTargets_create cfg.multiblock (blocks.map DecodedBlocks.entry)
  have hentry : ∀ r ∈ blocks.map DecodedBlocks.entry,
      ∃ t ∈ (Builder.createJumpBlocks cfg.multiblock (blocks.map DecodedBlocks.entry)).jumpTargets,
        t.rip = r ∧ t.haveEmitted = false := by
    intro r hr
    rw [← hrips] at hr
    obtain ⟨t, ht, rfl⟩ := mem_map.1 hr
    exact ⟨t, ht, rfl, haveEmitted_create ht⟩
  obtain ⟨t, ht, hrip, -⟩ := hentry rip h.entry
  have hk : t.blockEntry < (blocks.map DecodedBlocks.entry).length := by
    rw [← mem_range, ← hentries]
    exact mem_map_of_mem ht
  have hbegin : Builder.beginFunction cfg.multiblock rip (blocks.map DecodedBlocks.entry) =
      (Builder.createJumpBlocks cfg.multiblock (blocks.map DecodedBlocks.entry)).setCurrentCodeBlock t.blockEntry := by
    unfold Builder.beginFunction Builder.findJumpTarget
    dsimp only
    rw [← hrip, find_jumpTarget (hrips.symm ▸ h.distinct) ht]
    rfl
  rw [hbegin]
  exact {
    done := done_create hk
    rips := hrips.symm ▸ h.distinct
    entries := hentries.symm ▸ List.nodup_range
    unseen := fun block hb => hentry _ (mem_map_of_mem hb)
    multiblock := rfl
    deferredFlags := rfl
    blockSetRIP := fun _ => rfl
    error := fun hf => by cases hf }

/-! ## The theorem -/

/-- After `Finalize` every linked block ends in a `Jump`, a `CondJump`, an `ExitFunction` or a `Break`, holds none of the
first three before its end, and goes to linked blocks only. -/
theorem generateIR_wellFormed {rip : RIP} {blocks : List DecodedBlocks} {b : Builder} (hdec : DecodedAt rip blocks)
    (hdis : Dispatchable cfg info blocks) (h : generateIR cfg info rip blocks = some b) : WellFormed b := by
  obtain ⟨s, hs, rfl⟩ := Option.map_eq_some_iff.1 h
  have hready := ready_genBlocks cfg info (ready_start cfg info hdec) hdis hdec.distinct hdec.nonempty hs
  exact Builder.wellFormed_finalize hready.entries hready.deferredFlags hready.done

/-- `add eax, ebx` at 0x1000, `jz +0xE`, whose target was not decoded, and the `ret` after it. -/
def jzRet : List DecodedBlocks :=
  [⟨0x1000, [⟨0x1000, 2, 0x01, 0, some ⟨false, false⟩⟩, ⟨0x1002, 2, 0x74, 0xE, some ⟨true, false⟩⟩], false⟩,
    ⟨0x1004, [⟨0x1004, 1, 0xC3, 0, some ⟨true, true⟩⟩], false⟩]

def jzRetDispatch (i : DecodedInst) : InstDispatch :=
  ⟨false, some (if i.op = 0x01 then .straight [.op, .generateFlags 9]
    else if i.op = 0x74 then .condJump 5 false 0x1012
    else .exit [.calculateDeferredFlags, .op, .op]), false⟩

theorem generateIR_wellFormed_jzRet :
    ∃ b, generateIR ⟨true, false, false, false⟩ jzRetDispatch 0x1000 jzRet = some b ∧ WellFormed b := by
  have hdec : DecodedAt 0x1000 jzRet := ⟨by decide, by decide, by decide⟩
  have hdis : Dispatchable ⟨true, false, false, false⟩ jzRetDispatch jzRet :=
    ⟨by decide, by decide, by decide, by decide, by decide⟩
  exact ⟨_, rfl, generateIR_wellFormed _ _ hdec hdis rfl⟩

/-- From an entry point to well-formed IR. -/
theorem decode_wellFormed (dcfg : Frontend.Config) (decode : Frontend.DecodeInstruction) (ext : Option (List UInt64))
    (rip : RIP) : ∃ d, (∃ fuel, ∀ n, fuel ≤ n → Frontend.decodeInstructionsAtEntry dcfg decode n ext rip = some d) ∧
      ∀ b, Dispatchable cfg info d.blocks → generateIR cfg info rip d.blocks = some b → WellFormed b := by
  obtain ⟨d, hd, hdec⟩ := decodedAt_of_decode dcfg decode ext rip
  refine ⟨d, hd, fun b hdis h => ?_⟩
  obtain ⟨s, hs, rfl⟩ := Option.map_eq_some_iff.1 h
  have hready := ready_genBlocks cfg info (ready_start cfg info hdec) hdis hdec.distinct hdec.nonempty hs
  exact Builder.wellFormed_finalize hready.entries hready.deferredFlags hready.done

/-- `hlt` at 0x1000. -/
def hltBlock : List DecodedBlocks := [⟨0x1000, [⟨0x1000, 1, 0xF4, 0, some ⟨false, true⟩⟩], false⟩]

theorem decode_wellFormed_hlt :
    ∃ b, generateIR ⟨true, false, false, false⟩ (fun _ => ⟨false, some (.int 2), false⟩) 0x1000 hltBlock = some b ∧
      WellFormed b := by
  obtain ⟨d, ⟨fuel, hd⟩, h⟩ := decode_wellFormed ⟨true, false, false, false⟩ (fun _ => ⟨false, some (.int 2), false⟩)
    ⟨true, true, 5000, 0xFFFFFFFFFFFFFFFF⟩ (fun _ _ => some (1, 0xF4, 0, ⟨false, true⟩)) none 0x1000
  have hblocks : d.blocks = hltBlock := by
    rw [← Option.some.inj (hd (fuel + 2) (Nat.le_add_right _ _))]
    rfl
  rw [hblocks] at h
  exact ⟨_, rfl, h _ ⟨by decide, by decide, by decide, by decide, by decide⟩ rfl⟩

/-- Every linked block holds exactly one terminator, at its end. -/
def OneTerminator (b : Builder) : Prop :=
  ∀ k ∈ b.blocks, ∃ init last, b.code k = init ++ [last] ∧ last.isTerminator = true ∧
    (∀ o ∈ init, o.isTerminator = false) ∧ ∀ t ∈ last.targets, t ∈ b.blocks

/-- A trap ends its block in a `Break`, so the block of a `hlt` has no terminator. -/
theorem hlt_without_terminator :
    ¬ (∀ (cfg : Config) (info : DecodedInst → InstDispatch) (rip : RIP) (blocks : List DecodedBlocks) (b : Builder),
        DecodedAt rip blocks → generateIR cfg info rip blocks = some b → OneTerminator b) := by
  intro h
  have hdec : DecodedAt 0x1000 hltBlock := ⟨by decide, by decide, by decide⟩
  obtain ⟨init, last, hcode, hlast, -, -⟩ :=
    h ⟨false, false, false, false⟩ (fun _ => ⟨false, some (.int 2), false⟩) 0x1000 hltBlock _ hdec rfl 0 (by decide)
  have hcode' : [IROp.op, .op, .brk] = init ++ [last] := hcode
  have hbrk : last = .brk := by
    have := congrArg List.getLast? hcode'
    simpa using this.symm
  rw [hbrk] at hlast
  cases hlast

end FexEmu.OpcodeDispatcher
