import FexEmu.Arm64.CallOpsProofs
/-!
# Every op that calls out

Each op in turn: what it has set up where it calls, and that the way out brings the registers back.
-/
namespace FexEmu.Arm64

open ByteMemory
open Function (update_of_ne update_self update)

variable {env : Env} {cfg : Config} {s : State}

theorem update_of_high (f : XReg → BitVec 64) {d r : XReg} (hd : d < 19) (hr : 19 ≤ r) (value : BitVec 64) :
    update f d value r = f r :=
  update_of_ne (fun he => by subst he; exact absurd hd (not_lt.mpr hr)) _ _

theorem thunk_ready (hsra : cfg.staticRegisterAllocation = true) (happ : StackApart s) (argPtr : GPR)
    (thunkFn : BitVec 64) : Ready s ((opThunk cfg argPtr thunkFn).atCall env s) 0 ∧
      (CallOp.thunk argPtr thunkFn).Received s ((opThunk cfg argPtr thunkFn).atCall env s) := by
  obtain ⟨pc, m, hrun, hpushed, -⟩ := @spill_push_spec env cfg s hsra happ
  rw [CallCode.atCall, opThunk]
  rw [exec_append, exec_code, run_append, hrun, run_cons, run_nil]
  obtain ⟨pc', hconst⟩ := @loadConstant_spec env 2 thunkFn false
    (Instr.exec env { s with sp := s.sp - dynamicRegsSize, mem := m, pc := pc } (.mov 0 argPtr))
  rw [hconst]
  refine ⟨⟨?_, fun r h19 _ => ?_, hpushed⟩, ?_, ?_⟩
  · change s.sp - dynamicRegsSize = _
    simp
  · change update (update s.x 0 (s.x argPtr)) 2 thunkFn r = _
    rw [update_of_high _ (by decide) h19, update_of_high _ (by decide) h19]
  · change update (update s.x 0 (s.x argPtr)) 2 thunkFn 2 = _
    rw [update_self]
  · change update (update s.x 0 (s.x argPtr)) 2 thunkFn 0 = _
    rw [update_of_ne (by decide), update_self]

theorem thunk_preserves (hsra : cfg.staticRegisterAllocation = true) (happ : StackApart s) (argPtr : GPR)
    (thunkFn : BitVec 64) (hobeys : (CallOp.thunk argPtr thunkFn).CalleeObeys cfg env s) :
    Preserves cfg (.thunk argPtr thunkFn) env s := by
  obtain ⟨hready, hreceived⟩ := @thunk_ready env cfg s hsra happ argPtr thunkFn
  have hback := hready.returned hobeys
  have hrefilled := @pop_fill_spec env cfg allRegs s _ hsra (by rw [hback.sp]; simp) hback.pushed
  exact preserves_of_sync rfl hback hrefilled ⟨rfl, fun _ _ => rfl, fun _ _ => rfl⟩ (by simp [CallOp.dstGPRs]) hreceived rfl rfl

/-! ## ThreadRemoveCodeEntry -/

theorem threadRemoveCodeEntry_ready (hsra : cfg.staticRegisterAllocation = true) (happ : StackApart s) (entry : BitVec 64) :
    Ready s ((opThreadRemoveCodeEntry cfg entry).atCall env s) 0 ∧
      (CallOp.threadRemoveCodeEntry entry).Received s ((opThreadRemoveCodeEntry cfg entry).atCall env s) := by
  obtain ⟨pc, m, hrun, hpushed, -⟩ := @push_pushed env s s happ ⟨s.mem, s.pc, rfl⟩ (samePointers_refl s)
  simp only [CallCode.atCall, opThreadRemoveCodeEntry, exec_append, exec_code, run_append]
  rw [hrun]
  obtain ⟨pc', hconst⟩ := @loadConstant_spec env 1 entry false (run env [.mov 0 STATE]
    { s with sp := s.sp - dynamicRegsSize, mem := m, pc := pc })
  rw [hconst]
  set t := run env [.ldr 2 (statePtr offsetThreadRemoveCodeEntry)] _ with ht
  have hx : t.x = update (update (update s.x 0 (s.x STATE)) 1 entry) 2
      (read m (update (update s.x 0 (s.x STATE)) 1 entry STATE + offsetThreadRemoveCodeEntry) 64) := rfl
  have hhigh : ∀ r : XReg, 19 ≤ r → t.x r = s.x r := by
    intro r hr
    rw [hx, update_of_high _ (by decide) hr, update_of_high _ (by decide) hr, update_of_high _ (by decide) hr]
  obtain ⟨pc'', m', hspill, hpushed', -⟩ := @spill_pushed env cfg s t hsra happ (hhigh _ (by decide)) hpushed allRegs
  rw [hspill]
  refine ⟨⟨?_, fun r h19 _ => hhigh r h19, hpushed'⟩, ?_, ?_⟩
  · change s.sp - dynamicRegsSize = _
    simp
  · rw [hx, update_of_ne (by decide), update_of_ne (by decide), update_self]
  · rw [hx, update_of_ne (by decide), update_self]

theorem threadRemoveCodeEntry_preserves (hsra : cfg.staticRegisterAllocation = true) (happ : StackApart s)
    (entry : BitVec 64) (hobeys : (CallOp.threadRemoveCodeEntry entry).CalleeObeys cfg env s) :
    Preserves cfg (.threadRemoveCodeEntry entry) env s := by
  obtain ⟨hready, hreceived⟩ := @threadRemoveCodeEntry_ready env cfg s hsra happ entry
  have hback := hready.returned hobeys
  have hrefilled := @fill_pop_spec env cfg allRegs s _ hsra (by rw [hback.sp]; simp) hback.pushed
  exact preserves_of_sync rfl hback hrefilled ⟨rfl, fun _ _ => rfl, fun _ _ => rfl⟩ (by simp [CallOp.dstGPRs]) hreceived rfl rfl

/-! ## CPUID -/

theorem update_gpr (f : XReg → BitVec 64) {d : XReg} (hd : d < 4) (r : GPR) (value : BitVec 64) :
    update f d value r.1 = f r.1 := by
  have hlow : ∀ r ∈ RA64 ++ SRA64, 4 ≤ r := by decide
  refine update_of_ne (fun he => ?_) _ _
  exact absurd hd (not_lt.mpr (he ▸ hlow r.1 r.2))

theorem cpuid_ready (hsra : cfg.staticRegisterAllocation = true) (happ : StackApart s) (function leaf : GPR) (dst : GPRPair) :
    Ready s ((opCPUID cfg function leaf dst).atCall env s) 0 ∧
      (CallOp.cpuid function leaf dst).Received s ((opCPUID cfg function leaf dst).atCall env s) := by
  obtain ⟨pc, m, hrun, hpushed, hptr⟩ := @push_pushed env s s happ ⟨s.mem, s.pc, rfl⟩ (samePointers_refl s)
  simp only [CallCode.atCall, opCPUID, exec_code, run_append]
  rw [hrun]
  set t := run env [.ldr 0 (statePtr offsetCPUIDObj), .ldr 3 (statePtr offsetCPUIDFunction), .mov 1 function, .mov 2 leaf] _
    with ht
  obtain ⟨value, hx⟩ : ∃ value, t.x = update (update (update (update s.x 0
      (framePointer s offsetCPUIDObj)) 3 value) 1 (s.x function)) 2 (s.x leaf) := by
    have hx : t.x =
        let x₁ := update s.x 0 (read m (s.x STATE + offsetCPUIDObj) 64)
        let x₂ := update x₁ 3 (read m (x₁ STATE + offsetCPUIDFunction) 64)
        let x₃ := update x₂ 1 (x₂ function)
        update x₃ 2 (x₃ leaf) := rfl
    dsimp only at hx
    rw [hptr.read (by decide) (by decide)] at hx
    generalize read m _ 64 = value at hx
    refine ⟨value, ?_⟩
    rw [hx, update_gpr _ (by decide) function, update_gpr _ (by decide) function, update_gpr _ (by decide) leaf,
      update_gpr _ (by decide) leaf, update_gpr _ (by decide) leaf]
  have hhigh : ∀ r : XReg, 19 ≤ r → t.x r = s.x r := by
    intro r hr
    rw [hx, update_of_high _ (by decide) hr, update_of_high _ (by decide) hr, update_of_high _ (by decide) hr,
      update_of_high _ (by decide) hr]
  obtain ⟨pc'', m', hspill, hpushed', -⟩ := @spill_pushed env cfg s t hsra happ (hhigh _ (by decide)) hpushed allRegs
  rw [hspill]
  refine ⟨⟨?_, fun r h19 _ => hhigh r h19, hpushed'⟩, ?_, ?_, ?_⟩
  · change s.sp - dynamicRegsSize = _
    simp
  · rw [hx]
    simp
  · rw [hx]
    simp
  · rw [hx, update_self]

theorem cpuid_preserves (hsra : cfg.staticRegisterAllocation = true) (happ : StackApart s) (function leaf : GPR)
    (dst : GPRPair) (hobeys : (CallOp.cpuid function leaf dst).CalleeObeys cfg env s) :
    Preserves cfg (.cpuid function leaf dst) env s := by
  obtain ⟨hready, hreceived⟩ := @cpuid_ready env cfg s hsra happ function leaf dst
  have hback := hready.returned hobeys
  have hrefilled := @fill_pop_spec env cfg allRegs s _ hsra (by rw [hback.sp]; simp) hback.pushed
  have hlr : ∀ p ∈ RA64Pair, lr ∉ [p.1, p.2] := by decide +kernel
  refine preserves_of_sync rfl hback hrefilled ?_ (hlr dst.1 dst.2) hreceived rfl rfl
  simp only [CallOp.code, CallCode.final, opCPUID, exec_code]
  rw [run_append _ (fillStaticRegs cfg true allRegs allRegs ++ popDynamicRegsAndLR)]
  refine ⟨rfl, fun r hr => ?_, fun _ _ => rfl⟩
  rw [CallOp.dstGPRs, List.mem_cons, List.mem_singleton, not_or] at hr
  exact (update_of_ne hr.2 _ _).trans (update_of_ne hr.1 _ _)

/-! ## Fallbacks -/

theorem update_fpr (f : VReg → BitVec 128) {d : VReg} (hd : d < 4) (r : FPR) (value : BitVec 128) :
    update f d value r.1 = f r.1 := by
  have hlow : ∀ r ∈ RAFPR ++ SRAFPR, 4 ≤ r := by decide
  refine update_of_ne (fun he => ?_) _ _
  exact absurd hd (not_lt.mpr (he ▸ hlow r.1 r.2))

theorem lowD_setWidth (x : BitVec 64) : lowD (x.setWidth 128) = x := by simp [lowD]

/-- What the arguments of a fallback and the address of its handler change. -/
structure FallbackReady (abi : FallbackABI) (offset : BitVec 64) (t t' : State) : Prop where
  sp : t'.sp = t.sp
  mem : t'.mem = t.mem
  gprs : ∀ r : XReg, 19 ≤ r → t'.x r = t.x r
  pointer : t'.x abi.pointer = read t.mem (t.x STATE + offset) 64
  received : abi.Received t t'

theorem fallback_arguments (abi : FallbackABI) (offset : BitVec 64) (t : State) :
    FallbackReady abi offset t (run env (abi.arguments ++ [.ldr abi.pointer (statePtr offset)]) t) := by
  have high : ∀ (f : XReg → BitVec 64) (d : XReg) {r : XReg} {value}, d < 19 → 19 ≤ r → update f d value r = f r :=
    fun f d r value hd hr => update_of_high f hd hr value
  cases abi with
  | VOID_U16 src | F80_I16 src _ | F80_I32 src _ =>
    refine ⟨rfl, rfl, fun r hr => ?_, rfl, rfl⟩
    exact (high _ 1 (by decide) hr).trans (high _ 0 (by decide) hr)
  | F80_F32 src _ =>
    refine ⟨rfl, rfl, fun r hr => high _ 0 (by decide) hr, rfl, ?_⟩
    change BitVec.setWidth 32 (((t.v src).setWidth 32).setWidth 128) = _
    simp
  | F80_F64 src _ | F64_F64 src _ =>
    exact ⟨rfl, rfl, fun r hr => high _ 0 (by decide) hr, rfl, lowD_setWidth _⟩
  | F64_F64_F64 src src' _ =>
    refine ⟨rfl, rfl, fun r hr => high _ 0 (by decide) hr, rfl, lowD_setWidth _, ?_⟩
    change lowD ((lowD (update t.v 0 _ src'.1)).setWidth 128) = _
    rw [lowD_setWidth, update_fpr _ (by decide)]
  | F32_F80 src _ | F64_F80 src _ | I16_F80 src _ | I32_F80 src _ | I64_F80 src _ | F80_F80 src _ =>
    refine ⟨rfl, rfl, fun r hr => ?_, rfl, rfl, rfl⟩
    exact ((high _ 2 (by decide) hr).trans (high _ 1 (by decide) hr)).trans (high _ 0 (by decide) hr)
  | I64_F80_F80 src src' _ | F80_F80_F80 src src' _ =>
    refine ⟨rfl, rfl, fun r hr => ?_, rfl, ⟨rfl, rfl⟩, rfl, rfl⟩
    exact ((((high _ 4 (by decide) hr).trans (high _ 3 (by decide) hr)).trans (high _ 2 (by decide) hr)).trans
      (high _ 1 (by decide) hr)).trans (high _ 0 (by decide) hr)

theorem fallback_result (abi : FallbackABI) (t : State) :
    Changes abi.dstGPRs abi.dstFPRs t (run env abi.result t) := by
  have ne : ∀ {α : Type} [DecidableEq α] {n : Nat} (f : α → BitVec n) {d r : α} {value}, r ∉ [d] →
      update f d value r = f r :=
    fun f d r value hr => update_of_ne (by simpa using hr) _ _
  cases abi with
  | VOID_U16 _ => exact ⟨rfl, fun _ _ => rfl, fun _ _ => rfl⟩
  | F80_F32 _ dst | F80_F64 _ dst | F80_I16 _ dst | F80_I32 _ dst | F80_F80 _ dst | F80_F80_F80 _ _ dst =>
    refine ⟨rfl, fun _ _ => rfl, fun r hr => ?_⟩
    exact ((ne _ hr).trans (ne _ hr)).trans (ne _ hr)
  | F32_F80 _ dst | F64_F80 _ dst | F64_F64 _ dst | F64_F64_F64 _ _ dst =>
    exact ⟨rfl, fun _ _ => rfl, fun r hr => ne _ hr⟩
  | I16_F80 _ dst | I32_F80 _ dst | I64_F80 _ dst | I64_F80_F80 _ _ dst =>
    exact ⟨rfl, fun r hr => ne _ hr, fun _ _ => rfl⟩

theorem fallback_lr (abi : FallbackABI) : lr ∉ abi.dstGPRs := by
  have single : ∀ dst : GPR, lr ∉ [dst.1] := fun dst => by
    simpa using (gpr_ne_lr dst.1 dst.2).symm
  cases abi with
  | I16_F80 _ dst | I32_F80 _ dst | I64_F80 _ dst | I64_F80_F80 _ _ dst => exact single dst
  | _ => exact List.not_mem_nil

theorem FallbackABI.Received.congr {abi : FallbackABI} {t' : State} {m : Memory} {sp pc : BitVec 64}
    (h : abi.Received { s with sp := sp, mem := m, pc := pc } t') : abi.Received s t' := by
  cases abi <;> exact h

theorem unhandled_ready (hsra : cfg.staticRegisterAllocation = true) (happ : StackApart s) (abi : FallbackABI)
    (index : Fin OPINDEX_MAX) : Ready s ((opUnhandled cfg abi index).atCall env s) 0 ∧
      (CallOp.unhandled abi index).Received s ((opUnhandled cfg abi index).atCall env s) := by
  obtain ⟨pc, m, hrun, hpushed, hptr⟩ := @spill_push_spec env cfg s hsra happ
  simp only [CallCode.atCall, opUnhandled, exec_code]
  rw [List.append_assoc, run_append, hrun]
  obtain ⟨hsp, hmem, hgprs, hpointer, hreceived⟩ := @fallback_arguments env abi (offsetFallbackHandler index)
    { s with sp := s.sp - dynamicRegsSize, mem := m, pc := pc }
  have hindex := index.isLt
  simp only [OPINDEX_MAX] at hindex
  refine ⟨⟨?_, fun r h19 _ => hgprs r h19, by rw [hmem]; exact hpushed⟩, ?_, hreceived.congr⟩
  · rw [hsp]
    simp
  · rw [hpointer]
    refine hptr.read ?_ ?_
    · simp only [offsetFallbackHandler, guestRegsSize]
      bv_omega
    · simp only [offsetFallbackHandler, frameSize]
      bv_omega

theorem unhandled_preserves (hsra : cfg.staticRegisterAllocation = true) (happ : StackApart s) (abi : FallbackABI)
    (index : Fin OPINDEX_MAX) (hobeys : (CallOp.unhandled abi index).CalleeObeys cfg env s) :
    Preserves cfg (.unhandled abi index) env s := by
  obtain ⟨hready, hreceived⟩ := @unhandled_ready env cfg s hsra happ abi index
  have hback := hready.returned hobeys
  have hrefilled := @pop_fill_spec env cfg allRegs s _ hsra (by rw [hback.sp]; simp) hback.pushed
  refine preserves_of_sync rfl hback hrefilled ?_ (fallback_lr abi) hreceived rfl rfl
  simp only [CallOp.code, CallCode.final, opUnhandled, exec_code]
  rw [run_append _ (popDynamicRegsAndLR ++ fillStaticRegs cfg true allRegs allRegs)]
  exact fallback_result abi _

/-! ## Syscall -/

theorem apart_args {sp : BitVec 64} {i j : Fin MAX_ARGS} (h : i ≠ j) :
    Apart (sp + BitVec.ofNat 64 (8 * i)) ((64 + 7) / 8) (sp + BitVec.ofNat 64 (8 * j)) ((64 + 7) / 8) := by
  have hi : i.1 < 7 := i.isLt
  have hj : j.1 < 7 := j.isLt
  exact ⟨by bv_omega, by bv_omega⟩

theorem run_storeArgs (args : Fin MAX_ARGS → Option GPR) (l : List (Fin MAX_ARGS)) : ∀ t : State, l.Nodup →
    ∃ pc m, run env (l.flatMap (storeArg args)) t = { t with mem := m, pc := pc } ∧
      (∀ b n, (∀ i ∈ l, Apart (t.sp + BitVec.ofNat 64 (8 * i)) ((64 + 7) / 8) b n) → Agree m t.mem b n) ∧
      ∀ i ∈ l, ∀ r, args i = some r → read m (t.sp + BitVec.ofNat 64 (8 * i)) 64 = t.x r := by
  induction l with
  | nil =>
    intro t _
    exact ⟨t.pc, t.mem, rfl, fun _ _ _ _ _ => rfl, fun i hi => absurd hi List.not_mem_nil⟩
  | cons i rest ih =>
    intro t hnodup
    obtain ⟨hnot, hrest⟩ := List.nodup_cons.mp hnodup
    rw [List.flatMap_cons, run_append, storeArg]
    cases hargs : args i with
    | none =>
      obtain ⟨pc, m, hrun, hkeeps, hslots⟩ := ih t hrest
      refine ⟨pc, m, hrun, fun b n h => hkeeps b n fun j hj => h j (List.mem_cons_of_mem _ hj), fun j hj r hr => ?_⟩
      rcases List.mem_cons.mp hj with rfl | hj
      · rw [hargs] at hr
        cases hr
      · exact hslots j hj r hr
    | some r₀ =>
      obtain ⟨pc, m, hrun, hkeeps, hslots⟩ := ih (Instr.exec env t (.str r₀ (spAt (8 * i)))) hrest
      refine ⟨pc, m, hrun, fun b n h => ?_, fun j hj r hr => ?_⟩
      · refine Agree.trans (hkeeps b n fun j hj => h j (List.mem_cons_of_mem _ hj)) ?_
        exact write_agree _ (h i List.mem_cons_self)
      · rcases List.mem_cons.mp hj with rfl | hj
        · rw [hargs] at hr
          cases hr
          have hagree := hkeeps (t.sp + BitVec.ofNat 64 (8 * j)) ((64 + 7) / 8)
            fun k hk => apart_args fun he => hnot (he ▸ hk)
          rw [read_of_agree hagree (by decide)]
          exact read_write _ (by decide)
        · exact hslots j hj r hr

def spillMask (flags : SyscallFlags) : BitVec 32 := if flags.noSync then callerGPRMask else allRegs

theorem syscall_before (flags : SyscallFlags) : (if !flags.noSync then spillStaticRegs cfg true allRegs allRegs
    else spillStaticRegs cfg true callerGPRMask callerFPRMask) = spillStaticRegs cfg true (spillMask flags) allRegs := by
  cases h : flags.noSync <;> simp [spillMask, h, callerFPRMask, allRegs]

theorem syscall_after (flags : SyscallFlags) (hret : flags.noReturn = false) :
    (if !flags.noSync && !flags.noReturn then fillStaticRegs cfg true allRegs allRegs
      else fillStaticRegs cfg true callerGPRMask callerFPRMask) = fillStaticRegs cfg true (spillMask flags) allRegs := by
  cases h : flags.noSync <;> simp [spillMask, h, hret, callerFPRMask, allRegs]

section Slots
variable (i : Fin MAX_ARGS)

theorem slot_eq : s.sp - dynamicRegsSize - BitVec.ofNat 64 syscallArgsSize + BitVec.ofNat 64 (8 * i) =
    s.sp - BitVec.ofNat 64 (336 - 8 * i) := by
  have hi : i.1 < 7 := i.isLt
  simp only [dynamicRegsSize, syscallArgsSize]
  bv_omega

theorem slot_apart_frame (happ : StackApart s) :
    Apart (s.sp - dynamicRegsSize - BitVec.ofNat 64 syscallArgsSize + BitVec.ofNat 64 (8 * i)) ((64 + 7) / 8) (s.x STATE)
      frameSize := by
  have hi : i.1 < 7 := i.isLt
  have hd : (BitVec.ofNat 64 (336 - 8 * i.1)).toNat = 336 - 8 * i.1 := by
    rw [BitVec.toNat_ofNat, Nat.mod_eq_of_lt (by omega)]
  have h := @StackApart.parts s happ 0#64 (BitVec.ofNat 64 (336 - 8 * i)) frameSize ((64 + 7) / 8) (by decide)
    (by rw [hd]; omega) (by rw [hd]; omega) (by decide) (by decide)
  rw [BitVec.add_zero, ← slot_eq] at h
  exact h.symm

theorem slot_apart_pushed :
    Apart (s.sp - dynamicRegsSize - BitVec.ofNat 64 syscallArgsSize + BitVec.ofNat 64 (8 * i)) ((64 + 7) / 8)
      (s.sp - dynamicRegsSize) dynamicRegsSize.toNat := by
  have hi : i.1 < 7 := i.isLt
  simp only [dynamicRegsSize, syscallArgsSize, Apart]
  exact ⟨by bv_omega, by bv_omega⟩

end Slots

theorem syscall_ready (hsra : cfg.staticRegisterAllocation = true) (happ : StackApart s) (flags : SyscallFlags)
    (args : Fin MAX_ARGS → Option GPR) (dst : GPR) :
    let t := (opSyscall cfg flags args dst).atCall env s
    Ready s t syscallArgsSize ∧ (CallOp.syscall flags args dst).Received s t ∧ Spilled cfg true (spillMask flags) s t.mem ∧
      ∀ r : XReg, 4 ≤ r → t.x r = s.x r := by
  obtain ⟨pc, m, hrun, hpushed, hptr⟩ := @push_pushed env s s happ ⟨s.mem, s.pc, rfl⟩ (samePointers_refl s)
  simp only [CallCode.atCall, opSyscall, exec_code, syscall_before, run_append]
  rw [hrun]
  obtain ⟨pc₁, m₁, hspill, hpushed₁, hspilled, hptr₁⟩ := @spill_pushed env cfg s
    { s with sp := s.sp - dynamicRegsSize, mem := m, pc := pc } hsra happ rfl hpushed (spillMask flags)
  rw [hspill]
  have hsub : run env [.subImm .sp .sp (BitVec.ofNat 64 syscallArgsSize)]
      { s with sp := s.sp - dynamicRegsSize, mem := m₁, pc := pc₁ } =
      { s with sp := s.sp - dynamicRegsSize - BitVec.ofNat 64 syscallArgsSize, mem := m₁, pc := pc₁ + 4#64 } := rfl
  rw [hsub]
  obtain ⟨pc₂, m₂, hstore, hkeeps, hslots⟩ := @run_storeArgs env args (List.finRange MAX_ARGS)
    { s with sp := s.sp - dynamicRegsSize - BitVec.ofNat 64 syscallArgsSize, mem := m₁, pc := pc₁ + 4#64 }
    (List.nodup_finRange _)
  rw [storeArgs, hstore]
  -- the arguments are below the pushed registers and apart from the frame
  have hstack : Agree m₂ m₁ (s.sp - dynamicRegsSize) dynamicRegsSize.toNat :=
    hkeeps _ _ fun i _ => slot_apart_pushed i
  have hframe : Agree m₂ m₁ (s.x STATE) frameSize := hkeeps _ _ fun i _ => slot_apart_frame i happ
  have hptr₂ : SamePointers s m₂ := (hframe.mono (by rw [add_sub_cancel_left]; decide) (by decide)).trans (hptr₁ hptr)
  have hspilled₂ : Spilled cfg true (spillMask flags) s m₂ :=
    Spilled.congr ⟨hspilled.gprs, hspilled.fprs⟩ (hframe.mono (by rw [sub_self]; decide) (by decide))
  set t := run env [.ldr 0 (statePtr offsetSyscallHandlerObj), .ldr 3 (statePtr offsetSyscallHandlerFunc), .mov 1 STATE,
    .addImm (.x 2) .sp 0#64] _ with ht
  have hx : t.x =
      let x₁ := update s.x 0 (read m₂ (s.x STATE + offsetSyscallHandlerObj) 64)
      let x₂ := update x₁ 3 (read m₂ (x₁ STATE + offsetSyscallHandlerFunc) 64)
      let x₃ := update x₂ 1 (x₂ STATE)
      update x₃ 2 (s.sp - dynamicRegsSize - BitVec.ofNat 64 syscallArgsSize + 0#64) := rfl
  rw [hptr₂.read (by decide) (by decide), BitVec.add_zero] at hx
  have hlow : ∀ r : XReg, 4 ≤ r → t.x r = s.x r := by
    intro r hr
    have hne : ∀ d : XReg, d < 4 → r ≠ d := fun d hd he => absurd (he ▸ hr) (not_le.mpr hd)
    rw [hx, update_of_ne (hne 2 (by decide)), update_of_ne (hne 1 (by decide)),
      update_of_ne (hne 3 (by decide)), update_of_ne (hne 0 (by decide))]
  refine ⟨⟨rfl, fun r h19 _ => hlow r (le_trans (by decide) h19), hpushed₁.congr hstack⟩, ⟨?_, ?_, ?_⟩, hspilled₂, hlow⟩
  · rw [hx, update_of_ne (by decide), update_of_ne (by decide), update_of_ne (by decide),
      update_self]
  · rw [hx, update_of_ne (by decide), update_self, update_of_high _ (by decide) (by decide),
      update_of_high _ (by decide) (by decide)]
  · intro i r hr
    rw [hx, update_self]
    exact hslots i (List.mem_finRange i) r hr

theorem not_caller_saved : ∀ r ∈ SRA64, callerGPRMask.getLsbD r = false → r = 18 ∨ r = 29 := by decide

theorem syscall_static {flags : SyscallFlags} {dst : GPR} {t u : State} (hback : Ready s u syscallArgsSize)
    (hspilled : Spilled cfg true (spillMask flags) s t.mem) (hlow : ∀ r : XReg, 4 ≤ r → t.x r = s.x r) :
    ((∀ i (hi : i < SRA64.length), SRA64[i] ∉ [dst.1] →
        (if (spillMask flags).getLsbD SRA64[i] then read u.mem (s.x STATE + offsetGreg i) 64 else u.x SRA64[i]) =
          if !flags.noSync then read u.mem (s.x STATE + offsetGreg i) 64 else s.x SRA64[i]) ∧
      ∀ i (hi : i < SRAFPR.length), SRAFPR[i] ∉ [] → read u.mem (s.x STATE + offsetXmm cfg i) 128 =
        if !flags.noSync then read u.mem (s.x STATE + offsetXmm cfg i) 128 else s.v SRAFPR[i]) ↔
      (flags.noSync = true → KeepsState cfg dst s t u) := by
  have hall : ∀ r : XReg, allRegs.getLsbD r = true := by decide
  cases hsync : flags.noSync with
  | false => simp [spillMask, hsync, hall]
  | true =>
    rw [spillMask, if_pos hsync] at hspilled ⊢
    simp only [Bool.not_true, Bool.false_eq_true, if_false, List.mem_singleton, List.not_mem_nil, not_false_eq_true,
      forall_true_left]
    constructor
    · rintro ⟨hgprs, hfprs⟩
      refine ⟨fun hne => ?_, fun i hi hmask hne => ?_, fun i hi => ?_⟩
      · have h18 := hgprs 9 (by decide) hne
        rw [hlow 18 (by decide)]
        exact h18
      · have h := hgprs i hi hne
        rw [if_pos hmask] at h
        rw [h, hspilled.gprs i hi hmask]
      · rw [hfprs i hi, hspilled.fprs rfl i hi]
    · rintro ⟨h18, hgprs, hfprs⟩
      refine ⟨fun i hi hne => ?_, fun i hi => ?_⟩
      · by_cases hmask : callerGPRMask.getLsbD SRA64[i] = true
        · rw [if_pos hmask, hgprs i hi hmask hne, hspilled.gprs i hi hmask]
        · rw [if_neg hmask]
          rcases not_caller_saved _ (List.getElem_mem hi) (by simpa using hmask) with h | h
          · rw [h] at hne ⊢
            rw [h18 hne, hlow 18 (by decide)]
          · rw [h]
            exact hback.gprs 29 (by decide) (by decide)
      · rw [hfprs i hi, hspilled.fprs rfl i hi]

theorem syscall_preserves_iff (hsra : cfg.staticRegisterAllocation = true) (happ : StackApart s) (flags : SyscallFlags)
    (args : Fin MAX_ARGS → Option GPR) (dst : GPR) (hret : flags.noReturn = false)
    (hobeys : (CallOp.syscall flags args dst).CalleeObeys cfg env s) :
    Preserves cfg (.syscall flags args dst) env s ↔ (CallOp.syscall flags args dst).Meets cfg env s := by
  obtain ⟨hready, hreceived, hspilled, hlow⟩ := @syscall_ready env cfg s hsra happ flags args dst
  set u := (opSyscall cfg flags args dst).returned env s with hu
  have hback : Ready s u syscallArgsSize := hready.returned hobeys
  -- the way out drops the arguments first
  have hfinal : (opSyscall cfg flags args dst).final env s = run env [.mov dst 0]
      (run env (fillStaticRegs cfg true (spillMask flags) allRegs ++ popDynamicRegsAndLR)
        (run env [.addImm .sp .sp (BitVec.ofNat 64 syscallArgsSize)] u)) := by
    have hafter : (opSyscall cfg flags args dst).after = .code ([.addImm .sp .sp (BitVec.ofNat 64 syscallArgsSize)] ++
        fillStaticRegs cfg true (spillMask flags) allRegs ++ popDynamicRegsAndLR ++ [.mov dst 0]) := by
      rw [opSyscall]
      rw [syscall_after flags hret, hret]
      rfl
    rw [CallCode.final, hafter, exec_code]
    simp only [run_append]
    rfl
  set u' := run env [.addImm .sp .sp (BitVec.ofNat 64 syscallArgsSize)] u with hu'
  have hsp : u'.sp = s.sp - dynamicRegsSize := by
    change u.sp + BitVec.ofNat 64 syscallArgsSize = _
    rw [hback.sp]
    ring
  have hrefilled := @fill_pop_spec env cfg (spillMask flags) s u' hsra hsp hback.pushed
  have hrefilled' : Refilled cfg (spillMask flags) s u
      (run env (fillStaticRegs cfg true (spillMask flags) allRegs ++ popDynamicRegsAndLR) u') :=
    ⟨hrefilled.sp, hrefilled.lr, hrefilled.rafpr, hrefilled.sra64, hrefilled.srafpr, hrefilled.others⟩
  have hresult : Changes [dst.1] [] (run env (fillStaticRegs cfg true (spillMask flags) allRegs ++ popDynamicRegsAndLR) u')
      ((opSyscall cfg flags args dst).final env s) := by
    rw [hfinal]
    generalize run env (fillStaticRegs cfg true (spillMask flags) allRegs ++ popDynamicRegsAndLR) u' = t'
    exact ⟨rfl, fun r hr => update_of_ne (by simpa using hr) _ _, fun _ _ => rfl⟩
  have hlr : lr ∉ [dst.1] := by simpa using (gpr_ne_lr dst.1 dst.2).symm
  exact (@preserves_iff env cfg (.syscall flags args dst) s u _ _ _ hu.symm hback hrefilled' hresult hlr hreceived).trans
    (syscall_static hback hspilled hlow)

end FexEmu.Arm64
