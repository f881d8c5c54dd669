import FexEmu.Arm64.CallOpsPreserve
/-!
# Ops that enter the kernel

The arguments go to registers that are static registers themselves, so that an operand in one of them comes from the frame.
-/
namespace FexEmu.Arm64

open ByteMemory
open Function (update update_of_ne update_self)

variable {env : Env} {cfg : Config} {s : State}

/-! ## The arguments -/

/-- While the arguments are set: other registers are unchanged and the guest's are in the frame. -/
structure SettingArgs (s t : State) : Prop where
  gprs : ∀ r, r ∉ regArgs → t.x r = s.x r
  spilled : ∀ i (hi : i < SRA64.length), read t.mem (s.x STATE + offsetGreg i) 64 = s.x SRA64[i]

theorem SettingArgs.update {t : State} (h : SettingArgs s t) {d : XReg} (hd : d ∈ regArgs) (value pc : BitVec 64) :
    SettingArgs s { t with x := update t.x d value, pc := pc } := by
  refine ⟨fun r hr => ?_, h.spilled⟩
  have hne : r ≠ d := fun he => hr (he ▸ hd)
  exact (update_of_ne hne _ _).trans (h.gprs r hr)

theorem read_low (m : Memory) (a : BitVec 64) : read m a 32 = lowW (read m a 64) := by
  apply BitVec.eq_of_getLsbD_eq
  intro i hi
  rw [getLsbD_read i hi, lowW, BitVec.getLsbD_setWidth, getLsbD_read i (by omega)]
  simp [hi]

theorem not_intersecting : ∀ r ∈ RA64 ++ SRA64, intersecting r = none → r ∉ regArgs := by decide

theorem intersecting_static {r : XReg} {i : Nat} (h : intersecting r = some i) :
    ∃ hi : i < SRA64.length, SRA64[i] = r := by
  unfold intersecting at h
  split_ifs at h with h8 h4 h5
  · cases h
    exact ⟨by decide, h8.symm⟩
  · cases h
    exact ⟨by decide, h4.symm⟩
  · cases h
    exact ⟨by decide, h5.symm⟩

theorem exec_moveArg {t : State} (h : SettingArgs s t) (is64BitMode : Bool) (d : XReg) {r : XReg} (hr : r ∉ regArgs) :
    ∃ pc, Instr.exec env t (moveArg is64BitMode d r) =
      { t with x := update t.x d (inlineArg is64BitMode s r), pc := pc } := by
  refine ⟨t.pc + 4#64, ?_⟩
  rw [inlineArg, ← h.gprs r hr, moveArg]
  cases is64BitMode <;> rfl

theorem exec_loadArg {t : State} (h : SettingArgs s t) (is64BitMode : Bool) (d : XReg) (r : GPR) :
    ∃ pc, Instr.exec env t (loadArg is64BitMode d r) =
      { t with x := update t.x d (inlineArg is64BitMode s r), pc := pc } := by
  rw [loadArg]
  cases hint : intersecting r with
  | none => exact exec_moveArg h is64BitMode d (not_intersecting r.1 r.2 hint)
  | some i =>
    obtain ⟨hi, hreg⟩ := intersecting_static hint
    have hframe : t.x STATE = s.x STATE := h.gprs STATE (by decide)
    have hvalue : read t.mem (t.x STATE + offsetGreg i) 64 = s.x r := by
      rw [hframe, h.spilled i hi, hreg]
    refine ⟨t.pc + 4#64, ?_⟩
    rw [inlineArg, ← hvalue]
    cases is64BitMode with
    | true => rfl
    | false =>
      rw [← read_low]
      rfl

theorem run_setArgs {is64BitMode : Bool} {code : XReg → GPR → Instr} {ok : GPR → Prop}
    (hcode : ∀ t, SettingArgs s t → ∀ d r, ok r → ∃ pc, Instr.exec env t (code d r) =
      { t with x := update t.x d (inlineArg is64BitMode s r), pc := pc }) (l : List (XReg × GPR)) :
    ∀ t, SettingArgs s t → (∀ p ∈ l, p.1 ∈ regArgs ∧ ok p.2) → (l.map Prod.fst).Nodup →
    ∃ pc f, run env (l.map fun p => code p.1 p.2) t = { t with x := f, pc := pc } ∧
      SettingArgs s { t with x := f, pc := pc } ∧ (∀ p ∈ l, f p.1 = inlineArg is64BitMode s p.2) ∧
      ∀ r, r ∉ l.map Prod.fst → f r = t.x r := by
  induction l with
  | nil =>
    intro t h _ _
    exact ⟨t.pc, t.x, rfl, h, fun p hp => absurd hp List.not_mem_nil, fun _ _ => rfl⟩
  | cons p rest ih =>
    intro t h hok hnodup
    rw [List.map_cons, List.nodup_cons] at hnodup
    obtain ⟨hd, hp⟩ := hok p List.mem_cons_self
    obtain ⟨pc, hexec⟩ := hcode t h p.1 p.2 hp
    rw [List.map_cons, run_cons, hexec]
    obtain ⟨pc', f, hrun, hset, hvalues, hkeeps⟩ := ih _ (h.update hd (inlineArg is64BitMode s p.2) pc)
      (fun q hq => hok q (List.mem_cons_of_mem _ hq)) hnodup.2
    refine ⟨pc', f, hrun, hset, fun q hq => ?_, fun r hr => ?_⟩
    · rcases List.mem_cons.mp hq with rfl | hq
      · rw [hkeeps _ hnodup.1]
        exact update_self ..
      · exact hvalues q hq
    · rw [List.map_cons, List.mem_cons, not_or] at hr
      rw [hkeeps r hr.2]
      exact update_of_ne hr.1 _ _

theorem map_fst_zip_sublist {α β : Type} : ∀ (l : List α) (l' : List β), ((l.zip l').map Prod.fst).Sublist l
  | [], _ => by simp
  | _ :: _, [] => by simp
  | a :: l, _ :: l' => by
    exact (map_fst_zip_sublist l l').cons_cons a

theorem zip_nodup (args : List GPR) : ((regArgs.zip args).map Prod.fst).Nodup :=
  (map_fst_zip_sublist regArgs args).nodup (by decide)

theorem inlineArgs_spec (is64BitMode : Bool) (args : List GPR) {t : State} (h : SettingArgs s t) :
    ∃ pc f, run env (inlineArgs is64BitMode args) t = { t with x := f, pc := pc } ∧
      SettingArgs s { t with x := f, pc := pc } ∧ ∀ p ∈ regArgs.zip args, f p.1 = inlineArg is64BitMode s p.2 := by
  have hmem : ∀ p ∈ regArgs.zip args, p.1 ∈ regArgs ∧ True := fun p hp => ⟨(List.of_mem_zip hp).1, trivial⟩
  rw [inlineArgs]
  split_ifs with hany h64
  · -- the first loop sets registers that the second sets again
    rw [run_append]
    obtain ⟨pc, f, hrun, hset, -, -⟩ := @run_setArgs env s true (fun d r => loadArg true d r) (fun _ => True)
      (fun t h d r _ => exec_loadArg h true d r) ((regArgs.zip args).filter fun p => (intersecting p.2).isSome) t h
      (fun p hp => hmem p (List.mem_of_mem_filter hp))
      (((List.filter_sublist).map _).nodup (zip_nodup args))
    rw [hrun]
    obtain ⟨pc', f', hrun', hset', hvalues, -⟩ := @run_setArgs env s is64BitMode (fun d r => loadArg is64BitMode d r)
      (fun _ => True) (fun t h d r _ => exec_loadArg h is64BitMode d r) (regArgs.zip args) _ hset hmem (zip_nodup args)
    exact ⟨pc', f', hrun', hset', hvalues⟩
  · obtain ⟨pc', f', hrun', hset', hvalues, -⟩ := @run_setArgs env s is64BitMode (fun d r => loadArg is64BitMode d r)
      (fun _ => True) (fun t h d r _ => exec_loadArg h is64BitMode d r) (regArgs.zip args) t h hmem (zip_nodup args)
    exact ⟨pc', f', hrun', hset', hvalues⟩
  · have hnone : ∀ p ∈ regArgs.zip args, p.1 ∈ regArgs ∧ intersecting p.2 = none := by
      intro p hp
      obtain ⟨h1, h2⟩ := List.of_mem_zip hp
      refine ⟨h1, ?_⟩
      by_contra hne
      exact hany (List.any_eq_true.mpr ⟨p.2, h2, Option.isSome_iff_ne_none.mpr hne⟩)
    obtain ⟨pc', f', hrun', hset', hvalues, -⟩ := @run_setArgs env s is64BitMode (fun d r => moveArg is64BitMode d r)
      (fun r => intersecting r = none)
      (fun t h d r hr => exec_moveArg h is64BitMode d (not_intersecting r.1 r.2 hr)) (regArgs.zip args) t h hnone
      (zip_nodup args)
    exact ⟨pc', f', hrun', hset', hvalues⟩

/-! ## InlineSyscall -/

theorem spilled_gprs {m : Memory} (hspilled : Spilled cfg false allRegs s m) (i : Nat) (hi : i < SRA64.length) :
    read m (s.x STATE + offsetGreg i) 64 = s.x SRA64[i] := by
  have hall : ∀ r : XReg, allRegs.getLsbD r = true := by decide
  exact hspilled.gprs i hi (hall _)

theorem inSyscallInfo_agree (m : Memory) (frame value : BitVec 64) :
    Agree (write m (frame + offsetInSyscallInfo) value) m frame guestRegsSize := by
  refine write_agree _ ?_
  have := (@apart_offset frame ((64 + 7) / 8) guestRegsSize offsetInSyscallInfo 0#64).mpr ⟨by decide, by decide⟩
  rwa [BitVec.add_zero] at this

theorem inlineSyscall_ready (hsra : cfg.staticRegisterAllocation = true) (is64BitMode : Bool) (flags : SyscallFlags)
    (args : InlineArgs) (number : BitVec 64) (dst : GPR) :
    let t := (opInlineSyscall cfg is64BitMode flags args number dst).atCall env s
    (CallOp.inlineSyscall is64BitMode flags args number dst).Received s t ∧ t.sp = s.sp ∧ t.v = s.v ∧
      ∀ r, r ∉ regArgs → r ≠ 8 → t.x r = s.x r := by
  obtain ⟨pc, m, hspill, hspilled, -⟩ := @spillStaticRegs_saves env cfg hsra false allRegs s
  simp only [CallCode.atCall, opInlineSyscall, exec_append, exec_code, run_append]
  rw [hspill]
  obtain ⟨pc₁, hzero⟩ := @loadConstant_spec env 0 (allRegs.setWidth 64 &&& 0xFFFF#64) false { s with mem := m, pc := pc }
  rw [hzero]
  set info := allRegs.setWidth 64 &&& 0xFFFF#64 with hinfo
  have hstore : run env [.str 0 (statePtr offsetInSyscallInfo)] { s with x := update s.x 0 info, mem := m, pc := pc₁ } =
      { s with
          x := update s.x 0 info
          mem := write m (s.x STATE + offsetInSyscallInfo) info
          pc := pc₁ + 4#64 } := by
    change { s with
      x := update s.x 0 info
      mem := write m (update s.x 0 info STATE + offsetInSyscallInfo) (update s.x 0 info 0)
      pc := pc₁ + 4#64 } = _
    rw [update_self, update_of_ne (by decide)]
  rw [hstore]
  have hsetting : SettingArgs s { s with
      x := update s.x 0 info
      mem := write m (s.x STATE + offsetInSyscallInfo) info
      pc := pc₁ + 4#64 } := by
    refine ⟨fun r hr => update_of_ne (fun he => hr (by rw [he]; decide)) _ _, ?_⟩
    have hinfo : Spilled cfg false allRegs s (write m (s.x STATE + offsetInSyscallInfo) info) :=
      hspilled.congr (inSyscallInfo_agree m (s.x STATE) info)
    exact spilled_gprs hinfo
  obtain ⟨pc₂, f, hargs, hset, hvalues⟩ := @inlineArgs_spec env s is64BitMode args.1 _ hsetting
  rw [hargs]
  obtain ⟨pc₃, hnumber⟩ := @loadConstant_spec env 8 number false { s with
    x := f, mem := write m (s.x STATE + offsetInSyscallInfo) info, pc := pc₂ }
  rw [hnumber]
  refine ⟨⟨?_, fun p hp => ?_⟩, rfl, rfl, fun r hr h8 => ?_⟩
  · change update f 8 number 8 = number
    rw [update_self]
  · have hne : ∀ r ∈ regArgs, r ≠ 8 := by decide
    exact (update_of_ne (hne _ (List.of_mem_zip hp).1) _ _).trans (hvalues p hp)
  · exact (update_of_ne h8 _ _).trans (hset.gprs r hr)

theorem inlineSyscall_preserves (hsra : cfg.staticRegisterAllocation = true) (is64BitMode : Bool) (flags : SyscallFlags)
    (args : InlineArgs) (number : BitVec 64) (dst : GPR) (hret : flags.noReturn = false)
    (hobeys : (CallOp.inlineSyscall is64BitMode flags args number dst).CalleeObeys cfg env s) :
    Preserves cfg (.inlineSyscall is64BitMode flags args number dst) env s := by
  obtain ⟨hreceived, hsp, hv, hgprs⟩ := @inlineSyscall_ready env cfg s hsra is64BitMode flags args number dst
  set t := (opInlineSyscall cfg is64BitMode flags args number dst).atCall env s with ht
  set u := (opInlineSyscall cfg is64BitMode flags args number dst).returned env s with hu
  have hkernel : KernelABI t u := hobeys
  obtain ⟨pc, hfill⟩ := @fillStaticRegs_spec env cfg hsra false allRegs allRegs u
  have hafter : (opInlineSyscall cfg is64BitMode flags args number dst).after = .code (fillStaticRegs cfg false allRegs allRegs ++
      [.strXzr (statePtr offsetInSyscallInfo), moveArg is64BitMode dst 0]) := by
    rw [opInlineSyscall]
    rw [hret]
    rfl
  obtain ⟨value, hx, hv', hsp'⟩ : ∃ value,
      ((opInlineSyscall cfg is64BitMode flags args number dst).final env s).x =
        update (filledGPRs allRegs u) dst value ∧
      ((opInlineSyscall cfg is64BitMode flags args number dst).final env s).v = u.v ∧
      ((opInlineSyscall cfg is64BitMode flags args number dst).final env s).sp = u.sp := by
    rw [CallCode.final, hafter, exec_code, run_append, hfill]
    cases is64BitMode
    · exact ⟨_, rfl, rfl, rfl⟩
    · exact ⟨_, rfl, rfl, rfl⟩
  have hkept : ∀ r, r ∉ regArgs → r ≠ 8 → u.x r = s.x r := by
    intro r hr h8
    have h0 : r ≠ 0 := fun he => hr (by rw [he]; decide)
    rw [hkernel.gprs r h0, hgprs r hr h8]
  have hvectors : ∀ r, ((opInlineSyscall cfg is64BitMode flags args number dst).final env s).v r = s.v r := by
    intro r
    rw [hv', hkernel.vectors, hv]
  refine ⟨fun r hr hnot => ?_, fun r hr _ => hvectors r, fun i hi hnot => ?_, fun i hi _ => hvectors _, ?_, ?_, hreceived⟩
  · have hra : ∀ r ∈ RA64, r ∉ SRA64 ∧ r ∉ regArgs ∧ r ≠ 8 := by decide
    obtain ⟨hsra', hargs, h8⟩ := hra r hr
    refine (congrFun hx r).trans ?_
    rw [update_of_ne (by simpa [CallOp.dstGPRs] using hnot), filledGPRs_of_notMem hsra', hkept r hargs h8]
  · have hall : ∀ r : XReg, allRegs.getLsbD r = true := by decide
    refine (congrFun hx _).trans ?_
    rw [update_of_ne (by simpa [CallOp.dstGPRs] using hnot), filledGPRs_getElem hi, if_pos (hall _),
      hkept STATE (by decide) (by decide)]
    rfl
  · rw [← hsp, ← hkernel.sp]
    exact hsp'
  · refine (congrFun hx lr).trans ?_
    rw [update_of_ne (gpr_ne_lr dst.1 dst.2).symm, filledGPRs_of_notMem (by decide), hkept lr (by decide) (by decide)]

/-! ## ProcessorID -/

theorem processorID_atCall (hsra : cfg.staticRegisterAllocation = true) (dst : GPR) :
    ((opProcessorID cfg dst).atCall env s).sp = s.sp - 16#64 := by
  obtain ⟨pc, m, hspill, -, -⟩ := @spillStaticRegs_saves env cfg hsra false (1#32 <<< 8) s
  simp only [CallCode.atCall, opProcessorID, exec_append, exec_code]
  rw [hspill]
  obtain ⟨pc₁, h₁⟩ := @loadConstant_spec env 0 ((1#32 <<< 8).setWidth 64 &&& 0xFFFF#64) false { s with mem := m, pc := pc }
  generalize hs₂ : run env [.str 0 (statePtr offsetInSyscallInfo), .subImm .sp .sp 16#64] _ = s₂
  have hsp₂ : s₂.sp = s.sp - 16#64 := by
    rw [← hs₂]
    rfl
  obtain ⟨pc₃, h₃⟩ := @loadConstant_spec env 8 SYS_getcpu false s₂
  rw [h₃, ← hsp₂]
  rfl

theorem processorID_sp (hsra : cfg.staticRegisterAllocation = true) (dst : GPR)
    (hobeys : (CallOp.processorID dst).CalleeObeys cfg env s) :
    ((opProcessorID cfg dst).final env s).sp = s.sp - 32#64 := by
  have hkernel : KernelABI ((opProcessorID cfg dst).atCall env s) ((opProcessorID cfg dst).returned env s) := hobeys
  have hsp := @processorID_atCall env cfg s hsra dst
  rw [← hkernel.sp] at hsp
  generalize hu : (opProcessorID cfg dst).returned env s = u at hsp
  rw [CallCode.final, hu]
  simp only [opProcessorID, exec_code, run_append]
  generalize hu₁ : run env [.ldpW 0 1 ⟨.sp, 0#64, .offset⟩, .subImm .sp .sp 16#64] u = u₁
  have hsp₁ : u₁.sp = s.sp - 32#64 := by
    have : u₁.sp = u.sp - 16#64 := by
      rw [← hu₁]
      rfl
    bv_omega
  obtain ⟨pc, hfill⟩ := @fillStaticRegs_spec env cfg hsra false (1#32 <<< 8) allRegs u₁
  rw [hfill, ← hsp₁]
  rfl

theorem processorID_not_preserves (hsra : cfg.staticRegisterAllocation = true) (dst : GPR)
    (hobeys : (CallOp.processorID dst).CalleeObeys cfg env s) : ¬ Preserves cfg (.processorID dst) env s := by
  intro h
  have hsp : ((opProcessorID cfg dst).final env s).sp = s.sp := h.sp
  rw [processorID_sp hsra dst hobeys] at hsp
  bv_omega

/-- Every op that returns, for all assignments and contents of registers and every callee that obeys its convention. -/
theorem callOp_preserves_iff (cfg : Config) (hsra : cfg.staticRegisterAllocation = true) (op : CallOp) (hret : op.Returns)
    (env : Env) (s : State) (happ : StackApart s) (hobeys : op.CalleeObeys cfg env s) :
    Preserves cfg op env s ↔ op.Meets cfg env s := by
  cases op with
  | syscall flags args dst => exact syscall_preserves_iff hsra happ flags args dst hret hobeys
  | inlineSyscall is64BitMode flags args number dst =>
    exact iff_of_true (inlineSyscall_preserves hsra is64BitMode flags args number dst hret hobeys) trivial
  | thunk argPtr thunkFn => exact iff_of_true (thunk_preserves hsra happ argPtr thunkFn hobeys) trivial
  | cpuid function leaf dst => exact iff_of_true (cpuid_preserves hsra happ function leaf dst hobeys) trivial
  | processorID dst => exact iff_of_false (processorID_not_preserves hsra dst hobeys) id
  | threadRemoveCodeEntry entry => exact iff_of_true (threadRemoveCodeEntry_preserves hsra happ entry hobeys) trivial
  | unhandled abi index => exact iff_of_true (unhandled_preserves hsra happ abi index hobeys) trivial

/-! ### A callee that keeps everything, and one that changes `x18` -/

def sraConfig : Config := ⟨true, false⟩

/-- A frame above the stack. -/
def callState : State :=
  { x := fun r => if r = STATE then 0x10000 else 1, sp := 0x8000, pc := 0, v := fun _ => 0, mem := fun _ => 0 }

theorem callState_apart : StackApart callState := by
  unfold StackApart Apart
  decide

def envX18 (value : BitVec 64) : Env := ⟨fun t => { t with x := update t.x 18 value }, fun t => t⟩

def oneArg (i : Fin MAX_ARGS) : Option GPR := if i.1 = 0 then some ⟨4, by decide⟩ else none

/-- A syscall that does not synchronise, with its result in `x20`. -/
def noSyncSyscall : CallOp := .syscall SyscallFlags.NOSYNCSTATEONENTRY oneArg ⟨20, by decide⟩

theorem envX18_returned (value : BitVec 64) (c : CallCode) (r : XReg) (hc : c.call = .blr r) (s : State) :
    (c.returned (envX18 value) s).x = update (update (c.atCall (envX18 value) s).x lr
        ((c.atCall (envX18 value) s).pc + 4#64)) 18 value ∧
      (c.returned (envX18 value) s).sp = (c.atCall (envX18 value) s).sp ∧
      (c.returned (envX18 value) s).mem = (c.atCall (envX18 value) s).mem := by
  rw [CallCode.returned, hc]
  exact ⟨rfl, rfl, rfl⟩

theorem envX18_obeys (value : BitVec 64) : noSyncSyscall.CalleeObeys sraConfig (envX18 value) callState := by
  obtain ⟨hx, hsp, hmem⟩ := envX18_returned value (noSyncSyscall.code sraConfig) 3 rfl callState
  refine ⟨fun r h19 h29 => ?_, hsp, fun c _ => by rw [hmem]⟩
  rw [hx, update_of_high _ (by decide) h19, update_of_ne]
  rintro rfl
  exact absurd h29 (by decide)

theorem envX18_kept (value : BitVec 64) : ((noSyncSyscall.code sraConfig).returned (envX18 value) callState).x 18 = value ∧
    ((noSyncSyscall.code sraConfig).atCall (envX18 value) callState).x 18 = 1 := by
  obtain ⟨hx, -, -⟩ := envX18_returned value (noSyncSyscall.code sraConfig) 3 rfl callState
  obtain ⟨-, -, -, hlow⟩ := @syscall_ready (envX18 value) sraConfig callState rfl callState_apart
    SyscallFlags.NOSYNCSTATEONENTRY oneArg ⟨20, by decide⟩
  refine ⟨?_, hlow 18 (by decide)⟩
  rw [hx, update_self]

theorem callOp_preserves_noSync : Preserves sraConfig noSyncSyscall (envX18 1) callState := by
  refine (callOp_preserves_iff sraConfig rfl noSyncSyscall rfl (envX18 1) callState callState_apart
    (envX18_obeys 1)).mpr fun _ => ?_
  obtain ⟨-, -, hmem⟩ := envX18_returned 1 (noSyncSyscall.code sraConfig) 3 rfl callState
  obtain ⟨h18, h18'⟩ := envX18_kept 1
  exact ⟨fun _ => h18.trans h18'.symm, fun i hi _ _ => by rw [hmem], fun i hi => by rw [hmem]⟩

/-- Neither `ProcessorID` nor a syscall whose callee changes `x18` preserves what it has to. -/
theorem processorID_and_x18_not_preserved :
    (CallOp.processorID ⟨20, by decide⟩).CalleeObeys sraConfig (envX18 0) callState ∧
      ¬ Preserves sraConfig (.processorID ⟨20, by decide⟩) (envX18 0) callState ∧
      noSyncSyscall.CalleeObeys sraConfig (envX18 0) callState ∧ ¬ Preserves sraConfig noSyncSyscall (envX18 0) callState := by
  have hkernel : (CallOp.processorID ⟨20, by decide⟩).CalleeObeys sraConfig (envX18 0) callState :=
    ⟨fun _ _ => rfl, rfl, rfl⟩
  refine ⟨hkernel, processorID_not_preserves rfl _ hkernel, envX18_obeys 0, fun h => ?_⟩
  have hkeeps := (syscall_preserves_iff rfl callState_apart _ oneArg _ rfl (envX18_obeys 0)).mp h rfl
  obtain ⟨h18, h18'⟩ := envX18_kept 0
  have heq := h18.symm.trans ((hkeeps.x18 (by decide)).trans h18')
  exact absurd heq (by decide)

end FexEmu.Arm64
