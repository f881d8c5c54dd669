import FexEmu.Core.SignalFrame
/-!
# What a return from a signal restores

The frame has the spilled state with an `EFLAGS` of 0, the backup the state that came with the signal.
-/
namespace FexEmu.SignalFrame

open Function (update_of_ne update_self update)

/-! ## Copies of several registers -/

section
variable {α β γ : Type} [DecidableEq β]

theorem foldl_update_of_notMem (f : α → β) (v : α → γ) : ∀ (l : List α) (g : β → γ) {b : β}, (∀ a ∈ l, f a ≠ b) →
    l.foldl (fun g a => update g (f a) (v a)) g b = g b
  | [], _, _, _ => rfl
  | a :: l, g, b, h => by
    rw [List.foldl_cons, foldl_update_of_notMem f v l _ fun a' ha' => h a' (List.mem_cons_of_mem a ha')]
    exact update_of_ne (h a List.mem_cons_self).symm _ _

theorem foldl_update_of_mem (f : α → β) (v : α → γ) : ∀ (l : List α) (g : β → γ) {a : α}, (l.map f).Nodup → a ∈ l →
    l.foldl (fun g a => update g (f a) (v a)) g (f a) = v a
  | b :: l, g, a, hnodup, hmem => by
    rw [List.map_cons, List.nodup_cons] at hnodup
    rw [List.foldl_cons]
    by_cases hal : a ∈ l
    · exact foldl_update_of_mem f v l _ hnodup.2 hal
    · obtain rfl : a = b := (List.mem_cons.mp hmem).resolve_right hal
      rw [foldl_update_of_notMem f v l _ fun c hc heq => hnodup.1 (List.mem_map.mpr ⟨c, hc, heq⟩)]
      exact update_self ..

theorem foldl_copy (f : α → β) (w : β → γ) : ∀ (l : List α) (g : β → γ) (b : β),
    l.foldl (fun g a => update g (f a) (w (f a))) g b = if ∃ a ∈ l, f a = b then w b else g b := by
  intro l g b
  by_cases h : ∃ a ∈ l, f a = b
  · rw [if_pos h]
    induction l generalizing g with
    | nil => simp at h
    | cons a l ih =>
      rw [List.foldl_cons]
      by_cases hl : ∃ a ∈ l, f a = b
      · exact ih _ hl
      · obtain ⟨a', ha', rfl⟩ := h
        obtain rfl : a' = a := (List.mem_cons.mp ha').resolve_right fun hmem => hl ⟨a', hmem, rfl⟩
        rw [foldl_update_of_notMem f (fun a => w (f a)) l _ fun c hc heq => hl ⟨c, hc, heq⟩]
        exact update_self ..
  · rw [if_neg h]
    exact foldl_update_of_notMem f (fun a => w (f a)) l g fun a ha heq => h ⟨a, ha, heq⟩

theorem foldl_copy_pairs (f f' : α → β) (w : β → γ) : ∀ (l : List α) (g : β → γ) (b : β),
    (∃ a ∈ l, f a = b ∨ f' a = b) →
    l.foldl (fun g a => update (update g (f a) (w (f a))) (f' a) (w (f' a))) g b = w b := by
  have hkeep : ∀ (l : List α) (g : β → γ) (b : β), g b = w b →
      l.foldl (fun g a => update (update g (f a) (w (f a))) (f' a) (w (f' a))) g b = w b := by
    intro l
    induction l with
    | nil => exact fun g b h => h
    | cons a l ih =>
      intro g b h
      refine ih _ b ?_
      beta_reduce
      by_cases hf' : b = f' a
      · rw [hf', update_self]
      · rw [update_of_ne hf']
        by_cases hf : b = f a
        · rw [hf, update_self]
        · rw [update_of_ne hf, h]
  intro l
  induction l with
  | nil => exact fun g b h => by simp at h
  | cons a l ih =>
    rintro g b ⟨a', ha', hb⟩
    rcases List.mem_cons.mp ha' with rfl | ha'
    · refine hkeep l _ b ?_
      beta_reduce
      rcases hb with rfl | rfl
      · by_cases hf' : f a' = f' a'
        · rw [hf', update_self]
        · rw [update_of_ne hf', update_self]
      · rw [update_self]
    · exact ih _ b ⟨a', ha', hb⟩

end

variable {cfg : Config} {s t u : Machine} {sig : Signal} {rip : BitVec 64}

/-! ## The backups -/

theorem handleGuestSignal_contexts : ∃ context, (handleGuestSignal cfg s sig).contexts = context :: s.contexts := ⟨_, rfl⟩

theorem restoreThreadState_contexts {context : ContextBackup} {rest : List ContextBackup} (h : t.contexts = context :: rest)
    (hu : restoreThreadState cfg t = some u) : u.contexts = rest := by
  simp only [restoreThreadState, h, Option.some.injEq] at hu
  rw [← hu]
  split_ifs <;> rfl

/-- Between a signal and its return the backups of the signals before it stay. -/
theorem Handles.contexts (h : Handles cfg s t) : t.contexts = s.contexts := by
  induction h with
  | refl s => rfl
  | code h hcontexts ih => rw [hcontexts, ih]
  | signal h sig hnested hreturn ih ihnested =>
    obtain ⟨context, hcontext⟩ := @handleGuestSignal_contexts cfg _ sig
    rw [hcontext] at ihnested
    rw [restoreThreadState_contexts ihnested hreturn, ih]

def backupOf (cfg : Config) (s : Machine) (sig : Signal) : ContextBackup :=
  { storeThreadState s sig.number with
    inJIT := inRegisters cfg s.host
    originalRIP := s.state.rip
    is32Bit := !cfg.is64BitMode
    fpStateLocation := (locationsOf cfg s sig).fpState
    uContextLocation := (locationsOf cfg s sig).uContext
    sigInfoLocation := (locationsOf cfg s sig).sigInfo }

theorem spilledState_fields : ∃ gregs xmm, spilledState cfg s = { s.state with gregs := gregs, xmm := xmm } := by
  rw [spilledState]
  split
  · exact ⟨_, _, rfl⟩
  · exact ⟨_, _, rfl⟩

theorem spilledState_rip : (spilledState cfg s).rip = s.state.rip := by
  obtain ⟨gregs, xmm, h⟩ := @spilledState_fields cfg s
  rw [h]

theorem spilledState_segments : (spilledState cfg s).cs = s.state.cs ∧ (spilledState cfg s).ds = s.state.ds ∧
    (spilledState cfg s).es = s.state.es ∧ (spilledState cfg s).fs = s.state.fs ∧ (spilledState cfg s).gs = s.state.gs ∧
    (spilledState cfg s).ss = s.state.ss := by
  obtain ⟨gregs, xmm, h⟩ := @spilledState_fields cfg s
  rw [h]
  exact ⟨rfl, rfl, rfl, rfl, rfl, rfl⟩

theorem spilledState_same : (spilledState cfg s).flags = s.state.flags ∧ (spilledState cfg s).top = s.state.top ∧
    (spilledState cfg s).mm = s.state.mm ∧ (spilledState cfg s).FCW = s.state.FCW ∧
    (spilledState cfg s).FTW = s.state.FTW := by
  obtain ⟨gregs, xmm, h⟩ := @spilledState_fields cfg s
  rw [h]
  exact ⟨rfl, rfl, rfl, rfl, rfl⟩

theorem contexts_eq (hsiginfo : sig.siginfo = true) (h : Handles cfg (handleGuestSignal cfg s sig) t) :
    t.contexts = backupOf cfg s sig :: s.contexts := by
  rw [h.contexts]
  simp [handleGuestSignal, hsiginfo, spilledState_rip, backupOf, locationsOf]

/-! ## The frame -/

theorem narrow_narrow (x : BitVec 64) : narrow cfg (narrow cfg x) = narrow cfg x := by
  rw [narrow, narrow]
  split
  · rfl
  · apply BitVec.eq_of_toNat_eq
    simp only [BitVec.toNat_setWidth]
    omega

theorem fswOf_bits (w : Nat) (hw : w = 16 ∨ w = 32) (state : CPUState) :
    (fswOf w state).getLsbD 8 = state.flags X87FLAG_C0_LOC ∧ (fswOf w state).getLsbD 9 = state.flags X87FLAG_C1_LOC ∧
      (fswOf w state).getLsbD 10 = state.flags X87FLAG_C2_LOC ∧ (fswOf w state).getLsbD 14 = state.flags X87FLAG_C3_LOC ∧
      (fswOf w state).extractLsb' 11 3 = state.top := by
  rw [fswOf]
  generalize state.flags X87FLAG_C0_LOC = c0
  generalize state.flags X87FLAG_C1_LOC = c1
  generalize state.flags X87FLAG_C2_LOC = c2
  generalize state.flags X87FLAG_C3_LOC = c3
  generalize state.top = top
  rcases hw with rfl | rfl
  · revert c0 c1 c2 c3 top
    decide
  · revert c0 c1 c2 c3 top
    decide

def frameFlags (flags : Fin 48 → Bool) (i : Fin 48) : Bool := if i.val < 32 then i = 1 || i = 9 else flags i

theorem restoreFlags_eq (w : Nat) (hw : w = 16 ∨ w = 32) (state : CPUState) :
    restoreFlags state.flags 0 (fswOf w state) = frameFlags state.flags := by
  obtain ⟨h0, h1, h2, h3, -⟩ := fswOf_bits w hw state
  simp only [restoreFlags, h0, h1, h2, h3]
  funext i
  rw [frameFlags]
  by_cases hi3 : i = X87FLAG_C3_LOC
  · subst hi3
    rfl
  rw [update_of_ne hi3]
  by_cases hi2 : i = X87FLAG_C2_LOC
  · subst hi2
    rfl
  rw [update_of_ne hi2]
  by_cases hi1 : i = X87FLAG_C1_LOC
  · subst hi1
    rfl
  rw [update_of_ne hi1]
  by_cases hi0 : i = X87FLAG_C0_LOC
  · subst hi0
    rfl
  rw [update_of_ne hi0]
  by_cases hi9 : i = 9
  · subst hi9
    rfl
  rw [update_of_ne hi9]
  by_cases hi1' : i = 1
  · subst hi1'
    rfl
  simp [hi9, hi1']

def frameState (cfg : Config) (s : Machine) (rip : BitVec 64) : CPUState :=
  { s.state with
    rip := narrow cfg rip
    flags := frameFlags s.state.flags
    gregs := fun i => if visible cfg i then narrow cfg ((spilledState cfg s).gregs i) else s.state.gregs i
    gs := narrow cfg s.state.gs
    fs := narrow cfg s.state.fs
    xmm := if !cfg.is64BitMode && cfg.enableAVX then s.state.xmm else (spilledState cfg s).xmm }

/-- Where the host's part of a vector register is spilled. -/
def place (cfg : Config) (i : Fin 16) : Fin 32 := if cfg.supportsAVX then avxLow i else sse i

theorem place_nodup : ((List.finRange 16).map (place cfg)).Nodup := by
  unfold place
  cases cfg.supportsAVX <;> decide

theorem spilledState_xmm (h : inRegisters cfg s.host = true) (i : Fin 16) :
    (spilledState cfg s).xmm (place cfg i) = s.host.fprs (sraFPR i) := by
  rw [spilledState, if_pos h]
  exact foldl_update_of_mem (place cfg) (fun i => s.host.fprs (sraFPR i)) _ _ place_nodup (List.mem_finRange i)

theorem spilledState_xmm_of_ne {j : Fin 32} (h : ∀ i, place cfg i ≠ j) : (spilledState cfg s).xmm j = s.state.xmm j := by
  rw [spilledState]
  split
  · exact foldl_update_of_notMem (place cfg) (fun i => s.host.fprs (sraFPR i)) _ _ fun i _ => h i
  · rfl

/-! ## Frames of 64-bit code -/

theorem mem_copyRegs64 : ∀ r, r ∈ copyRegs64 := by decide

theorem saveGregs64_spec (state : CPUState) (old : Fin 23 → BitVec 64) (r : Fin 16) :
    saveGregs64 s sig state old (contextReg64 r) = state.gregs r :=
  foldl_update_of_mem contextReg64 (fun r => state.gregs r) _ _ (by decide) (mem_copyRegs64 r)

theorem saveGregs64_efl (state : CPUState) (old : Fin 23 → BitVec 64) : saveGregs64 s sig state old FEX_REG64_EFL = 0 := by
  simp only [saveGregs64]
  rfl

theorem avx_cases (j : Fin 32) : ∃ i ∈ List.finRange 16, avxLow i = j ∨ avxHigh i = j := by
  revert j
  decide

theorem restoreState64_eq {uctx : UContext64} {old : XState64} (h64 : cfg.is64BitMode = true)
    (hrip : uctx.gregs FEX_REG64_RIP = rip) (hefl : uctx.gregs FEX_REG64_EFL = 0)
    (hgregs : ∀ r, uctx.gregs (contextReg64 r) = (spilledState cfg s).gregs r) :
    restoreState64 cfg s.state uctx (saveXState64 cfg (spilledState cfg s) old) = frameState cfg s rip := by
  obtain ⟨hf, ht, hmm, hfcw, hftw⟩ := @spilledState_same cfg s
  have hflags := restoreFlags_eq 16 (.inl rfl) (spilledState cfg s)
  have htop := (fswOf_bits 16 (.inl rfl) (spilledState cfg s)).2.2.2.2
  rw [hf] at hflags
  have hnarrow : ∀ x, narrow cfg x = x := fun x => if_pos h64
  have hvisible : ∀ i, visible cfg i = true := fun i => by rw [visible, h64, Bool.true_or]
  rw [restoreState64, frameState, CPUState.mk.injEq]
  refine ⟨by rw [hrip, hnarrow], ?_, rfl, rfl, rfl, rfl, (hnarrow _).symm, (hnarrow _).symm, ?_, ?_, ?_, hmm, rfl, hfcw, hftw⟩
  · funext r
    simp only [hgregs]
    rw [if_pos (hvisible r), hnarrow]
    exact foldl_update_of_mem id (fun r => (spilledState cfg s).gregs r) _ _ (by decide) (mem_copyRegs64 r)
  · rw [h64, Bool.not_true, Bool.false_and, if_neg Bool.false_ne_true]
    funext j
    simp only [saveXState64]
    split
    · exact foldl_copy_pairs avxLow avxHigh (spilledState cfg s).xmm _ _ j (avx_cases j)
    · rename_i havx
      have hsupports : cfg.supportsAVX = false := by
        by_contra hno
        exact havx (cfg.avx_enabled (Bool.eq_true_of_not_eq_false hno))
      rw [foldl_copy sse (spilledState cfg s).xmm]
      split
      · rfl
      · rename_i hnot
        rw [spilledState_xmm_of_ne fun i hi => hnot ⟨i, List.mem_finRange i, ?_⟩]
        rwa [place, hsupports, if_neg Bool.false_ne_true] at hi
  · rw [hefl]
    exact hflags
  · exact htop.trans ht

/-! ## Frames of 32-bit code -/

theorem mem_copyRegs32 : ∀ r : Fin 16, r ∈ copyRegs32 ↔ r.val < 8 := by decide

theorem saveGregs32_spec (state : CPUState) (old : Fin 19 → BitVec 32) {r : Fin 16} (hr : r.val < 8) :
    saveGregs32 s sig state old (contextReg32 r) = (state.gregs r).setWidth 32 :=
  foldl_update_of_mem contextReg32 (fun r => (state.gregs r).setWidth 32) _ _ (by decide) ((mem_copyRegs32 r).mpr hr)

theorem saveGregs32_rest (state : CPUState) (old : Fin 19 → BitVec 32) :
    saveGregs32 s sig state old FEX_REG32_EFL = 0 ∧
      saveGregs32 s sig state old FEX_REG32_CS = state.cs.setWidth 32 ∧
      saveGregs32 s sig state old FEX_REG32_DS = state.ds.setWidth 32 ∧
      saveGregs32 s sig state old FEX_REG32_ES = state.es.setWidth 32 ∧
      saveGregs32 s sig state old FEX_REG32_FS = state.fs.setWidth 32 ∧
      saveGregs32 s sig state old FEX_REG32_GS = state.gs.setWidth 32 ∧
      saveGregs32 s sig state old FEX_REG32_SS = state.ss.setWidth 32 := by
  simp only [saveGregs32]
  refine ⟨?_, ?_, ?_, ?_, ?_, ?_, ?_⟩ <;>
    · rfl

theorem padded_nodup : ((List.finRange 16).map padded).Nodup := by decide

theorem saveXState32_xmm (state : CPUState) (old : XState32) (havx : cfg.enableAVX = false) (i : Fin 16) :
    (saveXState32 cfg state old).xmm (padded i) = state.xmm (sse i) := by
  simp only [saveXState32, havx]
  exact foldl_update_of_mem padded (fun i => state.xmm (sse i)) _ old.xmm padded_nodup (List.mem_finRange i)

theorem restoreState32_eq {uctx : UContext32} {old : XState32} (h32 : cfg.is64BitMode = false)
    (hrip : uctx.gregs FEX_REG32_EIP = rip.setWidth 32)
    (hefl : uctx.gregs FEX_REG32_EFL = 0)
    (hcs : uctx.gregs FEX_REG32_CS = s.state.cs.setWidth 32)
    (hds : uctx.gregs FEX_REG32_DS = s.state.ds.setWidth 32)
    (hes : uctx.gregs FEX_REG32_ES = s.state.es.setWidth 32)
    (hfs : uctx.gregs FEX_REG32_FS = s.state.fs.setWidth 32)
    (hgs : uctx.gregs FEX_REG32_GS = s.state.gs.setWidth 32)
    (hss : uctx.gregs FEX_REG32_SS = s.state.ss.setWidth 32)
    (hgregs : ∀ r : Fin 16, r.val < 8 → uctx.gregs (contextReg32 r) = ((spilledState cfg s).gregs r).setWidth 32) :
    restoreState32 cfg s.state uctx (saveXState32 cfg (spilledState cfg s) old) = frameState cfg s rip := by
  obtain ⟨hf, ht, hmm, hfcw, hftw⟩ := @spilledState_same cfg s
  have hflags := restoreFlags_eq 32 (.inr rfl) (spilledState cfg s)
  have htop := (fswOf_bits 32 (.inr rfl) (spilledState cfg s)).2.2.2.2
  rw [hf] at hflags
  have hnarrow : ∀ x, narrow cfg x = (x.setWidth 32).setWidth 64 := fun x => by
    rw [narrow, h32, if_neg Bool.false_ne_true]
  have hvisible : ∀ i, visible cfg i = decide (i.val < 8) := fun i => by rw [visible, h32, Bool.false_or]
  have hword : ∀ x : BitVec 16, (x.setWidth 32).setWidth 16 = x := fun x => by
    apply BitVec.eq_of_toNat_eq
    simp only [BitVec.toNat_setWidth]
    omega
  -- field by field: the registers of the context first, then the vectors, the flags and the x87 state
  rw [restoreState32, frameState, CPUState.mk.injEq]
  refine ⟨by rw [hrip, hnarrow], ?_, by rw [hes, hword], by rw [hcs, hword], by rw [hss, hword], by rw [hds, hword],
    by rw [hgs, hnarrow], by rw [hfs, hnarrow], ?_, ?_, ?_, ?_, rfl, ?_, ?_⟩
  · funext r
    rw [hvisible]
    by_cases hr : r.val < 8
    · rw [decide_eq_true hr, if_pos rfl, hnarrow, ← hgregs r hr]
      exact foldl_update_of_mem id (fun r => (uctx.gregs (contextReg32 r)).setWidth 64) _ _ (by decide)
        ((mem_copyRegs32 r).mpr hr)
    · rw [decide_eq_false hr, if_neg Bool.false_ne_true]
      exact foldl_update_of_notMem id (fun r => (uctx.gregs (contextReg32 r)).setWidth 64) _ _
        fun a ha heq => hr ((mem_copyRegs32 r).mp (heq ▸ ha))
  · rw [h32, Bool.not_false, Bool.true_and]
    by_cases havx : cfg.enableAVX = true
    · rw [if_pos havx, if_pos havx]
    · rw [if_neg havx, if_neg havx]
      have hsupports : cfg.supportsAVX = false := by
        by_contra hno
        exact havx (cfg.avx_enabled (Bool.eq_true_of_not_eq_false hno))
      funext j
      simp only [saveXState32_xmm _ _ (Bool.eq_false_of_not_eq_true havx)]
      rw [foldl_copy sse (spilledState cfg s).xmm]
      split
      · rfl
      · rename_i hnot
        rw [spilledState_xmm_of_ne fun i hi => hnot ⟨i, List.mem_finRange i, ?_⟩]
        rwa [place, hsupports, if_neg Bool.false_ne_true] at hi
  · rw [hefl]
    exact hflags
  · exact htop.trans ht
  · funext i
    have hmm' := congrFun hmm i
    simp only [saveXState32, hmm']
    apply BitVec.eq_of_getLsbD_eq
    intro k hk
    rw [BitVec.getLsbD_append]
    by_cases h80 : k < 80
    · rw [if_pos h80, BitVec.getLsbD_setWidth, decide_eq_true h80, Bool.true_and]
    · rw [if_neg h80, BitVec.getLsbD_extractLsb', decide_eq_true (by omega), Bool.true_and,
        Nat.add_sub_cancel' (Nat.le_of_not_gt h80)]
  · simp [saveXState32, hword, hfcw]
  · simp [saveXState32, hword, hftw]

/-! ## Returns -/

theorem memory_eq (hsiginfo : sig.siginfo = true) :
    (handleGuestSignal cfg s sig).memory = saveFrame cfg s sig (spilledState cfg s) (locationsOf cfg s sig) := by
  simp [handleGuestSignal, hsiginfo, locationsOf]

theorem kept64 {m : GuestMemory} {uctx : UContext64} (h64 : cfg.is64BitMode = true) (hsiginfo : sig.siginfo = true)
    (hkept : Kept cfg (locationsOf cfg s sig) (handleGuestSignal cfg s sig).memory m rip)
    (huctx : m.ucontext64 (locationsOf cfg s sig).uContext = uctx) :
    uctx.gregs FEX_REG64_RIP = rip ∧ restoreState64 cfg s.state uctx (m.xstate64 uctx.fpregs) = frameState cfg s rip := by
  rw [Kept, if_pos h64, memory_eq hsiginfo, saveFrame, if_pos h64] at hkept
  simp only [update_self, huctx] at hkept
  obtain ⟨rfl, hx⟩ := hkept
  refine ⟨by simp only [update_self], ?_⟩
  have hefl := @saveGregs64_efl s sig (spilledState cfg s) (s.memory.ucontext64 (locationsOf cfg s sig).uContext).gregs
  have hgregs := @saveGregs64_spec s sig (spilledState cfg s) (s.memory.ucontext64 (locationsOf cfg s sig).uContext).gregs
  generalize saveGregs64 s sig (spilledState cfg s) (s.memory.ucontext64 (locationsOf cfg s sig).uContext).gregs = g at *
  have hrest : ∀ i, i ≠ FEX_REG64_RIP → update g FEX_REG64_RIP rip i = g i :=
    fun i hi => update_of_ne hi _ _
  rw [hx]
  refine restoreState64_eq h64 (by simp only [update_self]) ((hrest _ (by decide)).trans hefl) fun r => ?_
  exact (hrest _ (by revert r; decide)).trans (hgregs r)

theorem kept32 {m : GuestMemory} {uctx : UContext32} (h32 : cfg.is64BitMode = false) (hsiginfo : sig.siginfo = true)
    (hplaced : Placed cfg (locationsOf cfg s sig))
    (hkept : Kept cfg (locationsOf cfg s sig) (handleGuestSignal cfg s sig).memory m rip)
    (huctx : m.ucontext32 (locationsOf cfg s sig).uContext = uctx) :
    uctx.gregs FEX_REG32_EIP = rip.setWidth 32 ∧
      restoreState32 cfg s.state uctx (m.xstate32 (uctx.fpregs.setWidth 64)) = frameState cfg s rip := by
  have hne : ¬cfg.is64BitMode = true := by rw [h32]; exact Bool.false_ne_true
  rw [Kept, if_neg hne, memory_eq hsiginfo, saveFrame, if_neg hne] at hkept
  simp only [update_self, huctx] at hkept
  obtain ⟨rfl, hx⟩ := hkept
  refine ⟨by simp only [update_self], ?_⟩
  have hfpstate : ((locationsOf cfg s sig).fpState.setWidth 32).setWidth 64 = (locationsOf cfg s sig).fpState := by
    apply BitVec.eq_of_toNat_eq
    have hlt := hplaced.fpState h32
    simp only [BitVec.toNat_setWidth]
    omega
  obtain ⟨hcs, hds, hes, hfs, hgs, hss⟩ := @spilledState_segments cfg s
  obtain ⟨hefl, hcs', hds', hes', hfs', hgs', hss'⟩ := @saveGregs32_rest s sig (spilledState cfg s)
    (s.memory.ucontext32 (locationsOf cfg s sig).uContext).gregs
  have hgregs := @saveGregs32_spec s sig (spilledState cfg s) (s.memory.ucontext32 (locationsOf cfg s sig).uContext).gregs
  rw [hcs] at hcs'
  rw [hds] at hds'
  rw [hes] at hes'
  rw [hfs] at hfs'
  rw [hgs] at hgs'
  rw [hss] at hss'
  generalize saveGregs32 s sig (spilledState cfg s) (s.memory.ucontext32 (locationsOf cfg s sig).uContext).gregs = g at *
  have hrest : ∀ i, i ≠ FEX_REG32_EIP → update g FEX_REG32_EIP (rip.setWidth 32) i = g i :=
    fun i hi => update_of_ne hi _ _
  rw [hfpstate, hx]
  refine restoreState32_eq h32 (by simp only [update_self]) ((hrest _ (by decide)).trans hefl)
    ((hrest _ (by decide)).trans hcs') ((hrest _ (by decide)).trans hds') ((hrest _ (by decide)).trans hes')
    ((hrest _ (by decide)).trans hfs') ((hrest _ (by decide)).trans hgs') ((hrest _ (by decide)).trans hss') fun r hr => ?_
  exact (hrest _ (by revert r; decide)).trans (hgregs hr)

theorem restore64 {context : ContextBackup} {rest : List ContextBackup} {uctx : UContext64} (h : t.contexts = context :: rest)
    (hloc : context.uContextLocation ≠ 0) (h64 : context.is32Bit = false)
    (huctx : t.memory.ucontext64 context.uContextLocation = uctx) :
    ∃ u, restoreThreadState cfg t = some u ∧
      if context.originalRIP ≠ uctx.gregs FEX_REG64_RIP ∨ context.faultToTopAndGeneratedException = true then
        u.state = restoreState64 cfg context.guestState uctx (t.memory.xstate64 uctx.fpregs) ∧ u.host.pc = cfg.loopTop
      else u.state = context.guestState ∧ u.host = restoreContext t.host context.host := by
  subst huctx
  refine ⟨_, by simp only [restoreThreadState, h]; rfl, ?_⟩
  rw [if_pos hloc, h64, Bool.not_false, if_pos rfl]
  by_cases hfrom : context.originalRIP ≠ (t.memory.ucontext64 context.uContextLocation).gregs FEX_REG64_RIP ∨
      context.faultToTopAndGeneratedException = true
  · rw [if_pos hfrom, if_pos hfrom]
    exact ⟨rfl, rfl⟩
  · rw [if_neg hfrom, if_neg hfrom]
    exact ⟨rfl, rfl⟩

theorem restore32 {context : ContextBackup} {rest : List ContextBackup} {uctx : UContext32} (h : t.contexts = context :: rest)
    (hloc : context.uContextLocation ≠ 0) (h32 : context.is32Bit = true)
    (huctx : t.memory.ucontext32 context.uContextLocation = uctx) :
    ∃ u, restoreThreadState cfg t = some u ∧
      if context.originalRIP ≠ (uctx.gregs FEX_REG32_EIP).setWidth 64 ∨ context.faultToTopAndGeneratedException = true then
        u.state = restoreState32 cfg context.guestState uctx (t.memory.xstate32 (uctx.fpregs.setWidth 64)) ∧
          u.host.pc = cfg.loopTop
      else u.state = context.guestState ∧ u.host = restoreContext t.host context.host := by
  subst huctx
  refine ⟨_, by simp only [restoreThreadState, h]; rfl, ?_⟩
  rw [if_pos hloc, h32, Bool.not_true, if_neg Bool.false_ne_true]
  by_cases hfrom : context.originalRIP ≠
      ((t.memory.ucontext32 context.uContextLocation).gregs FEX_REG32_EIP).setWidth 64 ∨
      context.faultToTopAndGeneratedException = true
  · rw [if_pos hfrom, if_pos hfrom]
    exact ⟨rfl, rfl⟩
  · rw [if_neg hfrom, if_neg hfrom]
    exact ⟨rfl, rfl⟩

/-- With a changed instruction pointer or a fault, the state is that of the frame at the top of the dispatcher. Else all is
the backup's. -/
theorem restore_cases (hsiginfo : sig.siginfo = true) (hplaced : Placed cfg (locationsOf cfg s sig))
    (hrun : Handles cfg (handleGuestSignal cfg s sig) t)
    (hkept : Kept cfg (locationsOf cfg s sig) (handleGuestSignal cfg s sig).memory t.memory rip) :
    ∃ u, restoreThreadState cfg t = some u ∧
      if FromFrame cfg s rip then u.state = frameState cfg s rip ∧ u.host.pc = cfg.loopTop
      else u.state = s.state ∧ u.host = restoreContext t.host s.host := by
  have hcontexts := contexts_eq hsiginfo hrun
  rcases Bool.eq_false_or_eq_true cfg.is64BitMode with h64 | h32
  · obtain ⟨u, hu, hcases⟩ := @restore64 cfg t _ _ _ hcontexts hplaced.uContext (by rw [backupOf, h64]; rfl) rfl
    obtain ⟨hrip, hstate⟩ := kept64 h64 hsiginfo hkept rfl
    refine ⟨u, hu, ?_⟩
    simp only [backupOf, storeThreadState, hrip, hstate] at hcases
    have hnarrow : narrow cfg rip = rip := if_pos h64
    simpa only [FromFrame, hnarrow] using hcases
  · obtain ⟨u, hu, hcases⟩ := @restore32 cfg t _ _ _ hcontexts hplaced.uContext (by rw [backupOf, h32]; rfl) rfl
    obtain ⟨hrip, hstate⟩ := kept32 h32 hsiginfo hplaced hkept rfl
    refine ⟨u, hu, ?_⟩
    simp only [backupOf, storeThreadState, hrip, hstate] at hcases
    simpa only [FromFrame, narrow, h32, Bool.false_eq_true, if_false] using hcases

/-! ## The guest's state -/

theorem frameFlags_eq_iff (flags : Fin 48 → Bool) :
    frameFlags flags = flags ↔ ∀ i : Fin 48, i.val < 32 → flags i = (i = 1 || i = 9) := by
  constructor
  · intro h i hi
    rw [← congrFun h i, frameFlags, if_pos hi]
  · intro h
    funext i
    rw [frameFlags]
    split_ifs with hi
    · exact (h i hi).symm
    · rfl

theorem spilledState_gregs (i : Fin 16) : (spilledState cfg s).gregs i =
    if inRegisters cfg s.host && !(ignoreMask s.inSyscallInfo).getLsbD (sra64 i) then s.host.regs (sra64 i)
    else s.state.gregs i := by
  rw [spilledState]
  by_cases hin : inRegisters cfg s.host = true
  · rw [if_pos hin, hin, Bool.true_and]
    simp only [spillSRA]
    cases (ignoreMask s.inSyscallInfo).getLsbD (sra64 i) <;> rfl
  · rw [if_neg hin, Bool.eq_false_of_not_eq_true hin, Bool.false_and, if_neg Bool.false_ne_true]

theorem spilled_gpr_iff (i : Fin 16) : narrow cfg ((spilledState cfg s).gregs i) = narrow cfg (gprOf cfg s i) ↔
    (inRegisters cfg s.host = true → (ignoreMask s.inSyscallInfo).getLsbD (sra64 i) ≠ cfg.spilled s.host.pc i →
      narrow cfg (s.state.gregs i) = narrow cfg (s.host.regs (sra64 i))) := by
  rw [spilledState_gregs, gprOf]
  cases inRegisters cfg s.host
  · simp
  cases cfg.spilled s.host.pc i <;> cases (ignoreMask s.inSyscallInfo).getLsbD (sra64 i)
  · simp
  · simp
  · simp [eq_comm]
  · simp

theorem spilled_low (i : Fin 16) : (spilledState cfg s).xmm (place cfg i) = lowOf cfg s i := by
  rw [lowOf]
  split_ifs with hin hsupports
  · exact spilledState_xmm hin i
  · rw [spilledState, if_neg hin, place, if_pos hsupports]
  · rw [spilledState, if_neg hin, place, if_neg hsupports]

theorem spilled_high (hsupports : cfg.supportsAVX = true) (i : Fin 16) :
    (spilledState cfg s).xmm (avxHigh i) = s.state.xmm (avxHigh i) := by
  refine spilledState_xmm_of_ne fun k => ?_
  rw [place, if_pos hsupports]
  revert i k
  decide

theorem inRegisters_loopTop (h : u.host.pc = cfg.loopTop) : inRegisters cfg u.host = false := by
  rw [inRegisters, h, cfg.loopTop_notInCode, Bool.and_false]

theorem frame_low_iff (hstate : u.state = frameState cfg s rip) (hin : inRegisters cfg u.host = false) (i : Fin 16) :
    lowOf cfg u i = lowOf cfg s i ↔
      (inRegisters cfg s.host = true → cfg.is64BitMode = false → cfg.enableAVX = true →
        s.state.xmm (place cfg i) = s.host.fprs (sraFPR i)) := by
  have hu : lowOf cfg u i = (frameState cfg s rip).xmm (place cfg i) := by
    rw [lowOf, hin, if_neg Bool.false_ne_true, hstate, place]
  rw [hu, frameState]
  by_cases havx : (!cfg.is64BitMode && cfg.enableAVX) = true
  · rw [if_pos havx, lowOf]
    rw [Bool.and_eq_true, Bool.not_eq_true'] at havx
    by_cases hs : inRegisters cfg s.host = true
    · rw [if_pos hs]
      exact ⟨fun h _ _ _ => h, fun h => h hs havx.1 havx.2⟩
    · rw [if_neg hs]
      exact ⟨fun _ hno => absurd hno hs, fun _ => rfl⟩
  · rw [if_neg havx]
    refine ⟨fun _ _ h32 henable => absurd ?_ havx, fun _ => spilled_low i⟩
    rw [h32, henable]
    rfl

theorem frame_high_iff (hstate : u.state = frameState cfg s rip) (hin : inRegisters cfg u.host = false)
    (hsupports : cfg.supportsAVX = true) (i : Fin 16) :
    highOf cfg u i = highOf cfg s i ↔
      (inRegisters cfg s.host = true → s.state.xmm (avxHigh i) = s.host.sve (sraFPR i)) := by
  have hu : highOf cfg u i = s.state.xmm (avxHigh i) := by
    rw [highOf, hin, if_neg Bool.false_ne_true, hstate, frameState]
    split_ifs
    · rfl
    · exact spilled_high hsupports i
  rw [hu, highOf]
  by_cases hs : inRegisters cfg s.host = true
  · rw [if_pos hs]
    exact ⟨fun h _ => h, fun h => h hs⟩
  · rw [if_neg hs]
    exact ⟨fun _ hno => absurd hno hs, fun _ => rfl⟩

theorem masked_eq_iff {α : Type} [Zero α] {p : Fin 16 → Bool} {f g : Fin 16 → α} :
    ((fun i => if p i then f i else 0) = fun i => if p i then g i else 0) ↔ ∀ i, p i = true → f i = g i := by
  rw [funext_iff]
  refine forall_congr' fun i => ?_
  cases p i
  · exact ⟨fun _ hno => absurd hno Bool.false_ne_true, fun _ => rfl⟩
  · exact ⟨fun h _ => h, fun h => h rfl⟩

theorem guest_eq_iff : guest cfg u = { guest cfg s with rip := narrow cfg rip } ↔
    narrow cfg u.state.rip = narrow cfg rip ∧
      (∀ i, visible cfg i = true → narrow cfg (gprOf cfg u i) = narrow cfg (gprOf cfg s i)) ∧
      (u.state.es, u.state.cs, u.state.ss, u.state.ds) = (s.state.es, s.state.cs, s.state.ss, s.state.ds) ∧
      narrow cfg u.state.gs = narrow cfg s.state.gs ∧
      narrow cfg u.state.fs = narrow cfg s.state.fs ∧
      (∀ i, visible cfg i = true → lowOf cfg u i = lowOf cfg s i) ∧
      (∀ i, (cfg.supportsAVX && visible cfg i) = true → highOf cfg u i = highOf cfg s i) ∧
      u.state.flags = s.state.flags ∧ u.state.top = s.state.top ∧ u.state.mm = s.state.mm ∧ u.state.gdt = s.state.gdt ∧
      u.state.FCW = s.state.FCW ∧ u.state.FTW = s.state.FTW := by
  have hgprs := @masked_eq_iff _ _ (visible cfg) (fun i => narrow cfg (gprOf cfg u i)) fun i => narrow cfg (gprOf cfg s i)
  have hlow := @masked_eq_iff _ _ (visible cfg) (lowOf cfg u) (lowOf cfg s)
  have hhigh := @masked_eq_iff _ _ (fun i => cfg.supportsAVX && visible cfg i) (highOf cfg u) (highOf cfg s)
  simp only [guest, Guest.mk.injEq, hgprs, hlow, hhigh]

theorem frame_guest_iff (hstate : u.state = frameState cfg s rip) (hpc : u.host.pc = cfg.loopTop) :
    guest cfg u = { guest cfg s with rip := narrow cfg rip } ↔ FrameExact cfg s := by
  have hin := inRegisters_loopTop hpc
  have hgpr : ∀ i, visible cfg i = true → narrow cfg (gprOf cfg u i) = narrow cfg ((spilledState cfg s).gregs i) := by
    intro i hi
    rw [gprOf, hin, Bool.false_and, if_neg Bool.false_ne_true, hstate, frameState]
    simp [if_pos hi, narrow_narrow]
  have hflags : u.state.flags = frameFlags s.state.flags := by rw [hstate, frameState]
  rw [guest_eq_iff]
  constructor
  · rintro ⟨-, hgprs, -, -, -, hlow, hhigh, hsame, -⟩
    exact
      { eflags := (frameFlags_eq_iff _).mp (hflags.symm.trans hsame)
        gprs := fun hs i hi => (spilled_gpr_iff i).mp ((hgpr i hi).symm.trans (hgprs i hi)) hs
        high := fun hs havx i hi =>
          (frame_high_iff hstate hin havx i).mp (hhigh i (by rw [havx, hi]; rfl)) hs
        low := fun hs h32 havx i hi => (frame_low_iff hstate hin i).mp (hlow i hi) hs h32 havx }
  · intro h
    refine ⟨?_, ?_, ?_, ?_, ?_, ?_, ?_, ?_, ?_, ?_, ?_, ?_, ?_⟩
    · rw [hstate]
      exact narrow_narrow rip
    · exact fun i hi => (hgpr i hi).trans ((spilled_gpr_iff i).mpr fun hs => h.gprs hs i hi)
    · rw [hstate, frameState]
    · rw [hstate]
      exact narrow_narrow s.state.gs
    · rw [hstate]
      exact narrow_narrow s.state.fs
    · exact fun i hi => (frame_low_iff hstate hin i).mpr fun hs h32 havx => h.low hs h32 havx i hi
    · intro i hi
      rw [Bool.and_eq_true] at hi
      exact (frame_high_iff hstate hin hi.1 i).mpr fun hs => h.high hs hi.1 i hi.2
    · exact hflags.trans ((frameFlags_eq_iff _).mpr h.eflags)
    all_goals rw [hstate, frameState]

theorem backup_guest_iff (hstate : u.state = s.state) (hhost : u.host = restoreContext t.host s.host)
    (hrip : s.state.rip = narrow cfg rip) :
    guest cfg u = { guest cfg s with rip := narrow cfg rip } ↔ BackupExact cfg s t := by
  have hin : inRegisters cfg u.host = inRegisters cfg s.host := by rw [hhost]; rfl
  have hgpr : ∀ i, gprOf cfg u i = gprOf cfg s i := by
    intro i
    rw [gprOf, gprOf, hstate, hhost]
    rfl
  have hlow : ∀ i, lowOf cfg u i = lowOf cfg s i := by
    intro i
    rw [lowOf, lowOf, hstate, hhost]
    rfl
  have hhigh : ∀ i, highOf cfg u i = highOf cfg s i ↔
      (inRegisters cfg s.host = true → t.host.sve (sraFPR i) = s.host.sve (sraFPR i)) := by
    intro i
    rw [highOf, highOf, hin, hstate, hhost]
    by_cases hs : inRegisters cfg s.host = true
    · rw [if_pos hs, if_pos hs]
      exact ⟨fun h _ => h, fun h => h hs⟩
    · rw [if_neg hs, if_neg hs]
      exact ⟨fun _ hno => absurd hno hs, fun _ => rfl⟩
  rw [guest_eq_iff, hstate]
  constructor
  · rintro ⟨-, -, -, -, -, -, h, -⟩ hs havx i hi
    exact (hhigh i).mp (h i (by rw [havx, hi]; rfl)) hs
  · intro h
    refine ⟨by rw [hrip, narrow_narrow], fun i _ => by rw [hgpr], rfl, rfl, rfl, fun i _ => hlow i, fun i hi => ?_, rfl, rfl,
      rfl, rfl, rfl, rfl⟩
    rw [Bool.and_eq_true] at hi
    exact (hhigh i).mpr fun hs => h hs hi.1 i hi.2

/-! ## The round trip -/

/-- A return gives the state at the signal with the saved instruction pointer exactly when the frame, or the backup, had
all of it. -/
theorem signal_round_trip_iff (hsiginfo : sig.siginfo = true) (hplaced : Placed cfg (locationsOf cfg s sig))
    (hrun : Handles cfg (handleGuestSignal cfg s sig) t)
    (hkept : Kept cfg (locationsOf cfg s sig) (handleGuestSignal cfg s sig).memory t.memory rip) :
    RoundTrips cfg s t rip ↔ Meets cfg s t rip := by
  obtain ⟨u, hu, hcases⟩ := restore_cases hsiginfo hplaced hrun hkept
  have hround : RoundTrips cfg s t rip ↔ guest cfg u = { guest cfg s with rip := narrow cfg rip } := by
    rw [RoundTrips, hu]
    exact ⟨fun ⟨v, hv, h⟩ => Option.some.inj hv ▸ h, fun h => ⟨u, rfl, h⟩⟩
  rw [hround, Meets]
  by_cases hfrom : FromFrame cfg s rip
  · rw [if_pos hfrom] at hcases ⊢
    exact frame_guest_iff hcases.1 hcases.2
  · rw [if_neg hfrom] at hcases ⊢
    rw [FromFrame, not_or, not_not] at hfrom
    exact backup_guest_iff hcases.1 hcases.2 hfrom.1

/-- 64-bit code in the code buffer, with its registers in those of the host. -/
def jitConfig : Config :=
  { is64BitMode := true
    enableAVX := false
    supportsAVX := false
    staticRegisterAllocation := true
    isAddressInCodeBuffer := fun pc => pc == 0x7000
    spilled := fun _ _ => false
    loopTop := 0x1000
    statePtr := 0x8000
    signalReturn := 0x1100
    avx_enabled := by decide
    loopTop_notInCode := by decide }

/-- A state at `0x400000` with its carry flag. -/
def jitMachine (carry : Bool) : Machine :=
  { state :=
      { rip := 0x400000, gregs := fun r => if r = REG_RSP then 0x10000 else 0, es := 0, cs := 0, ss := 0, ds := 0, gs := 0,
        fs := 0, xmm := fun _ => 0, flags := fun i => i = 1 || i = 9 || (carry && i = 0), top := 0, mm := fun _ => 0,
        gdt := fun _ => 0, FCW := 0x37F, FTW := 0xFFFF }
    inSyscallInfo := 0
    signalHandlerRefCounter := 0
    fault := ⟨false, 0, 0, 0⟩
    host :=
      { regs := fun r => if r = 13 then 0x10000 else r.val, sp := 0x20000, pc := 0x7000, pstate := 0, fpsr := 0, fpcr := 0,
        fprs := fun i => i.val, sve := fun _ => 0, sigmask := 0 }
    contexts := []
    memory :=
      { ucontext64 := fun _ => ⟨fun _ => 0, 0⟩, xstate64 := fun _ => ⟨0, 0, 0, fun _ => 0, fun _ => 0, fun _ => 0⟩
        ucontext32 := fun _ => ⟨fun _ => 0, 0⟩, xstate32 := fun _ => ⟨0, 0, 0, fun _ => 0, fun _ => 0, fun _ => 0⟩ } }

def sigusr1 : Signal :=
  { number := 10, siCode := 0, handler := 0x500000, siginfo := true, onStack := false, ssDisable := true, ssSp := 0, ssSize := 0 }

/-- The handler has written another instruction pointer into its frame. -/
def jitReturn (carry : Bool) (rip : BitVec 64) : Machine :=
  let t := handleGuestSignal jitConfig (jitMachine carry) sigusr1
  let loc := (locationsOf jitConfig (jitMachine carry) sigusr1).uContext
  { t with
    memory :=
      { t.memory with
        ucontext64 := update t.memory.ucontext64 loc
          { t.memory.ucontext64 loc with gregs := update (t.memory.ucontext64 loc).gregs FEX_REG64_RIP rip } } }

theorem jitReturn_placed (carry : Bool) : Placed jitConfig (locationsOf jitConfig (jitMachine carry) sigusr1) :=
  ⟨by revert carry; decide, fun h => absurd h (by decide)⟩

theorem jitReturn_handles (carry : Bool) (rip : BitVec 64) :
    Handles jitConfig (handleGuestSignal jitConfig (jitMachine carry) sigusr1) (jitReturn carry rip) :=
  .code (.refl _) rfl

theorem jitReturn_kept (carry : Bool) (rip : BitVec 64) :
    Kept jitConfig (locationsOf jitConfig (jitMachine carry) sigusr1)
      (handleGuestSignal jitConfig (jitMachine carry) sigusr1).memory (jitReturn carry rip).memory rip := by
  have h64 : jitConfig.is64BitMode = true := rfl
  exact ⟨update_self _ _ _, rfl⟩

theorem signal_round_trip_changed : RoundTrips jitConfig (jitMachine false) (jitReturn false 0x400010) 0x400010 := by
  refine (signal_round_trip_iff rfl (jitReturn_placed false) (jitReturn_handles false _) (jitReturn_kept false _)).mpr ?_
  exact
    { eflags := by decide
      gprs := fun _ i _ h => absurd (by revert i; decide) h
      high := fun _ h => absurd h (by decide)
      low := fun _ h => absurd h (by decide) }

/-- A changed instruction pointer loses the carry flag. -/
theorem signal_carry_lost : ¬∀ (cfg : Config) (s t : Machine) (sig : Signal) (rip : BitVec 64), sig.siginfo = true →
    Placed cfg (locationsOf cfg s sig) → Handles cfg (handleGuestSignal cfg s sig) t →
    Kept cfg (locationsOf cfg s sig) (handleGuestSignal cfg s sig).memory t.memory rip → RoundTrips cfg s t rip := by
  intro h
  obtain ⟨v, hv, hguest⟩ := h jitConfig (jitMachine true) (jitReturn true 0x400010) sigusr1 0x400010 rfl
    (jitReturn_placed true) (jitReturn_handles true _) (jitReturn_kept true _)
  obtain ⟨u, hu, hcases⟩ := restore_cases rfl (jitReturn_placed true) (jitReturn_handles true 0x400010)
    (jitReturn_kept true _)
  obtain rfl := Option.some.inj (hu.symm.trans hv)
  have hexact := (frame_guest_iff hcases.1 hcases.2).mp hguest
  exact absurd (hexact.eflags 0 (by decide)) (by decide)

end FexEmu.SignalFrame
