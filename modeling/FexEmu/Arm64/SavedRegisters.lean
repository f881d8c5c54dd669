import FexEmu.Arm64.EmitterProofs
/-!
# Registers that are saved around a call

The static registers go to the frame, the dynamic vector registers and the link register to the stack. Each part changes
one area of memory.
-/
namespace FexEmu.Arm64

open ByteMemory
open Function (update_self update_of_ne update)

variable {env : Env}

/-! ## Slots -/

section Slots
variable {R : Type} [DecidableEq R] {w : Nat} {inMask : R → Bool} {value : R → BitVec w} {slot : Nat → BitVec 64}
  {content : Nat → BitVec w}

omit [DecidableEq R] in
theorem spillMem_agree {b : BitVec 64} {n : Nat} (l : List R) : ∀ (i : Nat) (m : Memory),
    (∀ j, i ≤ j → j < i + l.length → Apart (slot j) ((w + 7) / 8) b n) → Agree (spillMem inMask value slot l i m) m b n := by
  induction l with
  | nil => intro i m _ c _; rfl
  | cons r rest ih =>
    intro i m h
    have hrest := ih (i + 1) (if inMask r then write m (slot i) (value r) else m)
      (fun j hj hlt => h j (by omega) (by rw [List.length_cons]; omega))
    refine hrest.trans ?_
    split_ifs
    · exact write_agree _ (h i le_rfl (by simp))
    · intro c _
      rfl

omit [DecidableEq R] in
theorem read_spillMem (hw : w ≤ 2 ^ 64) (l : List R) : ∀ (i : Nat) (m : Memory),
    (∀ j k, i ≤ j → j < k → k < i + l.length → Apart (slot k) ((w + 7) / 8) (slot j) ((w + 7) / 8)) →
    ∀ j (hj : j < l.length), inMask l[j] → read (spillMem inMask value slot l i m) (slot (i + j)) w = value l[j] := by
  induction l with
  | nil => intro i m _ j hj; simp at hj
  | cons r rest ih =>
    intro i m h j hj hmask
    rw [spillMem]
    cases j with
    | zero =>
      have hmask' : inMask r = true := hmask
      have hagree := @spillMem_agree R w inMask value slot (slot i) ((w + 7) / 8) rest (i + 1)
        (write m (slot i) (value r)) (fun k hk hlt => h i k le_rfl (by omega) (by rw [List.length_cons]; omega))
      rw [if_pos hmask']
      change read _ (slot i) w = value r
      rw [read_of_agree hagree hw, read_write _ hw]
    | succ j =>
      have hj' : j < rest.length := by simpa using hj
      have := ih (i + 1) (if inMask r then write m (slot i) (value r) else m)
        (fun a b ha hab hb => h a b (by omega) hab (by rw [List.length_cons]; omega)) j hj' hmask
      rw [show i + (j + 1) = i + 1 + j by omega]
      exact this

theorem fillRegs_getElem (l : List R) : ∀ (i : Nat) (f : R → BitVec w), l.Nodup → ∀ j (hj : j < l.length),
    fillRegs inMask content l i f l[j] = if inMask l[j] then content (i + j) else f l[j] := by
  induction l with
  | nil => intro i f _ j hj; simp at hj
  | cons r rest ih =>
    intro i f hnodup j hj
    obtain ⟨hnot, hrest⟩ := List.nodup_cons.mp hnodup
    cases j with
    | zero =>
      change fillRegs inMask content rest (i + 1) _ r = if inMask r then content i else f r
      rw [fillRegs_of_notMem rest (i + 1) _ r hnot]
      split_ifs
      · exact update_self ..
      · rfl
    | succ j =>
      have hj' : j < rest.length := by simpa using hj
      have hne : rest[j] ≠ r := fun he => hnot (he ▸ List.getElem_mem hj')
      change fillRegs inMask content rest (i + 1) _ rest[j] = if inMask rest[j] then content (i + (j + 1)) else f rest[j]
      rw [ih (i + 1) _ hrest j hj', show i + 1 + j = i + (j + 1) by omega]
      split_ifs
      · rfl
      · rw [update_of_ne hne]
      · rfl

end Slots

/-! ## Filling -/

section Fill
variable {R : Type} [DecidableEq R] {w : Nat} (inMask : R → Bool) (get : State → R → BitVec w)
  (put : State → (R → BitVec w) → State) (ok : R → Prop) (offset : Nat → BitVec 64)
  (pair : R → R → Nat → Instr) (single : R → Nat → Instr)

/-- What spilling asks of a kind of register, for general and vector registers alike. -/
structure RegisterKind : Prop where
  get_put : ∀ s f pc, get { put s f with pc := pc } = f
  put_put : ∀ s f pc g pc', { put { put s f with pc := pc } g with pc := pc' } = { put s g with pc := pc' }
  put_get : ∀ s, { put s (get s) with pc := s.pc } = s
  mem : ∀ s f pc, { put s f with pc := pc }.mem = s.mem
  frame : ∀ s r value pc, ok r → { put s (update (get s) r value) with pc := pc }.x STATE = s.x STATE

/-- The instruction loads one register from its slot. -/
def LoadsSingle (env : Env) : Prop := ∀ s r i, ∃ pc, Instr.exec env s (single r i) =
  { put s (update (get s) r (read s.mem (s.x STATE + offset i) w)) with pc := pc }

/-- The instruction loads two registers from neighbouring slots. -/
def LoadsPair (env : Env) : Prop := ∀ s r r' i, ∃ pc, Instr.exec env s (pair r r' i) =
  { put s (update (update (get s) r (read s.mem (s.x STATE + offset i) w)) r'
      (read s.mem (s.x STATE + offset (i + 1)) w)) with pc := pc }

variable {inMask get put ok offset pair single}

theorem run_maskedSingles_fill (hk : RegisterKind get put ok) (hs : LoadsSingle get put offset single env) (l : List R) :
    ∀ (i : Nat) (s : State), (∀ r ∈ l, ok r) → ∃ pc, run env (maskedSingles inMask single l i) s =
      { put s (fillRegs inMask (fun j => read s.mem (s.x STATE + offset j) w) l i (get s)) with pc := pc } := by
  induction l with
  | nil => intro i s _; exact ⟨s.pc, (hk.put_get s).symm⟩
  | cons r rest ih =>
    intro i s hok
    have hrest : ∀ r ∈ rest, ok r := fun r hr => hok r (List.mem_cons_of_mem _ hr)
    rw [maskedSingles, run_append, fillRegs]
    by_cases hr : inMask r = true
    · obtain ⟨pc, h1⟩ := hs s r i
      rw [if_pos hr, if_pos hr, run_cons, run_nil, h1]
      generalize hv : read s.mem (s.x STATE + offset i) w = value
      obtain ⟨pc', h2⟩ := ih (i + 1) { put s (update (get s) r value) with pc := pc } hrest
      refine ⟨pc', ?_⟩
      rw [h2, hk.put_put, hk.get_put, hk.mem, hk.frame s r value pc (hok r List.mem_cons_self)]
    · rw [if_neg hr, if_neg hr, run_nil]
      exact ih (i + 1) s hrest

theorem run_maskedPairs_fill (hk : RegisterKind get put ok) (hp : LoadsPair get put offset pair env)
    (hs : LoadsSingle get put offset single env) : ∀ (l : List R) (i : Nat) (s : State), l.length % 2 = 0 →
    (∀ r ∈ l, ok r) → ∃ pc, run env (maskedPairs inMask pair single l i) s =
      { put s (fillRegs inMask (fun j => read s.mem (s.x STATE + offset j) w) l i (get s)) with pc := pc }
  | [], i, s, _, _ => ⟨s.pc, (hk.put_get s).symm⟩
  | [r], i, s, hlen, _ => absurd hlen (by simp)
  | r :: r' :: rest, i, s, hlen, hok => by
    have hlen' : rest.length % 2 = 0 := by
      rw [List.length_cons, List.length_cons] at hlen
      omega
    have hr_ok : ok r := hok r List.mem_cons_self
    have hr'_ok : ok r' := hok r' (List.mem_cons_of_mem _ List.mem_cons_self)
    have hrest : ∀ r ∈ rest, ok r := fun r hr => hok r (List.mem_cons_of_mem _ (List.mem_cons_of_mem _ hr))
    -- from here on with one of the two, or with both
    have hone : ∀ (a : R) (k : Nat), ok a → ∃ pc, run env (maskedPairs inMask pair single rest (i + 2))
        (Instr.exec env s (single a k)) =
        { put s (fillRegs inMask (fun j => read s.mem (s.x STATE + offset j) w) rest (i + 2)
            (update (get s) a (read s.mem (s.x STATE + offset k) w))) with pc := pc } := by
      intro a k ha
      obtain ⟨pc, h1⟩ := hs s a k
      generalize hv : read s.mem (s.x STATE + offset k) w = value at h1 ⊢
      obtain ⟨pc', h2⟩ := run_maskedPairs_fill hk hp hs rest (i + 2)
        { put s (update (get s) a value) with pc := pc } hlen' hrest
      refine ⟨pc', ?_⟩
      rw [h1, h2, hk.put_put, hk.get_put, hk.mem, hk.frame s a value pc ha]
    rw [maskedPairs, run_append, fillRegs, fillRegs]
    cases hr : inMask r <;> cases hr' : inMask r'
    · exact run_maskedPairs_fill hk hp hs rest (i + 2) s hlen' hrest
    · exact hone r' (i + 1) hr'_ok
    · exact hone r i hr_ok
    · obtain ⟨pc, h1⟩ := hp s r r' i
      generalize hv : read s.mem (s.x STATE + offset i) w = value at h1 ⊢
      generalize hv' : read s.mem (s.x STATE + offset (i + 1)) w = value' at h1 ⊢
      have hframe : { put s (update (update (get s) r value) r' value') with pc := pc }.x STATE =
          s.x STATE := by
        have h := hk.frame { put s (update (get s) r value) with pc := pc } r' value' pc hr'_ok
        rw [hk.put_put, hk.get_put, hk.frame s r value pc hr_ok] at h
        exact h
      obtain ⟨pc', h2⟩ := run_maskedPairs_fill hk hp hs rest (i + 2)
        { put s (update (update (get s) r value) r' value') with pc := pc } hlen' hrest
      refine ⟨pc', ?_⟩
      change run env (maskedPairs inMask pair single rest (i + 2)) (Instr.exec env s (pair r r' i)) = _
      rw [h1, h2, hk.put_put, hk.get_put, hk.mem, hframe]
      simp

end Fill

theorem kind_x : RegisterKind (fun s => s.x) (fun s f => { s with x := f }) (· ≠ STATE) where
  get_put _ _ _ := rfl
  put_put _ _ _ _ _ := rfl
  put_get _ := rfl
  mem _ _ _ := rfl
  frame _ _ _ _ hr := update_of_ne (Ne.symm hr) _ _

theorem kind_v : RegisterKind (fun s => s.v) (fun s f => { s with v := f }) (fun _ => True) where
  get_put _ _ _ := rfl
  put_put _ _ _ _ _ := rfl
  put_get _ := rfl
  mem _ _ _ := rfl
  frame _ _ _ _ _ := rfl

theorem loads_ldr : LoadsSingle (fun s => s.x) (fun s f => { s with x := f }) offsetGreg
    (fun r i => .ldr r (statePtr (offsetGreg i))) env :=
  fun s _ _ => ⟨s.pc + 4#64, rfl⟩

theorem loads_ldp : LoadsPair (fun s => s.x) (fun s f => { s with x := f }) offsetGreg
    (fun r r' i => .ldp r r' (statePtr (offsetGreg i))) env := by
  intro s r r' i
  refine ⟨s.pc + 4#64, ?_⟩
  have h : s.x STATE + offsetGreg (i + 1) = s.x STATE + offsetGreg i + 8#64 := by
    simp only [offsetGreg]
    bv_omega
  rw [h]
  rfl

theorem loads_ldrQ (offset : Nat → BitVec 64) : LoadsSingle (fun s => s.v) (fun s f => { s with v := f }) offset
    (fun r i => .ldrQ r (statePtr (offset i))) env :=
  fun s _ _ => ⟨s.pc + 4#64, rfl⟩

theorem loads_ldpQ : LoadsPair (fun s => s.v) (fun s f => { s with v := f }) offsetXmmSSE
    (fun r r' i => .ldpQ r r' (statePtr (offsetXmmSSE i))) env := by
  intro s r r' i
  refine ⟨s.pc + 4#64, ?_⟩
  have h : s.x STATE + offsetXmmSSE (i + 1) = s.x STATE + offsetXmmSSE i + 16#64 := by
    simp only [offsetXmmSSE]
    bv_omega
  rw [h]
  rfl

/-- The general registers of a mask as the frame has them. -/
def filledGPRs (mask : BitVec 32) (s : State) : XReg → BitVec 64 :=
  fillRegs (fun r : XReg => mask.getLsbD r) (fun j => read s.mem (s.x STATE + offsetGreg j) 64) SRA64 0 s.x

def filledFPRs (cfg : Config) (FPRs : Bool) (mask : BitVec 32) (s : State) : VReg → BitVec 128 :=
  if FPRs then
    fillRegs (fun r : VReg => mask.getLsbD r) (fun j => read s.mem (s.x STATE + offsetXmm cfg j) 128) SRAFPR 0 s.v
  else s.v

theorem fillStaticRegs_spec (cfg : Config) (hsra : cfg.staticRegisterAllocation = true) (FPRs : Bool)
    (GPRFillMask FPRFillMask : BitVec 32) (s : State) :
    ∃ pc, run env (fillStaticRegs cfg FPRs GPRFillMask FPRFillMask) s =
      { s with x := filledGPRs GPRFillMask s, v := filledFPRs cfg FPRs FPRFillMask s, pc := pc } := by
  rw [fillStaticRegs, if_pos hsra, run_append]
  obtain ⟨pc, hpairs⟩ := @run_maskedPairs_fill env XReg _ 64 (fun r => GPRFillMask.getLsbD r) _ _ _ _ _ _ kind_x loads_ldp
    loads_ldr SRA64 0 s rfl (by decide)
  have hframe : filledGPRs GPRFillMask s STATE = s.x STATE := fillRegs_of_notMem SRA64 0 _ _ (by decide)
  rw [hpairs, filledFPRs]
  change ∃ pc, run env _ { s with x := filledGPRs GPRFillMask s, pc := _ } = _
  cases FPRs with
  | false => exact ⟨pc, rfl⟩
  | true =>
    rw [if_pos rfl, if_pos rfl]
    cases havx : cfg.supportsAVX with
    | true =>
      simp only [offsetXmm, havx, if_true]
      obtain ⟨pc', h⟩ := @run_maskedSingles_fill env VReg _ 128 (fun r => FPRFillMask.getLsbD r) _ _ _ _ _ kind_v
        (loads_ldrQ offsetXmmAVX) SRAFPR 0 { s with x := filledGPRs GPRFillMask s, pc := pc } (fun _ _ => trivial)
      refine ⟨pc', ?_⟩
      rw [h, ← hframe]
    | false =>
      simp only [offsetXmm, havx, Bool.false_eq_true, if_false]
      obtain ⟨pc', h⟩ := @run_maskedPairs_fill env VReg _ 128 (fun r => FPRFillMask.getLsbD r) _ _ _ _ _ _ kind_v loads_ldpQ
        (loads_ldrQ offsetXmmSSE) SRAFPR 0 { s with x := filledGPRs GPRFillMask s, pc := pc } rfl (fun _ _ => trivial)
      refine ⟨pc', ?_⟩
      rw [h, ← hframe]

/-! ## Spilling -/

/-- The static registers of a mask are in the frame. -/
structure Spilled (cfg : Config) (FPRs : Bool) (mask : BitVec 32) (s : State) (m : Memory) : Prop where
  gprs : ∀ i (hi : i < SRA64.length), mask.getLsbD SRA64[i] → read m (s.x STATE + offsetGreg i) 64 = s.x SRA64[i]
  fprs : FPRs = true → ∀ i (hi : i < SRAFPR.length), read m (s.x STATE + offsetXmm cfg i) 128 = s.v SRAFPR[i]

/-- Where the registers of the guest end in the frame. -/
def guestRegsSize : Nat := 672

theorem Spilled.congr {cfg : Config} {FPRs : Bool} {mask : BitVec 32} {s : State} {m m' : Memory}
    (h : Spilled cfg FPRs mask s m) (hagree : Agree m' m (s.x STATE) guestRegsSize) : Spilled cfg FPRs mask s m' := by
  have hread : ∀ (o : BitVec 64) (w : Nat), o.toNat + (w + 7) / 8 ≤ guestRegsSize → w ≤ 2 ^ 64 →
      read m' (s.x STATE + o) w = read m (s.x STATE + o) w := by
    intro o w ho hw
    exact read_of_agree (hagree.mono (by rw [add_sub_cancel_left]; exact ho) (by decide)) hw
  refine ⟨fun i hi hm => ?_, fun hf i hi => ?_⟩
  · rw [hread _ 64 (by simp only [offsetGreg, guestRegsSize]; change i < 16 at hi; bv_omega) (by decide)]
    exact h.gprs i hi hm
  · rw [hread _ 128 _ (by decide)]
    · exact h.fprs hf i hi
    · change i < 16 at hi
      simp only [offsetXmm, guestRegsSize, offsetXmmAVX, offsetXmmSSE]
      split_ifs <;> bv_omega

section Spill
variable {cfg : Config} {frame : BitVec 64}

theorem apart_gregs {j k : Nat} (hjk : j < k) (hk : k < 16) :
    Apart (frame + offsetGreg k) ((64 + 7) / 8) (frame + offsetGreg j) ((64 + 7) / 8) := by
  simp only [offsetGreg]
  exact ⟨by bv_omega, by bv_omega⟩

theorem apart_xmms {j k : Nat} (hjk : j < k) (hk : k < 16) :
    Apart (frame + offsetXmm cfg k) ((128 + 7) / 8) (frame + offsetXmm cfg j) ((128 + 7) / 8) := by
  simp only [offsetXmm, offsetXmmAVX, offsetXmmSSE]
  split_ifs
  · exact ⟨by bv_omega, by bv_omega⟩
  · exact ⟨by bv_omega, by bv_omega⟩

theorem apart_xmm_greg {j k : Nat} (hj : j < 16) (hk : k < 16) :
    Apart (frame + offsetXmm cfg k) ((128 + 7) / 8) (frame + offsetGreg j) ((64 + 7) / 8) := by
  simp only [offsetXmm, offsetXmmAVX, offsetXmmSSE, offsetGreg]
  split_ifs
  · exact ⟨by bv_omega, by bv_omega⟩
  · exact ⟨by bv_omega, by bv_omega⟩

theorem greg_apart {b : BitVec 64} {n : Nat} (h : Apart frame guestRegsSize b n) (hn : 0 < n) {k : Nat} (hk : k < 16) :
    Apart (frame + offsetGreg k) ((64 + 7) / 8) b n := by
  refine h.inside ?_ (by simp) (by decide) hn
  simp only [offsetGreg, guestRegsSize]
  bv_omega

theorem xmm_apart {b : BitVec 64} {n : Nat} (h : Apart frame guestRegsSize b n) (hn : 0 < n) {k : Nat} (hk : k < 16) :
    Apart (frame + offsetXmm cfg k) ((128 + 7) / 8) b n := by
  refine h.inside ?_ (by simp) (by decide) hn
  simp only [offsetXmm, offsetXmmAVX, offsetXmmSSE, guestRegsSize]
  split_ifs
  · bv_omega
  · bv_omega

theorem spillStaticRegs_saves (hsra : cfg.staticRegisterAllocation = true) (FPRs : Bool) (mask : BitVec 32) (s : State) :
    ∃ pc m, run env (spillStaticRegs cfg FPRs mask allRegs) s = { s with mem := m, pc := pc } ∧ Spilled cfg FPRs mask s m ∧
      ∀ b n, Apart (s.x STATE) guestRegsSize b n → 0 < n → Agree m s.mem b n := by
  obtain ⟨pc, hrun⟩ := @spillStaticRegs_spec env cfg hsra FPRs mask allRegs s
  refine ⟨pc, _, hrun, ⟨fun i hi hm => ?_, fun hf i hi => ?_⟩, fun b n hb hn => ?_⟩
  · have hgpr := @read_spillMem XReg 64 (fun r => mask.getLsbD r) (fun r => s.x r) (fun j => s.x STATE + offsetGreg j)
      (by decide) SRA64 0 s.mem (fun j k _ hjk hk => apart_gregs hjk (by simpa [SRA64] using hk)) i hi hm
    rw [Nat.zero_add] at hgpr
    rw [spillVectors]
    split_ifs
    · refine (read_of_agree ?_ (by decide)).trans hgpr
      exact spillMem_agree SRAFPR 0 _ fun j _ hj => apart_xmm_greg (by simpa [SRA64] using hi) (by simpa [SRAFPR] using hj)
    · exact hgpr
  · have hall : ∀ r : VReg, allRegs.getLsbD r = true := by decide
    rw [spillVectors, if_pos hf]
    have hfpr := @read_spillMem VReg 128 (fun r => allRegs.getLsbD r) (fun r => s.v r)
      (fun j => s.x STATE + offsetXmm cfg j) (by decide) SRAFPR 0
      (spillMem (fun r : XReg => mask.getLsbD r) (fun r => s.x r) (fun j => s.x STATE + offsetGreg j) SRA64 0 s.mem)
      (fun j k _ hjk hk => apart_xmms hjk (by simpa [SRAFPR] using hk)) i hi (hall _)
    rw [Nat.zero_add] at hfpr
    exact hfpr
  · have hgprs := @spillMem_agree XReg 64 (fun r => mask.getLsbD r) (fun r => s.x r) (fun j => s.x STATE + offsetGreg j) b n
      SRA64 0 s.mem (fun j _ hj => greg_apart hb hn (by simpa [SRA64] using hj))
    rw [spillVectors]
    split_ifs
    · refine Agree.trans ?_ hgprs
      exact spillMem_agree SRAFPR 0 _ fun j _ hj => xmm_apart hb hn (by simpa [SRAFPR] using hj)
    · exact hgprs

end Spill

/-! ## The stack -/

/-- The dynamic vector registers and the link register are below the stack pointer. -/
structure Pushed (s : State) (m : Memory) : Prop where
  rafpr : ∀ i (hi : i < RAFPR.length), read m (s.sp - dynamicRegsSize + BitVec.ofNat 64 (16 * i)) 128 = s.v RAFPR[i]
  lr : read m (s.sp - dynamicRegsSize + BitVec.ofNat 64 (16 * RAFPR.length)) 64 = s.x lr

theorem Pushed.congr {s : State} {m m' : Memory} (h : Pushed s m)
    (hagree : Agree m' m (s.sp - dynamicRegsSize) dynamicRegsSize.toNat) : Pushed s m' := by
  have hread : ∀ (o : BitVec 64) (w : Nat), o.toNat + (w + 7) / 8 ≤ dynamicRegsSize.toNat → w ≤ 2 ^ 64 →
      read m' (s.sp - dynamicRegsSize + o) w = read m (s.sp - dynamicRegsSize + o) w := by
    intro o w ho hw
    exact read_of_agree (hagree.mono (by rw [add_sub_cancel_left]; exact ho) (by decide)) hw
  refine ⟨fun i hi => ?_, ?_⟩
  · rw [hread _ 128 (by simp only [dynamicRegsSize]; change i < 12 at hi; bv_omega) (by decide)]
    exact h.rafpr i hi
  · rw [hread _ 64 (by decide) (by decide)]
    exact h.lr

theorem run_strQ_sp (l : List VReg) : ∀ (k : Nat) (s : State), ∃ pc,
    run env ((l.zipIdx k).map fun (r, i) => .strQ r (spAt (16 * i))) s =
      { s with
          mem := spillMem (fun _ => true) s.v (fun j => s.sp + BitVec.ofNat 64 (16 * j)) l k s.mem
          pc := pc } := by
  induction l with
  | nil => intro k s; exact ⟨s.pc, rfl⟩
  | cons r rest ih =>
    intro k s
    obtain ⟨pc, h⟩ := ih (k + 1) (Instr.exec env s (.strQ r (spAt (16 * k))))
    exact ⟨pc, h⟩

theorem run_ldrQ_sp (l : List VReg) : ∀ (k : Nat) (s : State), ∃ pc,
    run env ((l.zipIdx k).map fun (r, i) => .ldrQ r (spAt (16 * i))) s =
      { s with
          v := fillRegs (fun _ => true) (fun j => read s.mem (s.sp + BitVec.ofNat 64 (16 * j)) 128) l k s.v
          pc := pc } := by
  induction l with
  | nil => intro k s; exact ⟨s.pc, rfl⟩
  | cons r rest ih =>
    intro k s
    obtain ⟨pc, h⟩ := ih (k + 1) (Instr.exec env s (.ldrQ r (spAt (16 * k))))
    exact ⟨pc, h⟩

theorem apart_stack {sp : BitVec 64} {j k : Nat} (hjk : j < k) (hk : k ≤ 12) :
    Apart (sp + BitVec.ofNat 64 (16 * k)) ((128 + 7) / 8) (sp + BitVec.ofNat 64 (16 * j)) ((128 + 7) / 8) := by
  exact ⟨by bv_omega, by bv_omega⟩

theorem pushDynamicRegsAndLR_spec (s : State) :
    ∃ pc m, run env pushDynamicRegsAndLR s = { s with sp := s.sp - dynamicRegsSize, mem := m, pc := pc } ∧ Pushed s m ∧
      ∀ b n, Apart (s.sp - dynamicRegsSize) dynamicRegsSize.toNat b n → 0 < n → Agree m s.mem b n := by
  rw [pushDynamicRegsAndLR, List.cons_append, run_cons, run_append]
  obtain ⟨pc, hq⟩ := @run_strQ_sp env RAFPR 0 (Instr.exec env s (.subImm .sp .sp dynamicRegsSize))
  rw [hq, run_cons, run_nil]
  refine ⟨pc + 4#64,
    write (spillMem (fun _ => true) s.v (fun j => s.sp - dynamicRegsSize + BitVec.ofNat 64 (16 * j)) RAFPR 0 s.mem)
      (s.sp - dynamicRegsSize + BitVec.ofNat 64 (16 * RAFPR.length)) (s.x lr),
    rfl, ⟨fun i hi => ?_, read_write _ (by decide)⟩, fun b n hb hn => ?_⟩
  · have hslot := @read_spillMem VReg 128 (fun _ => true) s.v (fun j => s.sp - dynamicRegsSize + BitVec.ofNat 64 (16 * j))
      (by decide) RAFPR 0 s.mem (fun j k _ hjk hk => apart_stack hjk (by change k < 0 + 12 at hk; omega)) i hi rfl
    rw [Nat.zero_add] at hslot
    rw [read_write_apart _ _ (by decide), hslot]
    have hapart := @apart_stack (s.sp - dynamicRegsSize) i RAFPR.length hi le_rfl
    exact hapart.inside (by rw [sub_self]; decide) (by rw [sub_self]; decide) (by decide) (by decide)
  · refine (write_agree _ ?_).trans (spillMem_agree RAFPR 0 s.mem fun j _ hj => ?_)
    · exact hb.inside (by rw [add_sub_cancel_left]; decide) (by simp) (by decide) hn
    · change j < 0 + 12 at hj
      refine hb.inside ?_ (by simp) (by decide) hn
      rw [add_sub_cancel_left]
      simp only [dynamicRegsSize]
      bv_omega

/-- The vector registers as the stack has them. -/
def poppedFPRs (s : State) : VReg → BitVec 128 :=
  fillRegs (fun _ => true) (fun j => read s.mem (s.sp + BitVec.ofNat 64 (16 * j)) 128) RAFPR 0 s.v

theorem popDynamicRegsAndLR_spec (s : State) : ∃ pc, run env popDynamicRegsAndLR s =
    { s with
        sp := s.sp + dynamicRegsSize
        x := update s.x lr (read s.mem (s.sp + BitVec.ofNat 64 (16 * RAFPR.length)) 64)
        v := poppedFPRs s
        pc := pc } := by
  rw [popDynamicRegsAndLR, run_append]
  obtain ⟨pc, hq⟩ := @run_ldrQ_sp env RAFPR 0 s
  rw [hq, run_cons, run_cons, run_nil]
  exact ⟨_, rfl⟩

/-! ## Everything back -/

section Back
variable {cfg : Config} {mask : BitVec 32} {s : State}

theorem filledGPRs_getElem {i : Nat} (hi : i < SRA64.length) : filledGPRs mask s SRA64[i] =
    if mask.getLsbD SRA64[i] then read s.mem (s.x STATE + offsetGreg i) 64 else s.x SRA64[i] := by
  rw [filledGPRs, fillRegs_getElem SRA64 0 s.x (by decide) i hi, Nat.zero_add]

theorem filledGPRs_of_notMem {r : XReg} (hr : r ∉ SRA64) : filledGPRs mask s r = s.x r :=
  fillRegs_of_notMem SRA64 0 s.x r hr

theorem filledFPRs_getElem {i : Nat} (hi : i < SRAFPR.length) :
    filledFPRs cfg true allRegs s SRAFPR[i] = read s.mem (s.x STATE + offsetXmm cfg i) 128 := by
  have hall : ∀ r : VReg, allRegs.getLsbD r = true := by decide
  rw [filledFPRs, if_pos rfl, fillRegs_getElem SRAFPR 0 s.v (by decide) i hi, if_pos (hall _), Nat.zero_add]

theorem filledFPRs_of_notMem {FPRs : Bool} {FPRMask : BitVec 32} {r : VReg} (hr : r ∉ SRAFPR) :
    filledFPRs cfg FPRs FPRMask s r = s.v r := by
  rw [filledFPRs]
  split_ifs
  · exact fillRegs_of_notMem SRAFPR 0 s.v r hr
  · rfl

theorem poppedFPRs_getElem {i : Nat} (hi : i < RAFPR.length) :
    poppedFPRs s RAFPR[i] = read s.mem (s.sp + BitVec.ofNat 64 (16 * i)) 128 := by
  rw [poppedFPRs, fillRegs_getElem RAFPR 0 s.v (by decide) i hi, if_pos rfl, Nat.zero_add]

theorem poppedFPRs_of_notMem {r : VReg} (hr : r ∉ RAFPR) : poppedFPRs s r = s.v r :=
  fillRegs_of_notMem RAFPR 0 s.v r hr

end Back

/-- From `u`, where a call came back, to `t`: the dynamic registers are those of `s`, the static ones of the mask those of
the frame. -/
structure Refilled (cfg : Config) (mask : BitVec 32) (s u t : State) : Prop where
  sp : t.sp = s.sp
  lr : t.x lr = s.x lr
  rafpr : ∀ r ∈ RAFPR, t.v r = s.v r
  sra64 : ∀ i (hi : i < SRA64.length), t.x SRA64[i] =
    if mask.getLsbD SRA64[i] then read u.mem (u.x STATE + offsetGreg i) 64 else u.x SRA64[i]
  srafpr : ∀ i (hi : i < SRAFPR.length), t.v SRAFPR[i] = read u.mem (u.x STATE + offsetXmm cfg i) 128
  others : ∀ r, r ∉ SRA64 → r ≠ Arm64.lr → t.x r = u.x r

section Back
variable {cfg : Config} {mask : BitVec 32} {s u : State}

theorem sub_add_dynamic (h : u.sp = s.sp - dynamicRegsSize) : u.sp + dynamicRegsSize = s.sp := by
  rw [h]
  ring

theorem fill_pop_spec (hsra : cfg.staticRegisterAllocation = true) (hsp : u.sp = s.sp - dynamicRegsSize)
    (hpushed : Pushed s u.mem) :
    Refilled cfg mask s u (run env (fillStaticRegs cfg true mask allRegs ++ popDynamicRegsAndLR) u) := by
  rw [run_append]
  obtain ⟨pc, hfill⟩ := @fillStaticRegs_spec env cfg hsra true mask allRegs u
  obtain ⟨pc', hpop⟩ := @popDynamicRegsAndLR_spec env (run env (fillStaticRegs cfg true mask allRegs) u)
  rw [hpop, hfill]
  refine ⟨sub_add_dynamic hsp, ?_, fun r hr => ?_, fun i hi => ?_, fun i hi => ?_, fun r hr hlr => ?_⟩
  · dsimp only
    rw [update_self, hsp]
    exact hpushed.lr
  · obtain ⟨i, hi, rfl⟩ := List.getElem_of_mem hr
    dsimp only
    rw [poppedFPRs_getElem hi, hsp]
    exact hpushed.rafpr i hi
  · have hne : SRA64[i] ≠ lr := fun he => absurd (he ▸ List.getElem_mem hi) (by decide : lr ∉ SRA64)
    dsimp only
    rw [update_of_ne hne, filledGPRs_getElem hi]
  · have hnot : SRAFPR[i] ∉ RAFPR := (by decide : ∀ r ∈ SRAFPR, r ∉ RAFPR) _ (List.getElem_mem hi)
    dsimp only
    rw [poppedFPRs_of_notMem hnot]
    dsimp only
    rw [filledFPRs_getElem hi]
  · dsimp only
    rw [update_of_ne hlr, filledGPRs_of_notMem hr]

theorem pop_fill_spec (hsra : cfg.staticRegisterAllocation = true) (hsp : u.sp = s.sp - dynamicRegsSize)
    (hpushed : Pushed s u.mem) :
    Refilled cfg mask s u (run env (popDynamicRegsAndLR ++ fillStaticRegs cfg true mask allRegs) u) := by
  rw [run_append]
  obtain ⟨pc', hpop⟩ := @popDynamicRegsAndLR_spec env u
  obtain ⟨pc, hfill⟩ := @fillStaticRegs_spec env cfg hsra true mask allRegs (run env popDynamicRegsAndLR u)
  rw [hfill, hpop]
  have hframe : ∀ value, update u.x lr value STATE = u.x STATE := fun _ => update_of_ne (by decide) _ _
  refine ⟨sub_add_dynamic hsp, ?_, fun r hr => ?_, fun i hi => ?_, fun i hi => ?_, fun r hr hlr => ?_⟩
  · dsimp only
    rw [filledGPRs_of_notMem (by decide)]
    dsimp only
    rw [update_self, hsp]
    exact hpushed.lr
  · have hnot : r ∉ SRAFPR := (by decide : ∀ r ∈ RAFPR, r ∉ SRAFPR) r hr
    obtain ⟨i, hi, rfl⟩ := List.getElem_of_mem hr
    dsimp only
    rw [filledFPRs_of_notMem hnot]
    dsimp only
    rw [poppedFPRs_getElem hi, hsp]
    exact hpushed.rafpr i hi
  · have hne : SRA64[i] ≠ lr := fun he => absurd (he ▸ List.getElem_mem hi) (by decide : lr ∉ SRA64)
    dsimp only
    rw [filledGPRs_getElem hi]
    dsimp only
    rw [hframe, update_of_ne hne]
  · dsimp only
    rw [filledFPRs_getElem hi]
    dsimp only
    rw [hframe]
  · dsimp only
    rw [filledGPRs_of_notMem hr]
    dsimp only
    rw [update_of_ne hlr]

end Back

end FexEmu.Arm64
