import FexEmu.Arm64.Emitter
/-!
# What the emitted code does

`LoadConstant` puts its constant into the register whichever way it chose, and changes nothing else.
-/
namespace FexEmu.Arm64

open ByteMemory
open Function (update)
open BitVec (eq_of_getLsbD_eq getLsbD_shiftLeft getLsbD_setWidth getLsbD_extractLsb' allOnes getLsbD_or getLsbD_and getLsbD_not getLsbD_zero)

variable {env : Env} {s : State}

theorem run_pc (c : List Instr) : ∀ s : State, (run env c s).pc = s.pc + BitVec.ofNat 64 (4 * c.length) := by
  induction c with
  | nil => intro s; simp [run_nil]
  | cons i c ih =>
    intro s
    rw [run_cons, ih, List.length_cons]
    change s.pc + 4#64 + _ = _
    bv_omega

theorem exec_append (e e' : Emit) (s : State) : (e ++ e').exec env s = e'.exec env (e.exec env s) := by
  change run env (e s.pc ++ e' (s.pc + BitVec.ofNat 64 (4 * (e s.pc).length))) s =
    run env (e' (run env (e s.pc) s).pc) (run env (e s.pc) s)
  rw [run_append, run_pc]

theorem exec_code (c : List Instr) (s : State) : (Emit.code c).exec env s = run env c s := rfl

/-! ## Constants -/

def firstBits (constant : BitVec 64) (n : Nat) : BitVec 64 := (constant.setWidth n).setWidth 64

theorem firstBits_full (constant : BitVec 64) : firstBits constant 64 = constant := by simp [firstBits]

theorem getLsbD_firstBits (constant : BitVec 64) (n i : Nat) :
    (firstBits constant n).getLsbD i = (decide (i < n) && constant.getLsbD i) := by
  by_cases hi : i < 64
  · simp [firstBits, hi]
  · simp [firstBits, hi, BitVec.getLsbD_of_ge constant i (by omega)]

theorem firstBits_movz (constant : BitVec 64) : (segment constant 0).setWidth 64 <<< 0 = firstBits constant 16 := by
  apply eq_of_getLsbD_eq
  intro i hi
  simp only [segment, getLsbD_firstBits, getLsbD_shiftLeft, getLsbD_setWidth, getLsbD_extractLsb']
  simp [hi]

theorem firstBits_movk (constant : BitVec 64) (k : Nat) (hk : k < 4) :
    (firstBits constant (16 * k) &&& ~~~((allOnes 16).setWidth 64 <<< (16 * k))) |||
      ((segment constant k).setWidth 64 <<< (16 * k)) = firstBits constant (16 * (k + 1)) := by
  apply eq_of_getLsbD_eq
  intro i hi
  simp only [segment, getLsbD_firstBits, getLsbD_or, getLsbD_and, getLsbD_not,
    getLsbD_shiftLeft, getLsbD_setWidth, BitVec.getLsbD_allOnes, getLsbD_extractLsb']
  by_cases h1 : i < 16 * k
  · have h2 : i < 16 * (k + 1) := by omega
    simp [hi, h1, h2]
  · have h5 : i - 16 * k < 64 := by omega
    by_cases h2 : i < 16 * (k + 1)
    · have h3 : i - 16 * k < 16 := by omega
      have h4 : 16 * k + (i - 16 * k) = i := by omega
      simp [hi, h1, h2, h3, h4, h5]
    · have h3 : ¬i - 16 * k < 16 := by omega
      simp [h1, h2, h3]

theorem firstBits_skip (constant : BitVec 64) (k : Nat) (h : segment constant k = 0) :
    firstBits constant (16 * k) = firstBits constant (16 * (k + 1)) := by
  apply eq_of_getLsbD_eq
  intro i hi
  rw [getLsbD_firstBits, getLsbD_firstBits]
  by_cases h1 : i < 16 * k
  · have h2 : i < 16 * (k + 1) := by omega
    simp [h1, h2]
  · by_cases h2 : i < 16 * (k + 1)
    · have hbit : (segment constant k).getLsbD (i - 16 * k) = false := by rw [h]; simp
      have h3 : i - 16 * k < 16 := by omega
      have h4 : 16 * k + (i - 16 * k) = i := by omega
      simp only [segment, getLsbD_extractLsb', h3, h4] at hbit
      simpa [h1, h2] using hbit
    · simp [h1, h2]

theorem exec_movz (r : XReg) (imm : BitVec 16) (shift : Nat) (s : State) :
    Instr.exec env s (.movz r imm shift) =
      { s with x := update s.x r (imm.setWidth 64 <<< shift), pc := s.pc + 4#64 } := rfl

theorem exec_movk (r : XReg) (imm : BitVec 16) (shift : Nat) (s : State) (value : BitVec 64) :
    Instr.exec env { s with x := update s.x r value } (.movk r imm shift) =
      { s with x := update s.x r ((value &&& ~~~((allOnes 16).setWidth 64 <<< shift)) |||
          (imm.setWidth 64 <<< shift)), pc := s.pc + 4#64 } := by
  simp [Instr.exec, Instr.effect, State.setX]

theorem run_movk (r : XReg) (constant : BitVec 64) (k : Nat) (hk : k < 4) (ks : List Nat) (s : State) :
    ∃ pc, run env ((([k] ++ ks).filter (fun i => segment constant i ≠ 0)).map fun i => .movk r (segment constant i) (16 * i))
        { s with x := update s.x r (firstBits constant (16 * k)) } =
      run env ((ks.filter (fun i => segment constant i ≠ 0)).map fun i => .movk r (segment constant i) (16 * i))
        { s with x := update s.x r (firstBits constant (16 * (k + 1))), pc := pc } := by
  by_cases hz : segment constant k = 0
  · refine ⟨s.pc, ?_⟩
    rw [List.singleton_append, List.filter_cons_of_neg (by simpa using hz), firstBits_skip constant k hz]
  · refine ⟨s.pc + 4#64, ?_⟩
    rw [List.singleton_append, List.filter_cons_of_pos (by simpa using hz), List.map_cons, run_cons, exec_movk,
      firstBits_movk constant k hk]

theorem moves_spec (r : XReg) (constant : BitVec 64) (s : State) :
    ∃ pc, run env (moves r constant) s = { s with x := update s.x r constant, pc := pc } := by
  rw [moves, run_cons, exec_movz, firstBits_movz]
  obtain ⟨pc1, h1⟩ := @run_movk env r constant 1 (by decide) [2, 3] { s with pc := s.pc + 4#64 }
  obtain ⟨pc2, h2⟩ := @run_movk env r constant 2 (by decide) [3] { s with pc := pc1 }
  obtain ⟨pc3, h3⟩ := @run_movk env r constant 3 (by decide) [] { s with pc := pc2 }
  refine ⟨pc3, (h1.trans h2).trans (h3.trans ?_)⟩
  rw [List.filter_nil, List.map_nil, run_nil, firstBits_full]

theorem and_low_add (x : BitVec 64) : (x &&& ~~~0xFFF#64) + (x &&& 0xFFF#64) = x := by
  rw [BitVec.add_eq_or_of_and_eq_zero _ _ ?_]
  · apply eq_of_getLsbD_eq
    intro i hi
    simp only [getLsbD_or, getLsbD_and, getLsbD_not, hi]
    cases x.getLsbD i <;> cases (0xFFF#64).getLsbD i <;> rfl
  · apply eq_of_getLsbD_eq
    intro i hi
    simp only [getLsbD_and, getLsbD_not, getLsbD_zero, hi]
    cases x.getLsbD i <;> cases (0xFFF#64).getLsbD i <;> rfl

theorem toNat_and_low (x : BitVec 64) : (x &&& 0xFFF#64).toNat = x.toNat % 4096 := by
  exact Nat.and_two_pow_sub_one_eq_mod x.toNat 12

theorem sshiftRight_shiftLeft (x : BitVec 64) : x.sshiftRight 12 <<< 12 = x &&& ~~~0xFFF#64 := by
  apply eq_of_getLsbD_eq
  intro i hi
  have hlow : (0xFFF#64).getLsbD i = decide (i < 12) := by
    have h : (0xFFF#64) = (allOnes 12).setWidth 64 := by decide
    rw [h, getLsbD_setWidth, BitVec.getLsbD_allOnes]
    simp [hi]
  rw [getLsbD_shiftLeft, BitVec.getLsbD_sshiftRight, getLsbD_and, getLsbD_not, hlow]
  by_cases h12 : i < 12
  · simp [h12]
  · have h1 : 12 + (i - 12) = i := by omega
    have h2 : ¬64 ≤ i - 12 := by omega
    simp [hi, h12, h1, h2]

theorem constantCode_spec (r : XReg) (constant : BitVec 64) (s : State) :
    ∃ pc, run env (constantCode s.pc r constant) s = { s with x := update s.x r constant, pc := pc } := by
  rw [constantCode]
  set page := s.pc &&& ~~~0xFFF#64 with hpage
  have hlow : page.toNat % 4096 = 0 := by
    rw [← toNat_and_low, hpage]
    have hz : s.pc &&& ~~~0xFFF#64 &&& 0xFFF#64 = 0#64 := by
      apply eq_of_getLsbD_eq
      intro i hi
      simp only [getLsbD_and, getLsbD_not, getLsbD_zero, hi]
      cases s.pc.getLsbD i <;> cases (0xFFF#64).getLsbD i <;> rfl
    rw [hz]
    rfl
  have hsum := and_low_add (constant - page)
  split_ifs with h1 h2 h3
  · refine ⟨s.pc + 4#64, ?_⟩
    have hc : page + (constant - page).sshiftRight 12 <<< 12 = constant := by
      rw [sshiftRight_shiftLeft]
      rw [h2, add_zero] at hsum
      rw [hsum]
      ring
    rw [run_cons, run_nil, Instr.exec, Instr.effect, ← hpage, hc]
    rfl
  · refine ⟨s.pc + 4#64, ?_⟩
    have hc : s.pc + (constant - s.pc) = constant := by ring
    rw [run_cons, run_nil, Instr.exec, Instr.effect, hc]
    rfl
  · have hlow' : constant &&& 0xFFF#64 = (constant - page) &&& 0xFFF#64 := by
      apply BitVec.eq_of_toNat_eq
      rw [toNat_and_low, toNat_and_low, BitVec.toNat_sub]
      omega
    have hc : page + (constant - page).sshiftRight 12 <<< 12 + (constant &&& 0xFFF#64) = constant := by
      rw [sshiftRight_shiftLeft, hlow', BitVec.add_assoc, hsum]
      ring
    refine ⟨s.pc + 4#64 + 4#64, ?_⟩
    rw [run_cons, run_cons, run_nil]
    simp only [Instr.exec, Instr.effect, State.setX, State.set, State.get, Function.update_self, Function.update_idem]
    rw [← hpage, hc]
  · exact moves_spec r constant s

theorem run_nops (n : Nat) : ∀ s : State, ∃ pc, run env (List.replicate n .nop) s = { s with pc := pc } := by
  induction n with
  | zero => intro s; exact ⟨s.pc, rfl⟩
  | succ n ih =>
    intro s
    obtain ⟨pc, h⟩ := ih (Instr.exec env s .nop)
    exact ⟨pc, h⟩

theorem movn_segment {constant : BitVec 64} (h : ~~~constant >>> 16 = 0) :
    ~~~((segment (~~~constant) 0).setWidth 64) = constant := by
  apply eq_of_getLsbD_eq
  intro i hi
  simp only [segment, getLsbD_not, getLsbD_setWidth, getLsbD_extractLsb', hi]
  by_cases h16 : i < 16
  · simp [h16, hi]
  · have hbit : (~~~constant >>> 16).getLsbD (i - 16) = false := by rw [h]; simp
    have h1 : 16 + (i - 16) = i := by omega
    rw [BitVec.getLsbD_ushiftRight, h1, getLsbD_not] at hbit
    simpa [h16, hi] using hbit

theorem loadConstant_spec (r : XReg) (constant : BitVec 64) (NOPPad : Bool) (s : State) :
    ∃ pc, (loadConstant r constant NOPPad).exec env s = { s with x := update s.x r constant, pc := pc } := by
  rw [Emit.exec, loadConstant]
  split_ifs with h hpad hpad
  · obtain ⟨pc, hnops⟩ := @run_nops env 3 (Instr.exec env s (.movn r (segment (~~~constant) 0)))
    refine ⟨pc, ?_⟩
    rw [run_cons]
    refine hnops.trans ?_
    rw [Instr.exec, Instr.effect, movn_segment h]
    rfl
  · refine ⟨s.pc + 4#64, ?_⟩
    rw [run_cons, run_nil, Instr.exec, Instr.effect, movn_segment h]
    rfl
  · obtain ⟨pc, hcode⟩ := @constantCode_spec env r constant s
    obtain ⟨pc', hnops⟩ := @run_nops env (4 - (constantCode s.pc r constant).length)
      { s with x := update s.x r constant, pc := pc }
    refine ⟨pc', ?_⟩
    rw [run_append, hcode, hnops]
  · obtain ⟨pc, hcode⟩ := @constantCode_spec env r constant s
    refine ⟨pc, ?_⟩
    rw [List.append_nil, hcode]

/-! ## Static registers -/

section Masked
variable {R : Type} [DecidableEq R] {w : Nat}

/-- Memory after registers were stored into their slots. -/
def spillMem (inMask : R → Bool) (value : R → BitVec w) (slot : Nat → BitVec 64) : List R → Nat → Memory → Memory
  | r :: rest, i, m => spillMem inMask value slot rest (i + 1) (if inMask r then write m (slot i) (value r) else m)
  | [], _, m => m

/-- Registers after they were loaded from their slots. -/
def fillRegs (inMask : R → Bool) (content : Nat → BitVec w) : List R → Nat → (R → BitVec w) → R → BitVec w
  | r :: rest, i, f => fillRegs inMask content rest (i + 1) (if inMask r then update f r (content i) else f)
  | [], _, f => f

variable {inMask : R → Bool} {value : R → BitVec w} {slot : Nat → BitVec 64} {content : Nat → BitVec w}

omit [DecidableEq R] in
theorem spillMem_of_le (l : List R) : ∀ (i : Nat) (m : Memory) (b : BitVec 64),
    (∀ j, i ≤ j → j < i + l.length → w ≤ 8 * (b - slot j).toNat) → spillMem inMask value slot l i m b = m b := by
  induction l with
  | nil => intro i m b _; rfl
  | cons r rest ih =>
    intro i m b h
    rw [spillMem, ih (i + 1) _ b (fun j hj hlt => h j (by omega) (by rw [List.length_cons]; omega))]
    split_ifs
    · exact write_of_le _ (h i le_rfl (by simp))
    · rfl

theorem fillRegs_of_notMem (l : List R) : ∀ (i : Nat) (f : R → BitVec w) (r : R), r ∉ l → fillRegs inMask content l i f r = f r := by
  induction l with
  | nil => intro i f r _; rfl
  | cons r' rest ih =>
    intro i f r h
    rw [List.mem_cons, not_or] at h
    rw [fillRegs, ih (i + 1) _ r h.2]
    split_ifs
    · rw [Function.update_of_ne h.1]
    · rfl

end Masked

section Spill
variable {R : Type} {w : Nat} (inMask : R → Bool) (value : State → R → BitVec w) (offset : Nat → BitVec 64)
  (pair : R → R → Nat → Instr) (single : R → Nat → Instr)

/-- A store of a register into the frame. -/
def StoresSingle (env : Env) : Prop := ∀ s r i, ∃ pc, Instr.exec env s (single r i) =
  { s with mem := write s.mem (s.x STATE + offset i) (value s r), pc := pc }

/-- The instruction stores two registers to neighbouring slots. -/
def StoresPair (env : Env) : Prop := ∀ s r r' i, ∃ pc, Instr.exec env s (pair r r' i) =
  { s with mem := write (write s.mem (s.x STATE + offset i) (value s r)) (s.x STATE + offset (i + 1)) (value s r'), pc := pc }

variable {inMask value offset pair single}

/-- The values do not depend on what the stores change. -/
def ValueKept (value : State → R → BitVec w) : Prop := ∀ s m pc, value { s with mem := m, pc := pc } = value s

theorem run_maskedSingles_spill (hs : StoresSingle value offset single env) (hv : ValueKept value) (l : List R) :
    ∀ (i : Nat) (s : State), ∃ pc, run env (maskedSingles inMask single l i) s =
      { s with mem := spillMem inMask (value s) (fun j => s.x STATE + offset j) l i s.mem, pc := pc } := by
  induction l with
  | nil => intro i s; exact ⟨s.pc, rfl⟩
  | cons r rest ih =>
    intro i s
    rw [maskedSingles, run_append, spillMem]
    by_cases hr : inMask r = true
    · obtain ⟨pc, h1⟩ := hs s r i
      obtain ⟨pc', h2⟩ := ih (i + 1) { s with mem := write s.mem (s.x STATE + offset i) (value s r), pc := pc }
      refine ⟨pc', ?_⟩
      rw [if_pos hr, if_pos hr, run_cons, run_nil, h1, h2, hv s _ pc]
    · rw [if_neg hr, if_neg hr, run_nil]
      exact ih (i + 1) s

theorem run_maskedPairs_spill (hp : StoresPair value offset pair env) (hs : StoresSingle value offset single env)
    (hv : ValueKept value) : ∀ (l : List R) (i : Nat) (s : State), l.length % 2 = 0 →
    ∃ pc, run env (maskedPairs inMask pair single l i) s =
      { s with mem := spillMem inMask (value s) (fun j => s.x STATE + offset j) l i s.mem, pc := pc }
  | [], i, s, _ => ⟨s.pc, rfl⟩
  | [r], i, s, hlen => absurd hlen (by simp)
  | r :: r' :: rest, i, s, hlen => by
    have hlen' : rest.length % 2 = 0 := by
      rw [List.length_cons, List.length_cons] at hlen
      omega
    rw [maskedPairs, run_append, spillMem, spillMem]
    cases hr : inMask r <;> cases hr' : inMask r'
    · exact run_maskedPairs_spill hp hs hv rest (i + 2) s hlen'
    · obtain ⟨pc, h1⟩ := hs s r' (i + 1)
      obtain ⟨pc', h2⟩ := run_maskedPairs_spill hp hs hv rest (i + 2)
        { s with mem := write s.mem (s.x STATE + offset (i + 1)) (value s r'), pc := pc } hlen'
      refine ⟨pc', ?_⟩
      change run env (maskedPairs inMask pair single rest (i + 2)) (Instr.exec env s (single r' (i + 1))) = _
      rw [h1, h2, hv s _ pc]
      rfl
    · obtain ⟨pc, h1⟩ := hs s r i
      obtain ⟨pc', h2⟩ := run_maskedPairs_spill hp hs hv rest (i + 2)
        { s with mem := write s.mem (s.x STATE + offset i) (value s r), pc := pc } hlen'
      refine ⟨pc', ?_⟩
      change run env (maskedPairs inMask pair single rest (i + 2)) (Instr.exec env s (single r i)) = _
      rw [h1, h2, hv s _ pc]
      rfl
    · obtain ⟨pc, h1⟩ := hp s r r' i
      obtain ⟨pc', h2⟩ := run_maskedPairs_spill hp hs hv rest (i + 2)
        { s with
            mem := write (write s.mem (s.x STATE + offset i) (value s r)) (s.x STATE + offset (i + 1)) (value s r')
            pc := pc } hlen'
      refine ⟨pc', ?_⟩
      change run env (maskedPairs inMask pair single rest (i + 2)) (Instr.exec env s (pair r r' i)) = _
      rw [h1, h2, hv s _ pc]
      rfl

end Spill

theorem stores_str : StoresSingle (fun s r => s.x r) offsetGreg (fun r i => .str r (statePtr (offsetGreg i))) env :=
  fun s _ _ => ⟨s.pc + 4#64, rfl⟩

theorem stores_stp :
    StoresPair (fun s r => s.x r) offsetGreg (fun r r' i => .stp r r' (statePtr (offsetGreg i))) env := by
  intro s r r' i
  refine ⟨s.pc + 4#64, ?_⟩
  have h : s.x STATE + offsetGreg (i + 1) = s.x STATE + offsetGreg i + 8#64 := by
    simp only [offsetGreg]
    bv_omega
  rw [h]
  rfl

theorem stores_strQ_AVX :
    StoresSingle (fun s r => s.v r) offsetXmmAVX (fun r i => .strQ r (statePtr (offsetXmmAVX i))) env :=
  fun s _ _ => ⟨s.pc + 4#64, rfl⟩

theorem stores_strQ_SSE :
    StoresSingle (fun s r => s.v r) offsetXmmSSE (fun r i => .strQ r (statePtr (offsetXmmSSE i))) env :=
  fun s _ _ => ⟨s.pc + 4#64, rfl⟩

theorem stores_stpQ :
    StoresPair (fun s r => s.v r) offsetXmmSSE (fun r r' i => .stpQ r r' (statePtr (offsetXmmSSE i))) env := by
  intro s r r' i
  refine ⟨s.pc + 4#64, ?_⟩
  have h : s.x STATE + offsetXmmSSE (i + 1) = s.x STATE + offsetXmmSSE i + 16#64 := by
    simp only [offsetXmmSSE]
    bv_omega
  rw [h]
  rfl

/-- Where the emitter keeps a vector register in the frame. -/
def offsetXmm (cfg : Config) (i : Nat) : BitVec 64 := if cfg.supportsAVX then offsetXmmAVX i else offsetXmmSSE i

/-- Memory after the vector registers of a mask were stored, if they are to be. -/
def spillVectors (cfg : Config) (FPRs : Bool) (mask : BitVec 32) (s : State) (m : Memory) : Memory :=
  if FPRs then
    spillMem (fun r : VReg => mask.getLsbD r) (fun r => s.v r) (fun j => s.x STATE + offsetXmm cfg j) SRAFPR 0 m
  else m

theorem spillStaticRegs_spec (cfg : Config) (hsra : cfg.staticRegisterAllocation = true) (FPRs : Bool)
    (GPRSpillMask FPRSpillMask : BitVec 32) (s : State) :
    ∃ pc, run env (spillStaticRegs cfg FPRs GPRSpillMask FPRSpillMask) s =
      { s with
          mem := spillVectors cfg FPRs FPRSpillMask s (spillMem (fun r : XReg => GPRSpillMask.getLsbD r) (fun r => s.x r)
            (fun j => s.x STATE + offsetGreg j) SRA64 0 s.mem)
          pc := pc } := by
  rw [spillStaticRegs, if_pos hsra, run_append]
  obtain ⟨pc, hpairs⟩ := @run_maskedPairs_spill env XReg 64 (fun r => GPRSpillMask.getLsbD r) _ _ _ _ stores_stp stores_str
    (fun _ _ _ => rfl) SRA64 0 s rfl
  rw [hpairs, spillVectors]
  cases FPRs with
  | false => exact ⟨pc, rfl⟩
  | true =>
    rw [if_pos rfl, if_pos rfl]
    cases havx : cfg.supportsAVX with
    | true =>
      simp only [offsetXmm, havx, if_true]
      exact run_maskedSingles_spill stores_strQ_AVX (fun _ _ _ => rfl) SRAFPR 0 _
    | false =>
      rw [if_neg (by simp)]
      simp only [offsetXmm, havx]
      exact run_maskedPairs_spill stores_stpQ stores_strQ_SSE (fun _ _ _ => rfl) SRAFPR 0 _ rfl

end FexEmu.Arm64
