import FexEmu.Arm64.Emitter
/-!
# Registers on the stack

Registers that are pushed in pairs come back if the code in between leaves the stack pointer and the saved values alone.
-/
namespace FexEmu.Arm64

open ByteMemory
open Function (update update_apply update_self)

variable {env : Env}

/-- Memory is the same in the `n` bytes below an address. -/
def AgreeBelow (m m' : Memory) (sp : BitVec 64) (n : Nat) : Prop := ∀ c, c ≠ sp → (sp - c).toNat ≤ n → m c = m' c

/-- Memory is the same but for the `n` bytes below an address. -/
def AgreeElse (m m' : Memory) (sp : BitVec 64) (n : Nat) : Prop := ∀ c, c = sp ∨ n < (sp - c).toNat → m c = m' c

/-! ## Pairs -/

section Pairs
variable (r r' : XReg) (a : BitVec 64) (s : State)

theorem exec_stp_preIndex :
    (Instr.exec env s (.stp r r' ⟨.sp, a, .preIndex⟩)).sp = s.sp + a ∧
      (Instr.exec env s (.stp r r' ⟨.sp, a, .preIndex⟩)).x = s.x ∧
      (Instr.exec env s (.stp r r' ⟨.sp, a, .preIndex⟩)).v = s.v ∧
      (Instr.exec env s (.stp r r' ⟨.sp, a, .preIndex⟩)).mem =
        write (write s.mem (s.sp + a) (s.x r)) (s.sp + a + 8#64) (s.x r') :=
  ⟨rfl, rfl, rfl, rfl⟩

theorem exec_ldp_postIndex :
    (Instr.exec env s (.ldp r r' ⟨.sp, a, .postIndex⟩)).sp = s.sp + a ∧
      (Instr.exec env s (.ldp r r' ⟨.sp, a, .postIndex⟩)).x =
        update (update s.x r (read s.mem s.sp 64)) r' (read s.mem (s.sp + 8#64) 64) ∧
      (Instr.exec env s (.ldp r r' ⟨.sp, a, .postIndex⟩)).v = s.v ∧
      (Instr.exec env s (.ldp r r' ⟨.sp, a, .postIndex⟩)).mem = s.mem :=
  ⟨rfl, rfl, rfl, rfl⟩

end Pairs

def pushPairs (l : List (XReg × XReg)) : List Instr := l.map fun p => .stp p.1 p.2 ⟨.sp, -16#64, .preIndex⟩

def popPairs (l : List (XReg × XReg)) : List Instr := l.reverse.map fun p => .ldp p.1 p.2 ⟨.sp, 16#64, .postIndex⟩

def regsOf (l : List (XReg × XReg)) : List XReg := l.flatMap fun p => [p.1, p.2]

theorem pushPairs_cons (p : XReg × XReg) (l : List (XReg × XReg)) (s : State) : run env (pushPairs (p :: l)) s =
    run env (pushPairs l) (Instr.exec env s (.stp p.1 p.2 ⟨.sp, -16#64, .preIndex⟩)) := by
  rw [pushPairs, List.map_cons, run_cons, pushPairs]

theorem popPairs_cons (p : XReg × XReg) (l : List (XReg × XReg)) (s : State) : run env (popPairs (p :: l)) s =
    Instr.exec env (run env (popPairs l) s) (.ldp p.1 p.2 ⟨.sp, 16#64, .postIndex⟩) := by
  rw [popPairs, List.reverse_cons, List.map_append, run_append, List.map_singleton, run_cons, popPairs]
  rfl

theorem pushPairs_spec (l : List (XReg × XReg)) : ∀ s : State, 16 * l.length < 2 ^ 64 →
    (run env (pushPairs l) s).sp = s.sp - BitVec.ofNat 64 (16 * l.length) ∧ (run env (pushPairs l) s).x = s.x ∧
      (run env (pushPairs l) s).v = s.v ∧ AgreeElse (run env (pushPairs l) s).mem s.mem s.sp (16 * l.length) := by
  induction l with
  | nil =>
    intro s _
    exact ⟨by simp [pushPairs, run], rfl, rfl, fun _ _ => rfl⟩
  | cons p l ih =>
    intro s hlen
    rw [List.length_cons] at hlen
    rw [pushPairs_cons, List.length_cons]
    obtain ⟨h1, h2, h3, h4⟩ := ih (Instr.exec env s (.stp p.1 p.2 ⟨.sp, -16#64, .preIndex⟩)) (by omega)
    obtain ⟨e1, e2, e3, e4⟩ := @exec_stp_preIndex env p.1 p.2 (-16#64) s
    refine ⟨?_, h2.trans e2, h3.trans e3, ?_⟩
    · rw [h1]
      bv_omega
    · intro c hc
      rw [h4 c (by bv_omega), e4, write_of_le _ (by bv_omega), write_of_le _ (by bv_omega)]

theorem AgreeBelow.read {m m' : Memory} {sp a : BitVec 64} {n : Nat} (h : AgreeBelow m m' sp n) (hn : n < 2 ^ 64)
    (ha : (sp - a).toNat ≤ n) (h8 : 8 ≤ (sp - a).toNat) : read m a 64 = read m' a 64 := by
  apply read_of_agree
  · intro c hc
    exact h c (by bv_omega) (by bv_omega)
  · decide

theorem popPairs_spec (l : List (XReg × XReg)) : ∀ s t : State, 16 * l.length < 2 ^ 64 →
    t.sp = s.sp - BitVec.ofNat 64 (16 * l.length) →
    AgreeBelow t.mem (run env (pushPairs l) s).mem s.sp (16 * l.length) →
    (run env (popPairs l) t).sp = s.sp ∧ (run env (popPairs l) t).mem = t.mem ∧ (run env (popPairs l) t).v = t.v ∧
      ∀ r, (run env (popPairs l) t).x r = if r ∈ regsOf l then s.x r else t.x r := by
  induction l with
  | nil =>
    intro s t _ hsp _
    exact ⟨by simpa [popPairs, run] using hsp, rfl, rfl, fun r => by simp [popPairs, run, regsOf]⟩
  | cons p l ih =>
    intro s t hlen hsp hmem
    rw [List.length_cons] at hlen hsp hmem
    rw [pushPairs_cons] at hmem
    rw [popPairs_cons]
    obtain ⟨e1, e2, -, e4⟩ := @exec_stp_preIndex env p.1 p.2 (-16#64) s
    obtain ⟨-, -, -, h4⟩ := @pushPairs_spec env l (Instr.exec env s (.stp p.1 p.2 ⟨.sp, -16#64, .preIndex⟩)) (by omega)
    obtain ⟨i1, i2, i3, i4⟩ := ih (Instr.exec env s (.stp p.1 p.2 ⟨.sp, -16#64, .preIndex⟩)) t (by omega)
      (by rw [hsp, e1]; bv_omega) (fun c hc hle => hmem c (by rw [e1] at hc hle; bv_omega) (by rw [e1] at hc hle; bv_omega))
    rw [e1] at i1 h4
    obtain ⟨d1, d2, d3, d4⟩ := @exec_ldp_postIndex env p.1 p.2 16#64 (run env (popPairs l) t)
    rw [i1, i2] at d2
    -- what the first `stp` wrote is still there
    have hread : ∀ a, (s.sp - a).toNat ≤ 16 → 8 ≤ (s.sp - a).toNat →
        read t.mem a 64 = read (write (write s.mem (s.sp + -16#64) (s.x p.1)) (s.sp + -16#64 + 8#64) (s.x p.2)) a 64 := by
      intro a h16 h8
      rw [hmem.read hlen (by omega) h8, ← e4]
      apply read_of_agree
      · intro c hc
        exact h4 c (by bv_omega)
      · decide
    have h1 : read t.mem (s.sp + -16#64) 64 = s.x p.1 := by
      rw [hread _ (by bv_omega) (by bv_omega), read_write_apart _ ⟨by bv_omega, by bv_omega⟩ (by decide),
        read_write _ (by decide)]
    have h2 : read t.mem (s.sp + -16#64 + 8#64) 64 = s.x p.2 := by
      rw [hread _ (by bv_omega) (by bv_omega), read_write _ (by decide)]
    refine ⟨by rw [d1, i1]; bv_omega, d4.trans i2, d3.trans i3, fun r => ?_⟩
    rw [d2, h1, h2, update_apply, update_apply, i4 r, e2]
    have hmem_regs : r ∈ regsOf (p :: l) ↔ r = p.1 ∨ r = p.2 ∨ r ∈ regsOf l := by simp [regsOf]
    simp only [hmem_regs]
    by_cases hr2 : r = p.2
    · simp [hr2]
    · by_cases hr1 : r = p.1
      · rw [if_neg hr2, if_pos hr1, if_pos (.inl hr1), hr1]
      · simp [hr1, hr2]

/-! ## Vector registers -/

theorem lowD_setLane_zero (x : BitVec 128) (value : BitVec 64) : lowD (setLane x 0 value) = value := by
  apply BitVec.eq_of_getLsbD_eq
  intro i hi
  simp [lowD, setLane, hi]

section Quads
variable (r₀ r₁ r₂ r₃ : VReg) (r : XReg) (a : BitVec 64) (s : State)

/-- Four values one after the other. -/
def write4 (m : Memory) (a : BitVec 64) (x₀ x₁ x₂ x₃ : BitVec 64) : Memory :=
  write (write (write (write m a x₀) (a + 8#64) x₁) (a + 16#64) x₂) (a + 24#64) x₃

theorem exec_st4D_postIndex :
    (Instr.exec env s (.st4D r₀ r₁ r₂ r₃ ⟨.x r, a, .postIndex⟩)).sp = s.sp ∧
      (Instr.exec env s (.st4D r₀ r₁ r₂ r₃ ⟨.x r, a, .postIndex⟩)).x = update s.x r (s.x r + a) ∧
      (Instr.exec env s (.st4D r₀ r₁ r₂ r₃ ⟨.x r, a, .postIndex⟩)).v = s.v ∧
      (Instr.exec env s (.st4D r₀ r₁ r₂ r₃ ⟨.x r, a, .postIndex⟩)).mem =
        write4 s.mem (s.x r) (lowD (s.v r₀)) (lowD (s.v r₁)) (lowD (s.v r₂)) (lowD (s.v r₃)) :=
  ⟨rfl, rfl, rfl, rfl⟩

theorem exec_ld4D_postIndex :
    (Instr.exec env s (.ld4D r₀ r₁ r₂ r₃ ⟨.sp, a, .postIndex⟩)).sp = s.sp + a ∧
      (Instr.exec env s (.ld4D r₀ r₁ r₂ r₃ ⟨.sp, a, .postIndex⟩)).x = s.x ∧
      (Instr.exec env s (.ld4D r₀ r₁ r₂ r₃ ⟨.sp, a, .postIndex⟩)).mem = s.mem ∧
      (Instr.exec env s (.ld4D r₀ r₁ r₂ r₃ ⟨.sp, a, .postIndex⟩)).v =
        update (update (update (update s.v
          r₀ (setLane (s.v r₀) 0 (read s.mem s.sp 64))) r₁ (setLane (s.v r₁) 0 (read s.mem (s.sp + 8#64) 64)))
          r₂ (setLane (s.v r₂) 0 (read s.mem (s.sp + 16#64) 64))) r₃ (setLane (s.v r₃) 0 (read s.mem (s.sp + 24#64) 64)) :=
  ⟨rfl, rfl, rfl, rfl⟩

end Quads

variable {m : Memory} {a : BitVec 64} {x₀ x₁ x₂ x₃ : BitVec 64}

theorem write4_of_le {c : BitVec 64} (h : 32 ≤ (c - a).toNat) : write4 m a x₀ x₁ x₂ x₃ c = m c := by
  rw [write4, write_of_le _ (by bv_omega), write_of_le _ (by bv_omega), write_of_le _ (by bv_omega),
    write_of_le _ (by bv_omega)]

theorem read_write4_apart {b : BitVec 64} (h : 32 ≤ (b - a).toNat) (h' : 8 ≤ (a - b).toNat) :
    read (write4 m a x₀ x₁ x₂ x₃) b 64 = read m b 64 := by
  apply read_of_agree
  · intro c hc
    exact write4_of_le (by bv_omega)
  · decide

theorem read_write4 : read (write4 m a x₀ x₁ x₂ x₃) a 64 = x₀ ∧ read (write4 m a x₀ x₁ x₂ x₃) (a + 8#64) 64 = x₁ ∧
    read (write4 m a x₀ x₁ x₂ x₃) (a + 16#64) 64 = x₂ ∧ read (write4 m a x₀ x₁ x₂ x₃) (a + 24#64) 64 = x₃ := by
  have skip : ∀ (m : Memory) (x : BitVec 64) (b c : BitVec 64), 8 ≤ (c - b).toNat → 8 ≤ (b - c).toNat →
      read (write m b x) c 64 = read m c 64 := fun m x b c h h' => read_write_apart x ⟨h, h'⟩ (by decide)
  refine ⟨?_, ?_, ?_, ?_⟩
  · rw [write4, skip _ _ _ _ (by bv_omega) (by bv_omega), skip _ _ _ _ (by bv_omega) (by bv_omega),
      skip _ _ _ _ (by bv_omega) (by bv_omega), read_write _ (by decide)]
  · rw [write4, skip _ _ _ _ (by bv_omega) (by bv_omega), skip _ _ _ _ (by bv_omega) (by bv_omega),
      read_write _ (by decide)]
  · rw [write4, skip _ _ _ _ (by bv_omega) (by bv_omega), read_write _ (by decide)]
  · rw [write4, read_write _ (by decide)]

/-! ## The whole area -/

def pushVectors : List Instr :=
  [.subImm .sp .sp 64#64, .addImm (.x 19) .sp 0#64,
    .st4D 8 9 10 11 ⟨.x 19, 32#64, .postIndex⟩, .st4D 12 13 14 15 ⟨.x 19, 32#64, .postIndex⟩]

def popVectors : List Instr :=
  [.ld4D 12 13 14 15 ⟨.sp, 32#64, .postIndex⟩, .ld4D 8 9 10 11 ⟨.sp, 32#64, .postIndex⟩]

theorem pushCalleeSavedRegisters_eq : pushCalleeSavedRegisters = pushPairs calleeSaved ++ pushVectors := by
  simp [pushCalleeSavedRegisters, pushPairs, pushVectors]

theorem popCalleeSavedRegisters_eq : popCalleeSavedRegisters = popVectors ++ popPairs calleeSaved := by
  simp [popCalleeSavedRegisters, popPairs, popVectors]

section Steps
variable (d r : Base) (imm : BitVec 64) (s : State)

theorem exec_subImm_sp :
    (Instr.exec env s (.subImm .sp .sp imm)).sp = s.sp - imm ∧ (Instr.exec env s (.subImm .sp .sp imm)).x = s.x ∧
      (Instr.exec env s (.subImm .sp .sp imm)).v = s.v ∧ (Instr.exec env s (.subImm .sp .sp imm)).mem = s.mem :=
  ⟨rfl, rfl, rfl, rfl⟩

theorem exec_addImm_x_sp (d : XReg) :
    (Instr.exec env s (.addImm (.x d) .sp imm)).sp = s.sp ∧
      (Instr.exec env s (.addImm (.x d) .sp imm)).x = update s.x d (s.sp + imm) ∧
      (Instr.exec env s (.addImm (.x d) .sp imm)).v = s.v ∧ (Instr.exec env s (.addImm (.x d) .sp imm)).mem = s.mem :=
  ⟨rfl, rfl, rfl, rfl⟩

end Steps

/-- The low halves of `v8` to `v15` in memory, in this order. -/
def VectorsAt (m : Memory) (a : BitVec 64) (s : State) : Prop :=
  (read m a 64 = lowD (s.v 8) ∧ read m (a + 8#64) 64 = lowD (s.v 9) ∧ read m (a + 16#64) 64 = lowD (s.v 10) ∧
    read m (a + 24#64) 64 = lowD (s.v 11)) ∧
  read m (a + 32#64) 64 = lowD (s.v 12) ∧ read m (a + 32#64 + 8#64) 64 = lowD (s.v 13) ∧
    read m (a + 32#64 + 16#64) 64 = lowD (s.v 14) ∧ read m (a + 32#64 + 24#64) 64 = lowD (s.v 15)

theorem pushVectors_spec (s : State) :
    (run env pushVectors s).sp = s.sp - 64#64 ∧ AgreeElse (run env pushVectors s).mem s.mem s.sp 64 ∧
      VectorsAt (run env pushVectors s).mem (s.sp - 64#64) s ∧
      (run env pushVectors s).x = update s.x 19 ((run env pushVectors s).x 19) := by
  rw [pushVectors, run_cons, run_cons, run_cons, run_cons, run_nil]
  obtain ⟨a1, a2, a3, a4⟩ := @exec_subImm_sp env 64#64 s
  generalize Instr.exec env s (.subImm .sp .sp 64#64) = s1 at *
  obtain ⟨b1, b2, b3, b4⟩ := @exec_addImm_x_sp env 0#64 s1 19
  generalize Instr.exec env s1 (.addImm (.x 19) .sp 0#64) = s2 at *
  obtain ⟨c1, c2, c3, c4⟩ := @exec_st4D_postIndex env 8 9 10 11 19 32#64 s2
  generalize Instr.exec env s2 (.st4D 8 9 10 11 ⟨.x 19, 32#64, .postIndex⟩) = s3 at *
  obtain ⟨d1, d2, -, d4⟩ := @exec_st4D_postIndex env 12 13 14 15 19 32#64 s3
  have hx2 : s2.x 19 = s.sp - 64#64 := by rw [b2, update_self, a1, BitVec.add_zero]
  have hx3 : s3.x 19 = s.sp - 64#64 + 32#64 := by rw [c2, update_self, hx2]
  have hv2 : s2.v = s.v := by rw [b3, a3]
  have hv3 : s3.v = s.v := by rw [c3, hv2]
  rw [hx2, hv2, b4, a4] at c4
  rw [hx3, hv3, c4] at d4
  refine ⟨by rw [d1, c1, b1, a1], ?_, ⟨?_, ?_⟩, ?_⟩
  · intro c hc
    rw [d4, write4_of_le (by bv_omega), write4_of_le (by bv_omega)]
  · rw [d4]
    obtain ⟨e0, e1, e2, e3⟩ :=
      @read_write4 s.mem (s.sp - 64#64) (lowD (s.v 8)) (lowD (s.v 9)) (lowD (s.v 10)) (lowD (s.v 11))
    exact ⟨(read_write4_apart (by bv_omega) (by bv_omega)).trans e0,
      (read_write4_apart (by bv_omega) (by bv_omega)).trans e1,
      (read_write4_apart (by bv_omega) (by bv_omega)).trans e2,
      (read_write4_apart (by bv_omega) (by bv_omega)).trans e3⟩
  · rw [d4]
    exact read_write4
  · rw [d2, c2, b2, a2]
    simp

theorem popVectors_spec (t : State) :
    (run env popVectors t).sp = t.sp + 64#64 ∧ (run env popVectors t).mem = t.mem ∧ (run env popVectors t).x = t.x := by
  rw [popVectors, run_cons, run_cons, run_nil]
  obtain ⟨a1, a2, a3, -⟩ := @exec_ld4D_postIndex env 12 13 14 15 32#64 t
  generalize Instr.exec env t (.ld4D 12 13 14 15 ⟨.sp, 32#64, .postIndex⟩) = t1 at *
  obtain ⟨b1, b2, b3, -⟩ := @exec_ld4D_postIndex env 8 9 10 11 32#64 t1
  exact ⟨by rw [b1, a1]; bv_omega, b3.trans a3, b2.trans a2⟩

theorem popVectors_vectors (t s : State) (h : VectorsAt t.mem t.sp s) :
    (lowD ((run env popVectors t).v 12) = lowD (s.v 8) ∧ lowD ((run env popVectors t).v 13) = lowD (s.v 9) ∧
      lowD ((run env popVectors t).v 14) = lowD (s.v 10) ∧ lowD ((run env popVectors t).v 15) = lowD (s.v 11)) ∧
    lowD ((run env popVectors t).v 8) = lowD (s.v 12) ∧ lowD ((run env popVectors t).v 9) = lowD (s.v 13) ∧
      lowD ((run env popVectors t).v 10) = lowD (s.v 14) ∧ lowD ((run env popVectors t).v 11) = lowD (s.v 15) := by
  rw [popVectors, run_cons, run_cons, run_nil]
  obtain ⟨a1, -, a3, a4⟩ := @exec_ld4D_postIndex env 12 13 14 15 32#64 t
  generalize Instr.exec env t (.ld4D 12 13 14 15 ⟨.sp, 32#64, .postIndex⟩) = t1 at *
  obtain ⟨-, -, -, b4⟩ := @exec_ld4D_postIndex env 8 9 10 11 32#64 t1
  rw [a1, a3] at b4
  obtain ⟨⟨h0, h1, h2, h3⟩, h4, h5, h6, h7⟩ := h
  rw [h0, h1, h2, h3] at a4
  rw [h4, h5, h6, h7] at b4
  rw [b4]
  refine ⟨⟨?_, ?_, ?_, ?_⟩, ?_, ?_, ?_, ?_⟩
  all_goals simp [a4, lowD_setLane_zero]

end FexEmu.Arm64
