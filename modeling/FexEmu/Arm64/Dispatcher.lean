import FexEmu.Arm64.CalleeSaved
import FexEmu.Arm64.EmitterProofs
/-!
# Into the dispatcher and out of it

The host enters guest code over `DispatchPtr` or `CallbackPtr`. Both ends save and restore the host's registers.
-/
namespace FexEmu.Arm64

open ByteMemory
open Function (update update_of_ne)

variable {env : Env}

/-! ## The code -/

/-- The ways in, up to the first instruction that both have. `push` is `PushCalleeSavedRegisters` alone. -/
inductive Entry
  | push
  | dispatchPtr
  | callbackPtr (callbackReturn : BitVec 64)
deriving DecidableEq, Repr

def Entry.code : Entry → Emit
  | .push => .code pushCalleeSavedRegisters
  | .dispatchPtr =>
    .code pushCalleeSavedRegisters ++
      .code [.mov STATE 0, .addImm (.x 0) .sp 0#64, .str 0 (statePtr offsetReturningStackLocation)]
  | .callbackPtr callbackReturn =>
    .code pushCalleeSavedRegisters ++
      .code [.mov STATE 0,
        -- the reference counter keeps the code cache
        .ldrW 2 (statePtr offsetSignalHandlerRefCounter), .addImmW 2 2 1#32,
        .strW 2 (statePtr offsetSignalHandlerRefCounter)] ++
      loadConstant 0 callbackReturn false ++
      .code [.ldr 2 (statePtr (offsetGreg REG_RSP)), .subImm (.x 2) (.x 2) 16#64, .str 2 (statePtr (offsetGreg REG_RSP)),
        .str 0 ⟨.x 2, 0#64, .offset⟩, .str 1 (statePtr offsetRip)]

/-- The ways out. `threadStopHandler` is `PopCalleeSavedRegisters` alone. -/
inductive Exit
  | threadStopHandler
  | threadStopHandlerSpillSRA
  | callbackReturn (spillSlots : Nat)
deriving DecidableEq, Repr

def Exit.before (cfg : Config) : Exit → Emit
  | .threadStopHandler => .code []
  | .threadStopHandlerSpillSRA => .code (spillStaticRegs cfg true allRegs allRegs)
  | .callbackReturn spillSlots =>
    .code (spillStaticRegs cfg true allRegs allRegs) ++ resetStack spillSlots ++
      .code [.ldrW 2 (statePtr offsetSignalHandlerRefCounter), .subImmW 2 2 1#32,
        .strW 2 (statePtr offsetSignalHandlerRefCounter),
        .ldr 2 (statePtr (offsetGreg REG_RSP)), .addImm (.x 2) (.x 2) 8#64, .str 2 (statePtr (offsetGreg REG_RSP))]

def Exit.code (cfg : Config) (exit : Exit) : Emit := exit.before cfg ++ .code popCalleeSavedRegisters

/-- How far below the saved registers the stack is where the way out begins. -/
def Exit.stack : Exit → Nat
  | .threadStopHandler => 0
  | .threadStopHandlerSpillSRA => 0
  | .callbackReturn spillSlots => 16 * spillSlots

def savedSize : Nat := 160

/-- The registers that AAPCS64 lets a caller keep values in. -/
structure Restored (s t : State) : Prop where
  gprs : ∀ r : XReg, 19 ≤ r → t.x r = s.x r
  sp : t.sp = s.sp
  vectors : ∀ r : VReg, 8 ≤ r → r ≤ 15 → lowD (t.v r) = lowD (s.v r)

/-- The saved registers do not meet the frame. -/
def FrameApart (frame sp : BitVec 64) : Prop := ∀ c, c ≠ sp → (sp - c).toNat ≤ savedSize → 1008 ≤ (c - frame).toNat

/-- The stores of a way in lie outside of the saved registers. -/
def Entry.Apart (s : State) : Entry → Prop
  | .push => True
  | .dispatchPtr => FrameApart (s.x 0) s.sp
  | .callbackPtr _ => FrameApart (s.x 0) s.sp ∧
    ∀ c, c ≠ s.sp → (s.sp - c).toNat ≤ savedSize → 8 ≤ (c - (read s.mem (s.x 0 + offsetGreg REG_RSP) 64 - 16#64)).toNat

/-- All exits but the stop handler find their stack in the frame. -/
def Exit.Apart (t : State) (sp : BitVec 64) : Exit → Prop
  | .threadStopHandler => True
  | _ => FrameApart (t.x STATE) sp

/-- The quads that PopCalleeSavedRegisters loads in the wrong order hold the same values. -/
def QuadsEqual (s : State) : Prop :=
  lowD (s.v 8) = lowD (s.v 12) ∧ lowD (s.v 9) = lowD (s.v 13) ∧ lowD (s.v 10) = lowD (s.v 14) ∧ lowD (s.v 11) = lowD (s.v 15)

/-! ## Push and pop -/

theorem AgreeBelow.trans {m m' m'' : Memory} {sp : BitVec 64} {n : Nat} (h : AgreeBelow m m' sp n)
    (h' : AgreeBelow m' m'' sp n) : AgreeBelow m m'' sp n :=
  fun c hc hle => (h c hc hle).trans (h' c hc hle)

theorem VectorsAt.congr {m m' : Memory} {a : BitVec 64} {s : State} (h : VectorsAt m a s)
    (hmem : ∀ c, (c - a).toNat < 64 → m c = m' c) : VectorsAt m' a s := by
  have hread : ∀ b, (b - a).toNat ≤ 56 → read m b 64 = read m' b 64 := by
    intro b hb
    apply read_of_agree
    · intro c hc
      exact hmem c (by bv_omega)
    · decide
  rw [VectorsAt, hread _ (by bv_omega), hread _ (by bv_omega), hread _ (by bv_omega), hread _ (by bv_omega),
    hread _ (by bv_omega), hread _ (by bv_omega), hread _ (by bv_omega), hread _ (by bv_omega)] at h
  exact h

theorem push_spec (s : State) : (run env pushCalleeSavedRegisters s).sp = s.sp - 160#64 ∧
    (run env pushCalleeSavedRegisters s).x = update s.x 19 ((run env pushCalleeSavedRegisters s).x 19) ∧
    AgreeElse (run env pushCalleeSavedRegisters s).mem s.mem s.sp savedSize ∧
    AgreeBelow (run env pushCalleeSavedRegisters s).mem (run env (pushPairs calleeSaved) s).mem s.sp 96 ∧
    VectorsAt (run env pushCalleeSavedRegisters s).mem (s.sp - 160#64) s := by
  rw [pushCalleeSavedRegisters_eq, run_append]
  obtain ⟨h1, h2, h3, h4⟩ := @pushPairs_spec env calleeSaved s (by decide)
  change _ = s.sp - 96#64 at h1
  change AgreeElse _ _ _ 96 at h4
  generalize run env (pushPairs calleeSaved) s = s1 at *
  obtain ⟨h5, h6, h7, h8⟩ := @pushVectors_spec env s1
  have hsp : s1.sp - 64#64 = s.sp - 160#64 := by rw [h1]; bv_omega
  refine ⟨h5.trans hsp, ?_, ?_, ?_, ?_⟩
  · rw [h8, h2, Function.update_self]
  · intro c hc
    simp only [savedSize] at hc
    rw [h6 c (by bv_omega), h4 c (hc.imp_right fun h => by omega)]
  · intro c hc hle
    exact h6 c (by bv_omega)
  · rw [VectorsAt, hsp, h3] at h7
    exact h7

/-- The general registers and the stack pointer come back, the vector registers only if their quads are equal. -/
theorem pop_restored_iff (s t : State) (hsp : t.sp = s.sp - 160#64)
    (hmem : AgreeBelow t.mem (run env pushCalleeSavedRegisters s).mem s.sp savedSize) :
    Restored s (run env popCalleeSavedRegisters t) ↔ QuadsEqual s := by
  obtain ⟨-, -, -, hpairs, hvec⟩ := @push_spec env s
  rw [popCalleeSavedRegisters_eq, run_append]
  have hvec' : VectorsAt t.mem t.sp s := by
    rw [hsp]
    exact hvec.congr (fun c hc => (hmem c (by bv_omega) (by simp only [savedSize]; bv_omega)).symm)
  obtain ⟨h1, h2, h3⟩ := @popVectors_spec env t
  obtain ⟨⟨v12, v13, v14, v15⟩, v8, v9, v10, v11⟩ := @popVectors_vectors env t s hvec'
  generalize run env popVectors t = t1 at *
  have hmem1 : AgreeBelow t1.mem (run env (pushPairs calleeSaved) s).mem s.sp 96 := by
    rw [h2]
    exact AgreeBelow.trans (fun c hc hle => hmem c hc (by simp only [savedSize]; omega)) hpairs
  obtain ⟨i1, -, i3, i4⟩ := @popPairs_spec env calleeSaved s t1 (by decide)
    (by rw [h1, hsp]; simp only [calleeSaved, List.length_cons, List.length_nil]; bv_omega) hmem1
  constructor
  · intro h
    refine ⟨?_, ?_, ?_, ?_⟩
    · rw [← h.vectors 8 (by decide) (by decide), i3, v8]
    · rw [← h.vectors 9 (by decide) (by decide), i3, v9]
    · rw [← h.vectors 10 (by decide) (by decide), i3, v10]
    · rw [← h.vectors 11 (by decide) (by decide), i3, v11]
  · rintro ⟨q8, q9, q10, q11⟩
    refine ⟨fun r hr => ?_, i1, fun r h8 h15 => ?_⟩
    · have hmem_regs : ∀ r : XReg, 19 ≤ r → r ∈ regsOf calleeSaved := by decide
      rw [i4 r, if_pos (hmem_regs r hr)]
    · have hcases : ∀ r : VReg, 8 ≤ r → r ≤ 15 →
          r = 8 ∨ r = 9 ∨ r = 10 ∨ r = 11 ∨ r = 12 ∨ r = 13 ∨ r = 14 ∨ r = 15 := by decide
      rw [i3]
      rcases hcases r h8 h15 with rfl | rfl | rfl | rfl | rfl | rfl | rfl | rfl
      · rw [v8, q8]
      · rw [v9, q9]
      · rw [v10, q10]
      · rw [v11, q11]
      · rw [v12, q8]
      · rw [v13, q9]
      · rw [v14, q10]
      · rw [v15, q11]

/-! ## The ways in -/

theorem FrameApart.write {frame sp : BitVec 64} (h : FrameApart frame sp) {w : Nat} (offset : BitVec 64) (x : BitVec w)
    (m : Memory) (ho : offset.toNat + (w + 7) / 8 ≤ 1008) : AgreeBelow (write m (frame + offset) x) m sp savedSize := by
  intro c hc hle
  have h1 := h c hc hle
  have h2 : (c - (frame + offset)).toNat = (c - frame).toNat - offset.toNat := by bv_omega
  exact write_of_le x (by omega)

theorem dispatch_stores (offset : BitVec 64) (s : State) :
    (run env [.mov STATE 0, .addImm (.x 0) .sp 0#64, .str 0 (statePtr offset)] s).sp = s.sp ∧
      (run env [.mov STATE 0, .addImm (.x 0) .sp 0#64, .str 0 (statePtr offset)] s).mem =
        ByteMemory.write s.mem (s.x 0 + offset) (s.sp + 0#64) :=
  ⟨rfl, rfl⟩

theorem callback_counts (offset : BitVec 64) (s : State) : ∃ value : BitVec 32,
    (run env [.mov STATE 0, .ldrW 2 (statePtr offset), .addImmW 2 2 1#32, .strW 2 (statePtr offset)] s).sp = s.sp ∧
    (run env [.mov STATE 0, .ldrW 2 (statePtr offset), .addImmW 2 2 1#32, .strW 2 (statePtr offset)] s).x STATE = s.x 0 ∧
    (run env [.mov STATE 0, .ldrW 2 (statePtr offset), .addImmW 2 2 1#32, .strW 2 (statePtr offset)] s).mem =
      ByteMemory.write s.mem (s.x 0 + offset) value :=
  ⟨_, rfl, rfl, rfl⟩

theorem callback_stores (rsp rip size : BitVec 64) (s : State) :
    (run env [.ldr 2 (statePtr rsp), .subImm (.x 2) (.x 2) size, .str 2 (statePtr rsp), .str 0 ⟨.x 2, 0#64, .offset⟩,
      .str 1 (statePtr rip)] s).sp = s.sp ∧
    (run env [.ldr 2 (statePtr rsp), .subImm (.x 2) (.x 2) size, .str 2 (statePtr rsp), .str 0 ⟨.x 2, 0#64, .offset⟩,
      .str 1 (statePtr rip)] s).mem =
      ByteMemory.write (ByteMemory.write (ByteMemory.write s.mem (s.x STATE + rsp) (s.load (s.x STATE + rsp) 64 - size))
        (s.load (s.x STATE + rsp) 64 - size + 0#64) (s.x 0)) (s.x STATE + rip) (s.x 1) :=
  ⟨rfl, rfl⟩

theorem entry_spec (entry : Entry) (s : State) (h : entry.Apart s) :
    (entry.code.exec env s).sp = s.sp - 160#64 ∧
      AgreeBelow (entry.code.exec env s).mem (run env pushCalleeSavedRegisters s).mem s.sp savedSize := by
  obtain ⟨h1, h2, h3, -⟩ := @push_spec env s
  cases entry with
  | push => exact ⟨h1, fun _ _ _ => rfl⟩
  | dispatchPtr =>
    rw [Entry.code, exec_append, exec_code, exec_code]
    generalize run env pushCalleeSavedRegisters s = s1 at *
    have hx0 : s1.x 0 = s.x 0 := by rw [h2, update_of_ne (by decide)]
    obtain ⟨e1, e2⟩ := @dispatch_stores env offsetReturningStackLocation s1
    rw [e1, e2, hx0]
    exact ⟨h1, FrameApart.write h _ _ _ (by decide)⟩
  | callbackPtr callbackReturn =>
    obtain ⟨hframe, hstack⟩ := h
    rw [Entry.code, exec_append, exec_append, exec_append, exec_code, exec_code, exec_code]
    generalize run env pushCalleeSavedRegisters s = s1 at *
    have hx0 : s1.x 0 = s.x 0 := by rw [h2, update_of_ne (by decide)]
    obtain ⟨value, a1, a2, a3⟩ := @callback_counts env offsetSignalHandlerRefCounter s1
    rw [hx0] at a2 a3
    generalize run env _ s1 = s2 at a1 a2 a3 ⊢
    obtain ⟨pc, hload⟩ := @loadConstant_spec env 0 callbackReturn false s2
    rw [hload]
    obtain ⟨e1, e2⟩ := @callback_stores env (offsetGreg REG_RSP) offsetRip 16#64
      { s2 with x := update s2.x 0 callbackReturn, pc := pc }
    have hstate : update s2.x 0 callbackReturn STATE = s.x 0 := by
      rw [update_of_ne (by decide), a2]
    -- the push and the reference counter leave the guest stack pointer in the frame alone
    have hrsp : read s2.mem (s.x 0 + offsetGreg REG_RSP) 64 = read s.mem (s.x 0 + offsetGreg REG_RSP) 64 := by
      rw [a3, read_write_apart value ((apart_offset _ _).mpr (by decide)) (by decide)]
      apply read_of_agree
      · intro c hc
        apply h3
        by_contra hno
        rw [not_or, not_lt] at hno
        have h1008 := hframe c hno.1 hno.2
        have hoff : (c - s.x 0).toNat = (c - (s.x 0 + offsetGreg REG_RSP)).toNat + 64 := by
          simp only [offsetGreg, REG_RSP] at hc ⊢
          bv_omega
        omega
      · decide
    rw [e1, e2]
    dsimp only [State.load]
    rw [hstate, hrsp]
    refine ⟨a1.trans h1, ?_⟩
    have hgreg := fun (x : BitVec 64) m => FrameApart.write hframe (offsetGreg REG_RSP) x m (by decide)
    have hrip := fun (x : BitVec 64) m => FrameApart.write hframe offsetRip x m (by decide)
    have hguest : ∀ (x : BitVec 64) m, AgreeBelow (ByteMemory.write m
        (read s.mem (s.x 0 + offsetGreg REG_RSP) 64 - 16#64 + 0#64) x) m s.sp savedSize := by
      intro x m c hc hle
      have h8 := hstack c hc hle
      rw [BitVec.add_zero]
      exact write_of_le _ (by omega)
    refine (hrip _ _).trans ((hguest _ _).trans ((hgreg _ _).trans ?_))
    rw [a3]
    exact FrameApart.write hframe offsetSignalHandlerRefCounter _ _ (by decide)

/-! ## The ways out -/

theorem spill_agree (cfg : Config) (s : State) (sp : BitVec 64) (h : FrameApart (s.x STATE) sp) :
    (run env (spillStaticRegs cfg true allRegs allRegs) s).sp = s.sp ∧
      (run env (spillStaticRegs cfg true allRegs allRegs) s).x = s.x ∧
      AgreeBelow (run env (spillStaticRegs cfg true allRegs allRegs) s).mem s.mem sp savedSize := by
  cases hsra : cfg.staticRegisterAllocation with
  | false =>
    rw [spillStaticRegs, hsra, if_neg (by simp), run_nil]
    exact ⟨rfl, rfl, fun _ _ _ => rfl⟩
  | true =>
    obtain ⟨pc, hspill⟩ := @spillStaticRegs_spec env cfg hsra true allRegs allRegs s
    rw [hspill]
    refine ⟨rfl, rfl, fun c hc hle => ?_⟩
    have h1008 := h c hc hle
    dsimp only [spillVectors]
    rw [if_pos rfl, spillMem_of_le, spillMem_of_le]
    · intro j _ hj
      have hj' : j < 16 := hj
      simp only [offsetGreg]
      bv_omega
    · intro j _ hj
      have hj' : j < 16 := hj
      simp only [offsetXmm, offsetXmmAVX, offsetXmmSSE]
      split_ifs
      · bv_omega
      · bv_omega

theorem addImm_sp (imm : BitVec 64) (s : State) :
    (run env [.addImm .sp .sp imm] s).sp = s.sp + imm ∧ (run env [.addImm .sp .sp imm] s).x STATE = s.x STATE ∧
      (run env [.addImm .sp .sp imm] s).mem = s.mem :=
  ⟨rfl, rfl, rfl⟩

theorem addReg_sp (s : State) :
    (run env [.addReg .sp .sp 0] s).sp = s.sp + s.x 0 ∧ (run env [.addReg .sp .sp 0] s).x STATE = s.x STATE ∧
      (run env [.addReg .sp .sp 0] s).mem = s.mem :=
  ⟨rfl, rfl, rfl⟩

theorem resetStack_spec (spillSlots : Nat) (s : State) :
    ((resetStack spillSlots).exec env s).sp = s.sp + BitVec.ofNat 64 (16 * spillSlots) ∧
      ((resetStack spillSlots).exec env s).x STATE = s.x STATE ∧ ((resetStack spillSlots).exec env s).mem = s.mem := by
  rw [resetStack]
  split_ifs with h0 himm
  · rw [exec_code, run_nil, h0]
    exact ⟨by simp, rfl, rfl⟩
  · rw [exec_code, Nat.mul_comm spillSlots 16]
    exact addImm_sp _ s
  · rw [exec_append, exec_code, Nat.mul_comm spillSlots 16]
    obtain ⟨pc, hload⟩ := @loadConstant_spec env 0 (BitVec.ofNat 64 (16 * spillSlots)) false s
    rw [hload]
    obtain ⟨e1, e2, e3⟩ := @addReg_sp env { s with x := update s.x 0 (BitVec.ofNat 64 (16 * spillSlots)), pc := pc }
    rw [e1, e2, e3]
    dsimp only
    exact ⟨rfl, rfl, rfl⟩

theorem callbackReturn_stores (counter rsp size : BitVec 64) (s : State) : ∃ (value : BitVec 32) (value' : BitVec 64),
    (run env [.ldrW 2 (statePtr counter), .subImmW 2 2 1#32, .strW 2 (statePtr counter), .ldr 2 (statePtr rsp),
      .addImm (.x 2) (.x 2) size, .str 2 (statePtr rsp)] s).sp = s.sp ∧
    (run env [.ldrW 2 (statePtr counter), .subImmW 2 2 1#32, .strW 2 (statePtr counter), .ldr 2 (statePtr rsp),
      .addImm (.x 2) (.x 2) size, .str 2 (statePtr rsp)] s).mem =
      ByteMemory.write (ByteMemory.write s.mem (s.x STATE + counter) value) (s.x STATE + rsp) value' :=
  ⟨_, _, rfl, rfl⟩

theorem exit_spec (cfg : Config) (exit : Exit) (t : State) (sp : BitVec 64) (h : exit.Apart t sp) :
    ((exit.before cfg).exec env t).sp = t.sp + BitVec.ofNat 64 exit.stack ∧
      AgreeBelow ((exit.before cfg).exec env t).mem t.mem sp savedSize := by
  cases exit with
  | threadStopHandler =>
    rw [Exit.before, exec_code, run_nil]
    exact ⟨by simp [Exit.stack], fun _ _ _ => rfl⟩
  | threadStopHandlerSpillSRA =>
    obtain ⟨h1, -, h3⟩ := @spill_agree env cfg t sp h
    rw [Exit.before, exec_code]
    exact ⟨by rw [h1]; simp [Exit.stack], h3⟩
  | callbackReturn spillSlots =>
    obtain ⟨h1, h2, h3⟩ := @spill_agree env cfg t sp h
    rw [Exit.before, exec_append, exec_append, exec_code, exec_code]
    generalize run env (spillStaticRegs cfg true allRegs allRegs) t = t1 at *
    obtain ⟨r1, r2, r3⟩ := @resetStack_spec env spillSlots t1
    generalize (resetStack spillSlots).exec env t1 = t2 at *
    obtain ⟨value, value', c1, c2⟩ := @callbackReturn_stores env offsetSignalHandlerRefCounter (offsetGreg REG_RSP) 8#64 t2
    rw [c1, c2, r1, r2, r3, h1, h2]
    have hrsp := fun m => FrameApart.write h (offsetGreg REG_RSP) value' m (by decide)
    have hcounter := fun m => FrameApart.write h offsetSignalHandlerRefCounter value m (by decide)
    exact ⟨rfl, (hrsp _).trans ((hcounter _).trans h3)⟩

/-! ## There and back -/

/-- The guest code between a way in and a way out leaves the saved registers on the stack alone. -/
structure Between (entry : Entry) (exit : Exit) (env : Env) (s t : State) : Prop where
  entryApart : entry.Apart s
  exitApart : exit.Apart t s.sp
  sp : t.sp = (entry.code.exec env s).sp - BitVec.ofNat 64 exit.stack
  mem : AgreeBelow t.mem (entry.code.exec env s).mem s.sp savedSize

/-- The host gets its registers back exactly if each two vector registers that lie four apart held the same. -/
theorem calleeSaved_restored_iff (env : Env) (cfg : Config) (entry : Entry) (exit : Exit) (s t : State)
    (h : Between entry exit env s t) : Restored s ((exit.code cfg).exec env t) ↔ QuadsEqual s := by
  obtain ⟨e1, e2⟩ := @entry_spec env entry s h.entryApart
  obtain ⟨x1, x2⟩ := @exit_spec env cfg exit t s.sp h.exitApart
  rw [Exit.code, exec_append, exec_code]
  apply pop_restored_iff
  · rw [x1, h.sp, e1]
    ring
  · exact (x2.trans h.mem).trans e2

/-- The host calls `DispatchPtr` with its frame at `0x100000`. -/
def hostState : State := ⟨fun _ => 0x100000#64, 0x10000#64, 0#64, fun _ => 0#128, fun _ => 0#8⟩

theorem hostState_frameApart : FrameApart 0x100000#64 hostState.sp := by
  intro c _ hle
  simp only [hostState, savedSize] at hle
  bv_omega

def noEnv : Env := ⟨id, id⟩

/-- The host has values in its registers, and each vector in two of them. -/
def hostValues : State :=
  { hostState with
    x := fun r => if r = 0 then 0x100000#64 else BitVec.ofNat 64 r.val
    v := fun r => BitVec.ofNat 128 (r.val % 4 + 5) }

/-- The guest code leaves none of them, and writes to memory of its own. -/
def guestLeaves (s : State) : State :=
  { s with x := fun r => if r = STATE then 0x100000#64 else 77#64, v := fun _ => 99#128, mem := write s.mem 0x200000#64 3#64 }

theorem calleeSaved_restored_iff_host :
    Between .dispatchPtr .threadStopHandlerSpillSRA noEnv hostValues
      (guestLeaves (Entry.dispatchPtr.code.exec noEnv hostValues)) ∧
    Restored hostValues ((Exit.threadStopHandlerSpillSRA.code ⟨true, false⟩).exec noEnv
      (guestLeaves (Entry.dispatchPtr.code.exec noEnv hostValues))) := by
  have hbetween : Between .dispatchPtr .threadStopHandlerSpillSRA noEnv hostValues
      (guestLeaves (Entry.dispatchPtr.code.exec noEnv hostValues)) := by
    refine ⟨hostState_frameApart, hostState_frameApart, by simp [Exit.stack, guestLeaves], fun c _ hle => write_of_le _ ?_⟩
    simp only [hostValues, hostState, savedSize] at hle
    bv_omega
  exact ⟨hbetween, (calleeSaved_restored_iff noEnv ⟨true, false⟩ _ _ _ _ hbetween).mpr ⟨rfl, rfl, rfl, rfl⟩⟩

/-- With a value in `v8` alone it comes back in `v12`. -/
theorem calleeSaved_swapped :
    ∃ s t : State, Between .push .threadStopHandler noEnv s t ∧
      ¬Restored s ((Exit.threadStopHandler.code ⟨true, false⟩).exec noEnv t) := by
  refine ⟨{ hostState with v := update hostState.v 8 1#128 }, run noEnv pushCalleeSavedRegisters
    { hostState with v := update hostState.v 8 1#128 }, ⟨trivial, trivial, ?_, fun _ _ _ => rfl⟩, ?_⟩
  · simp [Exit.stack, Entry.code, exec_code]
  · rw [Exit.code, exec_append, Exit.before, exec_code, exec_code, run_nil,
      pop_restored_iff _ _ (push_spec _).1 (fun _ _ _ => rfl)]
    rintro ⟨h8, -⟩
    exact absurd h8 (by decide)

end FexEmu.Arm64
