import FexEmu.Core.SignalFrameProofs
import FexEmu.Data.FlatMemory
/-!
# The layout of a signal frame

The areas that `HandleGuestSignal` carves off the stack and its stores into them.
-/
namespace FexEmu.SignalFrame

open FlatMemory (Apart Inside)

/-- The stores into the float state, as offset and size. -/
def fpStateStores (cfg : Config) : List (Nat × Nat) :=
  if cfg.is64BitMode then
    -- `sw_reserved`, the control words, `_st`, `_xmm`
    [(464, 4), (468, 4), (472, 8), (480, 4), (0, 2), (2, 2), (4, 2), (32, 128), (160, 256)] ++
      if cfg.enableAVX then [(512, 8), (576, 256)] else []
  else
    -- the 16 vector registers go over `_xmm` into `pad2`
    [(576, 4), (580, 4), (584, 8), (592, 4), (0, 4), (4, 4), (8, 4), (28, 80), (108, 4), (272, 256)] ++
      if cfg.enableAVX then [(624, 8), (688, 256)] else []

/-- The stores into the `ucontext_t`: `uc_flags`, `uc_stack`, `gregs` and `fpregs`. -/
def uContextStores (cfg : Config) : List (Nat × Nat) :=
  if cfg.is64BitMode then [(0, 8), (16, 24), (40, 184), (224, 8)] else [(0, 4), (8, 12), (20, 76), (96, 4)]

/-- A 64-bit `siginfo_t` is copied; of a 32-bit one the first three words and at most five more are stored. -/
def sigInfoStores (cfg : Config) : List (Nat × Nat) := if cfg.is64BitMode then [(0, 128)] else [(0, 12), (12, 20)]

def stackOf (cfg : Config) (s : Machine) (sig : Signal) : BitVec 64 := newGuestSP cfg sig (s.state.gregs REG_RSP)

/-- The stack pointer that the handler starts with. -/
def entrySP (cfg : Config) (s : Machine) (sig : Signal) : BitVec 64 := (handleGuestSignal cfg s sig).state.gregs REG_RSP

def pointerSize (cfg : Config) : Nat := if cfg.is64BitMode then 8 else 4

/-- The arguments that 32-bit code has on the stack. -/
def argumentsSize (cfg : Config) (sig : Signal) : Nat :=
  if cfg.is64BitMode then 0 else if sig.siginfo then 12 else 4

def fpStateSize (cfg : Config) : Nat :=
  if cfg.is64BitMode then (if cfg.enableAVX then 832 else 512) else if cfg.enableAVX then 944 else 624

def uContextSize (cfg : Config) : Nat := if cfg.is64BitMode then 424 else 236

/-- The areas of the frame, from the return address up. -/
def areas (cfg : Config) (s : Machine) (sig : Signal) : List (Nat × Nat) :=
  let entry := (entrySP cfg s sig).toNat
  let loc := locationsOf cfg s sig
  [(entry, pointerSize cfg), (entry + pointerSize cfg, argumentsSize cfg sig)] ++
    if sig.siginfo then
      [(loc.sigInfo.toNat, 128), (loc.uContext.toNat, uContextSize cfg), (loc.fpState.toNat, fpStateSize cfg)]
    else []

/-- Everything stored into guest memory. -/
def stores (cfg : Config) (s : Machine) (sig : Signal) : List (Nat × Nat) :=
  let entry := (entrySP cfg s sig).toNat
  let loc := locationsOf cfg s sig
  let at_ (base : BitVec 64) (fields : List (Nat × Nat)) := fields.map fun f => (base.toNat + f.1, f.2)
  [(entry, pointerSize cfg), (entry + pointerSize cfg, argumentsSize cfg sig)] ++
    if sig.siginfo then
      at_ loc.sigInfo (sigInfoStores cfg) ++ at_ loc.uContext (uContextStores cfg) ++ at_ loc.fpState (fpStateStores cfg)
    else []

/-! ## What is promised -/

def onAltStack (sig : Signal) : Bool := sig.onStack && !sig.ssDisable

def redZone (cfg : Config) : Nat := if cfg.is64BitMode then 128 else 0

/-- The stack pointer of the interrupted code, which may be in a host register. -/
def interruptedSP (cfg : Config) (s : Machine) : BitVec 64 := (spilledState cfg s).gregs REG_RSP

/-- The handler goes on with the stack of the interrupted code, which may be the alternate one. -/
def SameStack (cfg : Config) (s : Machine) (sig : Signal) : Prop :=
  onAltStack sig → sig.ssSp ≤ interruptedSP cfg s ∧ interruptedSP cfg s ≤ sig.ssSp + sig.ssSize

/-- Below the interrupted stack or on the alternate one; the areas are apart, and every store is in one of them. -/
structure Laid (cfg : Config) (s : Machine) (sig : Signal) : Prop where
  below : SameStack cfg s sig → ∀ a ∈ areas cfg s sig, a.1 + a.2 + redZone cfg ≤ (interruptedSP cfg s).toNat
  inside : onAltStack sig → ∀ a ∈ areas cfg s sig, Inside a (sig.ssSp.toNat, sig.ssSize.toNat)
  apart : (areas cfg s sig).Pairwise Apart
  within : ∀ w ∈ stores cfg s sig, ∃ a ∈ areas cfg s sig, Inside w a
  aligned : if cfg.is64BitMode then (entrySP cfg s sig).toNat % 16 = 8 else ((entrySP cfg s sig).toNat + 4) % 16 = 0

def stackTop (s : Machine) (sig : Signal) : BitVec 64 :=
  let sp := s.state.gregs REG_RSP
  if onAltStack sig && !(sig.ssSp ≤ sp && sp ≤ sig.ssSp + sig.ssSize) then sig.ssSp + sig.ssSize else sp

def frameSize (cfg : Config) (sig : Signal) : Nat :=
  redZone cfg + (if sig.siginfo then fpStateSize cfg + uContextSize cfg + 135 else 0) + argumentsSize cfg sig +
    pointerSize cfg

/-- The chosen stack is large enough, and an alternate one does not wrap around. -/
structure Room (cfg : Config) (s : Machine) (sig : Signal) : Prop where
  top : frameSize cfg sig ≤ (stackTop s sig).toNat
  alternate : onAltStack sig → sig.ssSp.toNat + sig.ssSize.toNat < 2 ^ 64 ∧
    sig.ssSp.toNat + frameSize cfg sig ≤ (stackTop s sig).toNat

/-- The stack tops from which a frame comes out aligned. -/
def Aligns (cfg : Config) (sig : Signal) (top : Nat) : Prop :=
  if cfg.is64BitMode then (if sig.siginfo then 8 ≤ top % 16 else top % 16 = 0)
  else if sig.siginfo then top % 16 = 8 else top % 16 = 4

/-! ## Where the frame comes to lie -/

theorem alignDown_eight (a : BitVec 64) : (alignDown a 8).toNat = a.toNat - a.toNat % 8 := by
  have low (i : Nat) : (8#64 - 1#64).getLsbD i = decide (i < 3) := by
    rw [show 8#64 - 1#64 = BitVec.ofNat 64 (2 ^ 3 - 1) by rfl, BitVec.getLsbD_ofNat, Nat.testBit_two_pow_sub_one]
    grind
  have shifted : alignDown a 8 = a >>> 3 <<< 3 := by
    apply BitVec.eq_of_getLsbD_eq
    intro i less
    have : (a &&& ~~~(8#64 - 1#64)).getLsbD i = (a.getLsbD i && !decide (i < 3)) := by
      rw [BitVec.getLsbD_and, BitVec.getLsbD_not, low, decide_eq_true less, Bool.true_and]
    rw [show alignDown a 8 = a &&& ~~~(8#64 - 1#64) from rfl, this]
    by_cases below : i < 3
    · simp [below]
    · simp [below, less, show 3 + (i - 3) = i by omega]
  rw [shifted, BitVec.toNat_shiftLeft, BitVec.toNat_ushiftRight, Nat.shiftRight_eq_div_pow, Nat.shiftLeft_eq]
  omega

theorem entrySP_eq (cfg : Config) (s : Machine) (sig : Signal) : entrySP cfg s sig =
    if cfg.is64BitMode then (if sig.siginfo then (locationsOf cfg s sig).sigInfo else stackOf cfg s sig) - 8
    else (if sig.siginfo then (locationsOf cfg s sig).sigInfo - 12 else stackOf cfg s sig - 4) - 4 := by
  simp [entrySP, handleGuestSignal, handlerState, locationsOf, stackOf]

theorem stackOf_eq (cfg : Config) (s : Machine) (sig : Signal) :
    stackOf cfg s sig = if cfg.is64BitMode then stackTop s sig - 128 else stackTop s sig := rfl

theorem toNat_sub_add {a k : BitVec 64} (h : k.toNat ≤ a.toNat) : (a - k).toNat + k.toNat = a.toNat := by
  rw [BitVec.toNat_sub_of_le h, Nat.sub_add_cancel h]

theorem toNat_carved {sp fpState uContext : BitVec 64} (room : fpState.toNat + uContext.toNat + 128 ≤ sp.toNat) :
    (sp - fpState).toNat + fpState.toNat = sp.toNat ∧
      (sp - fpState - uContext).toNat + uContext.toNat = (sp - fpState).toNat ∧
      (sp - fpState - uContext - 128).toNat + 128 = (sp - fpState - uContext).toNat := by
  have first := toNat_sub_add (show fpState.toNat ≤ sp.toNat by omega)
  have second := toNat_sub_add (show uContext.toNat ≤ (sp - fpState).toNat by omega)
  exact ⟨first, second, toNat_sub_add (show (128#64).toNat ≤ _ by rw [show (128#64).toNat = 128 from rfl]; omega)⟩

theorem locations_at (cfg : Config) (s : Machine) (sig : Signal)
    (room : fpStateSize cfg + uContextSize cfg + 128 ≤ (stackOf cfg s sig).toNat) :
    (locationsOf cfg s sig).fpState.toNat + fpStateSize cfg = (stackOf cfg s sig).toNat ∧
      (locationsOf cfg s sig).uContext.toNat + uContextSize cfg = (locationsOf cfg s sig).fpState.toNat ∧
      (locationsOf cfg s sig).sigInfo.toNat + 128 +
        (if cfg.is64BitMode then (locationsOf cfg s sig).uContext.toNat % 8 else 0) =
          (locationsOf cfg s sig).uContext.toNat := by
  unfold locationsOf locations
  cases mode : cfg.is64BitMode <;> cases avx : cfg.enableAVX <;>
    simp only [mode, avx, fpStateSize, uContextSize, if_true, if_false, Bool.false_eq_true, alignDown_eight] at room ⊢
  · exact @toNat_carved (stackOf cfg s sig) 624 236 room
  · exact @toNat_carved (stackOf cfg s sig) 944 236 room
  · obtain ⟨fpState, uContext, sigInfo⟩ := @toNat_carved (newGuestSP cfg sig (s.state.gregs REG_RSP)) 512 424 room
    exact ⟨fpState, uContext, by omega⟩
  · obtain ⟨fpState, uContext, sigInfo⟩ := @toNat_carved (newGuestSP cfg sig (s.state.gregs REG_RSP)) 832 424 room
    exact ⟨fpState, uContext, by omega⟩

theorem entrySP_at (cfg : Config) (s : Machine) (sig : Signal) {frame : BitVec 64}
    (hframe : (if sig.siginfo then (locationsOf cfg s sig).sigInfo else stackOf cfg s sig) = frame)
    (room : pointerSize cfg + argumentsSize cfg sig ≤ frame.toNat) :
    (entrySP cfg s sig).toNat + pointerSize cfg + argumentsSize cfg sig = frame.toNat := by
  rw [entrySP_eq]
  subst hframe
  unfold pointerSize argumentsSize at *
  cases mode : cfg.is64BitMode <;> cases info : sig.siginfo <;>
    simp only [mode, info, if_true, if_false, Bool.false_eq_true] at room ⊢
  all_goals bv_omega

theorem frame_at (cfg : Config) (s : Machine) (sig : Signal) (room : Room cfg s sig) :
    (sig.siginfo = false → (entrySP cfg s sig).toNat + pointerSize cfg + argumentsSize cfg sig + redZone cfg
      = (stackTop s sig).toNat) ∧
    (sig.siginfo = true →
      (entrySP cfg s sig).toNat + pointerSize cfg + argumentsSize cfg sig = (locationsOf cfg s sig).sigInfo.toNat ∧
      (locationsOf cfg s sig).sigInfo.toNat + 128 ≤ (locationsOf cfg s sig).uContext.toNat ∧
      (locationsOf cfg s sig).uContext.toNat ≤ (locationsOf cfg s sig).sigInfo.toNat + 135 ∧
      (locationsOf cfg s sig).uContext.toNat + uContextSize cfg = (locationsOf cfg s sig).fpState.toNat ∧
      (locationsOf cfg s sig).fpState.toNat + fpStateSize cfg + redZone cfg = (stackTop s sig).toNat) ∧
    ((if cfg.is64BitMode then (entrySP cfg s sig).toNat % 16 = 8 else ((entrySP cfg s sig).toNat + 4) % 16 = 0) ↔
      Aligns cfg sig (stackTop s sig).toNat) := by
  have top := room.top
  unfold frameSize at top
  have stack : (stackOf cfg s sig).toNat + redZone cfg = (stackTop s sig).toNat := by
    rw [stackOf_eq]
    unfold redZone at top ⊢
    split
    · rename_i mode
      rw [if_pos mode] at top
      exact toNat_sub_add (show (128#64).toNat ≤ _ by rw [show (128#64).toNat = 128 from rfl]; omega)
    · rfl
  have entrySP := entrySP_at cfg s sig rfl
  cases info : sig.siginfo with
  | false =>
    simp only [info, Bool.false_eq_true, if_false] at top entrySP
    have entry := entrySP (by omega)
    refine ⟨fun _ => by omega, nofun, ?_⟩
    unfold Aligns
    unfold redZone pointerSize argumentsSize at *
    cases mode : cfg.is64BitMode <;>
      simp only [mode, info, if_true, if_false, Bool.false_eq_true] at stack entry ⊢ <;> omega
  | true =>
    simp only [info, if_true] at top entrySP
    obtain ⟨fpState, uContext, sigInfo⟩ := locations_at cfg s sig (by omega)
    have low : (if cfg.is64BitMode then (locationsOf cfg s sig).uContext.toNat % 8 else 0) ≤ 7 := by split <;> omega
    have entry := entrySP (by omega)
    refine ⟨nofun, fun _ => ⟨entry, by omega, by omega, uContext, by omega⟩, ?_⟩
    unfold Aligns
    unfold redZone pointerSize argumentsSize fpStateSize uContextSize at *
    cases mode : cfg.is64BitMode <;> cases avx : cfg.enableAVX <;>
      simp only [mode, avx, info, if_true, if_false, Bool.false_eq_true] at stack entry fpState uContext sigInfo ⊢ <;>
      omega

theorem stores_within (cfg : Config) (s : Machine) (sig : Signal) :
    ∀ w ∈ stores cfg s sig, ∃ a ∈ areas cfg s sig, Inside w a := by
  have fields : (∀ f ∈ fpStateStores cfg, f.1 + f.2 ≤ fpStateSize cfg) ∧
      (∀ f ∈ uContextStores cfg, f.1 + f.2 ≤ uContextSize cfg) ∧ ∀ f ∈ sigInfoStores cfg, f.1 + f.2 ≤ 128 := by
    unfold fpStateStores fpStateSize uContextStores uContextSize sigInfoStores
    cases cfg.is64BitMode <;> cases cfg.enableAVX <;> decide
  obtain ⟨fpState, uContext, sigInfo⟩ := fields
  have moved (base : BitVec 64) (f : Nat × Nat) (size : Nat) (fits : f.1 + f.2 ≤ size) :
      Inside (base.toNat + f.1, f.2) (base.toNat, size) := ⟨Nat.le_add_right .., by simp only; omega⟩
  intro w stored
  simp only [stores, List.mem_append, List.mem_cons, List.not_mem_nil, or_false] at stored
  obtain (rfl | rfl) | stored := stored
  · exact ⟨_, by simp [areas], Nat.le_refl _, Nat.le_refl _⟩
  · exact ⟨_, List.mem_append_left _ (List.mem_cons_of_mem _ (List.mem_cons_self ..)), Nat.le_refl _, Nat.le_refl _⟩
  split at stored
  · rename_i info
    simp only [List.mem_append, List.mem_map] at stored
    simp only [areas, info, if_true]
    obtain (⟨f, mem, rfl⟩ | ⟨f, mem, rfl⟩) | ⟨f, mem, rfl⟩ := stored
    · exact ⟨_, by simp, moved _ f 128 (sigInfo f mem)⟩
    · exact ⟨_, by simp, moved _ f _ (uContext f mem)⟩
    · exact ⟨_, by simp, moved _ f _ (fpState f mem)⟩
  · simp at stored

/-- On a stack with room a frame is laid out as promised exactly when it starts at or below the interrupted code's stack
pointer, unless it goes to another stack, and from a top that its sizes lead to an aligned entry. -/
theorem frame_laid_iff (cfg : Config) (s : Machine) (sig : Signal) (room : Room cfg s sig) :
    Laid cfg s sig ↔
      (SameStack cfg s sig → (stackTop s sig).toNat ≤ (interruptedSP cfg s).toNat) ∧
      Aligns cfg sig (stackTop s sig).toNat := by
  obtain ⟨plain, full, aligned⟩ := frame_at cfg s sig room
  have size : (stackTop s sig).toNat ≤ (entrySP cfg s sig).toNat + frameSize cfg sig := by
    unfold frameSize
    cases info : sig.siginfo with
    | false => have := plain info; simp; omega
    | true => have := full info; simp; omega
  have apart : (areas cfg s sig).Pairwise Apart := by
    unfold areas
    cases info : sig.siginfo with
    | false => simp [Apart]
    | true => have := full info; simp [Apart]; omega
  have highest (n : Nat) : (∀ a ∈ areas cfg s sig, a.1 + a.2 + redZone cfg ≤ n) ↔ (stackTop s sig).toNat ≤ n := by
    unfold areas
    cases info : sig.siginfo with
    | false => have := plain info; simp; omega
    | true => have := full info; simp; omega
  have lowest : ∀ a ∈ areas cfg s sig, (entrySP cfg s sig).toNat ≤ a.1 := by
    unfold areas
    cases info : sig.siginfo with
    | false => simp
    | true => have := full info; simp; omega
  have inside (h : onAltStack sig = true) (a : Nat × Nat) (mem : a ∈ areas cfg s sig) :
      Inside a (sig.ssSp.toNat, sig.ssSize.toNat) := by
    obtain ⟨wraps, room⟩ := room.alternate h
    have upper : (stackTop s sig).toNat ≤ sig.ssSp.toNat + sig.ssSize.toNat := by
      simp only [stackTop, h, Bool.true_and]
      split
      · bv_omega
      · rename_i within
        simp only [Bool.not_eq_true, Bool.not_eq_false', Bool.and_eq_true, decide_eq_true_eq] at within
        bv_omega
    have := (highest _).mpr upper a mem
    have := lowest a mem
    exact ⟨by simp only; omega, by simp only; omega⟩
  constructor
  · intro laid
    exact ⟨fun same => (highest _).mp (laid.below same), aligned.mp laid.aligned⟩
  · rintro ⟨below, aligns⟩
    exact ⟨fun same => (highest _).mpr (below same), inside, apart, stores_within cfg s sig, aligned.mpr aligns⟩

/-- A handler on an alternate stack of this size. -/
def onStack (size : BitVec 64) : Signal :=
  { sigusr1 with onStack := true, ssDisable := false, ssSp := 0x20000, ssSize := size }

/-- The code of a handler that has the stack pointer `0x20FF8` on it. -/
def nestedMachine : Machine :=
  { jitMachine false with
    state := { (jitMachine false).state with gregs := fun r => if r = REG_RSP then 0x20FF8 else 0 }
    host := { (jitMachine false).host with regs := fun r => if r = 11 then 0x20FF8 else r.val } }

theorem frame_laid_nested : Laid jitConfig nestedMachine (onStack 0x2000#64) :=
  (frame_laid_iff _ _ _ ⟨by decide, by decide⟩).mpr ⟨fun _ => by decide, by rw [Aligns]; decide⟩

/-- On an aligned alternate stack the handler starts with a stack pointer that is a multiple of 16. -/
theorem frame_not_laid : ¬∀ (cfg : Config) (s : Machine) (sig : Signal), Room cfg s sig → Laid cfg s sig := by
  intro all
  have room : Room jitConfig (jitMachine false) (onStack 0x2000#64) := ⟨by decide, by decide⟩
  have aligns := (frame_at _ _ _ room).2.2.mp (all _ _ _ room).aligned
  rw [Aligns] at aligns
  revert aligns
  decide

end FexEmu.SignalFrame
