import FexEmu.OpcodeDispatcher.X87StateSave
/-!
# The extended state in memory

`FXSAVE` and `FXRSTOR` agree with each other, but not with the format: the tag word has two bits for each register, and the
registers are stored by their numbers.
-/
namespace FexEmu.OpcodeDispatcher.X87Context

open ByteMemory Interpreter
open Address (Node)
open Integer
open BitVec (setWidth_eq getLsbD_extractLsb' getLsbD_setWidth)

/-! ## Rows of registers -/

section Rows
variable {mem : Node} {offset n i : Nat} (hmem : mem.size ≤ 8)
include hmem

theorem saveVectors_of_out (reg : Nat → BitVec 128) (m : Memory) {b : BitVec 64} (hend : (i + n) * 16 + offset ≤ 2 ^ 64)
    (hb : (b - mem.value).toNat < i * 16 + offset ∨ (i + n) * 16 + offset ≤ (b - mem.value).toNat) :
    saveVectors mem offset reg n i m b = m b := by
  induction n generalizing i m with
  | zero => rfl
  | succ n ih =>
    rw [saveVectors, ih _ (by omega) (by omega), storeFPR, add_const hmem]
    exact write_offset_of_out _ (by omega) (by omega)

theorem read_saveVectors (reg : Nat → BitVec 128) (m : Memory) (hend : (i + n) * 16 + offset ≤ 2 ^ 64) {j : Nat} (hj : i ≤ j)
    (hj' : j < i + n) :
    read (saveVectors mem offset reg n i m) (mem.value + BitVec.ofNat 64 (j * 16 + offset)) (8 * 16) = reg j := by
  induction n generalizing i m with
  | zero => omega
  | succ n ih =>
    rw [saveVectors]
    by_cases hij : i = j
    · subst hij
      have hlater (m' : Memory) :
          read (saveVectors mem offset reg n (i + 1) m') (mem.value + BitVec.ofNat 64 (i * 16 + offset)) (8 * 16) =
            read m' (mem.value + BitVec.ofNat 64 (i * 16 + offset)) (8 * 16) :=
        read_offset_congr (by omega) fun b hlow hup => saveVectors_of_out hmem reg m' (by omega) (by omega)
      rw [hlater, storeFPR, add_const hmem, read_write _ (by decide), setWidth_eq]
    · exact ih _ (by omega) (by omega) (by omega)

theorem restoreVectors_unit (offset : Nat) {unit : Nat → Nat} (hunit : Function.Injective unit) (m : Memory)
    (regs : Nat → BitVec 128) {j : Nat} (hj : j < i + n) :
    restoreVectors mem offset unit m n i regs (unit j) =
      if i ≤ j then read m (mem.value + BitVec.ofNat 64 (j * 16 + offset)) (8 * 16) else regs (unit j) := by
  induction n generalizing i regs with
  | zero =>
    rw [if_neg (by omega)]
    rfl
  | succ n ih =>
    rw [restoreVectors, ih _ (by omega), loadFPR, add_const hmem, setWidth_eq]
    by_cases hij : i = j
    · subst hij
      rw [if_neg (by omega), if_pos (le_refl _), Function.update_self]
    · rw [Function.update_of_ne fun h => hij (hunit h).symm]
      by_cases hle : i ≤ j
      · rw [if_pos (by omega), if_pos hle]
      · rw [if_neg (by omega), if_neg hle]

end Rows

theorem xmmUnit_injective (supportsAVX : Bool) : Function.Injective (xmmUnit supportsAVX) := by
  intro i j h
  cases supportsAVX with
  | false => exact h
  | true => exact Nat.eq_of_mul_eq_mul_left (show 0 < 2 by decide) h

/-! ## The format -/

/-- The tag of a physical register. -/
def tag (FTW : BitVec 16) (p : Nat) : BitVec 2 := FTW.extractLsb' (2 * p) 2

/-- The manual's area: the tag word has one bit for each register, and the registers begin at the top of the stack. -/
structure Image (is64BitMode supportsAVX : Bool) (c : Context) (m : Memory) (a : BitVec 64) : Prop where
  FCW : read m a 16 = c.FCW
  top : (read m (a + 2#64) 16).extractLsb' 11 3 = c.top.setWidth 3
  C0 : (read m (a + 2#64) 16).getLsbD 8 = decide (c.C0 = 1)
  C1 : (read m (a + 2#64) 16).getLsbD 9 = decide (c.C1 = 1)
  C2 : (read m (a + 2#64) 16).getLsbD 10 = decide (c.C2 = 1)
  C3 : (read m (a + 2#64) 16).getLsbD 14 = decide (c.C3 = 1)
  tags : ∀ p < 8, (read m (a + 4#64) 8).getLsbD p = decide (tag c.FTW p ≠ X87.X87Tag.empty.bits.setWidth 2)
  stack : ∀ i < 8, read m (a + BitVec.ofNat 64 (i * 16 + 32)) 80 = (c.mm ((c.top.toNat + i) % 8)).setWidth 80
  xmm : ∀ i < (if is64BitMode then 16 else 8),
    read m (a + BitVec.ofNat 64 (i * 16 + 160)) 128 = c.xmm (xmmUnit supportsAVX i)

/-- The state is the same, for the tags as far as they say that a register is empty. -/
structure Restored (is64BitMode supportsAVX : Bool) (c d : Context) : Prop where
  FCW : c.FCW = d.FCW
  loadedFCW : c.loadedFCW = d.FCW
  top : c.top = d.top
  C0 : c.C0 = d.C0
  C1 : c.C1 = d.C1
  C2 : c.C2 = d.C2
  C3 : c.C3 = d.C3
  empty : ∀ p < 8, tag c.FTW p = X87.X87Tag.empty.bits.setWidth 2 ↔ tag d.FTW p = X87.X87Tag.empty.bits.setWidth 2
  mm : ∀ i < 8, c.mm i = d.mm i
  xmm : ∀ i < (if is64BitMode then 16 else 8), c.xmm (xmmUnit supportsAVX i) = d.xmm (xmmUnit supportsAVX i)

/-- `FXSAVE` only writes its area, in the manual's format, and `FXRSTOR` restores the state from it. -/
structure FollowsFormat (is64BitMode supportsAVX : Bool) (s : State) (mem : Node) : Prop where
  area : ∀ b, 512 ≤ (b - mem.value).toNat → (FXSaveOp is64BitMode supportsAVX s mem).mem b = s.mem b
  image : Image is64BitMode supportsAVX s.ctx (FXSaveOp is64BitMode supportsAVX s mem).mem mem.value
  restored : ∀ s' mem', mem'.size ≤ 8 → mem'.value = mem.value →
    Agree (FXSaveOp is64BitMode supportsAVX s mem).mem s'.mem mem.value 512 →
      Restored is64BitMode supportsAVX (FXRStoreOp is64BitMode supportsAVX s' mem').ctx s.ctx

/-! ## The area -/

section Area
variable (is64BitMode supportsAVX : Bool) (s : State) {mem : Node} (hmem : mem.size ≤ 8)
include hmem

/-- The header as three words. -/
def extendedHeader (s : State) (a : BitVec 64) : Memory :=
  write (write (write s.mem (a + BitVec.ofNat 64 0) s.ctx.FCW) (a + BitVec.ofNat 64 2)
    ((s.ctx.statusWord s.ctx.getX87Top).value.setWidth 16)) (a + BitVec.ofNat 64 4) s.ctx.FTW

theorem FXSaveOp_mem : (FXSaveOp is64BitMode supportsAVX s mem).mem =
    saveVectors mem 160 (fun i => s.ctx.xmm (xmmUnit supportsAVX i)) (if is64BitMode then 16 else 8) 0
      (saveVectors mem 32 s.ctx.mm 8 0 (extendedHeader s mem.value)) := by
  have hword (x : BitVec 16) : (wordNode x).value.setWidth (8 * 2) = x := by
    rw [wordNode, BitVec.setWidth_setWidth_of_le _ (by decide), setWidth_eq]
  have hfirst : mem.value + BitVec.ofNat 64 0 = mem.value := BitVec.add_zero _
  rw [extendedHeader, hfirst]
  simp only [FXSaveOp, storeGPR, hword, add_const hmem]
  rfl

theorem read_extendedHeader {w e : Nat} (he : e + (w + 7) / 8 ≤ 32) :
    read (FXSaveOp is64BitMode supportsAVX s mem).mem (mem.value + BitVec.ofNat 64 e) w =
      read (extendedHeader s mem.value) (mem.value + BitVec.ofNat 64 e) w := by
  have hnum : (if is64BitMode then 16 else 8) ≤ 16 := by split <;> decide
  rw [FXSaveOp_mem _ _ _ hmem]
  apply read_offset_congr (by omega)
  intro b hlow hup
  rw [saveVectors_of_out hmem _ _ (by omega) (by omega), saveVectors_of_out hmem _ _ (by omega) (by omega)]

theorem read_words :
    read (FXSaveOp is64BitMode supportsAVX s mem).mem (mem.value + BitVec.ofNat 64 0) 16 = s.ctx.FCW ∧
      read (FXSaveOp is64BitMode supportsAVX s mem).mem (mem.value + BitVec.ofNat 64 2) 16 =
        (s.ctx.statusWord s.ctx.getX87Top).value.setWidth 16 ∧
      read (FXSaveOp is64BitMode supportsAVX s mem).mem (mem.value + BitVec.ofNat 64 4) 16 = s.ctx.FTW := by
  rw [read_extendedHeader _ _ _ hmem (by decide), read_extendedHeader _ _ _ hmem (by decide),
    read_extendedHeader _ _ _ hmem (by decide), extendedHeader]
  refine ⟨?_, ?_, read_write _ (by decide)⟩
  · rw [read_write_offset _ (by decide) (by decide) (by decide), read_write_offset _ (by decide) (by decide) (by decide),
      read_write _ (by decide)]
  · rw [read_write_offset _ (by decide) (by decide) (by decide), read_write _ (by decide)]

theorem read_mm {i : Nat} (hi : i < 8) :
    read (FXSaveOp is64BitMode supportsAVX s mem).mem (mem.value + BitVec.ofNat 64 (i * 16 + 32)) (8 * 16) = s.ctx.mm i := by
  have hnum : (if is64BitMode then 16 else 8) ≤ 16 := by split <;> decide
  rw [FXSaveOp_mem _ _ _ hmem]
  have hlater (m : Memory) :
      read (saveVectors mem 160 (fun i => s.ctx.xmm (xmmUnit supportsAVX i)) (if is64BitMode then 16 else 8) 0 m)
          (mem.value + BitVec.ofNat 64 (i * 16 + 32)) (8 * 16) =
        read m (mem.value + BitVec.ofNat 64 (i * 16 + 32)) (8 * 16) :=
    read_offset_congr (by omega) fun b hlow hup => saveVectors_of_out hmem _ m (by omega) (by omega)
  rw [hlater, read_saveVectors hmem _ _ (by decide) (Nat.zero_le _) (by omega)]

theorem read_xmm {i : Nat} (hi : i < if is64BitMode then 16 else 8) :
    read (FXSaveOp is64BitMode supportsAVX s mem).mem (mem.value + BitVec.ofNat 64 (i * 16 + 160)) (8 * 16) =
      s.ctx.xmm (xmmUnit supportsAVX i) := by
  have hnum : (if is64BitMode then 16 else 8) ≤ 16 := by split <;> decide
  rw [FXSaveOp_mem _ _ _ hmem, read_saveVectors hmem _ _ (by omega) (Nat.zero_le _) (by omega)]

theorem FXSaveOp_of_out {b : BitVec 64} (hb : 512 ≤ (b - mem.value).toNat) :
    (FXSaveOp is64BitMode supportsAVX s mem).mem b = s.mem b := by
  have hnum : (if is64BitMode then 16 else 8) ≤ 16 := by split <;> decide
  rw [FXSaveOp_mem _ _ _ hmem, saveVectors_of_out hmem _ _ (by omega) (by omega),
    saveVectors_of_out hmem _ _ (by omega) (by omega), extendedHeader, write_offset_of_out _ (by decide) (by omega),
    write_offset_of_out _ (by decide) (by omega), write_offset_of_out _ (by decide) (by omega)]

end Area

/-! ## The round trip -/

theorem fxrstor_restores (is64BitMode supportsAVX : Bool) {s s' : State} {mem mem' : Node} (hs : s.ctx.Valid)
    (hmem : mem.size ≤ 8) (hmem' : mem'.size ≤ 8) (hvalue : mem'.value = mem.value)
    (hagree : Agree (FXSaveOp is64BitMode supportsAVX s mem).mem s'.mem mem.value 512) :
    Restored is64BitMode supportsAVX (FXRStoreOp is64BitMode supportsAVX s' mem').ctx s.ctx := by
  have hnum : (if is64BitMode then 16 else 8) ≤ 16 := by split <;> decide
  have hread {w e : Nat} (he : e + (w + 7) / 8 ≤ 512) : read s'.mem (mem'.value + BitVec.ofNat 64 e) w =
      read (FXSaveOp is64BitMode supportsAVX s mem).mem (mem.value + BitVec.ofNat 64 e) w := by
    rw [hvalue]
    exact read_offset_congr (by omega) fun b hlow hup => (hagree b (by omega)).symm
  obtain ⟨hFCW, hFSW, hFTW⟩ := read_words is64BitMode supportsAVX s hmem
  rw [← hread (by decide)] at hFCW hFSW hFTW
  rw [show mem'.value + BitVec.ofNat 64 0 = mem'.value from BitVec.add_zero _] at hFCW
  have hword {x : BitVec 16} {loc : Node} (hloc : read s'.mem loc.value (8 * 2) = x) :
      (loadGPR s'.mem 2 loc).value.setWidth 16 = x := by
    rw [loadGPR, hloc, BitVec.setWidth_setWidth_of_le _ (by decide), setWidth_eq]
  have hstatus : s.ctx.Fields (loadGPR s'.mem 2 (add mem' (const 2))).value := by
    rw [loadGPR, add_const hmem', show read s'.mem (mem'.value + 2) (8 * 2) = _ from hFSW]
    exact (statusWord_fields hs).truncated (n := 16) (by decide) (by decide)
  have hctx : (FXRStoreOp is64BitMode supportsAVX s' mem').ctx =
      { s.ctx with
        loadedFCW := s.ctx.FCW
        mm := restoreVectors mem' 32 id s'.mem 8 0 s'.ctx.mm
        xmm := restoreVectors mem' 160 (xmmUnit supportsAVX) s'.mem (if is64BitMode then 16 else 8) 0 s'.ctx.xmm } := by
    unfold FXRStoreOp
    simp only [Context.setFCW, loadStatusWord_of_fields hs _ hstatus, hword hFCW]
    rw [add_const hmem', hword hFTW]
  rw [hctx]
  refine ⟨rfl, rfl, rfl, rfl, rfl, rfl, rfl, fun p hp => Iff.rfl, fun i hi => ?_, fun i hi => ?_⟩
  · have hload := restoreVectors_unit hmem' 32 Function.injective_id s'.mem s'.ctx.mm (show i < 0 + 8 by omega)
    rw [if_pos (Nat.zero_le _), hread (by omega), read_mm _ _ _ hmem hi] at hload
    exact hload
  · have hload := restoreVectors_unit hmem' 160 (xmmUnit_injective supportsAVX) s'.mem s'.ctx.xmm
      (show i < 0 + if is64BitMode then 16 else 8 by omega)
    rw [if_pos (Nat.zero_le _), hread (by omega), read_xmm _ _ _ hmem hi] at hload
    exact hload

/-! ## Where the image is the manual's -/

/-- The low tags of a tag word whose low byte has one bit for each register: 1 is empty, 0, 2 and 3 are not, and the tags of
2 and 3 tell of the upper four. -/
structure AbridgedTags (FTW : BitVec 16) : Prop where
  zero : tag FTW 0 = X87.X87Tag.zero.bits.setWidth 2
  one : tag FTW 1 = X87.X87Tag.empty.bits.setWidth 2
  two : tag FTW 2 ≠ X87.X87Tag.empty.bits.setWidth 2
  three : tag FTW 3 ≠ X87.X87Tag.empty.bits.setWidth 2
  upper : ∀ p, 4 ≤ p → p < 8 → FTW.getLsbD p = decide (tag FTW p ≠ X87.X87Tag.empty.bits.setWidth 2)

theorem tag_empty (FTW : BitVec 16) (p : Nat) :
    tag FTW p = X87.X87Tag.empty.bits.setWidth 2 ↔ FTW.getLsbD (2 * p) = true ∧ FTW.getLsbD (2 * p + 1) = true := by
  have hbits (x : BitVec 2) : x = X87.X87Tag.empty.bits.setWidth 2 ↔ x.getLsbD 0 = true ∧ x.getLsbD 1 = true := by
    revert x
    decide
  rw [hbits, tag, getLsbD_extractLsb', getLsbD_extractLsb']
  simp

theorem tag_zero (FTW : BitVec 16) (p : Nat) :
    tag FTW p = X87.X87Tag.zero.bits.setWidth 2 ↔ FTW.getLsbD (2 * p) = true ∧ FTW.getLsbD (2 * p + 1) = false := by
  have hbits (x : BitVec 2) : x = X87.X87Tag.zero.bits.setWidth 2 ↔ x.getLsbD 0 = true ∧ x.getLsbD 1 = false := by
    revert x
    decide
  rw [hbits, tag, getLsbD_extractLsb', getLsbD_extractLsb']
  simp

theorem abridgedTags_iff (FTW : BitVec 16) :
    (∀ p < 8, FTW.getLsbD p = decide (tag FTW p ≠ X87.X87Tag.empty.bits.setWidth 2)) ↔ AbridgedTags FTW := by
  have hbit (p : Nat) : decide (tag FTW p ≠ X87.X87Tag.empty.bits.setWidth 2) =
      !(FTW.getLsbD (2 * p) && FTW.getLsbD (2 * p + 1)) := by
    simp [tag_empty]
  constructor
  · intro h
    have h0 := h 0 (by decide)
    have h1 := h 1 (by decide)
    have h2 := h 2 (by decide)
    have h3 := h 3 (by decide)
    rw [hbit] at h0 h1 h2 h3
    refine ⟨(tag_zero FTW 0).mpr ?_, (tag_empty FTW 1).mpr ?_, mt (tag_empty FTW 2).mp ?_, mt (tag_empty FTW 3).mp ?_,
      fun p _ hp => h p hp⟩
    · grind
    · grind
    · grind
    · grind
  · intro h p hp
    rw [hbit]
    have h0 := (tag_zero FTW 0).mp h.zero
    have h1 := (tag_empty FTW 1).mp h.one
    have h2 := mt (tag_empty FTW 2).mpr h.two
    have h3 := mt (tag_empty FTW 3).mpr h.three
    by_cases hle : 4 ≤ p
    · rw [← hbit]
      exact h.upper p hle hp
    · obtain rfl | rfl | rfl | rfl : p = 0 ∨ p = 1 ∨ p = 2 ∨ p = 3 := by omega
      all_goals grind

theorem condition_eq_one {x : BitVec 8} (hx : x < 2) : x.getLsbD 0 = decide (x = 1) := by
  obtain ⟨y, rfl, -⟩ := exists_narrow (w := 1) hx
  revert y
  decide

theorem statusWord_word {c : Context} (hc : c.Valid) {word : BitVec 16}
    (hword : word = (c.statusWord c.getX87Top).value.setWidth 16) :
    word.extractLsb' 11 3 = c.top.setWidth 3 ∧ word.getLsbD 8 = decide (c.C0 = 1) ∧ word.getLsbD 9 = decide (c.C1 = 1) ∧
      word.getLsbD 10 = decide (c.C2 = 1) ∧ word.getLsbD 14 = decide (c.C3 = 1) := by
  have hfields := statusWord_fields hc
  have hbit {lsb : Nat} {x : BitVec 8} (hlsb : lsb < 16) (hx : x < 2)
      (hfield : opBfe 1 lsb (c.statusWord c.getX87Top).value = x.setWidth 64) : word.getLsbD lsb = decide (x = 1) := by
    have hlow := congrArg (fun v => v.getLsbD 0) hfield
    simp only [getLsbD_opBfe, maskWidth_of_le (show 1 ≤ 64 by decide), Nat.mod_eq_of_lt (show lsb < 64 by omega)] at hlow
    rw [hword, getLsbD_setWidth, ← condition_eq_one hx]
    simpa [hlsb] using hlow
  refine ⟨?_, hbit (by decide) hc.C0 hfields.C0, hbit (by decide) hc.C1 hfields.C1, hbit (by decide) hc.C2 hfields.C2,
    hbit (by decide) hc.C3 hfields.C3⟩
  apply BitVec.eq_of_getLsbD_eq
  intro i hi
  have hbits := congrArg (fun v => v.getLsbD i) hfields.top
  simp only [getLsbD_opBfe, maskWidth_of_le (show 3 ≤ 64 by decide), getLsbD_setWidth] at hbits
  rw [hword, getLsbD_extractLsb', getLsbD_setWidth, getLsbD_setWidth]
  simpa [hi, show i < 64 by omega, show 11 + i < 16 by omega] using hbits

/-- The registers from the top of the stack on are the registers by their numbers, as far as `FXSAVE` stores them. -/
def SameOrder (c : Context) : Prop := ∀ i < 8, (c.mm i).setWidth 80 = (c.mm ((c.top.toNat + i) % 8)).setWidth 80

section Format
variable (is64BitMode supportsAVX : Bool) (s : State) {mem : Node} (hs : s.ctx.Valid) (hmem : mem.size ≤ 8)
include hmem

theorem read_tagByte {p : Nat} (hp : p < 8) :
    (read (FXSaveOp is64BitMode supportsAVX s mem).mem (mem.value + 4#64) 8).getLsbD p = s.ctx.FTW.getLsbD p := by
  have hFTW := (read_words is64BitMode supportsAVX s hmem).2.2
  rw [← read_lower _ _ (show 8 ≤ 16 by decide), hFTW, getLsbD_setWidth, decide_eq_true hp, Bool.true_and]

theorem read_stack {i : Nat} (hi : i < 8) :
    read (FXSaveOp is64BitMode supportsAVX s mem).mem (mem.value + BitVec.ofNat 64 (i * 16 + 32)) 80 =
      (s.ctx.mm i).setWidth 80 := by
  rw [← read_lower _ _ (show 80 ≤ 8 * 16 by decide), read_mm _ _ _ hmem hi]

include hs

/-- The format is followed exactly for such tags and orders. -/
theorem fxsave_follows_iff : FollowsFormat is64BitMode supportsAVX s mem ↔ AbridgedTags s.ctx.FTW ∧ SameOrder s.ctx := by
  constructor
  · intro h
    refine ⟨(abridgedTags_iff _).mp fun p hp => ?_, fun i hi => ?_⟩
    · rw [← h.image.tags p hp, read_tagByte _ _ _ hmem hp]
    · rw [← h.image.stack i hi, read_stack _ _ _ hmem hi]
  · rintro ⟨htags, horder⟩
    obtain ⟨hFCW, hFSW, hFTW⟩ := read_words is64BitMode supportsAVX s hmem
    obtain ⟨htop, h0, h1, h2, h3⟩ := statusWord_word hs hFSW
    rw [show mem.value + BitVec.ofNat 64 0 = mem.value from BitVec.add_zero _] at hFCW
    refine ⟨fun b hb => FXSaveOp_of_out _ _ _ hmem hb,
      ⟨hFCW, htop, h0, h1, h2, h3, fun p hp => ?_, fun i hi => ?_, fun i hi => ?_⟩,
      fun s' mem' hmem' hvalue hagree => fxrstor_restores _ _ hs hmem hmem' hvalue hagree⟩
    · rw [read_tagByte _ _ _ hmem hp, (abridgedTags_iff _).mpr htags p hp]
    · rw [read_stack _ _ _ hmem hi, horder i hi]
    · exact read_xmm _ _ _ hmem hi

end Format

/-- A state with the top at the register 0, and the registers 1, 5 and 7 empty. -/
def unrotatedState : State where
  ctx := { rotatedState.ctx with FTW := 0xCC5D, top := 0 }
  mem := fun _ => 0

theorem unrotated_follows : FollowsFormat true true unrotatedState (const 0x1000) := by
  refine (fxsave_follows_iff true true unrotatedState ⟨by decide, by decide, by decide, by decide, by decide⟩
    (le_refl 8)).mpr ⟨⟨by decide, by decide, by decide, by decide, by decide⟩, fun i hi => ?_⟩
  rw [show (unrotatedState.ctx.top.toNat + i) % 8 = i by simpa [unrotatedState] using hi]

/-- All registers empty, as after `FNINIT`: every bit of the abridged tag word should be clear. -/
def emptyState : State where
  ctx := { rotatedState.ctx with FTW := 0xFFFF, top := 0 }
  mem := fun _ => 0

theorem emptyState_tag : ¬ FollowsFormat true false emptyState (const 0x1000) := by
  intro h
  have htag := h.image.tags 0 (by decide)
  rw [read_tagByte true false emptyState (le_refl 8) (by decide)] at htag
  exact absurd htag (by decide)

end FexEmu.OpcodeDispatcher.X87Context
