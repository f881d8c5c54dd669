import FexEmu.OpcodeDispatcher.X87IntegerLoad
/-!
# The saved state of x87

`FNSAVE` writes the registers as overlapping stores of sixteen bytes, so that each overwrites six bytes behind the register
before it.
-/
namespace FexEmu.OpcodeDispatcher.X87Context

open ByteMemory Interpreter
open Address (Node)
open Integer
open BitVec (eq_of_getLsbD_eq toNat_setWidth setWidth_eq add_assoc ofNat_add allOnes getLsbD_setWidth)

/-- `TOP` is a number of a register, and the condition bits are bits. -/
structure Context.Valid (c : Context) : Prop where
  top : c.top < 8
  C0 : c.C0 < 2
  C1 : c.C1 < 2
  C2 : c.C2 < 2
  C3 : c.C3 < 2

/-! ## The status word -/

theorem opBfe_setWidth {width lsb n : Nat} (x : BitVec 64) (hw : 0 < width) (hn : width + lsb ≤ n) (h64 : n ≤ 64) :
    opBfe width lsb ((x.setWidth n).setWidth 64) = opBfe width lsb x := by
  apply eq_of_getLsbD_eq
  intro i hi
  rw [getLsbD_opBfe, getLsbD_opBfe, maskWidth_of_le (by omega), Nat.mod_eq_of_lt (by omega)]
  by_cases h : i < width
  · simp [h, show lsb + i < n by omega, show lsb + i < 64 by omega]
  · simp [h]

def statusBits (top c0 c1 c2 c3 : BitVec 8) : BitVec 64 :=
  top.setWidth 64 <<< 11 ||| c0.setWidth 64 <<< 8 ||| c1.setWidth 64 <<< 9 ||| c2.setWidth 64 <<< 10 |||
    c3.setWidth 64 <<< 14

theorem status_shift (x : BitVec 8) {y : BitVec 64} {n : Nat} (hy : (y &&& 31#64).toNat = n) (hn : n ≤ 24) :
    lshl (byteNode x) (const y) = ⟨4, x.setWidth 64 <<< n⟩ := by
  have hvalue : ((x.setWidth 64).setWidth 32 <<< n).setWidth 64 = x.setWidth 64 <<< n := by
    apply eq_of_getLsbD_eq
    intro i hi
    by_cases h : i < 32
    · simp [h, hi]
    · have hzero : x.getLsbD (i - n) = false := BitVec.getLsbD_of_ge x _ (by omega)
      simp [hzero]
  calc lshl (byteNode x) (const y) = ⟨4, ((x.setWidth 64).setWidth 32 <<< (y &&& 31#64).toNat).setWidth 64⟩ := rfl
    _ = ⟨4, x.setWidth 64 <<< n⟩ := by rw [hy, hvalue]

theorem or_eight_four (x y : BitVec 64) : Integer.or ⟨8, x⟩ ⟨4, y⟩ = ⟨8, x ||| y⟩ := by
  simp [Integer.or, emit, opSize, opOr, doOp]

theorem statusWord_eq (c : Context) : c.statusWord c.getX87Top = ⟨8, statusBits c.top c.C0 c.C1 c.C2 c.C3⟩ := by
  have hzero : const 0 = ⟨8, 0⟩ := rfl
  simp only [Context.statusWord, Context.getX87Top, status_shift _ (y := 11) rfl (by decide),
    status_shift _ (y := 8) rfl (by decide), status_shift _ (y := 9) rfl (by decide),
    status_shift _ (y := 10) rfl (by decide), status_shift _ (y := 14) rfl (by decide), hzero, or_eight_four]
  rw [show (0 : BitVec 64) = 0#64 from rfl, BitVec.zero_or]
  rfl

theorem statusBits_fields : ∀ (t : BitVec 3) (c0 c1 c2 c3 : BitVec 1),
    let s := statusBits (t.setWidth 8) (c0.setWidth 8) (c1.setWidth 8) (c2.setWidth 8) (c3.setWidth 8)
    opBfe 3 11 s = t.setWidth 64 ∧ opBfe 1 8 s = c0.setWidth 64 ∧ opBfe 1 9 s = c1.setWidth 64 ∧
      opBfe 1 10 s = c2.setWidth 64 ∧ opBfe 1 14 s = c3.setWidth 64 := by
  decide

theorem exists_narrow {w : Nat} {x : BitVec 8} (hx : x.toNat < 2 ^ w) :
    ∃ y : BitVec w, x = y.setWidth 8 ∧ x.setWidth 64 = y.setWidth 64 := by
  have hy : (x.setWidth w).toNat = x.toNat := by
    rw [toNat_setWidth, Nat.mod_eq_of_lt hx]
  refine ⟨x.setWidth w, BitVec.eq_of_toNat_eq ?_, BitVec.eq_of_toNat_eq ?_⟩
  · rw [toNat_setWidth, hy, Nat.mod_eq_of_lt x.isLt]
  · rw [toNat_setWidth, toNat_setWidth, hy]

/-- The fields of the status word are the members. -/
structure Context.Fields (c : Context) (word : BitVec 64) : Prop where
  top : opBfe 3 11 word = c.top.setWidth 64
  C0 : opBfe 1 8 word = c.C0.setWidth 64
  C1 : opBfe 1 9 word = c.C1.setWidth 64
  C2 : opBfe 1 10 word = c.C2.setWidth 64
  C3 : opBfe 1 14 word = c.C3.setWidth 64

theorem statusWord_fields {c : Context} (hc : c.Valid) : c.Fields (c.statusWord c.getX87Top).value := by
  rw [statusWord_eq]
  obtain ⟨htop, h0, h1, h2, h3⟩ := hc
  obtain ⟨t, ht, ht'⟩ := exists_narrow (w := 3) htop
  obtain ⟨c0, hc0, hc0'⟩ := exists_narrow (w := 1) h0
  obtain ⟨c1, hc1, hc1'⟩ := exists_narrow (w := 1) h1
  obtain ⟨c2, hc2, hc2'⟩ := exists_narrow (w := 1) h2
  obtain ⟨c3, hc3, hc3'⟩ := exists_narrow (w := 1) h3
  have hfields := statusBits_fields t c0 c1 c2 c3
  rw [← ht, ← hc0, ← hc1, ← hc2, ← hc3, ← ht', ← hc0', ← hc1', ← hc2', ← hc3'] at hfields
  obtain ⟨f, f0, f1, f2, f3⟩ := hfields
  exact ⟨f, f0, f1, f2, f3⟩

theorem Context.Fields.truncated {c : Context} {word : BitVec 64} (h : c.Fields word) {n : Nat} (hn : 15 ≤ n)
    (h64 : n ≤ 64) : c.Fields ((word.setWidth n).setWidth 64) := by
  obtain ⟨h, h0, h1, h2, h3⟩ := h
  constructor <;> rw [opBfe_setWidth _ (by decide) (by omega) h64] <;> assumption

theorem condition_restored {x : BitVec 8} (hx : x < 2) : (opBfe 1 0 (x.setWidth 64)).setWidth 8 = x := by
  obtain ⟨y, rfl, -⟩ := exists_narrow (w := 1) hx
  revert y
  decide

theorem loadStatusWord_of_fields {c : Context} (hc : c.Valid) (d : Context) {node : Node} (h : c.Fields node.value) :
    d.loadStatusWord node = { d with top := c.top, C0 := c.C0, C1 := c.C1, C2 := c.C2, C3 := c.C3 } := by
  have htop : (opBfe 3 11 node.value).setWidth 8 = c.top := by
    rw [h.top, BitVec.setWidth_setWidth_of_le _ (by decide), setWidth_eq]
  simp [Context.loadStatusWord, Context.setConditions, Context.setX87Top, bfe, h.C0, h.C1, h.C2, h.C3, htop,
    condition_restored hc.C0, condition_restored hc.C1, condition_restored hc.C2, condition_restored hc.C3]

/-! ## The places of the registers -/

theorem add_const {mem : Node} (hmem : mem.size ≤ 8) (c : BitVec 64) : add mem (const c) = ⟨8, mem.value + c⟩ := by
  have hsize : atLeast4 mem (const c) = 8 := by
    simp only [atLeast4, const_size]
    omega
  rw [add, hsize]
  rfl

/-- The cursor before the round `i`. -/
structure Cursor.At (k : Cursor) (a : BitVec 64) (d i : Nat) : Prop where
  location_size : k.location.size ≤ 8
  top_size : k.top.size ≤ 8
  location : k.location.value = a + BitVec.ofNat 64 d
  top : k.top.value.toNat = i % 8

namespace Cursor.At
variable {k : Cursor} {a : BitVec 64} {d i : Nat}

theorem next (h : k.At a d i) : k.next.At a (d + 10) (i + 1) := by
  have hnext : k.next = ⟨⟨8, k.location.value + 10⟩, ⟨8, (k.top.value + 1) &&& 7⟩⟩ := by
    rw [Cursor.next, add_const h.location_size, add_const h.top_size]
    exact congrArg _ (and_eight _ 7)
  rw [hnext]
  refine ⟨le_refl _, le_refl _, ?_, ?_⟩
  · rw [h.location, add_assoc, ofNat_add]
    rfl
  · have hadd : (k.top.value + 1).toNat = i % 8 + 1 := by
      have hone : (1 : BitVec 64).toNat = 1 := rfl
      rw [BitVec.toNat_add, h.top]
      omega
    calc ((k.top.value + 1) &&& 7).toNat = (k.top.value + 1).toNat % 2 ^ 3 := by
          exact Nat.and_two_pow_sub_one_eq_mod _ 3
      _ = (i + 1) % 8 := by
          omega

theorem advance (n : Nat) (h : k.At a d i) : (k.advance n).At a (d + 10 * n) (i + n) := by
  induction n generalizing k d i with
  | zero => exact h
  | succ n ih =>
    have := ih h.next
    rwa [show d + 10 + 10 * n = d + 10 * (n + 1) by omega, show i + 1 + n = i + (n + 1) by omega] at this

end Cursor.At

/-! ## The registers saved -/

section Saved
variable (c : Context) {k : Cursor} {a b : BitVec 64} {d i n : Nat}

theorem saveRegisters_of_out (m : Memory) (h : k.At a d i) (hend : d + 10 * n + 6 ≤ 2 ^ 64)
    (hb : (b - a).toNat < d ∨ d + 10 * n + 6 ≤ (b - a).toNat) : saveRegisters c n k m b = m b := by
  induction n generalizing k d i m with
  | zero => rfl
  | succ n ih =>
    rw [saveRegisters, ih _ h.next (by omega) (by omega), storeFPR, h.location]
    exact write_offset_of_out _ (by omega) (by omega)

theorem read_saveRegisters (m : Memory) (h : k.At a d i) (hend : d + 10 * n + 6 ≤ 2 ^ 64) {j : Nat} (hj : j < n) :
    read (saveRegisters c n k m) (a + BitVec.ofNat 64 (d + 10 * j)) 80 = (c.mm ((i + j) % 8)).setWidth 80 := by
  induction n generalizing k d i m j with
  | zero => omega
  | succ n ih =>
    rw [saveRegisters]
    cases j with
    | zero =>
      have hlater :
          read (saveRegisters c n k.next (storeFPR m 16 k.location (c.loadMM k.top))) (a + BitVec.ofNat 64 d) 80 =
            read (storeFPR m 16 k.location (c.loadMM k.top)) (a + BitVec.ofNat 64 d) 80 :=
        read_offset_congr (by omega) fun b hlow hup => saveRegisters_of_out c _ h.next (by omega) (by omega)
      rw [Nat.mul_zero, Nat.add_zero, Nat.add_zero, hlater, storeFPR, h.location,
        ← read_lower _ _ (show 80 ≤ 8 * 16 by decide), read_write _ (by decide),
        BitVec.setWidth_setWidth_of_le _ (by decide), Context.loadMM, h.top]
    | succ j =>
      have := ih (storeFPR m 16 k.location (c.loadMM k.top)) h.next (by omega) (show j < n by omega)
      rwa [show d + 10 + 10 * j = d + 10 * (j + 1) by omega, show i + 1 + j = i + (j + 1) by omega] at this

end Saved

/-! ## The registers restored -/

section Restored
variable (m : Memory) {k : Cursor} {a : BitVec 64} {d i n : Nat}

theorem masked_load (loc : Node) :
    loadFPR m 16 loc &&& (allOnes 80).setWidth 128 = (read m loc.value 80).setWidth 128 := by
  rw [loadFPR, ← read_lower m loc.value (show 80 ≤ 8 * 16 by decide)]
  apply eq_of_getLsbD_eq
  intro i hi
  simp only [BitVec.getLsbD_and, getLsbD_setWidth, BitVec.getLsbD_allOnes]
  by_cases h : i < 80
  · simp [h, hi]
  · simp [h]

theorem restoreRegisters_eq (mask : BitVec 128) (c : Context) :
    restoreRegisters mask m n k c = { c with mm := (restoreRegisters mask m n k c).mm } := by
  induction n generalizing k c with
  | zero => rfl
  | succ n ih =>
    rw [restoreRegisters, ih]
    rfl

variable {f : Nat → BitVec 128}

/-- A register that has its value keeps it: every load gives the value of its register. -/
theorem restoreRegisters_keeps (h : k.At a d i)
    (hf : ∀ j < n, (read m (a + BitVec.ofNat 64 (d + 10 * j)) 80).setWidth 128 = f ((i + j) % 8)) (c : Context) {r : Nat}
    (hr : c.mm r = f r) : (restoreRegisters ((allOnes 80).setWidth 128) m n k c).mm r = f r := by
  induction n generalizing k d i c with
  | zero => exact hr
  | succ n ih =>
    refine ih h.next (fun j hj => ?_) _ ?_
    · have := hf (j + 1) (by omega)
      rwa [show d + 10 * (j + 1) = d + 10 + 10 * j by omega, show i + (j + 1) = i + 1 + j by omega] at this
    · have hload := hf 0 (by omega)
      rw [Nat.mul_zero, Nat.add_zero, Nat.add_zero] at hload
      rw [Context.storeMM, masked_load, h.location, hload, h.top]
      dsimp only
      by_cases hri : r = i % 8
      · subst hri
        rw [Function.update_self]
      · rw [Function.update_of_ne hri, hr]

theorem restoreRegisters_mm (h : k.At a d i)
    (hf : ∀ j < n, (read m (a + BitVec.ofNat 64 (d + 10 * j)) 80).setWidth 128 = f ((i + j) % 8)) (c : Context) {j : Nat}
    (hj : j < n) : (restoreRegisters ((allOnes 80).setWidth 128) m n k c).mm ((i + j) % 8) = f ((i + j) % 8) := by
  induction n generalizing k d i c j with
  | zero => omega
  | succ n ih =>
    have hf' : ∀ j < n, (read m (a + BitVec.ofNat 64 (d + 10 + 10 * j)) 80).setWidth 128 = f ((i + 1 + j) % 8) := by
      intro j hj
      have := hf (j + 1) (by omega)
      rwa [show d + 10 * (j + 1) = d + 10 + 10 * j by omega, show i + (j + 1) = i + 1 + j by omega] at this
    cases j with
    | zero =>
      have hload := hf 0 (by omega)
      rw [Nat.mul_zero, Nat.add_zero, Nat.add_zero] at hload
      refine restoreRegisters_keeps m h.next hf' _ ?_
      rw [Context.storeMM, masked_load, h.location, hload, h.top]
      exact Function.update_self ..
    | succ j =>
      have := ih h.next hf' (c.storeMM k.top (loadFPR m 16 k.location &&& (allOnes 80).setWidth 128))
        (show j < n by omega)
      rwa [show i + 1 + j = i + (j + 1) by omega] at this

end Restored

/-! ## The saved area -/

section Area
variable (s : State) {size : Nat} {mem : Node}

/-- The stores before the registers. -/
def savedHeader (s : State) (size : Nat) (mem : Node) : Memory :=
  let m := storeGPR s.mem size mem (wordNode s.ctx.FCW)
  let m := storeGPR m size (add mem (const (BitVec.ofNat 64 (size * 1)))) (s.ctx.statusWord s.ctx.getX87Top)
  let m := storeGPR m size (add mem (const (BitVec.ofNat 64 (size * 2)))) (wordNode s.ctx.FTW)
  let m := storeGPR m size (add mem (const (BitVec.ofNat 64 (size * 3)))) (const 0)
  let m := storeGPR m size (add mem (const (BitVec.ofNat 64 (size * 4)))) (const 0)
  let m := storeGPR m size (add mem (const (BitVec.ofNat 64 (size * 5)))) (const 0)
  storeGPR m size (add mem (const (BitVec.ofNat 64 (size * 6)))) (const 0)

def firstCursor (size : Nat) (mem top : Node) : Cursor := ⟨add mem (const (BitVec.ofNat 64 (size * 7))), top⟩

theorem firstCursor_at (hmem : mem.size ≤ 8) {top : Node} (htop : top.size ≤ 8) {i : Nat} (hi : top.value.toNat = i % 8) :
    (firstCursor size mem top).At mem.value (size * 7) i := by
  rw [firstCursor, add_const hmem]
  exact ⟨le_refl _, htop, rfl, hi⟩

theorem topNode_at {c : Context} (hc : c.Valid) : c.getX87Top.value.toNat = c.top.toNat % 8 := by
  have htop : c.top.toNat < 8 := hc.top
  rw [Context.getX87Top, byteNode, toNat_setWidth]
  omega

theorem savedCursor_at (size : Nat) (hmem : mem.size ≤ 8) (hs : s.ctx.Valid) :
    (firstCursor size mem s.ctx.getX87Top).At mem.value (size * 7) s.ctx.top.toNat :=
  firstCursor_at hmem (show 1 ≤ 8 by decide) (topNode_at hs)

/-- A store of the header, by its number. -/
def storeField (size : Nat) (a : BitVec 64) (j : Nat) (x : BitVec 64) (m : Memory) : Memory :=
  write m (a + BitVec.ofNat 64 (size * j)) (x.setWidth (8 * size))

theorem savedHeader_eq (hmem : mem.size ≤ 8) : savedHeader s size mem =
    storeField size mem.value 6 0 (storeField size mem.value 5 0 (storeField size mem.value 4 0
      (storeField size mem.value 3 0 (storeField size mem.value 2 (s.ctx.FTW.setWidth 64)
        (storeField size mem.value 1 (s.ctx.statusWord s.ctx.getX87Top).value
          (storeField size mem.value 0 (s.ctx.FCW.setWidth 64) s.mem)))))) := by
  have hfirst : mem.value + BitVec.ofNat 64 (size * 0) = mem.value := by
    exact BitVec.add_zero _
  simp only [savedHeader, storeGPR, add_const hmem, storeField, hfirst]
  rfl

section Field
variable {m : Memory} {a b : BitVec 64} {j : Nat} {x : BitVec 64}

theorem place_le (hj : j < 7) : size * j + (8 * size + 7) / 8 ≤ size * 7 := by
  have hmul : size * (j + 1) ≤ size * 7 := Nat.mul_le_mul_left size hj
  rw [Nat.mul_add] at hmul
  omega

variable (hsize : size ≤ 4)
include hsize

theorem storeField_of_out (hj : j < 7) (hb : size * 7 ≤ (b - a).toNat) : storeField size a j x m b = m b := by
  have hplace := @place_le size j hj
  exact write_offset_of_out _ (by omega) (by omega)

theorem read_storeField :
    read (storeField size a j x m) (a + BitVec.ofNat 64 (size * j)) (8 * size) = x.setWidth (8 * size) :=
  read_write _ (by omega)

theorem read_storeField_other {i : Nat} (hj : j < 7) (hi : i < 7) (hne : i ≠ j) :
    read (storeField size a j x m) (a + BitVec.ofNat 64 (size * i)) (8 * size) =
      read m (a + BitVec.ofNat 64 (size * i)) (8 * size) := by
  have hj' := @place_le size j hj
  have hi' := @place_le size i hi
  apply read_write_offset _ (by omega) (by omega)
  rcases Nat.lt_or_gt_of_ne hne with h | h
  · right
    have hmul : size * (i + 1) ≤ size * j := Nat.mul_le_mul_left size h
    rw [Nat.mul_add] at hmul
    omega
  · left
    have hmul : size * (j + 1) ≤ size * i := Nat.mul_le_mul_left size h
    rw [Nat.mul_add] at hmul
    omega

end Field

variable (hmem : mem.size ≤ 8) (hsize : size ≤ 4)
include hmem hsize

theorem savedHeader_of_out {b : BitVec 64} (hb : size * 7 ≤ (b - mem.value).toNat) : savedHeader s size mem b = s.mem b := by
  rw [savedHeader_eq s hmem]
  simp (disch := omega) only [storeField_of_out hsize]

theorem savedHeader_fields :
    read (savedHeader s size mem) (mem.value + BitVec.ofNat 64 (size * 0)) (8 * size) =
        (s.ctx.FCW.setWidth 64).setWidth (8 * size) ∧
      read (savedHeader s size mem) (mem.value + BitVec.ofNat 64 (size * 1)) (8 * size) =
        (s.ctx.statusWord s.ctx.getX87Top).value.setWidth (8 * size) ∧
      read (savedHeader s size mem) (mem.value + BitVec.ofNat 64 (size * 2)) (8 * size) =
        (s.ctx.FTW.setWidth 64).setWidth (8 * size) := by
  rw [savedHeader_eq s hmem]
  refine ⟨?_, ?_, ?_⟩
  all_goals simp (disch := omega) only [read_storeField_other hsize, read_storeField hsize]

omit hsize in
theorem X87FNSAVE_mem (hs : s.ctx.Valid) : (X87FNSAVE s size mem).mem =
    write (write (saveRegisters s.ctx 7 (firstCursor size mem s.ctx.getX87Top) (savedHeader s size mem))
      (mem.value + BitVec.ofNat 64 (size * 7 + 70)) ((s.ctx.mm ((s.ctx.top.toNat + 7) % 8)).setWidth (8 * 8)))
      (mem.value + BitVec.ofNat 64 (size * 7 + 78))
      ((vExtractElement 2 (s.ctx.mm ((s.ctx.top.toNat + 7) % 8)) 4).setWidth (8 * 2)) := by
  have hlast : ((firstCursor size mem s.ctx.getX87Top).advance 7).At mem.value (size * 7 + 70) (s.ctx.top.toNat + 7) :=
    (savedCursor_at s size hmem hs).advance 7
  have hdata : s.ctx.loadMM ((firstCursor size mem s.ctx.getX87Top).advance 7).top =
      s.ctx.mm ((s.ctx.top.toNat + 7) % 8) := by
    rw [Context.loadMM, hlast.top]
  have hhigh : (add ((firstCursor size mem s.ctx.getX87Top).advance 7).location (const 8)).value =
      mem.value + BitVec.ofNat 64 (size * 7 + 78) := by
    rw [add_const hlast.location_size, hlast.location, add_assoc, show (8 : BitVec 64) = BitVec.ofNat 64 8 from rfl,
      ← ofNat_add]
  rw [← hdata, ← hlast.location, ← hhigh]
  rfl

theorem X87FNSAVE_of_out (hs : s.ctx.Valid) {b : BitVec 64} (hb : size * 7 + 80 ≤ (b - mem.value).toNat) :
    (X87FNSAVE s size mem).mem b = s.mem b := by
  have hfirst := savedCursor_at s size hmem hs
  rw [X87FNSAVE_mem s hmem hs, write_offset_of_out _ (by omega) (by omega), write_offset_of_out _ (by omega) (by omega),
    saveRegisters_of_out _ _ hfirst (by omega) (by omega), savedHeader_of_out s hmem hsize (by omega)]

theorem read_header (hs : s.ctx.Valid) {w e : Nat} (he : e + (w + 7) / 8 ≤ size * 7) :
    read (X87FNSAVE s size mem).mem (mem.value + BitVec.ofNat 64 e) w =
      read (savedHeader s size mem) (mem.value + BitVec.ofNat 64 e) w := by
  have hfirst := savedCursor_at s size hmem hs
  rw [X87FNSAVE_mem s hmem hs, read_write_offset _ (by omega) (by omega) (by omega),
    read_write_offset _ (by omega) (by omega) (by omega)]
  exact read_offset_congr (by omega) fun b hlow hup => saveRegisters_of_out _ _ hfirst (by omega) (by omega)

theorem read_register (hs : s.ctx.Valid) {j : Nat} (hj : j < 7) :
    read (X87FNSAVE s size mem).mem (mem.value + BitVec.ofNat 64 (size * 7 + 10 * j)) 80 =
      (s.ctx.mm ((s.ctx.top.toNat + j) % 8)).setWidth 80 := by
  have hfirst := savedCursor_at s size hmem hs
  rw [X87FNSAVE_mem s hmem hs, read_write_offset _ (by omega) (by omega) (by omega),
    read_write_offset _ (by omega) (by omega) (by omega)]
  exact read_saveRegisters _ _ hfirst (by omega) hj

theorem read_last (hs : s.ctx.Valid) :
    read (X87FNSAVE s size mem).mem (mem.value + BitVec.ofNat 64 (size * 7 + 70)) (8 * 8) =
        (s.ctx.mm ((s.ctx.top.toNat + 7) % 8)).setWidth (8 * 8) ∧
      read (X87FNSAVE s size mem).mem (mem.value + BitVec.ofNat 64 (size * 7 + 78)) (8 * 2) =
        (vExtractElement 2 (s.ctx.mm ((s.ctx.top.toNat + 7) % 8)) 4).setWidth (8 * 2) := by
  rw [X87FNSAVE_mem s hmem hs]
  constructor
  · rw [read_write_offset _ (by omega) (by omega) (by omega), read_write _ (by decide)]
  · rw [read_write _ (by decide)]

end Area

/-! ## The round trip -/

theorem last_restored (x : BitVec 128) :
    (vInsElement 2 4 0 ((x.setWidth (8 * 8)).setWidth 128)
      (((vExtractElement 2 x 4).setWidth (8 * 2)).setWidth 128)).setWidth 80 = x.setWidth 80 := by
  apply eq_of_getLsbD_eq
  intro i hi
  rw [getLsbD_setWidth, getLsbD_setWidth, getLsbD_vInsElement _ _ _ _ _ (by omega)]
  split
  · case isTrue h =>
    rw [vExtractElement]
    have hplace : 8 * 2 * 4 + (8 * 2 * 0 + (i - 8 * 2 * 4)) = i := by omega
    simp only [getLsbD_setWidth, BitVec.getLsbD_ushiftRight, hplace]
    simp [hi, show i - 64 < 16 by omega, show i - 64 < 128 by omega]
  · case isFalse h =>
    simp [show i < 64 by omega, show i < 128 by omega]

section RoundTrip
variable {s s' : State} {size : Nat} {mem mem' : Node}

/-- The status word as `FRSTOR` loads it. -/
def loadedStatus (s : State) (size : Nat) (mem : Node) : Node :=
  loadGPR s.mem size (add mem (const (BitVec.ofNat 64 (size * 1))))

/-- The context of `FRSTOR` before the registers. -/
def restoredHeader (s : State) (size : Nat) (mem : Node) : Context :=
  { (s.ctx.setFCW (loadGPR s.mem 2 mem)).loadStatusWord (loadedStatus s size mem) with
    FTW := (loadGPR s.mem size (add mem (const (BitVec.ofNat 64 (size * 2))))).value.setWidth 16 }

theorem X87FRSTOR_ctx : (X87FRSTOR s size mem).ctx =
    (restoreRegisters ((allOnes 80).setWidth 128) s.mem 7 (firstCursor size mem (bfe 3 11 (loadedStatus s size mem)))
      (restoredHeader s size mem)).storeMM
        ((firstCursor size mem (bfe 3 11 (loadedStatus s size mem))).advance 7).top
        (vInsElement 2 4 0
          (loadFPR s.mem 8 ((firstCursor size mem (bfe 3 11 (loadedStatus s size mem))).advance 7).location)
          (loadFPR s.mem 2
            (add ((firstCursor size mem (bfe 3 11 (loadedStatus s size mem))).advance 7).location (const 8)))) := by
  rfl

variable (hvalue : mem'.value = mem.value) (hsize : size = 2 ∨ size = 4)
  (hagree : Agree (X87FNSAVE s size mem).mem s'.mem mem.value (size * 7 + 80))
include hvalue hsize hagree

theorem read_restored {w e : Nat} (he : e + (w + 7) / 8 ≤ size * 7 + 80) :
    read s'.mem (mem'.value + BitVec.ofNat 64 e) w = read (X87FNSAVE s size mem).mem (mem.value + BitVec.ofNat 64 e) w := by
  rw [hvalue]
  exact read_offset_congr (by omega) fun b hlow hup => (hagree b (by omega)).symm

variable (hs : s.ctx.Valid) (hmem : mem.size ≤ 8) (hmem' : mem'.size ≤ 8)
include hs hmem hmem'

theorem loadedStatus_fields : s.ctx.Fields (loadedStatus s' size mem').value := by
  have hle : size ≤ 4 := by omega
  have hread := read_restored hvalue hsize hagree (w := 8 * size) (e := size * 1) (by omega)
  rw [read_header s hmem hle hs (by omega), (savedHeader_fields s hmem hle).2.1] at hread
  rw [loadedStatus, loadGPR, add_const hmem', hread]
  exact (statusWord_fields hs).truncated (by omega) (by omega)

theorem restoredHeader_eq : restoredHeader s' size mem' =
    { s.ctx with mm := s'.ctx.mm, xmm := s'.ctx.xmm, loadedFCW := s.ctx.FCW } := by
  have hle : size ≤ 4 := by omega
  have hfields := savedHeader_fields s hmem hle
  have hFCW : (loadGPR s'.mem 2 mem').value.setWidth 16 = s.ctx.FCW := by
    have hread := read_restored hvalue hsize hagree (w := 8 * size) (e := size * 0) (by omega)
    rw [read_header s hmem hle hs (by omega), hfields.1, Nat.mul_zero, BitVec.add_zero] at hread
    rw [loadGPR, ← read_lower _ _ (show 8 * 2 ≤ 8 * size by omega), hread]
    apply eq_of_getLsbD_eq
    intro i hi
    simp [hi, show i < 8 * size by omega]
  have hFTW : (loadGPR s'.mem size (add mem' (const (BitVec.ofNat 64 (size * 2))))).value.setWidth 16 = s.ctx.FTW := by
    have hread := read_restored hvalue hsize hagree (w := 8 * size) (e := size * 2) (by omega)
    rw [read_header s hmem hle hs (by omega), hfields.2.2] at hread
    rw [loadGPR, add_const hmem', hread]
    apply eq_of_getLsbD_eq
    intro i hi
    simp [hi, show i < 8 * size by omega]
  rw [restoredHeader, hFTW, Context.setFCW, hFCW,
    loadStatusWord_of_fields hs _ (loadedStatus_fields hvalue hsize hagree hs hmem hmem')]

theorem restoredCursor_at :
    (firstCursor size mem' (bfe 3 11 (loadedStatus s' size mem'))).At mem'.value (size * 7) s.ctx.top.toNat := by
  have htop : s.ctx.top.toNat < 8 := hs.top
  refine firstCursor_at hmem' (show size ≤ 8 by omega) ?_
  rw [bfe, (loadedStatus_fields hvalue hsize hagree hs hmem hmem').top, toNat_setWidth]
  omega

omit hmem' in
theorem loaded_register {j : Nat} (hj : j < 7) :
    (read s'.mem (mem'.value + BitVec.ofNat 64 (size * 7 + 10 * j)) 80).setWidth 128 =
      ((s.ctx.mm ((s.ctx.top.toNat + j) % 8)).setWidth 80).setWidth 128 := by
  rw [read_restored hvalue hsize hagree (by omega), read_register s hmem (by omega) hs hj]

theorem loaded_last :
    (vInsElement 2 4 0
        (loadFPR s'.mem 8 ((firstCursor size mem' (bfe 3 11 (loadedStatus s' size mem'))).advance 7).location)
        (loadFPR s'.mem 2
          (add ((firstCursor size mem' (bfe 3 11 (loadedStatus s' size mem'))).advance 7).location (const 8)))).setWidth 80 =
      (s.ctx.mm ((s.ctx.top.toNat + 7) % 8)).setWidth 80 := by
  have hlast := (restoredCursor_at hvalue hsize hagree hs hmem hmem').advance 7
  have hread := read_last s hmem (show size ≤ 4 by omega) hs
  have hlow := read_restored hvalue hsize hagree (w := 8 * 8) (e := size * 7 + 70) (by omega)
  have hhigh := read_restored hvalue hsize hagree (w := 8 * 2) (e := size * 7 + 78) (by omega)
  have hplace : (8 : BitVec 64) = BitVec.ofNat 64 8 := rfl
  rw [loadFPR, loadFPR, add_const hlast.location_size, hlast.location, hlow, hread.1, add_assoc, hplace,
    ← ofNat_add, hhigh, hread.2]
  exact last_restored _

theorem restored_mm {r : Nat} (hr : r < 8) : ((X87FRSTOR s' size mem').ctx.mm r).setWidth 80 = (s.ctx.mm r).setWidth 80 := by
  have hcursor := restoredCursor_at hvalue hsize hagree hs hmem hmem'
  rw [X87FRSTOR_ctx, Context.storeMM, (hcursor.advance 7).top]
  dsimp only
  by_cases hlast : r = (s.ctx.top.toNat + 7) % 8
  · rw [hlast, Function.update_self]
    exact loaded_last hvalue hsize hagree hs hmem hmem'
  · have htop : s.ctx.top.toNat < 8 := hs.top
    have hround : r = (s.ctx.top.toNat + (r + 8 - s.ctx.top.toNat) % 8) % 8 := by omega
    rw [Function.update_of_ne hlast, hround,
      restoreRegisters_mm (f := fun r => ((s.ctx.mm r).setWidth 80).setWidth 128) _ hcursor
        (fun j hj => loaded_register hvalue hsize hagree hs hmem hj) _ (by omega),
      BitVec.setWidth_setWidth_of_le _ (by decide), setWidth_eq]

end RoundTrip

/-- Contexts with the same x87 state. The control word that is in effect is that of the second. -/
structure SameX87 (c d : Context) : Prop where
  FCW : c.FCW = d.FCW
  loadedFCW : c.loadedFCW = d.FCW
  top : c.top = d.top
  C0 : c.C0 = d.C0
  C1 : c.C1 = d.C1
  C2 : c.C2 = d.C2
  C3 : c.C3 = d.C3
  FTW : c.FTW = d.FTW
  mm : ∀ r < 8, (c.mm r).setWidth 80 = (d.mm r).setWidth 80

/-- `FNSAVE` only writes its area, and `FRSTOR` restores the state from an area that is unchanged. -/
theorem fnsave_frstor (s s' : State) (size : Nat) (mem mem' : Node) (hs : s.ctx.Valid) (hsize : size = 2 ∨ size = 4)
    (hmem : mem.size ≤ 8) (hmem' : mem'.size ≤ 8) (hvalue : mem'.value = mem.value)
    (hagree : Agree (X87FNSAVE s size mem).mem s'.mem mem.value (size * 7 + 80)) :
    (∀ b, size * 7 + 80 ≤ (b - mem.value).toNat → (X87FNSAVE s size mem).mem b = s.mem b) ∧
      SameX87 (X87FRSTOR s' size mem').ctx s.ctx := by
  have hheader := restoredHeader_eq hvalue hsize hagree hs hmem hmem'
  have hctx : (X87FRSTOR s' size mem').ctx =
      { s.ctx with mm := (X87FRSTOR s' size mem').ctx.mm, xmm := s'.ctx.xmm, loadedFCW := s.ctx.FCW } := by
    rw [X87FRSTOR_ctx, restoreRegisters_eq, hheader]
    rfl
  refine ⟨fun b hb => X87FNSAVE_of_out s hmem (by omega) hs hb, ?_⟩
  refine ⟨?_, ?_, ?_, ?_, ?_, ?_, ?_, ?_, fun r hr => restored_mm hvalue hsize hagree hs hmem hmem' hr⟩ <;> rw [hctx]

/-- A state whose top is the register 5. -/
def rotatedState : State where
  ctx :=
    { FCW := 0x027F, loadedFCW := 0x027F, FTW := 0x03FF, top := 5, C0 := 1, C1 := 0, C2 := 0, C3 := 1,
      mm := fun i => BitVec.ofNat 128 (i + 1), xmm := fun _ => 0 }
  mem := fun _ => 0

theorem fnsave_frstor_rotated :
    SameX87 (X87FRSTOR (X87FNSAVE rotatedState 4 (const 0x1000)) 4 (const 0x1000)).ctx rotatedState.ctx :=
  (fnsave_frstor rotatedState (X87FNSAVE rotatedState 4 (const 0x1000)) 4 (const 0x1000) (const 0x1000)
    ⟨by decide, by decide, by decide, by decide, by decide⟩ (.inr rfl) (le_refl 8) (le_refl 8) rfl fun _ _ => rfl).2

end FexEmu.OpcodeDispatcher.X87Context
