import Mathlib.Data.BitVec
import Mathlib.Tactic
/-!
# Validation of a block's code

`Op_ValidateCode` of the JIT against the interpreter's `memcmp`. The node's register is none of the scratch registers `x0` to
`x3`.
-/
namespace FexEmu.Arm64.ValidateCode

abbrev Byte := BitVec 8

/-- The registers that the emitted comparison uses. -/
inductive Reg
  | x0 | x1 | x2 | x3 | node
  deriving DecidableEq

/-- The instructions that ValidateCode emits. -/
inductive Instr
  | loadConstant (d : Reg) (value : BitVec 64)
  | ldr (bytes : Nat) (d base : Reg) (offset : Nat)
  | cmp (width : Nat) (a b : Reg)
  | cselEq (d a b : Reg)

/-- The registers and the Z flag. -/
structure State where
  reg : Reg → BitVec 64
  equal : Bool

/-- The number in little endian order of `n` bytes. -/
def littleEndian : Nat → (Nat → Byte) → Nat
  | 0, _ => 0
  | n + 1, f => (f 0).toNat + 256 * littleEndian n fun i => f (i + 1)

def Instr.exec (memory : BitVec 64 → Byte) (s : State) : Instr → State
  | .loadConstant d value => { s with reg := Function.update s.reg d value }
  | .ldr bytes d base offset => { s with
      reg := Function.update s.reg d (BitVec.ofNat 64
        (littleEndian bytes fun i => memory (s.reg base + BitVec.ofNat 64 (offset + i)))) }
  | .cmp width a b => { s with equal := (s.reg a).setWidth width = (s.reg b).setWidth width }
  | .cselEq d a b => { s with reg := Function.update s.reg d (if s.equal then s.reg a else s.reg b) }

def run (memory : BitVec 64 → Byte) (code : List Instr) (s : State) : State := code.foldl (Instr.exec memory) s

/-- The four `while`s: what a step loads, how much of the recorded code it takes, and the width of its comparison. -/
inductive Step
  | x | w | h | b

namespace Step

def loaded : Step → Nat
  | x => 8 | w => 4 | h => 2 | b => 1

/-- The step of 8 bytes casts to `const uint32_t *`. -/
def recorded : Step → Nat
  | x => 4 | w => 4 | h => 2 | b => 1

def width : Step → Nat
  | x => 64 | _ => 32

end Step

def compare (old : Nat → Byte) (step : Step) (idx : Nat) : List Instr :=
  [.ldr step.loaded .x2 .x0 idx,
    .loadConstant .x3 (BitVec.ofNat 64 (littleEndian step.recorded fun i => old (idx + i))),
    .cmp step.width .x2 .x3, .cselEq .node .node .x1]

/-- A `while` of the emitter, with `len` and `idx` behind it. -/
def compareWhile (old : Nat → Byte) (step : Step) (len idx : Nat) : List Instr × Nat × Nat :=
  if step.loaded ≤ len then
    let (code, rest) := compareWhile old step (len - step.loaded) (idx + step.loaded)
    (compare old step idx ++ code, rest)
  else ([], len, idx)
termination_by len
decreasing_by cases step <;> simp only [Step.loaded] at * <;> omega

/-- `OldCode`: the bytes of `CodeOriginalLow` and behind them those of `CodeOriginalhigh`. -/
def oldCode (codeOriginalLow codeOriginalhigh : BitVec 64) (i : Nat) : Byte :=
  if i < 8 then codeOriginalLow.extractLsb' (8 * i) 8 else codeOriginalhigh.extractLsb' (8 * (i - 8)) 8

/-- `Op_ValidateCode` of the JIT. -/
def validateCode (old : Nat → Byte) (address : BitVec 64) (codeLength : Nat) : List Instr :=
  let (code8, len, idx) := compareWhile old .x codeLength 0
  let (code4, len, idx) := compareWhile old .w len idx
  let (code2, len, idx) := compareWhile old .h len idx
  let (code1, _, _) := compareWhile old .b len idx
  [.loadConstant .node 0#64, .loadConstant .x0 address, .loadConstant .x1 1#64] ++ code8 ++ code4 ++ code2 ++ code1

/-- `Op_ValidateCode` of the interpreter. -/
def interpreted (memory : BitVec 64 → Byte) (old : Nat → Byte) (address : BitVec 64) (codeLength : Nat) : BitVec 64 :=
  if ∀ i < codeLength, memory (address + BitVec.ofNat 64 i) = old i then 0#64 else 1#64

/-! ## The comparisons -/

theorem littleEndian_lt (n : Nat) (f : Nat → Byte) : littleEndian n f < 256 ^ n := by
  induction n generalizing f with
  | zero => simp [littleEndian]
  | succ n ih =>
    have := ih fun i => f (i + 1)
    rw [littleEndian, pow_succ]
    omega

theorem littleEndian_eq_iff (n m : Nat) (f g : Nat → Byte) (h : m ≤ n) :
    littleEndian n f = littleEndian m g ↔ ∀ i < n, f i = if i < m then g i else 0#8 := by
  induction n generalizing m f g with
  | zero =>
    obtain rfl : m = 0 := by omega
    simp [littleEndian]
  | succ n ih =>
    rw [Nat.forall_lt_succ_left]
    cases m with
    | zero =>
      have rest := ih 0 (fun i => f (i + 1)) g (by omega)
      simp only [littleEndian, not_lt_zero, if_false] at rest ⊢
      rw [← rest]
      constructor
      · intro zero
        exact ⟨by bv_omega, by omega⟩
      · rintro ⟨first, zero⟩
        simp [first, zero]
    | succ m =>
      have rest := ih m (fun i => f (i + 1)) (fun i => g (i + 1)) (by omega)
      simp only [littleEndian, Nat.zero_lt_succ, if_true, Nat.add_lt_add_iff_right]
      rw [← rest]
      constructor
      · intro same
        exact ⟨BitVec.eq_of_toNat_eq (by omega), by omega⟩
      · rintro ⟨first, same⟩
        rw [first, same]

def wanted (old : Nat → Byte) (wide i : Nat) : Byte := if wide ≤ i ∨ i % 8 < 4 then old i else 0#8

theorem run_append (memory : BitVec 64 → Byte) (a b : List Instr) (s : State) :
    run memory (a ++ b) s = run memory b (run memory a s) := List.foldl_append ..

/-- From `s` to `s'` something was compared that is so exactly when `p` holds. -/
structure Compared (s s' : State) (p : Prop) : Prop where
  address : s'.reg .x0 = s.reg .x0
  one : s.reg .x1 = 1#64 → s'.reg .x1 = 1#64
  same : p → s'.reg .node = s.reg .node
  differs : s.reg .x1 = 1#64 → ¬p → s'.reg .node = 1#64

theorem Compared.trans {s s' s'' : State} {p q r : Prop} (first : Compared s s' p) (second : Compared s' s'' q)
    (both : r ↔ p ∧ q) : Compared s s'' r where
  address := second.address.trans first.address
  one one := second.one (first.one one)
  same holds := (second.same (both.mp holds).2).trans (first.same (both.mp holds).1)
  differs one fails := by
    by_cases hq : q
    · rw [second.same hq, first.differs one fun hp => fails (both.mpr ⟨hp, hq⟩)]
    · exact second.differs (first.one one) hq

theorem run_compare (memory : BitVec 64 → Byte) (old : Nat → Byte) (step : Step) (idx : Nat) (s : State) :
    Compared s (run memory (compare old step idx) s) (∀ i < step.loaded,
      memory (s.reg .x0 + BitVec.ofNat 64 (idx + i)) = if i < step.recorded then old (idx + i) else 0#8) := by
  have bound := littleEndian_lt step.loaded fun i => memory (s.reg .x0 + BitVec.ofNat 64 (idx + i))
  have bound' := littleEndian_lt step.recorded fun i => old (idx + i)
  have shorter : step.recorded ≤ step.loaded := by cases step <;> decide
  rw [← littleEndian_eq_iff _ _ _ (fun i => old (idx + i)) shorter]
  have compared : (BitVec.ofNat 64 (littleEndian step.loaded fun i =>
        memory (s.reg .x0 + BitVec.ofNat 64 (idx + i)))).setWidth step.width
      = (BitVec.ofNat 64 (littleEndian step.recorded fun i => old (idx + i))).setWidth step.width
      ↔ (littleEndian step.loaded fun i => memory (s.reg .x0 + BitVec.ofNat 64 (idx + i)))
        = littleEndian step.recorded fun i => old (idx + i) := by
    cases step <;> simp only [Step.loaded, Step.recorded, Step.width] at * <;> bv_omega
  constructor
  · simp [run, compare, Instr.exec]
  · intro one
    simp [run, compare, Instr.exec, one]
  · intro same
    simp [run, compare, Instr.exec, compared.mpr same]
  · intro one differs
    simp [run, compare, Instr.exec, mt compared.mp differs, one]

theorem run_compareWhile (memory : BitVec 64 → Byte) (old : Nat → Byte) (step : Step) (len idx : Nat) (s : State) :
    ∃ n, (compareWhile old step len idx).2 = (len - n * step.loaded, idx + n * step.loaded) ∧
      n * step.loaded ≤ len ∧ len - n * step.loaded < step.loaded ∧
      Compared s (run memory (compareWhile old step len idx).1 s) (∀ i, idx ≤ i → i < idx + n * step.loaded →
        memory (s.reg .x0 + BitVec.ofNat 64 i)
          = if (i - idx) % step.loaded < step.recorded then old i else 0#8) := by
  induction len using Nat.strongRecOn generalizing idx s with
  | _ len ih =>
    have positive : 0 < step.loaded := by cases step <;> decide
    rw [compareWhile]
    split
    · rename_i fits
      obtain ⟨n, left, within, short, later⟩ := ih (len - step.loaded) (by omega) (idx + step.loaded)
        (run memory (compare old step idx) s)
      refine ⟨n + 1, ?_, by rw [Nat.succ_mul]; omega, by rw [Nat.succ_mul]; omega, ?_⟩
      · rw [left, Nat.succ_mul, Prod.mk.injEq]
        omega
      · refine (run_compare memory old step idx s).trans later ?_
        constructor
        · intro all
          refine ⟨fun i less => ?_, fun i above below => ?_⟩
          · have := all (idx + i) (by omega) (by rw [Nat.succ_mul]; omega)
            rwa [Nat.add_sub_cancel_left, Nat.mod_eq_of_lt less] at this
          · have := all i (by omega) (by rw [Nat.succ_mul]; omega)
            rwa [show i - idx = i - (idx + step.loaded) + step.loaded by omega, Nat.add_mod_right] at this
        · rintro ⟨here, later⟩ i above below
          rw [Nat.succ_mul] at below
          by_cases first : i < idx + step.loaded
          · have := here (i - idx) (by omega)
            rwa [Nat.add_sub_cancel' above, ← Nat.mod_eq_of_lt (show i - idx < step.loaded by omega)] at this
          · have := later i (by omega) (by omega)
            rwa [show i - idx = i - (idx + step.loaded) + step.loaded by omega, Nat.add_mod_right]
    · rename_i short
      exact ⟨0, by simp, by simp, by omega, by simp [run], fun h => h, fun _ => rfl, fun _ fails =>
        absurd (fun i above below => by omega) fails⟩

/-- The sequence computes 0 exactly when memory holds what it wants. -/
theorem run_validateCode (memory : BitVec 64 → Byte) (old : Nat → Byte) (address : BitVec 64) (codeLength : Nat)
    (s : State) : (run memory (validateCode old address codeLength) s).reg .node
      = if ∀ i < codeLength, memory (address + BitVec.ofNat 64 i) = wanted old (codeLength / 8 * 8) i
        then 0#64 else 1#64 := by
  let s₀ := run memory [.loadConstant .node 0#64, .loadConstant .x0 address, .loadConstant .x1 1#64] s
  let r8 := compareWhile old .x codeLength 0
  let r4 := compareWhile old .w r8.2.1 r8.2.2
  let r2 := compareWhile old .h r4.2.1 r4.2.2
  let r1 := compareWhile old .b r2.2.1 r2.2.2
  let s8 := run memory r8.1 s₀
  let s4 := run memory r4.1 s8
  obtain ⟨n8, (left8 : r8.2 = _), in8, short8, run8⟩ := run_compareWhile memory old .x codeLength 0 s₀
  obtain ⟨n4, (left4 : r4.2 = _), in4, short4, run4⟩ := run_compareWhile memory old .w r8.2.1 r8.2.2 s8
  obtain ⟨n2, (left2 : r2.2 = _), in2, short2, run2⟩ := run_compareWhile memory old .h r4.2.1 r4.2.2 s4
  obtain ⟨n1, _, in1, short1, run1⟩ := run_compareWhile memory old .b r2.2.1 r2.2.2 (run memory r2.1 s4)
  have code : run memory (validateCode old address codeLength) s = run memory r1.1 (run memory r2.1 s4) := by
    simp only [validateCode, run_append]
    rfl
  have start : s₀.reg .x0 = address := by simp [s₀, run, Instr.exec]
  have one : s₀.reg .x1 = 1#64 := by simp [s₀, run, Instr.exec]
  have zero : s₀.reg .node = 0#64 := by simp [s₀, run, Instr.exec]
  have at8 : s8.reg .x0 = address := run8.address.trans start
  have at4 : s4.reg .x0 = address := run4.address.trans at8
  rw [run2.address.trans at4] at run1
  rw [at4] at run2
  rw [at8] at run4
  rw [start] at run8
  -- each loop begins where the one before it ended
  have idx8 : r8.2.2 = 0 + n8 * 8 := congrArg Prod.snd left8
  have idx4 : r4.2.2 = r8.2.2 + n4 * 4 := congrArg Prod.snd left4
  have idx2 : r2.2.2 = r4.2.2 + n2 * 2 := congrArg Prod.snd left2
  have len8 : r8.2.1 = codeLength - n8 * 8 := congrArg Prod.fst left8
  have len4 : r4.2.1 = r8.2.1 - n4 * 4 := congrArg Prod.fst left4
  have len2 : r2.2.1 = r4.2.1 - n2 * 2 := congrArg Prod.fst left2
  -- the four loops compare consecutive pieces of the code
  have whole : Compared s₀ (run memory (validateCode old address codeLength) s) (∀ i < codeLength,
      memory (address + BitVec.ofNat 64 i) = wanted old (codeLength / 8 * 8) i) := by
    rw [code]
    refine run8.trans (run4.trans (run2.trans run1 Iff.rfl) Iff.rfl) ?_
    clear_value r8 r4 r2
    simp only [Step.loaded, Step.recorded] at *
    constructor
    · intro all
      refine ⟨fun i _ below => ?_, fun i above below => ?_, fun i above below => ?_, fun i above below => ?_⟩
      all_goals
        rw [all i (by omega), wanted]
        congr 1
        simp only [eq_iff_iff]
        omega
    · rintro ⟨all8, all4, all2, all1⟩ i less
      rw [wanted]
      by_cases in8 : i < n8 * 8
      · rw [all8 i (by omega) (by omega)]
        congr 1
        simp only [eq_iff_iff]
        omega
      rw [if_pos (by omega)]
      by_cases in4 : i < r4.2.2
      · exact (all4 i (by omega) (by omega)).trans (if_pos (by omega))
      by_cases in2 : i < r2.2.2
      · exact (all2 i (by omega) (by omega)).trans (if_pos (by omega))
      · exact (all1 i (by omega) (by omega)).trans (if_pos (by omega))
  split
  · rename_i all
    rw [whole.same all, zero]
  · rename_i fails
    exact whole.differs one fails

/-- The backends agree exactly when in the upper halves of the groups of 8 the recorded bytes are 0, or another byte differs,
or memory holds there neither the recorded bytes nor 0. -/
theorem validateCode_exact_iff (memory : BitVec 64 → Byte) (low high entry offset : BitVec 64) (codeLength : Nat)
    (s : State) :
    ((run memory (validateCode (oldCode low high) (entry + offset) codeLength) s).reg .node
        = interpreted memory (oldCode low high) (entry + offset) codeLength ∧
      ((run memory (validateCode (oldCode low high) (entry + offset) codeLength) s).reg .node = 0#64 ↔
        ∀ i < codeLength, memory (entry + offset + BitVec.ofNat 64 i) = oldCode low high i)) ↔
    (∀ i < codeLength / 8 * 8, 4 ≤ i % 8 → oldCode low high i = 0#8) ∨
    (∃ i < codeLength, ¬(i < codeLength / 8 * 8 ∧ 4 ≤ i % 8) ∧
      memory (entry + offset + BitVec.ofNat 64 i) ≠ oldCode low high i) ∨
    ((∃ i < codeLength / 8 * 8, 4 ≤ i % 8 ∧ memory (entry + offset + BitVec.ofNat 64 i) ≠ oldCode low high i) ∧
      ∃ i < codeLength / 8 * 8, 4 ≤ i % 8 ∧ memory (entry + offset + BitVec.ofNat 64 i) ≠ 0#8) := by
  rw [run_validateCode, interpreted]
  generalize oldCode low high = old
  generalize entry + offset = address
  -- the upper half of each quad is compared with zero, all other bytes with the old code
  have upper (i : Nat) (less : i < codeLength / 8 * 8) (high : 4 ≤ i % 8) :
      wanted old (codeLength / 8 * 8) i = 0#8 := if_neg (by omega)
  have other (i : Nat) (low : ¬(i < codeLength / 8 * 8 ∧ 4 ≤ i % 8)) : wanted old (codeLength / 8 * 8) i = old i :=
    if_pos (by omega)
  have zero (p : Prop) [Decidable p] : (if p then 0#64 else 1#64) = 0#64 ↔ p := by split <;> simp_all
  rw [zero]
  constructor
  · rintro ⟨-, agree⟩
    by_cases differs : ∃ i < codeLength, ¬(i < codeLength / 8 * 8 ∧ 4 ≤ i % 8) ∧
        memory (address + BitVec.ofNat 64 i) ≠ old i
    · exact .inr (.inl differs)
    have low_same (i : Nat) (less : i < codeLength) (low : ¬(i < codeLength / 8 * 8 ∧ 4 ≤ i % 8)) :
        memory (address + BitVec.ofNat 64 i) = old i := by_contra fun ne => differs ⟨i, less, low, ne⟩
    by_cases same : ∀ i < codeLength, memory (address + BitVec.ofNat 64 i) = old i
    · refine .inl fun i less high => ?_
      rw [← same i (by omega), agree.mpr same i (by omega), upper i less high]
    -- one byte differs from the old code and one from the wanted, and both are in upper halves
    · have unwanted := mt agree.mp same
      push Not at same unwanted
      obtain ⟨i, less, other_old⟩ := same
      obtain ⟨j, less', other_zero⟩ := unwanted
      have high : i < codeLength / 8 * 8 ∧ 4 ≤ i % 8 := by
        by_contra low
        exact other_old (low_same i less low)
      have high' : j < codeLength / 8 * 8 ∧ 4 ≤ j % 8 := by
        by_contra low
        exact other_zero ((low_same j less' low).trans (other j low).symm)
      rw [upper j high'.1 high'.2] at other_zero
      exact .inr (.inr ⟨⟨i, high.1, high.2, other_old⟩, j, high'.1, high'.2, other_zero⟩)
  · intro apart
    have agree : (∀ i < codeLength, memory (address + BitVec.ofNat 64 i) = wanted old (codeLength / 8 * 8) i) ↔
        ∀ i < codeLength, memory (address + BitVec.ofNat 64 i) = old i := by
      obtain zeros | ⟨i, less, low, differs⟩ | ⟨⟨i, less, high, differs⟩, j, less', high', nonzero⟩ := apart
      · refine forall₂_congr fun i less => ?_
        by_cases high : i < codeLength / 8 * 8 ∧ 4 ≤ i % 8
        · rw [upper i high.1 high.2, zeros i high.1 high.2]
        · rw [other i high]
      · exact iff_of_false (fun all => differs ((all i less).trans (other i low))) fun all => differs (all i less)
      · exact iff_of_false (fun all => nonzero ((all j (by omega)).trans (upper j less' high')))
          fun all => differs (all i (by omega))
    exact ⟨by simp only [agree], agree⟩

/-- Eight bytes 0, 0, 0, 0, 1, 0, 0, 0 that have not changed: the JIT discards the block, the interpreter does not. -/
theorem validateCode_unchanged :
    (run (fun a => oldCode 0x100000000#64 0#64 a.toNat) (validateCode (oldCode 0x100000000#64 0#64) 0#64 8)
      ⟨fun _ => 0#64, false⟩).reg .node
      ≠ interpreted (fun a => oldCode 0x100000000#64 0#64 a.toNat) (oldCode 0x100000000#64 0#64) 0#64 8 := by
  rw [run_validateCode]
  decide

end FexEmu.Arm64.ValidateCode
