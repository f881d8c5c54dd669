import FexEmu.Data.Widths
import FexEmu.IR.ConstantPropagation
/-!
# What constant propagation preserves

A fold is right for every value of the other nodes, but for three ops of 4 bytes.
-/
namespace FexEmu.ValueGraph

open Interpreter
open BitVec (twoPow eq_of_getLsbD_eq getLsbD_setWidth setWidth_eq setWidth_add setWidth_mul toNat_twoPow)

/-! ## Powers of two -/

variable {n : Nat} {c w a b : BitVec 64} {g : Graph} {size : OpSize}

theorem one_le_cpopNatRec {x : BitVec 64} {i : Nat} (hi : x.getLsbD i = true) (h : i < n) : 1 ≤ x.cpopNatRec n 0 := by
  induction n with
  | zero => omega
  | succ n ih =>
    rw [BitVec.cpopNatRec_succ, BitVec.cpopNatRec_eq]
    by_cases hn : i = n
    · subst hn
      simp [hi]
    · omega

theorem two_le_cpopNatRec {x : BitVec 64} {i j : Nat} (hi : x.getLsbD i = true) (hj : x.getLsbD j = true) (hij : i < j)
    (h : j < n) : 2 ≤ x.cpopNatRec n 0 := by
  induction n with
  | zero => omega
  | succ n ih =>
    rw [BitVec.cpopNatRec_succ, BitVec.cpopNatRec_eq]
    by_cases hn : j = n
    · subst hn
      have := one_le_cpopNatRec hi hij
      simp only [hj, Bool.toNat_true]
      omega
    · omega

theorem eq_twoPow_of_popcount (h : popcount c = 1) : c = twoPow 64 (countrZero c).toNat ∧ (countrZero c).toNat < 64 := by
  have ne : c ≠ 0#64 := by
    rintro rfl
    simp [popcount] at h
  have lt : (countrZero c).toNat < 64 := by
    have := BitVec.ctz_lt_iff_ne_zero.mpr ne
    simpa [countrZero, BitVec.lt_def] using this
  have set : c.getLsbD (countrZero c).toNat = true := BitVec.getLsbD_true_ctz_of_ne_zero ne
  refine ⟨?_, lt⟩
  rw [popcount, BitVec.toNat_cpop] at h
  apply eq_of_getLsbD_eq
  intro i hi
  rw [BitVec.getLsbD_twoPow]
  by_cases hik : (countrZero c).toNat = i
  · subst hik
    simp [set, hi]
  · simp only [hik, decide_false, Bool.and_false]
    by_contra hset
    have hset : c.getLsbD i = true := by simpa using hset
    rcases Nat.lt_or_gt_of_ne hik with hlt | hgt
    · have := two_le_cpopNatRec set hset hlt hi
      omega
    · have := two_le_cpopNatRec hset set hgt lt
      omega

/-! ## Shifts of 4 bytes -/

theorem setWidth_and_getMask (size : OpSize) (x : BitVec 64) : (x &&& getMask size).setWidth size.bits = x.setWidth size.bits := by
  apply eq_of_getLsbD_eq
  intro i hi
  have h64 := bits_le_64 size
  have hm : (getMask size).getLsbD i = true := by
    simp only [getMask, BitVec.getLsbD_ushiftRight, BitVec.getLsbD_not, BitVec.getLsbD_zero]
    simp
    omega
  simp only [getLsbD_setWidth, BitVec.getLsbD_and, hm, Bool.and_true]

theorem shl_exact_iff (c1 c2 : BitVec 64) :
    (hostShl c1 c2 &&& getMask .i32Bit).setWidth 32 = (c1.setWidth 32 <<< (c2 &&& 31#64).toNat) ↔ ShlExact c1 c2 := by
  have mask := setWidth_and_getMask .i32Bit (hostShl c1 c2)
  simp only [OpSize.bits] at mask
  rw [mask, toNat_and_31, BitVec.eq_of_getLsbD_eq_iff]
  simp only [hostShl, ShlExact, getLsbD_setWidth, BitVec.getLsbD_shiftLeft]
  have hmod : c2.toNat % 32 = if c2.toNat % 64 < 32 then c2.toNat % 64 else c2.toNat % 64 - 32 := by split <;> omega
  generalize c2.toNat % 64 = k at *
  rw [hmod]
  by_cases hk : k < 32
  · simp only [if_pos hk]
    constructor
    · intro _ h; omega
    · intro _ i hi
      by_cases hik : i < k <;> simp [hi, hik, show i < 64 by omega]
      intro _; omega
  · simp only [if_neg hk]
    constructor
    · intro h _ i hi
      have := h (i + (k - 32)) (by omega)
      simp [show i + (k - 32) < 32 by omega, show i + (k - 32) < k by omega] at this
      exact this (by omega)
    · intro h i hi
      simp only [hi, decide_true, Bool.true_and, show i < k by omega, Bool.not_true, Bool.and_false, Bool.false_and]
      by_cases hik : i < k - 32
      · simp [hik]
      · simp [h (by omega) (i - (k - 32)) (by omega)]

theorem shr_exact_iff (c1 c2 : BitVec 64) :
    (hostShr c1 c2 &&& getMask .i32Bit).setWidth 32 = (c1.setWidth 32 >>> (c2 &&& 31#64).toNat) ↔ ShrExact c1 c2 := by
  have mask := setWidth_and_getMask .i32Bit (hostShr c1 c2)
  simp only [OpSize.bits] at mask
  rw [mask, toNat_and_31, BitVec.eq_of_getLsbD_eq_iff]
  simp only [hostShr, ShrExact, getLsbD_setWidth, BitVec.getLsbD_ushiftRight]
  have hmod : c2.toNat % 32 = if c2.toNat % 64 < 32 then c2.toNat % 64 else c2.toNat % 64 - 32 := by split <;> omega
  generalize c2.toNat % 64 = k at *
  rw [hmod]
  by_cases hk : k < 32
  · simp only [if_pos hk]
    constructor
    · intro h i hi
      have := h (32 + i - k) (by omega)
      rw [show k + (32 + i - k) = 32 + i by omega] at this
      simpa [show 32 + i - k < 32 by omega] using this
    · intro h i hi
      by_cases hik : k + i < 32
      · simp [hi, hik]
      · have := h (k + i - 32) (by omega)
        rw [show 32 + (k + i - 32) = k + i by omega] at this
        simp [this]
  · simp only [if_neg hk]
    constructor
    · intro h i hi
      have := h i (by omega)
      simpa [show i < 32 by omega, show k - 32 + i < 32 by omega] using this
    · intro h i hi
      by_cases hik : i < 64 - k
      · simp [hi, h i hik, show k - 32 + i < 32 by omega]
      · simp [show ¬ k - 32 + i < 32 by omega, BitVec.getLsbD_of_ge c1 (k + i) (by omega)]

/-! ## One op -/

theorem constants_eq_some {a b : NodeID} {c1 c2 : BitVec 64} :
    constants g a b = some (c1, c2) ↔ g.valueConstant a = some c1 ∧ g.valueConstant b = some c2 := by
  simp only [constants]
  split <;> simp_all

/-- The operands of a node are its constants, and else anything. -/
def constantVals (g : Graph) (d : BitVec 64) : Valuation := fun n => (g.valueConstant n).getD d

theorem admits_constantVals {codeNode : NodeID} {op : BinaryOp} {a b : NodeID}
    (hop : (g codeNode).op = .binary op a b) (d : BitVec 64) : Admits g codeNode (constantVals g d) where
  constants n c h := by simp [constantVals, h]
  source width lsb src h := by simp [hop] at h

theorem sameLow_some {v : BitVec 64} : SameLow size (some v) (some w) ↔ w.setWidth size.bits = v.setWidth size.bits := by
  simp [SameLow]

theorem setWidth_setWidth_32 (x : BitVec 32) : (x.setWidth 64).setWidth 32 = x := by
  simp

theorem sameLow_doOp48 {func : {n : Nat} → BitVec n → BitVec n → BitVec n} (hs : size = .i32Bit ∨ size = .i64Bit)
    (h : w.setWidth size.bits = @func size.bits (a.setWidth size.bits) (b.setWidth size.bits)) :
    SameLow size (doOp48 func size a b) (some w) := by
  rcases hs with rfl | rfl
  · simp only [doOp48, sameLow_some]
    rw [h]
    simp
  · simp only [doOp48, sameLow_some]
    rw [h]
    simp

theorem sameLow_doOp {func : {n : Nat} → BitVec n → BitVec n → BitVec n}
    (h : w.setWidth size.bits = @func size.bits (a.setWidth size.bits) (b.setWidth size.bits)) :
    SameLow size (doOp func size a b) (some w) := by
  have h64 := bits_le_64 size
  simp only [doOp, sameLow_some]
  rw [h, BitVec.setWidth_setWidth_of_le _ h64, setWidth_eq]

theorem setWidth_sext (a : BitVec 64) : (sext .i32Bit a).setWidth 32 = a.setWidth 32 := by
  apply eq_of_getLsbD_eq
  intro i hi
  simp only [sext, getLsbD_setWidth, BitVec.getLsbD_signExtend, OpSize.bits, hi, show i < 64 by omega, decide_true,
    Bool.true_and, if_true]

theorem sameLow_mul (hs : size = .i32Bit ∨ size = .i64Bit)
    (h : w.setWidth size.bits = a.setWidth size.bits * b.setWidth size.bits) : SameLow size (opMul size a b) (some w) := by
  rcases hs with rfl | rfl
  · simp only [opMul, sameLow_some]
    rw [h]
    simp only [OpSize.bits]
    rw [setWidth_mul _ _ (by omega), setWidth_sext, setWidth_sext]
  · simpa [opMul, sameLow_some] using h

theorem sameLow_and_getMask {old : Option (BitVec 64)} :
    SameLow size old (some (w &&& getMask size)) ↔ SameLow size old (some w) := by
  constructor
  · rintro ⟨v, w', hv, hw, same⟩
    cases hw
    exact ⟨v, w, hv, rfl, (setWidth_and_getMask size w).symm.trans same⟩
  · rintro ⟨v, w', hv, hw, same⟩
    cases hw
    exact ⟨v, _, hv, rfl, (setWidth_and_getMask size w).trans same⟩

theorem sameLow_lshl_zero (hs : size = .i32Bit ∨ size = .i64Bit) (a : BitVec 64) :
    SameLow size (opLshl size a 0) (some a) := by
  rcases hs with rfl | rfl <;> simp [opLshl, sameLow_some]

theorem sameLow_lshr_zero (hs : size = .i32Bit ∨ size = .i64Bit) (a : BitVec 64) :
    SameLow size (opLshr size a 0) (some a) := by
  rcases hs with rfl | rfl <;> simp [opLshr, sameLow_some]

theorem sameLow_lshl_iff (hs : size = .i32Bit ∨ size = .i64Bit) (c1 c2 : BitVec 64) :
    SameLow size (opLshl size c1 c2) (some (hostShl c1 c2 &&& getMask size)) ↔ (size = .i32Bit → ShlExact c1 c2) := by
  rcases hs with rfl | rfl
  · simp only [opLshl, sameLow_some, setWidth_setWidth_32, true_implies]
    exact shl_exact_iff c1 c2
  · simp only [sameLow_and_getMask, opLshl, sameLow_some, hostShl, toNat_and_63]
    simp

theorem sameLow_lshr_iff (hs : size = .i32Bit ∨ size = .i64Bit) (c1 c2 : BitVec 64) :
    SameLow size (opLshr size c1 c2) (some (hostShr c1 c2 &&& getMask size)) ↔ (size = .i32Bit → ShrExact c1 c2) := by
  rcases hs with rfl | rfl
  · simp only [opLshr, sameLow_some, setWidth_setWidth_32, true_implies]
    exact shr_exact_iff c1 c2
  · simp only [sameLow_and_getMask, opLshr, sameLow_some, hostShr, toNat_and_63]
    simp

theorem sameLow_mul_lshl (hs : size = .i32Bit ∨ size = .i64Bit) (a : BitVec 64)
    (one : popcount c = 1) (small : size = .i32Bit → c.toNat < 2 ^ 32) :
    SameLow size (opMul size a c) (opLshl size a (countrZero c)) := by
  obtain ⟨pow, lt⟩ := eq_twoPow_of_popcount one
  rcases hs with rfl | rfl
  · have lt32 : (countrZero c).toNat < 32 := by
      have := small rfl
      rw [pow, toNat_twoPow, Nat.mod_eq_of_lt (Nat.pow_lt_pow_right (by omega) lt)] at this
      exact (Nat.pow_lt_pow_iff_right (by omega)).mp this
    have low : c.setWidth 32 = twoPow 32 (countrZero c).toNat := by
      apply eq_of_getLsbD_eq
      intro i hi
      conv_lhs => rw [pow]
      simp only [getLsbD_setWidth, BitVec.getLsbD_twoPow]
      simp [hi, lt, lt32]
    apply sameLow_mul (.inl rfl)
    rw [low, BitVec.mul_twoPow_eq_shiftLeft, toNat_and_31, Nat.mod_eq_of_lt lt32, setWidth_setWidth_32]
  · apply sameLow_mul (.inr rfl)
    simp only [OpSize.bits, setWidth_eq]
    conv_rhs => rw [pow]
    rw [BitVec.mul_twoPow_eq_shiftLeft, toNat_and_63, Nat.mod_eq_of_lt lt]

theorem not_sameLow_mul_lshl (one : popcount c = 1) (large : 2 ^ 32 ≤ c.toNat) :
    ¬ SameLow .i32Bit (opMul .i32Bit 1 c) (opLshl .i32Bit 1 (countrZero c)) := by
  obtain ⟨pow, lt⟩ := eq_twoPow_of_popcount one
  have ge32 : 32 ≤ (countrZero c).toNat := by
    rw [pow, toNat_twoPow, Nat.mod_eq_of_lt (Nat.pow_lt_pow_right (by omega) lt)] at large
    exact (Nat.pow_le_pow_iff_right (by omega)).mp large
  have low : c.setWidth 32 = 0#32 := by
    apply eq_of_getLsbD_eq
    rw [pow]
    simp
    omega
  rintro ⟨v, w, hv, hw, same⟩
  have product : v.setWidth 32 = 0#32 := by
    cases hv
    rw [setWidth_mul _ _ (by omega), setWidth_sext, setWidth_sext, low, BitVec.mul_zero]
  have shifted : (w.setWidth 32).getLsbD ((countrZero c).toNat % 32) = true := by
    cases hw
    have : (countrZero c).toNat % 32 < 32 := Nat.mod_lt _ (by omega)
    rw [setWidth_setWidth_32, toNat_and_31]
    simp [this]
  rw [same, product] at shifted
  simp at shifted

/-! ## The folds -/

section

variable {g : Graph} {codeNode : NodeID} {new : Fold} {a b : NodeID} {size : OpSize} {vals : Valuation}

theorem fold_and (h : foldAnd g size a b = some new) (const : ∀ n c, g.valueConstant n = some c → vals n = c) :
    SameLow size (opAnd size (vals a) (vals b)) (new.value size vals) := by
  simp only [foldAnd] at h
  split at h
  · rename_i c1 c2 hc
    obtain ⟨ha, hb⟩ := constants_eq_some.mp hc
    cases h
    simp only [const a c1 ha, const b c2 hb, Fold.value, sameLow_and_getMask]
    exact sameLow_doOp (by simp)
  · rename_i hc
    -- The second constant stays zero, for the first test stops at the first argument.
    have second : secondConstant g a b ≠ 1 := by
      simp only [secondConstant]
      simp only [constants] at hc
      cases ha : g.valueConstant a with
      | none => simp
      | some c1 =>
        cases hb : g.valueConstant b with
        | none => simp
        | some c2 => simp [ha, hb] at hc
    rw [if_neg second] at h
    split at h
    · cases h
      subst_vars
      exact sameLow_doOp (by simp)
    · cases h

theorem fold_or (h : foldOr g a b = some new) (const : ∀ n c, g.valueConstant n = some c → vals n = c) :
    SameLow size (opOr size (vals a) (vals b)) (new.value size vals) := by
  simp only [foldOr] at h
  split at h
  · rename_i c1 c2 hc
    obtain ⟨ha, hb⟩ := constants_eq_some.mp hc
    cases h
    rw [const a c1 ha, const b c2 hb]
    exact sameLow_doOp (by simp)
  · split at h
    · cases h
      subst_vars
      exact sameLow_doOp (by simp)
    · cases h

theorem fold_xor (h : foldXor g a b = some new) (const : ∀ n c, g.valueConstant n = some c → vals n = c) :
    SameLow size (opXor size (vals a) (vals b)) (new.value size vals) := by
  simp only [foldXor] at h
  split at h
  · rename_i c1 c2 hc
    obtain ⟨ha, hb⟩ := constants_eq_some.mp hc
    cases h
    rw [const a c1 ha, const b c2 hb]
    exact sameLow_doOp (by simp)
  · split at h
    · cases h
      subst_vars
      exact sameLow_doOp (by simp)
    · cases h

theorem bool_of_select {n : NodeID} (h : isBoolSelect g n = true) (const : ∀ n c, g.valueConstant n = some c → vals n = c)
    (computed : Computed g vals n) : vals n = 0 ∨ vals n = 1 := by
  simp only [isBoolSelect] at h
  split at h
  · rename_i cond k a b t f hop
    obtain ⟨ht, hf⟩ : g.valueConstant t = some 1 ∧ g.valueConstant f = some 0 := by simpa using h
    have value := computed _ (by simp only [Header.value, hop]; rfl)
    rw [value, const t 1 ht, const f 0 hf]
    simp only [opSelect, show zext .i32Bit 1 = 1 from rfl, show zext .i32Bit 0 = 0 from rfl, ite_self]
    exact (ite_eq_or_eq _ _ _).symm
  · cases h

theorem fold_bfe {width lsb : Nat} {src : NodeID} (h : foldBfe g size width lsb src = some new)
    (const : ∀ n c, g.valueConstant n = some c → vals n = c) (source : Computed g vals src) :
    SameLow size (some (opBfe width lsb (vals src))) (new.value size vals) := by
  simp only [foldBfe] at h
  split at h
  · rename_i c hc
    cases h
    rw [const src c hc]
    exact ⟨_, _, rfl, rfl, rfl⟩
  · split at h
    · cases h
    · split at h
      · rename_i hw
        split at h
        · rename_i sel
          cases h
          obtain ⟨rfl, rfl⟩ := hw
          refine ⟨_, _, rfl, rfl, ?_⟩
          rcases bool_of_select sel const source with zero | one
          · rw [zero]; rfl
          · rw [one]; rfl
        · cases h
      · cases h

theorem fold_arith (op : BinaryOp) (func : {n : Nat} → BitVec n → BitVec n → BitVec n) (hop : op.run = doOp48 func)
    (low : ∀ c1 c2 : BitVec 64, (func c1 c2).setWidth size.bits = func (c1.setWidth size.bits) (c2.setWidth size.bits))
    (hs : size = .i32Bit ∨ size = .i64Bit)
    (h : ((constants g a b).map fun (c1, c2) => Fold.constant (func c1 c2 &&& getMask size)) = some new)
    (const : ∀ n c, g.valueConstant n = some c → vals n = c) :
    SameLow size (op.run size (vals a) (vals b)) (new.value size vals) := by
  obtain ⟨⟨c1, c2⟩, hc, rfl⟩ := Option.map_eq_some_iff.mp h
  obtain ⟨ha, hb⟩ := constants_eq_some.mp hc
  simp only [const a c1 ha, const b c2 hb, Fold.value, sameLow_and_getMask, hop]
  exact sameLow_doOp48 hs (low c1 c2)

/-- A shift folds right for all values exactly where it does for its constants. -/
theorem fold_shift_iff (op : BinaryOp) {shift : BitVec 64 → BitVec 64 → BitVec 64} {exact : BitVec 64 → BitVec 64 → Prop}
    (zero : ∀ v, SameLow size (op.run size v 0) (some v))
    (both : ∀ c1 c2, SameLow size (op.run size c1 c2) (some (shift c1 c2 &&& getMask size)) ↔ (size = .i32Bit → exact c1 c2))
    (h : foldShift shift g size a b = some new) (hop : (g codeNode).op = .binary op a b) (hsize : (g codeNode).size = size) :
    Agrees g codeNode new ↔ ∀ c1 c2, size = .i32Bit → constants g a b = some (c1, c2) → exact c1 c2 := by
  have value : ∀ vals, (g codeNode).value vals = op.run size (vals a) (vals b) := by
    intro vals
    simp [Header.value, hop, hsize]
  simp only [Agrees, value, hsize]
  simp only [foldShift] at h
  split at h
  · rename_i c1 c2 hc
    obtain ⟨ha, hb⟩ := constants_eq_some.mp hc
    cases h
    constructor
    · intro agrees d1 d2 small hd
      obtain ⟨rfl, rfl⟩ : c1 = d1 ∧ c2 = d2 := by simpa [hc] using hd
      have admits := admits_constantVals hop 0
      have here := agrees _ admits
      rw [admits.constants a c1 ha, admits.constants b c2 hb] at here
      exact (both c1 c2).mp here small
    · intro exact vals admits
      rw [admits.constants a c1 ha, admits.constants b c2 hb]
      exact (both c1 c2).mpr (fun small => exact c1 c2 small hc)
  · rename_i hc
    split at h
    · rename_i hb
      cases h
      simp only [hc]
      constructor
      · intro _ _ _ _ hd
        cases hd
      · intro _ vals admits
        rw [admits.constants b 0 hb]
        exact zero (vals a)
    · cases h

theorem fold_mul_iff (hs : size = .i32Bit ∨ size = .i64Bit) (h : foldMul g size a b = some new)
    (hop : (g codeNode).op = .binary .Mul a b) (hsize : (g codeNode).size = size) :
    Agrees g codeNode new ↔
      ∀ c2, size = .i32Bit → constants g a b = none → g.valueConstant b = some c2 → c2.toNat < 2 ^ 32 := by
  have value : ∀ vals, (g codeNode).value vals = opMul size (vals a) (vals b) := by
    intro vals
    simp [Header.value, hop, hsize, BinaryOp.run]
  simp only [Agrees, value, hsize]
  simp only [foldMul] at h
  split at h
  · rename_i c1 c2 hc
    obtain ⟨ha, hb⟩ := constants_eq_some.mp hc
    cases h
    simp only [hc]
    constructor
    · intro _ _ _ hd
      cases hd
    · intro _ vals admits
      simp only [admits.constants a c1 ha, admits.constants b c2 hb, Fold.value, sameLow_and_getMask]
      exact sameLow_mul hs (setWidth_mul _ _ (bits_le_64 size))
  · rename_i hc
    split at h
    · rename_i c2 hb
      split at h
      · rename_i one
        cases h
        simp only [Fold.value]
        constructor
        · intro agrees d2 small _ hd
          obtain rfl : c2 = d2 := by simpa [hb] using hd
          subst small
          by_contra large
          have admits := admits_constantVals hop 1
          have here := agrees _ admits
          have ha : constantVals g 1 a = 1 := by
            cases ha : g.valueConstant a with
            | none => simp [constantVals, ha]
            | some c1 => simp [constants, ha, hb] at hc
          rw [ha, admits.constants b c2 hb] at here
          exact not_sameLow_mul_lshl one (by omega) here
        · intro small vals admits
          rw [admits.constants b c2 hb]
          exact sameLow_mul_lshl hs (vals a) one (fun four => small c2 four hc hb)
      · cases h
    · cases h

end

/-! ## The pass -/

theorem agrees_iff_of_forall {codeNode : NodeID} {new : Fold} (exact : FoldExact g codeNode)
    (h : ∀ vals, Admits g codeNode vals → SameLow (g codeNode).size ((g codeNode).value vals) (new.value (g codeNode).size vals)) :
    Agrees g codeNode new ↔ FoldExact g codeNode :=
  ⟨fun _ => exact, fun _ => h⟩

/-- A fold gives what the interpreter computes if and only if FoldExact lets its constants through. -/
theorem constantPropagation_agrees_iff {g : Graph} {codeNode : NodeID} {new : Fold}
    (h : constantPropagation g codeNode = some new) (hs : (g codeNode).size = .i32Bit ∨ (g codeNode).size = .i64Bit) :
    Agrees g codeNode new ↔ FoldExact g codeNode := by
  simp only [constantPropagation] at h
  split at h
  · rename_i op a b hop
    have value : ∀ vals, (g codeNode).value vals = op.run (g codeNode).size (vals a) (vals b) := by
      intro vals
      simp [Header.value, hop]
    cases op with
    | Lshl =>
      simp only [FoldExact, hop]
      exact fold_shift_iff .Lshl (sameLow_lshl_zero hs) (sameLow_lshl_iff hs) h hop rfl
    | Lshr =>
      simp only [FoldExact, hop]
      exact fold_shift_iff .Lshr (sameLow_lshr_zero hs) (sameLow_lshr_iff hs) h hop rfl
    | Mul =>
      simp only [FoldExact, hop]
      exact fold_mul_iff hs h hop rfl
    | Add =>
      apply agrees_iff_of_forall (by simp only [FoldExact, hop])
      intro vals admits
      rw [value]
      exact fold_arith .Add (· + ·) rfl (fun c1 c2 => setWidth_add _ _ (bits_le_64 _)) hs h admits.constants
    | Sub =>
      apply agrees_iff_of_forall (by simp only [FoldExact, hop])
      intro vals admits
      rw [value]
      exact fold_arith .Sub (· - ·) rfl (fun c1 c2 => setWidth_sub c1 c2 (bits_le_64 _)) hs h admits.constants
    | And =>
      apply agrees_iff_of_forall (by simp only [FoldExact, hop])
      intro vals admits
      rw [value]
      exact fold_and h admits.constants
    | Or =>
      apply agrees_iff_of_forall (by simp only [FoldExact, hop])
      intro vals admits
      rw [value]
      exact fold_or h admits.constants
    | Xor =>
      apply agrees_iff_of_forall (by simp only [FoldExact, hop])
      intro vals admits
      rw [value]
      exact fold_xor h admits.constants
    | Div | UDiv | Rem | URem => cases h
  · rename_i width lsb src hop
    apply agrees_iff_of_forall (by simp only [FoldExact, hop])
    intro vals admits
    simp only [Header.value, hop]
    exact fold_bfe h admits.constants (admits.source width lsb src hop)
  · cases h

def shiftGraph (op : BinaryOp) (c1 c2 : BitVec 64) : Graph
  | 1 => ⟨.constant c1, .i64Bit⟩
  | 2 => ⟨.constant c2, .i64Bit⟩
  | 3 => ⟨.binary op 1 2, .i32Bit⟩
  | _ => ⟨.other [], .i64Bit⟩

theorem constantPropagation_agrees_shl : Agrees (shiftGraph .Lshl 1 1) 3 (.constant 2) := by
  refine (constantPropagation_agrees_iff (by decide) (.inl rfl)).mpr ?_
  intro c1 c2 _ h
  cases h
  intro h
  exact absurd h (by decide)

theorem constantPropagation_disagrees :
    ¬ ∀ (g : Graph) (codeNode : NodeID) (new : Fold), constantPropagation g codeNode = some new →
      (g codeNode).size = .i32Bit ∨ (g codeNode).size = .i64Bit → Agrees g codeNode new := by
  intro agrees
  have h := agrees (shiftGraph .Lshl 1 32) 3 (.constant 0) (by decide) (.inl rfl)
    (constantVals (shiftGraph .Lshl 1 32) 0) (admits_constantVals rfl 0)
  obtain ⟨v, w, hv, hw, same⟩ := h
  cases hv
  cases hw
  revert same
  decide

end FexEmu.ValueGraph
