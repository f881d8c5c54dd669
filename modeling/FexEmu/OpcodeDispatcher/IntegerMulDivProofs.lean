import FexEmu.OpcodeDispatcher.IntegerBitTestProofs
import FexEmu.OpcodeDispatcher.IntegerMulDivSpec
/-!
# Multiplication and division follow the architecture

The sources are extended to nodes of eight bytes, which hold an integer as far as they have bits.
-/
namespace FexEmu.OpcodeDispatcher.Integer

open Interpreter
open Address (Node gprSize)
open StringOps (State ALUFlags rflag storeContext)
open Frontend.ModRM (X86Reg DecodedOperand)
open BitVec (eq_of_toNat_eq ofInt ofInt_mul ofInt_toInt setWidth_eq toInt_ofInt toNat_ofInt toNat_setWidth ofInt_natCast
  toNat_ofNat toInt_sshiftRight toNat_ushiftRight sdiv srem udiv umod toNat_setWidth_of_le)
open Option (bind_eq_bind bind_some)

/-! ## Integers in nodes -/

theorem setWidth_ofInt {w n : Nat} (hle : n ≤ w) (z : Int) : (ofInt w z).setWidth n = ofInt n z := by
  have hdvd : ((2 ^ n : Nat) : Int) ∣ ((2 ^ w : Nat) : Int) := Int.natCast_dvd_natCast.2 (Nat.pow_dvd_pow 2 hle)
  have hpos : ((2 ^ w : Nat) : Int) ≠ 0 := by positivity
  apply eq_of_toNat_eq
  rw [toNat_setWidth, toNat_ofInt, toNat_ofInt]
  apply Int.ofNat_inj.1
  rw [Int.natCast_mod, Int.toNat_of_nonneg (Int.emod_nonneg _ hpos), Int.emod_emod_of_dvd _ hdvd,
    Int.toNat_of_nonneg (Int.emod_nonneg _ (by positivity))]

/-- A node of eight bytes that holds an integer. -/
def intNode (z : Int) : Node := ⟨8, ofInt 64 z⟩

theorem toInt_intNode {z : Int} (hlow : -2 ^ 63 ≤ z) (hhigh : z < 2 ^ 63) : (intNode z).value.toInt = z := by
  unfold intNode
  rw [toInt_ofInt, Int.bmod_eq_of_le (by omega) (by omega)]

theorem mul_intNode (a b : Int) : mul (intNode a) (intNode b) = intNode (a * b) := by
  unfold intNode
  rw [ofInt_mul]
  rfl

theorem umul_intNode (a b : Int) : umul (intNode a) (intNode b) = intNode (a * b) := by
  unfold intNode
  rw [ofInt_mul]
  rfl

theorem signed_source {size : Nat} (hsize : IsSize size) (x : BitVec (8 * size)) :
    (if size ≠ 8 then sextNode (size * 8) ⟨size, x.setWidth 64⟩ else ⟨size, x.setWidth 64⟩) = intNode x.toInt := by
  have hpos := hsize.pos
  have hle := hsize.le
  by_cases h : size = 8
  · subst h
    rw [if_neg (not_not.2 rfl), setWidth_eq, intNode, ofInt_toInt]
  · rw [if_pos h]
    unfold sextNode sbfe intNode
    rw [opSbfe_zero (by omega) (by omega), Nat.mul_comm size 8]
    rw [low_self hsize x]
    rfl

theorem unsigned_source {size : Nat} (hsize : IsSize size) (x : BitVec (8 * size)) :
    (if size ≠ 8 then bfeSized 8 (size * 8) 0 ⟨size, x.setWidth 64⟩ else ⟨size, x.setWidth 64⟩) = intNode x.toNat := by
  have hle := hsize.le
  have hvalue : x.setWidth 64 = ofInt 64 x.toNat := by
    rw [ofInt_natCast]
    apply eq_of_toNat_eq
    rw [toNat_setWidth, toNat_ofNat]
  by_cases h : size = 8
  · subst h
    rw [if_neg (not_not.2 rfl), hvalue]
    rfl
  · rw [if_pos h]
    unfold bfeSized intNode
    rw [opBfe_zero (by omega), Nat.mul_comm size 8]
    rw [low_self hsize x, hvalue]

/-! ## Halves of a product -/

theorem opSbfe_split (w lsb : Nat) (v : BitVec 64) : opSbfe w lsb v = (opSbfe (w + lsb) 0 v).sshiftRight lsb := by
  unfold opSbfe
  rw [← BitVec.sshiftRight_add]
  rfl

theorem opBfe_split {w lsb : Nat} (hw : w ≤ 64) (hlsb : lsb < 64) (v : BitVec 64) :
    opBfe w lsb v = ((v >>> lsb).setWidth w).setWidth 64 := by
  apply BitVec.eq_of_getLsbD_eq
  intro i hi
  rw [getLsbD_opBfe, maskWidth_of_le hw, Nat.mod_eq_of_lt hlsb, BitVec.getLsbD_setWidth, BitVec.getLsbD_setWidth,
    BitVec.getLsbD_ushiftRight, decide_eq_true hi, Bool.true_and]

theorem opSbfe_ofInt {w lsb : Nat} (hpos : 0 < w + lsb) (hle : w + lsb ≤ 64) {z : Int} (hlow : -2 ^ (w + lsb - 1) ≤ z)
    (hhigh : z < 2 ^ (w + lsb - 1)) : opSbfe w lsb (ofInt 64 z) = ofInt 64 (z / 2 ^ lsb) := by
  have hz : (ofInt (w + lsb) z).toInt = z := by
    have hpow : (2 : Int) ^ (w + lsb) = 2 * 2 ^ (w + lsb - 1) := by
      rw [← pow_succ', Nat.sub_add_cancel hpos]
    rw [toInt_ofInt, Int.bmod_eq_of_le]
    · push_cast
      omega
    · push_cast
      omega
  have hint : (opSbfe w lsb (ofInt 64 z)).toInt = z / 2 ^ lsb := by
    rw [opSbfe_split, opSbfe_zero hpos hle, setWidth_ofInt hle, toInt_sshiftRight,
      BitVec.toInt_signExtend_of_le hle, hz, Int.shiftRight_eq_div_pow]
    rfl
  rw [← hint, ofInt_toInt]

theorem sbfe_high {size : Nat} (hsize : size = 1 ∨ size = 2 ∨ size = 4) {z : Int} (hlow : -2 ^ (2 * (8 * size) - 1) ≤ z)
    (hhigh : z < 2 ^ (2 * (8 * size) - 1)) :
    sbfe (size * 8) (size * 8) (intNode z) = intNode (z / 2 ^ (8 * size)) := by
  unfold sbfe intNode
  rw [opSbfe_ofInt (by omega) (by omega)]
  · rw [Nat.mul_comm size 8]
  · rwa [show size * 8 + size * 8 - 1 = 2 * (8 * size) - 1 by omega]
  · rwa [show size * 8 + size * 8 - 1 = 2 * (8 * size) - 1 by omega]

theorem product_le {a b m : Int} (ha : |a| ≤ m) (hb : |b| ≤ m) : |a * b| ≤ m * m := by
  rw [abs_mul]
  exact mul_le_mul ha hb (abs_nonneg b) ((abs_nonneg a).trans ha)

theorem mulh_intNode {a b : Int} (ha : -2 ^ 63 ≤ a ∧ a < 2 ^ 63) (hb : -2 ^ 63 ≤ b ∧ b < 2 ^ 63) :
    mulh (intNode a) (intNode b) = intNode (a * b / 2 ^ 64) := by
  have hproduct := abs_le.1 (@product_le a b (2 ^ 63) (abs_le.2 (by omega)) (abs_le.2 (by omega)))
  have hextend {z : Int} (hz : -2 ^ 63 ≤ z ∧ z < 2 ^ 63) : (ofInt 64 z).signExtend 128 = ofInt 128 z := by
    rw [BitVec.signExtend, show (ofInt 64 z).toInt = z from toInt_intNode hz.1 hz.2]
  have hhigh : (ofInt 128 (a * b)).sshiftRight 64 = ofInt 128 (a * b / 2 ^ 64) := by
    apply BitVec.eq_of_toInt_eq
    rw [toInt_sshiftRight, toInt_ofInt, toInt_ofInt, Int.bmod_eq_of_le (by omega) (by omega),
      Int.bmod_eq_of_le (by omega) (by omega), Int.shiftRight_eq_div_pow]
    rfl
  have hvalue : opMulH .i64Bit (ofInt 64 a) (ofInt 64 b) = some (ofInt 64 (a * b / 2 ^ 64)) := by
    unfold opMulH
    rw [hextend ha, hextend hb, ← ofInt_mul, hhigh, setWidth_ofInt (by decide)]
  exact congrArg (fun v => Node.mk 8 (Option.getD v 0)) hvalue

theorem umulh_intNode {a b : Int} (ha : 0 ≤ a ∧ a < 2 ^ 64) (hb : 0 ≤ b ∧ b < 2 ^ 64) :
    umulh (intNode a) (intNode b) = intNode (a * b / 2 ^ 64) := by
  have hextend {z : Int} (hz : 0 ≤ z ∧ z < 2 ^ 64) : (ofInt 64 z).setWidth 128 = ofInt 128 z := by
    apply eq_of_toNat_eq
    rw [toNat_setWidth, toNat_ofInt, toNat_ofInt]
    omega
  have hproduct : 0 ≤ a * b ∧ a * b < 2 ^ 128 := by
    refine ⟨mul_nonneg ha.1 hb.1, ?_⟩
    calc a * b ≤ a * 2 ^ 64 := mul_le_mul_of_nonneg_left hb.2.le ha.1
      _ < 2 ^ 128 := by omega
  have hhigh : ofInt 128 (a * b) >>> 64 = ofInt 128 (a * b / 2 ^ 64) := by
    apply eq_of_toNat_eq
    rw [toNat_ushiftRight, toNat_ofInt, toNat_ofInt, Nat.shiftRight_eq_div_pow]
    omega
  have hvalue : opUMulH .i64Bit (ofInt 64 a) (ofInt 64 b) = some (ofInt 64 (a * b / 2 ^ 64)) := by
    unfold opUMulH
    dsimp only
    rw [hextend ha, hextend hb, ← ofInt_mul, hhigh, setWidth_ofInt (by decide)]
  exact congrArg (fun v => Node.mk 8 (Option.getD v 0)) hvalue

/-- The upper half of an unsigned product, as the sizes below eight bytes compute it. -/
theorem opBfe_high {size : Nat} (hsize : size = 1 ∨ size = 2 ∨ size = 4) {z : Int} (hlow : 0 ≤ z)
    (hhigh : z < 2 ^ (2 * (8 * size))) :
    opBfe (size * 8) (size * 8) (ofInt 64 z) = ofInt 64 (z / 2 ^ (8 * size)) := by
  rw [opBfe_split (by omega) (by omega)]
  apply eq_of_toNat_eq
  rw [toNat_setWidth, toNat_setWidth, toNat_ushiftRight, toNat_ofInt, toNat_ofInt,
    Nat.shiftRight_eq_div_pow]
  rcases hsize with rfl | rfl | rfl <;> omega

/-! ## Flags of a product -/

theorem signBit_eq {size : Nat} (hsize : IsSize size) (z : Int) :
    sbfe 1 (size * 8 - 1) (intNode z) = intNode ((ofInt (8 * size) z).toInt / 2 ^ (8 * size - 1)) := by
  have hpos := hsize.pos
  have hle := hsize.le
  have hint : (opSbfe 1 (size * 8 - 1) (ofInt 64 z)).toInt =
      (ofInt (8 * size) z).toInt / 2 ^ (8 * size - 1) := by
    rw [opSbfe_split, show 1 + (size * 8 - 1) = 8 * size by omega, opSbfe_zero (by omega) (by omega),
      setWidth_ofInt (by omega), toInt_sshiftRight, BitVec.toInt_signExtend_of_le (by omega),
      Int.shiftRight_eq_div_pow, Nat.mul_comm size 8]
    rfl
  unfold sbfe intNode
  rw [← hint, ofInt_toInt]

theorem rflag_differ (a b : Node) (hsize : atLeast4 a b = 8) :
    rflag (select .EQ a b (const 0) (const 1)) = !decide (a.value = b.value) := by
  have hcompared : compared .EQ a b = decide (a.value = b.value) := by
    unfold compared
    rw [hsize, if_neg (by decide)]
    rfl
  rw [rflag_select _ isSize_eight isSize_eight, hcompared]
  cases decide (a.value = b.value) <;> rfl

theorem fits_signed {size : Nat} (hsize : IsSize size) {z : Int} (hlow : -2 ^ (2 * (8 * size) - 1) ≤ z)
    (hhigh : z < 2 ^ (2 * (8 * size) - 1)) :
    (intNode (z / 2 ^ (8 * size))).value = (intNode ((ofInt (8 * size) z).toInt / 2 ^ (8 * size - 1))).value ↔
      -2 ^ (8 * size - 1) ≤ z ∧ z < 2 ^ (8 * size - 1) := by
  rw [← BitVec.toInt_inj, toInt_ofInt, Int.bmod_def]
  rcases hsize with rfl | rfl | rfl | rfl
  all_goals
    rw [toInt_intNode (by omega) (by omega), toInt_intNode (by split_ifs <;> omega) (by split_ifs <;> omega)]
    split_ifs <;> omega

theorem calculcateFlags_MUL_eq {size : Nat} (hsize : IsSize size) {z : Int} (hlow : -2 ^ (2 * (8 * size) - 1) ≤ z)
    (hhigh : z < 2 ^ (2 * (8 * size) - 1)) {i : MulDiv} (hi : i.isSigned = true) :
    (calculcateFlags_MUL size (intNode z) (intNode (z / 2 ^ (8 * size)))).cf = !i.fits (8 * size) z ∧
      (calculcateFlags_MUL size (intNode z) (intNode (z / 2 ^ (8 * size)))).of = !i.fits (8 * size) z := by
  have hflag : rflag (select .EQ (intNode (z / 2 ^ (8 * size))) (sbfe 1 (size * 8 - 1) (intNode z)) (const 0) (const 1)) =
      !i.fits (8 * size) z := by
    rw [signBit_eq hsize, rflag_differ _ _ rfl, MulDiv.fits, if_pos hi]
    exact congrArg _ (decide_eq_decide.2 (fits_signed hsize hlow hhigh))
  exact ⟨hflag, hflag⟩

theorem calculcateFlags_UMUL_eq {size : Nat} (hsize : IsSize size) {z : Int} (hlow : 0 ≤ z)
    (hhigh : z < 2 ^ (2 * (8 * size))) {i : MulDiv} (hi : i.isSigned = false) {high : Node} (hle : high.size ≤ 8)
    (hvalue : high.value = ofInt 64 (z / 2 ^ (8 * size))) :
    (calculcateFlags_UMUL high).cf = !i.fits (8 * size) z ∧ (calculcateFlags_UMUL high).of = !i.fits (8 * size) z := by
  have hzero : ofInt 64 (z / 2 ^ (8 * size)) = 0 ↔ 0 ≤ z ∧ z < 2 ^ (8 * size) := by
    rw [← BitVec.toNat_inj, toNat_ofInt, show (0 : BitVec 64).toNat = 0 from rfl]
    rcases hsize with rfl | rfl | rfl | rfl <;> omega
  have hmax : atLeast4 high (const 0) = 8 := by
    simp only [atLeast4, const_size]
    omega
  have hflag : rflag (select .EQ high (const 0) (const 0) (const 1)) = !i.fits (8 * size) z := by
    rw [rflag_differ _ _ hmax, MulDiv.fits, if_neg (by rw [hi]; exact Bool.false_ne_true), hvalue, const_value]
    exact congrArg _ (decide_eq_decide.2 hzero)
  exact ⟨hflag, hflag⟩

/-! ## Ranges -/

theorem toInt_range {w : Nat} (x : BitVec w) : -2 ^ (w - 1) ≤ x.toInt ∧ x.toInt < 2 ^ (w - 1) :=
  ⟨BitVec.le_toInt x, BitVec.toInt_lt⟩

theorem toNat_range {w : Nat} (x : BitVec w) : (0 : Int) ≤ x.toNat ∧ (x.toNat : Int) < 2 ^ w := by
  refine ⟨Int.natCast_nonneg _, ?_⟩
  exact_mod_cast x.isLt

theorem toNat_wide {size : Nat} (hsize : IsSize size) (x : BitVec (8 * size)) :
    (0 : Int) ≤ x.toNat ∧ (x.toNat : Int) < 2 ^ 64 := by
  rcases hsize with rfl | rfl | rfl | rfl <;> omega

theorem signed_product {w : Nat} (hw : 0 < w) (x y : BitVec w) :
    -2 ^ (2 * w - 1) ≤ x.toInt * y.toInt ∧ x.toInt * y.toInt < 2 ^ (2 * w - 1) := by
  have hx := toInt_range x
  have hy := toInt_range y
  have hproduct := abs_le.1 (@product_le x.toInt y.toInt (2 ^ (w - 1)) (abs_le.2 ⟨hx.1, hx.2.le⟩) (abs_le.2 ⟨hy.1, hy.2.le⟩))
  have hpow : (2 : Int) ^ (2 * w - 1) = 2 * (2 ^ (w - 1) * 2 ^ (w - 1)) := by
    rw [← pow_add, ← pow_succ']
    congr 1
    omega
  have hpos : (0 : Int) < 2 ^ (w - 1) * 2 ^ (w - 1) := by positivity
  omega

theorem toInt_wide {size : Nat} (hsize : IsSize size) (x : BitVec (8 * size)) : -2 ^ 63 ≤ x.toInt ∧ x.toInt < 2 ^ 63 := by
  have hrange := toInt_range x
  rcases hsize with rfl | rfl | rfl | rfl <;> omega

theorem unsigned_product {w : Nat} (x y : BitVec w) :
    (0 : Int) ≤ x.toNat * y.toNat ∧ (x.toNat * y.toNat : Int) < 2 ^ (2 * w) := by
  have hx := toNat_range x
  have hy := toNat_range y
  refine ⟨mul_nonneg hx.1 hy.1, ?_⟩
  calc (x.toNat * y.toNat : Int) < 2 ^ w * 2 ^ w := mul_lt_mul'' hx.2 hy.2 hx.1 hy.1
    _ = 2 ^ (2 * w) := by rw [← pow_add, two_mul]

/-! ## Stores -/

/-- What the mode has of a register. -/
def shown (is64BitMode : Bool) (reg : BitVec 64) : BitVec 64 := if is64BitMode then reg else (reg.setWidth 32).setWidth 64

section
variable {is64BitMode : Bool} {size : Nat} {n m : Node}

theorem storeContext_writeReg (hsize : IsSize size) (hmode : size = 8 → is64BitMode = true)
    (hhalf : size = 4 → is64BitMode = false) (old : BitVec 64) :
    storeContext size n old = writeReg is64BitMode false (n.value.setWidth (8 * size)) old := by
  unfold writeReg
  rw [if_neg Bool.false_ne_true]
  split_ifs with hwide
  · obtain ⟨rfl, hwide⟩ := hwide
    obtain rfl : size = 8 := by
      rcases hsize with rfl | rfl | rfl | rfl
      · omega
      · omega
      · cases hhalf rfl
      · rfl
    rw [storeContext_eight, setWidth_eq, setWidth_eq]
  · rfl

theorem shown_half {k : Nat} (hk : k = 8 ∨ k = gprSize is64BitMode) (v : BitVec (8 * 4)) (hn : n.value = v.setWidth 64)
    (old : BitVec 64) :
    shown is64BitMode (storeContext k n old) = shown is64BitMode (writeReg is64BitMode false v old) := by
  have hwrite : (writeReg false false v old).setWidth 32 = v := by
    unfold writeReg
    apply BitVec.eq_of_getLsbD_eq
    intro i hi
    simp [hi]
  have hv : (v.setWidth 64).setWidth 32 = v := by
    rw [BitVec.setWidth_setWidth_of_le _ (by decide), setWidth_eq]
  cases is64BitMode with
  | true =>
    obtain rfl : k = 8 := hk.elim id id
    rw [storeContext_eight, hn]
    rfl
  | false =>
    unfold shown
    rw [if_neg Bool.false_ne_true, if_neg Bool.false_ne_true, hwrite]
    rcases hk with rfl | rfl
    · rw [storeContext_eight, hn, hv]
    · have hstore : storeContext (gprSize false) n old = writeReg false false v old := by
        rw [← show n.value.setWidth (8 * 4) = v by rw [hn, hv]]
        exact storeContext_writeReg isSize_four (fun h => absurd h (by decide)) (fun _ => rfl) old
      rw [hstore, hwrite]

theorem visible_setGPR (s : State) (gpr : X86Reg) (value : BitVec 64) :
    visible is64BitMode (setGPR s gpr value) = setGPR (visible is64BitMode s) gpr (shown is64BitMode value) := by
  cases is64BitMode with
  | true => rfl
  | false =>
    have hgregs : (fun gpr' => ((Function.update s.cpu.gregs gpr value gpr').setWidth 32).setWidth 64) =
        Function.update (fun gpr' => ((s.cpu.gregs gpr').setWidth 32).setWidth 64) gpr
          ((value.setWidth 32).setWidth 64) := by
      funext gpr'
      by_cases h : gpr' = gpr
      · subst h
        rw [Function.update_self, Function.update_self]
      · rw [Function.update_of_ne h, Function.update_of_ne h]
    exact congrArg (fun gregs => { s with cpu := { s.cpu with gregs := gregs } }) hgregs

theorem visible_stored (s : State) (flags : ALUFlags) {gpr : X86Reg} {v reg : BitVec 64}
    (h : shown is64BitMode v = shown is64BitMode reg) :
    visible is64BitMode { setGPR s gpr v with flags := flags, deferred := none } =
      visible is64BitMode { setGPR s.calculateDeferredFlags gpr reg with flags := flags } := by
  have hv := @visible_setGPR is64BitMode { s with flags := flags, deferred := none } gpr v
  have hreg := @visible_setGPR is64BitMode { s with flags := flags, deferred := none } gpr reg
  rw [h] at hv
  exact hv.trans hreg.symm

theorem visible_pair (s : State) (flags : ALUFlags) {k : Nat} {lower upper : BitVec (8 * size)}
    (hn : shown is64BitMode (storeContext k n (s.cpu.gregs .rax)) =
      shown is64BitMode (writeReg is64BitMode false lower (s.cpu.gregs .rax)))
    (hm : shown is64BitMode (storeContext k m (s.cpu.gregs .rdx)) =
      shown is64BitMode (writeReg is64BitMode false upper (s.cpu.gregs .rdx))) :
    visible is64BitMode { (s.storeGreg k n .rax).storeGreg k m .rdx with flags := flags, deferred := none } =
      visible is64BitMode { writePair is64BitMode s.calculateDeferredFlags lower upper with flags := flags } := by
  let t : State := { s with flags := flags, deferred := none }
  have hleft : { (s.storeGreg k n .rax).storeGreg k m .rdx with flags := flags, deferred := none } =
      setGPR (setGPR t .rax (storeContext k n (s.cpu.gregs .rax))) .rdx (storeContext k m (s.cpu.gregs .rdx)) := rfl
  have hright : { writePair is64BitMode s.calculateDeferredFlags lower upper with flags := flags } =
      setGPR (setGPR t .rax (writeReg is64BitMode false lower (s.cpu.gregs .rax))) .rdx
        (writeReg is64BitMode false upper (s.cpu.gregs .rdx)) := rfl
  rw [hleft, hright, visible_setGPR, visible_setGPR, visible_setGPR, visible_setGPR, hn, hm]

end

/-! ## Quotients and remainders -/

/-- A function of bits is one of the integers that they stand for. -/
def OfIntegers (i : MulDiv) (f : {w : Nat} → BitVec w → BitVec w → BitVec w) (g : Int → Int → Int) : Prop :=
  ∀ {w : Nat} (a b : BitVec w), f a b = ofInt w (g (i.number a) (i.number b))

theorem ofIntegers_sdiv : OfIntegers .idiv sdiv Int.tdiv := fun a b => by
  apply BitVec.eq_of_toInt_eq
  rw [BitVec.toInt_sdiv, toInt_ofInt]
  rfl

theorem ofIntegers_srem : OfIntegers .idiv srem Int.tmod := fun a b => by
  have hrem := ofInt_toInt (x := a.srem b)
  rw [BitVec.toInt_srem] at hrem
  exact hrem.symm

theorem ofIntegers_udiv : OfIntegers .div udiv Int.tdiv := fun a b => by
  have hdiv : (a.toNat / b.toNat : Nat) = (a.toNat : Int).tdiv b.toNat := Int.ofNat_tdiv _ _
  rw [show MulDiv.div.number a = a.toNat from rfl, show MulDiv.div.number b = b.toNat from rfl, ← hdiv, ofInt_natCast]
  apply eq_of_toNat_eq
  rw [toNat_ofNat, show (udiv a b).toNat = a.toNat / b.toNat from BitVec.toNat_udiv,
    Nat.mod_eq_of_lt ((Nat.div_le_self _ _).trans_lt a.isLt)]

theorem ofIntegers_umod : OfIntegers .div umod Int.tmod := fun a b => by
  have hmod : (a.toNat % b.toNat : Nat) = (a.toNat : Int).tmod b.toNat := Int.ofNat_tmod _ _
  rw [show MulDiv.div.number a = a.toNat from rfl, show MulDiv.div.number b = b.toNat from rfl, ← hmod, ofInt_natCast]
  apply eq_of_toNat_eq
  rw [toNat_ofNat, show (umod a b).toNat = a.toNat % b.toNat from BitVec.toNat_umod,
    Nat.mod_eq_of_lt ((Nat.mod_le _ _).trans_lt a.isLt)]

theorem toNat_longSource (n : Nat) (lower upper : BitVec 64) :
    (longSource n lower upper).toNat = (upper.setWidth n).toNat * 2 ^ n + (lower.setWidth n).toNat := by
  have hle : n ≤ 2 * n := by omega
  have hupper : (upper.setWidth n).toNat <<< n < 2 ^ (2 * n) := by
    rw [Nat.shiftLeft_eq, two_mul, pow_add]
    exact Nat.mul_lt_mul_of_pos_right (upper.setWidth n).isLt (Nat.two_pow_pos n)
  unfold longSource
  rw [BitVec.toNat_or, BitVec.toNat_shiftLeft, toNat_setWidth_of_le hle, toNat_setWidth_of_le hle,
    Nat.mod_eq_of_lt hupper, ← Nat.shiftLeft_add_eq_or_of_lt (lower.setWidth n).isLt, Nat.shiftLeft_eq]

theorem number_longSource {i : MulDiv} (size : OpSize) (lower upper : BitVec 64) :
    i.number (longSource size.bits lower upper) =
      i.number (upper.setWidth size.bits) * 2 ^ size.bits + (lower.setWidth size.bits).toNat := by
  have hbits : size.bits = 8 ∨ size.bits = 16 ∨ size.bits = 32 ∨ size.bits = 64 := by cases size <;> simp
  have htoNat := toNat_longSource size.bits lower upper
  have hlower := (lower.setWidth size.bits).isLt
  unfold MulDiv.number
  split_ifs
  · rw [BitVec.toInt_eq_toNat_cond, BitVec.toInt_eq_toNat_cond, htoNat]
    rcases hbits with h | h | h | h <;> rw [h] at hlower ⊢ <;> split_ifs <;> omega
  · rw [htoNat]
    rfl

/-- The division of a source in two halves is the one of the numbers. -/
def DividesLong (i : MulDiv) (g : Int → Int → Int)
    (op : OpSize → BitVec 64 → BitVec 64 → BitVec 64 → Option (BitVec 64)) : Prop :=
  ∀ (size : OpSize) (lower upper divisor : BitVec 64), size ≠ .i8Bit → i.number (divisor.setWidth size.bits) ≠ 0 →
    ∃ v, op size lower upper divisor = some v ∧
      v.setWidth size.bits = ofInt size.bits
        (g (i.number (upper.setWidth size.bits) * 2 ^ size.bits + (lower.setWidth size.bits).toNat)
          (i.number (divisor.setWidth size.bits)))

theorem dividesLong_longDivided {i : MulDiv} {f : {w : Nat} → BitVec w → BitVec w → BitVec w} {g : Int → Int → Int}
    (hf : OfIntegers i f g) (size : OpSize) {store : BitVec size.bits → BitVec 64}
    (hstore : ∀ v, (store v).setWidth size.bits = v) (lower upper : BitVec 64) {divisor : BitVec (2 * size.bits)}
    (hne : i.number divisor ≠ 0) :
    ∃ v, longDivided size.bits f store lower upper divisor = some v ∧
      v.setWidth size.bits = ofInt size.bits
        (g (i.number (upper.setWidth size.bits) * 2 ^ size.bits + (lower.setWidth size.bits).toNat) (i.number divisor)) := by
  have hdivisor : divisor ≠ 0 := by
    rintro rfl
    apply hne
    unfold MulDiv.number
    split_ifs <;> simp
  refine ⟨_, if_neg hdivisor, ?_⟩
  rw [hstore, hf, number_longSource size, setWidth_ofInt (by omega)]

theorem signedLongOp_divides {f : {w : Nat} → BitVec w → BitVec w → BitVec w} {g : Int → Int → Int}
    (hf : OfIntegers .idiv f g) : DividesLong .idiv g (signedLongOp f) := by
  intro size lower upper divisor hsize hne
  have hdivisor : MulDiv.idiv.number ((divisor.setWidth size.bits).signExtend (2 * size.bits)) =
      MulDiv.idiv.number (divisor.setWidth size.bits) := BitVec.toInt_signExtend_of_le (by omega)
  have hstore (v : BitVec size.bits) : (v.signExtend 64).setWidth size.bits = v := by
    rw [BitVec.signExtend, setWidth_ofInt (by cases size <;> decide), ofInt_toInt]
  have hlong := dividesLong_longDivided hf size hstore lower upper (hdivisor.trans_ne hne)
  rw [hdivisor] at hlong
  cases size with
  | i8Bit => cases hsize rfl
  | _ => exact hlong

theorem unsignedLongOp_divides {f : {w : Nat} → BitVec w → BitVec w → BitVec w} {g : Int → Int → Int}
    (hf : OfIntegers .div f g) : DividesLong .div g (unsignedLongOp f) := by
  intro size lower upper divisor hsize hne
  have hdivisor : MulDiv.div.number ((divisor.setWidth size.bits).setWidth (2 * size.bits)) =
      MulDiv.div.number (divisor.setWidth size.bits) :=
    congrArg Nat.cast (toNat_setWidth_of_le (by omega))
  have hstore (v : BitVec size.bits) : (v.setWidth 64).setWidth size.bits = v := by
    rw [BitVec.setWidth_setWidth_of_le _ (by cases size <;> decide), setWidth_eq]
  have hlong := dividesLong_longDivided hf size hstore lower upper (hdivisor.trans_ne hne)
  rw [hdivisor] at hlong
  cases size with
  | i8Bit => cases hsize rfl
  | _ => exact hlong

theorem divideLong_eq {i : MulDiv} {g : Int → Int → Int}
    {op : OpSize → BitVec 64 → BitVec 64 → BitVec 64 → Option (BitVec 64)} (h : DividesLong i g op) {size : Nat}
    (hsize : IsSize size) (hone : size ≠ 1) (lower upper divisor : BitVec (8 * size)) (hne : i.number divisor ≠ 0) :
    ∃ n, divideLong op ⟨size, lower.setWidth 64⟩ ⟨size, upper.setWidth 64⟩ ⟨size, divisor.setWidth 64⟩ = some n ∧
      n.value.setWidth (8 * size) =
        ofInt (8 * size) (g (i.number upper * 2 ^ (8 * size) + lower.toNat) (i.number divisor)) := by
  have hlower := low_self hsize lower
  have hupper := low_self hsize upper
  have hdivisor := low_self hsize divisor
  have hmax : max size (max size size) = size := by omega
  obtain ⟨opSize', hopSize, hbits, hbyte⟩ :
      ∃ opSize', opSize size = some opSize' ∧ opSize'.bits = 8 * size ∧ opSize' ≠ .i8Bit := by
    rcases hsize with rfl | rfl | rfl | rfl
    · cases hone rfl
    · exact ⟨.i16Bit, rfl, rfl, by decide⟩
    · exact ⟨.i32Bit, rfl, rfl, by decide⟩
    · exact ⟨.i64Bit, rfl, rfl, by decide⟩
  have hdivides := h opSize' (lower.setWidth 64) (upper.setWidth 64) (divisor.setWidth 64) hbyte
  rw [hbits, hlower, hupper, hdivisor] at hdivides
  obtain ⟨v, hv, hvalue⟩ := hdivides hne
  refine ⟨⟨size, v⟩, ?_, hvalue⟩
  unfold divideLong
  dsimp only
  rw [hmax, hopSize, bind_some, hv]
  rfl

theorem unsigned_byte {f : {w : Nat} → BitVec w → BitVec w → BitVec w} {g : Int → Int → Int} (hf : OfIntegers .div f g)
    (x : BitVec (8 * 2)) (y : BitVec (8 * 1)) (hne : MulDiv.div.number y ≠ 0) :
    ∃ n, divide (fun size a b => divided f (zext size a) (zext size b)) ⟨2, x.setWidth 64⟩ ⟨1, y.setWidth 64⟩ = some n ∧
      n.value = ofInt 64 (g (MulDiv.div.number x) (MulDiv.div.number y)) := by
  have hx : zext .i16Bit (x.setWidth 64) = x.setWidth 64 := by
    rw [zext, show (x.setWidth 64).setWidth 16 = x from low_self (.inr (.inl rfl)) x]
  have hy : zext .i16Bit (y.setWidth 64) = y.setWidth 64 := by
    apply eq_of_toNat_eq
    rw [zext, show OpSize.i16Bit.bits = 16 from rfl, toNat_setWidth, toNat_setWidth, toNat_setWidth]
    omega
  have hnumber {w : Nat} (hw : w ≤ 64) (z : BitVec w) : MulDiv.div.number (z.setWidth 64) = MulDiv.div.number z :=
    congrArg Nat.cast (toNat_setWidth_of_le hw)
  have hdivisor : y.setWidth 64 ≠ 0 := by
    intro h
    rw [← hnumber (by decide) y, h] at hne
    exact hne rfl
  refine ⟨⟨2, f (x.setWidth 64) (y.setWidth 64)⟩, ?_, ?_⟩
  · change ((divided f (zext .i16Bit (x.setWidth 64)) (zext .i16Bit (y.setWidth 64))).map _) = _
    rw [hx, hy, divided, if_neg hdivisor]
    rfl
  · refine (hf (x.setWidth 64) (y.setWidth 64)).trans ?_
    rw [hnumber (by decide), hnumber (by decide)]

theorem signed_byte {f : {w : Nat} → BitVec w → BitVec w → BitVec w} {g : Int → Int → Int} (hf : OfIntegers .idiv f g)
    (x : BitVec (8 * 2)) (y : BitVec (8 * 1)) (hne : MulDiv.idiv.number y ≠ 0) :
    ∃ n, divide (fun size a b => divided f (sext size a) (sext size b)) (sbfe 16 0 ⟨2, x.setWidth 64⟩)
        (sbfe 8 0 ⟨1, y.setWidth 64⟩) = some n ∧
      n.value = ofInt 64 (g (MulDiv.idiv.number x) (MulDiv.idiv.number y)) := by
  have hx : sbfe 16 0 ⟨2, x.setWidth 64⟩ = intNode x.toInt := signed_source (.inr (.inl rfl)) x
  have hy : sbfe 8 0 ⟨1, y.setWidth 64⟩ = intNode y.toInt := signed_source (.inl rfl) y
  have hsext (v : BitVec 64) : sext .i64Bit v = v := by
    rw [sext, setWidth_eq, BitVec.signExtend_eq]
  have hxint := toInt_wide (.inr (.inl rfl)) x
  have hyint := toInt_wide (.inl rfl) y
  have hdivisor : (intNode y.toInt).value ≠ 0 := by
    intro h
    have hint := toInt_intNode hyint.1 hyint.2
    rw [h] at hint
    exact hne hint.symm
  refine ⟨⟨8, f (intNode x.toInt).value (intNode y.toInt).value⟩, ?_, ?_⟩
  · rw [hx, hy]
    change ((divided f (sext .i64Bit (intNode x.toInt).value) (sext .i64Bit (intNode y.toInt).value)).map _) = _
    rw [hsext, hsext, divided, if_neg hdivisor]
    rfl
  · refine (hf (intNode x.toInt).value (intNode y.toInt).value).trans ?_
    rw [show MulDiv.idiv.number (intNode x.toInt).value = _ from toInt_intNode hxint.1 hxint.2,
      show MulDiv.idiv.number (intNode y.toInt).value = _ from toInt_intNode hyint.1 hyint.2]
    rfl

/-! ## Handlers -/

def MulDiv.handlerName : MulDiv → MulDivHandler
  | mul => .MULOp
  | imul => .IMULOp
  | imul2 => .IMUL1SrcOp
  | imul3 => .IMUL2SrcOp
  | div => .DIVOp
  | idiv => .IDIVOp

theorem MulDivHandler.ofOp_eq {table : OpcodeTable} {op : Nat} {i : MulDiv} (h : MulDiv.ofOpcode table op = some i) :
    MulDivHandler.ofOp table op = some i.handlerName := by
  cases table with
  | base | secondBase =>
    unfold MulDiv.ofOpcode at h
    split at h <;> first | (cases h; rfl) | grind
  | primaryGroup =>
    have hgroup : ∀ k < 16, ∀ i ∈ MulDiv.ofOpcode .primaryGroup (192 + k),
        MulDivHandler.ofOp .primaryGroup (192 + k) = some i.handlerName := by decide
    have hop : op / 64 = 3 ∧ op / 8 % 8 < 2 := by
      by_contra hop
      rw [MulDiv.ofOpcode, if_neg hop] at h
      cases h
    obtain ⟨k, hk, rfl⟩ : ∃ k < 16, op = 192 + k := ⟨op - 192, by omega, by omega⟩
    exact hgroup k hk i h

namespace DecodedMulDiv

section
variable {is64BitMode : Bool} (op : DecodedMulDiv is64BitMode) (s : State)

theorem loadOperand {operand : DecodedOperand} (h : IsRM op.size operand) :
    loadSource is64BitMode op.toDecodedInst s operand = some ⟨op.size, (op.value s operand).setWidth 64⟩ := by
  obtain ⟨l, hl, hload⟩ := @loadSource_rm is64BitMode op.toDecodedInst s op.size operand op.isSize.le h
  unfold loadSource value
  rw [op.getSrcSize_eq, hload, operandValue_rm h hl]

theorem loadLiteral {operand : DecodedOperand} (h : IsSource op.size operand) :
    loadSource is64BitMode op.toDecodedInst s operand = some ⟨op.size, (op.value s operand).setWidth 64⟩ := by
  unfold loadSource value
  rw [op.getSrcSize_eq, loadSource_source op.isSize.le h]

theorem loadAccumulator (gpr : X86Reg) :
    s.loadGreg op.size gpr = ⟨op.size, (readReg op.size false (s.cpu.gregs gpr)).setWidth 64⟩ := rfl

/-- The emitted code leaves a state as the architecture does. -/
def Leaves (s' : State) : Prop :=
  visible is64BitMode s'.calculateDeferredFlags =
      visible is64BitMode { op.executed s.calculateDeferredFlags with flags := s'.calculateDeferredFlags.flags } ∧
    (op.instruction.isDivision = false →
      s'.calculateDeferredFlags.flags.cf = !op.instruction.fits (8 * op.size) (op.product s) ∧
        s'.calculateDeferredFlags.flags.of = !op.instruction.fits (8 * op.size) (op.product s))

variable {op s} in
theorem follows_of {handler : Handler} (hhandler : op.instruction.handlerName.handler = handler)
    (h : ∃ s', handler is64BitMode op.toDecodedInst s = some s' ∧ op.Leaves s s') : op.FollowsX86 s := by
  obtain ⟨s', hrun, hvisible, hflags⟩ := h
  rw [← hhandler] at hrun
  exact ⟨_, s', MulDivHandler.ofOp_eq op.ofOpcode_eq, hrun, hvisible, hflags⟩

variable {s} in
theorem leaves_deferred {size : Nat} (hsize : op.size = size) {s' : State} {calculate : ALUFlags → ALUFlags}
    (hvisible : ∀ flags, visible is64BitMode { s' with flags := flags, deferred := none } =
      visible is64BitMode { op.executed s.calculateDeferredFlags with flags := flags })
    (hflags : (calculate s'.flags).cf = !op.instruction.fits (8 * size) (op.product s) ∧
      (calculate s'.flags).of = !op.instruction.fits (8 * size) (op.product s)) : op.Leaves s (deferFlags s' calculate) := by
  subst hsize
  exact ⟨hvisible _, fun _ => hflags⟩

variable {s} in
theorem leaves_signed {size : Nat} (hsize : op.size = size) {s' : State} {low high : Node}
    (hvisible : ∀ flags, visible is64BitMode { s' with flags := flags, deferred := none } =
      visible is64BitMode { op.executed s.calculateDeferredFlags with flags := flags })
    (hflags : (calculcateFlags_MUL size low high).cf = !op.instruction.fits (8 * size) (op.product s) ∧
      (calculcateFlags_MUL size low high).of = !op.instruction.fits (8 * size) (op.product s)) :
    op.Leaves s (generateFlags_MUL op.toDecodedInst s' low high) := by
  have hsrc : getSrcSize op.toDecodedInst = size := op.getSrcSize_eq.trans hsize
  unfold generateFlags_MUL
  rw [hsrc]
  exact op.leaves_deferred hsize hvisible hflags

theorem store_plain {size : Nat} (hsize : op.size = size) (hk : size = 2 ∨ size = 8) {n : Node} {v : BitVec (8 * size)}
    (hn : n.value.setWidth (8 * size) = v) (old : BitVec 64) :
    storeContext size n old = writeReg is64BitMode false v old := by
  have hmode := op.size_mode
  rw [hsize] at hmode
  rw [storeContext_writeReg (hsize ▸ op.isSize) hmode (by omega), hn]

/-! ### Products of one operand -/

theorem executed_byte (hi : op.instruction = .mul ∨ op.instruction = .imul) (h : op.size = 1) :
    op.executed s = setGPR s .rax (@writeReg is64BitMode 2 false (ofInt _ (op.product s)) (s.cpu.gregs .rax)) := by
  unfold executed
  rcases hi with hi | hi <;> simp only [hi, if_pos h]

theorem executed_wide (hi : op.instruction = .mul ∨ op.instruction = .imul) {size : Nat} (hsize : op.size = size)
    (hne : size ≠ 1) :
    op.executed s = @writePair is64BitMode s size (ofInt _ (op.product s))
      (ofInt _ (op.product s / 2 ^ (8 * size))) := by
  subst hsize
  unfold executed
  rcases hi with hi | hi <;> simp only [hi, if_neg hne]

variable {s} in
theorem visible_byte (hi : op.instruction = .mul ∨ op.instruction = .imul) (h : op.size = 1) (flags : ALUFlags) :
    visible is64BitMode { s.storeGreg 2 (intNode (op.product s)) .rax with flags := flags, deferred := none } =
      visible is64BitMode { op.executed s.calculateDeferredFlags with flags := flags } := by
  rw [op.executed_byte _ hi h]
  refine visible_stored s flags ?_
  rw [storeContext_writeReg (.inr (.inl rfl)) (fun h => absurd h (by decide)) (fun h => absurd h (by decide)),
    intNode, setWidth_ofInt (by decide)]
  rfl

variable {s} in
theorem visible_wide (hi : op.instruction = .mul ∨ op.instruction = .imul) {size : Nat} (hsize : op.size = size)
    (hk : size = 2 ∨ size = 8) {high : Node}
    (hhigh : high.value.setWidth (8 * size) = ofInt (8 * size) (op.product s / 2 ^ (8 * size))) (flags : ALUFlags) :
    visible is64BitMode
        { (s.storeGreg size (intNode (op.product s)) .rax).storeGreg size high .rdx with flags := flags, deferred := none } =
      visible is64BitMode { op.executed s.calculateDeferredFlags with flags := flags } := by
  rw [op.executed_wide _ hi hsize (by omega)]
  exact visible_pair s flags (congrArg _ (op.store_plain hsize hk (setWidth_ofInt (by omega) _) _))
    (congrArg _ (op.store_plain hsize hk hhigh _))

theorem high_half (z : Int) : opBfe 32 32 (ofInt 64 z) = (ofInt 32 (z / 2 ^ 32)).setWidth 64 := by
  rw [opBfe_split (by decide) (by decide)]
  congr 1
  apply eq_of_toNat_eq
  rw [toNat_setWidth, toNat_ushiftRight, toNat_ofInt, toNat_ofInt, Nat.shiftRight_eq_div_pow]
  omega

variable {s} in
theorem visible_half (hi : op.instruction = .mul ∨ op.instruction = .imul) (hsize : op.size = 4) {k : Nat}
    (hk : k = 8 ∨ k = gprSize is64BitMode) (flags : ALUFlags) :
    visible is64BitMode
        { (s.storeGreg k (bfeSized k 32 0 (intNode (op.product s))) .rax).storeGreg k
            (bfeSized k 32 32 (intNode (op.product s))) .rdx with flags := flags, deferred := none } =
      visible is64BitMode { op.executed s.calculateDeferredFlags with flags := flags } := by
  rw [op.executed_wide _ hi hsize (by decide)]
  refine visible_pair s flags (shown_half hk _ ?_ _) (shown_half hk _ ?_ _)
  · unfold bfeSized intNode
    rw [opBfe_zero (by decide), setWidth_ofInt (by decide)]
    rfl
  · exact high_half _

variable {s} in
theorem follows_imul (h : op.instruction = .imul) : op.FollowsX86 s := by
  have hsigned : op.instruction.isSigned = true := by rw [h]; rfl
  have hx : op.x s = readReg op.size false (s.cpu.gregs .rax) := by simp only [x, h]
  have hy : op.y s = op.value s op.dest := by simp only [y, h]
  have hproduct : op.product s = (op.x s).toInt * (op.y s).toInt := by
    rw [product, MulDiv.number, MulDiv.number, if_pos hsigned, if_pos hsigned]
  have hrange := signed_product (by have := op.isSize.pos; omega) (op.x s) (op.y s)
  have hload := op.loadOperand s op.dest_rm
  have hacc : s.loadGreg op.size .rax = ⟨op.size, (op.x s).setWidth 64⟩ := by rw [hx]; rfl
  have hflags := @calculcateFlags_MUL_eq op.size op.isSize (op.product s) (by rw [hproduct]; exact hrange.1)
    (by rw [hproduct]; exact hrange.2) op.instruction hsigned
  have hhigh := mulh_intNode (toInt_wide op.isSize (op.y s)) (toInt_wide op.isSize (op.x s))
  rw [← hproduct] at hrange
  rw [← hy] at hload
  refine @follows_of is64BitMode op s imulOp (by rw [h]; rfl) ?_
  unfold imulOp
  rw [hload, op.getSrcSize_eq]
  simp only [bind_eq_bind, bind_some, hacc]
  rw [signed_source op.isSize, signed_source op.isSize, mul_intNode, hhigh, Int.mul_comm (op.y s).toInt, ← hproduct]
  rcases op.isSize with hsize | hsize | hsize | hsize <;> rw [hsize] at hrange hflags ⊢
  · have hnode : sbfe 8 8 (intNode (op.product s)) = intNode (op.product s / 2 ^ 8) := sbfe_high (.inl rfl) hrange.1 hrange.2
    rw [hnode]
    exact ⟨_, rfl, op.leaves_signed hsize (op.visible_byte (.inr h) hsize) hflags⟩
  · have hnode : sbfe 16 16 (intNode (op.product s)) = intNode (op.product s / 2 ^ 16) :=
      sbfe_high (.inr (.inl rfl)) hrange.1 hrange.2
    rw [hnode]
    exact ⟨_, rfl, op.leaves_signed hsize
      (op.visible_wide (.inr h) hsize (.inl rfl) (setWidth_ofInt (by decide) _)) hflags⟩
  · have hnode : sbfe 32 32 (intNode (op.product s)) = intNode (op.product s / 2 ^ 32) :=
      sbfe_high (.inr (.inr rfl)) hrange.1 hrange.2
    rw [hnode]
    refine ⟨_, rfl, op.leaves_signed hsize (op.visible_half (.inr h) hsize (.inl rfl)) ?_⟩
    -- The flags read the lower half with its sign, which has the sign of the product's lower half.
    have hlow : sbfe 32 0 (intNode (op.product s)) = intNode (ofInt 32 (op.product s)).toInt := by
      unfold sbfe intNode
      rw [opSbfe_zero (by decide) (by decide), setWidth_ofInt (by decide)]
      rfl
    have hsign : sbfe 1 (4 * 8 - 1) (intNode (ofInt 32 (op.product s)).toInt) =
        sbfe 1 (4 * 8 - 1) (intNode (op.product s)) := by
      rw [signBit_eq isSize_four, signBit_eq isSize_four, ofInt_toInt]
    rw [hlow]
    unfold calculcateFlags_MUL at hflags ⊢
    rwa [hsign]
  · obtain rfl := op.size_mode hsize
    exact ⟨_, rfl, op.leaves_signed hsize
      (op.visible_wide (.inr h) hsize (.inr rfl) (setWidth_eq _)) hflags⟩

variable {s} in
theorem leaves_unsigned {size : Nat} (hsize : op.size = size) (hsigned : op.instruction.isSigned = false)
    (hrange : 0 ≤ op.product s ∧ op.product s < 2 ^ (2 * (8 * size))) {s' : State} {high : Node}
    (hvisible : ∀ flags, visible is64BitMode { s' with flags := flags, deferred := none } =
      visible is64BitMode { op.executed s.calculateDeferredFlags with flags := flags })
    (hle : high.size ≤ 8) (hvalue : high.value = ofInt 64 (op.product s / 2 ^ (8 * size))) :
    op.Leaves s (generateFlags_UMUL s' high) :=
  op.leaves_deferred hsize hvisible
    (calculcateFlags_UMUL_eq (hsize ▸ op.isSize) hrange.1 hrange.2 hsigned hle hvalue)

variable {s} in
theorem follows_mul (h : op.instruction = .mul) : op.FollowsX86 s := by
  have hsigned : op.instruction.isSigned = false := by rw [h]; rfl
  have hx : op.x s = readReg op.size false (s.cpu.gregs .rax) := by simp only [x, h]
  have hy : op.y s = op.value s op.dest := by simp only [y, h]
  have hproduct : op.product s = (op.x s).toNat * (op.y s).toNat := by
    rw [product, MulDiv.number, MulDiv.number, hsigned]
    rfl
  have hrange := unsigned_product (op.x s) (op.y s)
  have hload := op.loadOperand s op.dest_rm
  have hacc : s.loadGreg op.size .rax = ⟨op.size, (op.x s).setWidth 64⟩ := by rw [hx]; rfl
  have hhigh := umulh_intNode (toNat_wide op.isSize (op.y s)) (toNat_wide op.isSize (op.x s))
  rw [← hproduct] at hrange
  rw [← hy] at hload
  refine @follows_of is64BitMode op s mulOp (by rw [h]; rfl) ?_
  unfold mulOp
  rw [hload, op.getSrcSize_eq]
  simp only [bind_eq_bind, bind_some, hacc]
  rw [unsigned_source op.isSize, unsigned_source op.isSize, umul_intNode, hhigh, Int.mul_comm ((op.y s).toNat : Int),
    ← hproduct]
  rcases op.isSize with hsize | hsize | hsize | hsize <;> rw [hsize] at hrange ⊢
  · have hvalue : opBfe 8 8 (ofInt 64 (op.product s)) = ofInt 64 (op.product s / 2 ^ 8) :=
      opBfe_high (.inl rfl) hrange.1 hrange.2
    exact ⟨_, rfl, op.leaves_unsigned hsize hsigned hrange (op.visible_byte (.inl h) hsize) le_rfl hvalue⟩
  · have hvalue : opBfe 16 16 (ofInt 64 (op.product s)) = ofInt 64 (op.product s / 2 ^ 16) :=
      opBfe_high (.inr (.inl rfl)) hrange.1 hrange.2
    refine ⟨_, rfl, op.leaves_unsigned hsize hsigned hrange
      (op.visible_wide (.inl h) hsize (.inl rfl) ?_) le_rfl hvalue⟩
    rw [show (bfe 16 16 (intNode (op.product s))).value = _ from hvalue, setWidth_ofInt (by decide)]
  · have hvalue : opBfe 32 32 (ofInt 64 (op.product s)) = ofInt 64 (op.product s / 2 ^ 32) :=
      opBfe_high (.inr (.inr rfl)) hrange.1 hrange.2
    have hgpr : gprSize is64BitMode ≤ 8 := by cases is64BitMode <;> decide
    exact ⟨_, rfl, op.leaves_unsigned hsize hsigned hrange (op.visible_half (.inl h) hsize (.inr rfl)) hgpr hvalue⟩
  · obtain rfl := op.size_mode hsize
    exact ⟨_, rfl, op.leaves_unsigned hsize hsigned hrange
      (op.visible_wide (.inl h) hsize (.inr rfl) (setWidth_eq _)) le_rfl rfl⟩

/-! ### Products of two operands -/

theorem storeDest (hi : op.instruction = .imul2 ∨ op.instruction = .imul3) (z : Int) :
    storeResult is64BitMode op.toDecodedInst s (intNode z) =
      some (@writeOperand is64BitMode op.toDecodedInst op.dest s s op.size (ofInt _ z)) := by
  have hgpr := op.dest_isGPR hi
  have hrm := op.dest_rm
  have hle := op.isSize.le
  unfold storeResult storeResultTo
  cases hdest : op.dest with
  | gpr high gpr =>
    rw [hdest] at hrm
    have hstore := @storeResult_rm is64BitMode op.toDecodedInst s op.size (.gpr high gpr) op.isSize op.size_mode hrm
      (.reg high gpr) rfl (intNode z) fun _ _ _ hne => absurd rfl hne
    rw [op.getDstSize_eq, hstore, intNode, setWidth_ofInt (by omega)]
    rfl
  | _ => rw [hdest] at hgpr; cases hgpr

variable {s} in
/-- The two handlers are one with other operands. -/
theorem follows_imulTo {first second : DecodedInst → DecodedOperand} (hi : op.instruction = .imul2 ∨ op.instruction = .imul3)
    (hhandler : op.instruction.handlerName.handler = imulTo first second)
    (hfirst : loadSource is64BitMode op.toDecodedInst s (first op.toDecodedInst) = some ⟨op.size, (op.x s).setWidth 64⟩)
    (hsecond : loadSource is64BitMode op.toDecodedInst s (second op.toDecodedInst) = some ⟨op.size, (op.y s).setWidth 64⟩) :
    op.FollowsX86 s := by
  have hsigned : op.instruction.isSigned = true := by rcases hi with h | h <;> rw [h] <;> rfl
  have hproduct : op.product s = (op.x s).toInt * (op.y s).toInt := by
    rw [product, MulDiv.number, MulDiv.number, if_pos hsigned, if_pos hsigned]
  have hrange := signed_product (by have := op.isSize.pos; omega) (op.x s) (op.y s)
  have hhigh := mulh_intNode (toInt_wide op.isSize (op.x s)) (toInt_wide op.isSize (op.y s))
  rw [← hproduct] at hrange hhigh
  have hflags := calculcateFlags_MUL_eq op.isSize hrange.1 hrange.2 hsigned
  have hexecuted (t : State) : op.executed t =
      @writeOperand is64BitMode op.toDecodedInst op.dest t t op.size (ofInt _ (op.product t)) := by
    unfold executed
    rcases hi with h | h <;> simp only [h]
  have hresultHigh : (if op.size < 8 then sbfe (op.size * 8) (op.size * 8) (intNode (op.product s))
      else intNode (op.product s / 2 ^ 64)) = intNode (op.product s / 2 ^ (8 * op.size)) := by
    by_cases hsize : op.size < 8
    · have hsmall : op.size = 1 ∨ op.size = 2 ∨ op.size = 4 := by
        have := op.isSize
        unfold IsSize at this
        omega
      rw [if_pos hsize, sbfe_high hsmall hrange.1 hrange.2]
    · rw [if_neg hsize, show op.size = 8 by have := op.isSize.le; omega]
  refine follows_of hhandler ?_
  unfold imulTo
  rw [hfirst, hsecond, op.getSrcSize_eq]
  simp only [bind_eq_bind, bind_some]
  rw [signed_source op.isSize, signed_source op.isSize, mul_intNode, ← hproduct, hhigh, hresultHigh, op.storeDest s hi]
  refine ⟨_, rfl, op.leaves_signed rfl (fun flags => ?_) hflags⟩
  have hgpr := op.dest_isGPR hi
  rw [hexecuted]
  cases hdest : op.dest with
  | gpr high gpr => rfl
  | _ => rw [hdest] at hgpr; cases hgpr

variable {s} in
theorem follows_imul2 (h : op.instruction = .imul2) : op.FollowsX86 s := by
  refine @follows_imulTo is64BitMode op s (·.dest) (·.src 0) (.inl h) (by rw [h]; rfl) ?_ ?_
  · rw [op.loadOperand s op.dest_rm]
    simp [x, h]
  · rw [op.loadOperand s (op.first_rm (.inl h))]
    simp [y, h]

variable {s} in
theorem follows_imul3 (h : op.instruction = .imul3) : op.FollowsX86 s := by
  refine @follows_imulTo is64BitMode op s (·.src 0) (·.src 1) (.inr h) (by rw [h]; rfl) ?_ ?_
  · rw [op.loadOperand s (op.first_rm (.inr h))]
    simp [x, h]
  · rw [op.loadLiteral s (op.second_literal h).1]
    simp [y, h]

/-! ### Quotients and remainders -/

theorem executed_pair (hi : op.instruction = .div ∨ op.instruction = .idiv) {size : Nat} (hsize : op.size = size)
    (hne : size ≠ 1) :
    op.executed s = @writePair is64BitMode s size (ofInt _ (op.quotient s)) (ofInt _ (op.remainder s)) := by
  subst hsize
  unfold executed
  rcases hi with hi | hi <;> simp only [hi, if_neg hne]

variable {s} in
theorem leaves_pair (hi : op.instruction = .div ∨ op.instruction = .idiv) {size k : Nat} (hsize : op.size = size)
    (hne : size ≠ 1) {n m : Node}
    (hn : shown is64BitMode (storeContext k n (s.cpu.gregs .rax)) =
      shown is64BitMode (writeReg is64BitMode false (ofInt (8 * size) (op.quotient s)) (s.cpu.gregs .rax)))
    (hm : shown is64BitMode (storeContext k m (s.cpu.gregs .rdx)) =
      shown is64BitMode (writeReg is64BitMode false (ofInt (8 * size) (op.remainder s)) (s.cpu.gregs .rdx))) :
    op.Leaves s ((s.storeGreg k n .rax).storeGreg k m .rdx) := by
  have hdivision : op.instruction.isDivision = true := by rcases hi with h | h <;> rw [h] <;> rfl
  refine ⟨?_, fun hproduct => absurd (hproduct.symm.trans hdivision) Bool.false_ne_true⟩
  rw [op.executed_pair _ hi hsize hne]
  exact visible_pair s _ hn hm

variable {s} in
theorem divideWide_leaves (hi : op.instruction = .div ∨ op.instruction = .idiv) (hne : op.size ≠ 1)
    {div rem : OpSize → BitVec 64 → BitVec 64 → BitVec 64 → Option (BitVec 64)}
    (hdiv : DividesLong op.instruction Int.tdiv div) (hrem : DividesLong op.instruction Int.tmod rem)
    (hdivisor : op.divisor s ≠ 0) :
    ∃ s', divideWide div rem is64BitMode s op.size ⟨op.size, (op.y s).setWidth 64⟩ = some s' ∧ op.Leaves s s' := by
  obtain ⟨n, hn, hquotient⟩ := divideLong_eq hdiv op.isSize hne (readReg op.size false (s.cpu.gregs .rax))
    (readReg op.size false (s.cpu.gregs .rdx)) (op.y s) hdivisor
  obtain ⟨m, hm, hremainder⟩ := divideLong_eq hrem op.isSize hne (readReg op.size false (s.cpu.gregs .rax))
    (readReg op.size false (s.cpu.gregs .rdx)) (op.y s) hdivisor
  have hdividend : op.instruction.number (readReg op.size false (s.cpu.gregs .rdx)) * 2 ^ (8 * op.size) +
      (readReg op.size false (s.cpu.gregs .rax)).toNat = op.dividend s := by
    unfold dividend
    rw [if_neg hne]
  rw [hdividend] at hquotient hremainder
  change _ = ofInt _ (op.quotient s) at hquotient
  change _ = ofInt _ (op.remainder s) at hremainder
  unfold divideWide
  dsimp only
  rw [op.loadAccumulator, op.loadAccumulator, hn]
  simp only [bind_eq_bind, bind_some, hm]
  rcases op.isSize with hsize | hsize | hsize | hsize
  · cases hne hsize
  · rw [hsize] at hquotient hremainder ⊢
    exact ⟨_, rfl, op.leaves_pair hi hsize (by decide) (congrArg _ (op.store_plain hsize (.inl rfl) hquotient _))
      (congrArg _ (op.store_plain hsize (.inl rfl) hremainder _))⟩
  · rw [hsize] at hquotient hremainder ⊢
    refine ⟨_, rfl, op.leaves_pair hi hsize (by decide) (shown_half (.inr rfl) _ ?_ _) (shown_half (.inr rfl) _ ?_ _)⟩
    · rw [← hquotient]
      exact opBfe_32 n.value
    · rw [← hremainder]
      exact opBfe_32 m.value
  · rw [hsize] at hquotient hremainder ⊢
    obtain rfl := op.size_mode hsize
    exact ⟨_, rfl, op.leaves_pair hi hsize (by decide) (congrArg _ (op.store_plain hsize (.inr rfl) hquotient _))
      (congrArg _ (op.store_plain hsize (.inr rfl) hremainder _))⟩

variable {s} in
theorem leaves_byte (hi : op.instruction = .div ∨ op.instruction = .idiv) (hsize : op.size = 1) {n m : Node}
    (hn : n.value = ofInt 64 (op.quotient s)) (hm : m.value = ofInt 64 (op.remainder s)) :
    op.Leaves s (storeAH (s.storeGreg 1 n .rax) m) := by
  have hdivision : op.instruction.isDivision = true := by rcases hi with h | h <;> rw [h] <;> rfl
  have hexecuted (t : State) : op.executed t =
      setGPR t .rax (@writeReg is64BitMode 1 true (ofInt _ (op.remainder t))
        (@writeReg is64BitMode 1 false (ofInt _ (op.quotient t)) (t.cpu.gregs .rax))) := by
    unfold executed
    rcases hi with hi | hi <;> simp only [hi, if_pos hsize]
  have hlow (old : BitVec 64) :
      storeContext 1 n old = @writeReg is64BitMode 1 false (ofInt _ (op.quotient s)) old := by
    rw [storeContext_writeReg (.inl rfl) (fun h => absurd h (by decide)) (fun h => absurd h (by decide)), hn,
      setWidth_ofInt (by decide)]
  have hhigh (old : BitVec 64) :
      storeGPR 1 true m old = @writeReg is64BitMode 1 true (ofInt _ (op.remainder s)) old := by
    rw [@storeGPR_high is64BitMode, hm, setWidth_ofInt (by decide)]
  have hstored : storeAH (s.storeGreg 1 n .rax) m =
      setGPR s .rax (storeGPR 1 true m (storeContext 1 n (s.cpu.gregs .rax))) := by
    unfold storeAH setGPR State.storeGreg
    dsimp only
    rw [Function.update_self, Function.update_idem]
  refine ⟨?_, fun hproduct => absurd (hproduct.symm.trans hdivision) Bool.false_ne_true⟩
  rw [hexecuted, hstored, hlow, hhigh]
  exact visible_stored s _ rfl

variable {s} in
theorem dividend_byte (hsize : op.size = 1) :
    op.dividend s = op.instruction.number (readReg 2 false (s.cpu.gregs .rax)) := if_pos hsize

theorem divisor_byte (hsize : op.size = 1) : ∃ y : BitVec (8 * 1), (op.y s).setWidth 64 = y.setWidth 64 ∧
    op.divisor s = op.instruction.number y := by
  unfold divisor
  generalize op.y s = y
  revert y
  rw [hsize]
  exact fun y => ⟨y, rfl, rfl⟩

variable {s} in
theorem follows_div (h : op.instruction = .div) (hdivides : op.Divides s) : op.FollowsX86 s := by
  have hdivisor : op.divisor s ≠ 0 := (hdivides (by rw [h]; rfl)).1
  have hy : op.y s = op.value s op.dest := by simp only [y, h]
  have hload := op.loadOperand s op.dest_rm
  rw [← hy] at hload
  refine @follows_of is64BitMode op s divOp (by rw [h]; rfl) ?_
  unfold divOp
  rw [hload]
  simp only [bind_eq_bind, bind_some, op.getSrcSize_eq]
  by_cases hsize : op.size = 1
  · obtain ⟨y, hvalue, hnumber⟩ := op.divisor_byte s hsize
    rw [hnumber, h] at hdivisor
    obtain ⟨n, hn, hquotient⟩ := unsigned_byte ofIntegers_udiv (readReg 2 false (s.cpu.gregs .rax)) y hdivisor
    obtain ⟨m, hm, hremainder⟩ := unsigned_byte ofIntegers_umod (readReg 2 false (s.cpu.gregs .rax)) y hdivisor
    rw [← h, ← hnumber, ← op.dividend_byte hsize] at hquotient hremainder
    rw [if_pos hsize, hvalue, hsize, show divide opUDiv (s.loadGreg 2 .rax) _ = some n from hn, bind_some,
      show divide opURem (s.loadGreg 2 .rax) _ = some m from hm]
    exact ⟨_, rfl, op.leaves_byte (.inl h) hsize hquotient hremainder⟩
  · rw [if_neg hsize]
    refine op.divideWide_leaves (.inl h) hsize ?_ ?_ hdivisor
    · rw [h]
      exact unsignedLongOp_divides ofIntegers_udiv
    · rw [h]
      exact unsignedLongOp_divides ofIntegers_umod

variable {s} in
theorem follows_idiv (h : op.instruction = .idiv) (hdivides : op.Divides s) : op.FollowsX86 s := by
  have hdivisor : op.divisor s ≠ 0 := (hdivides (by rw [h]; rfl)).1
  have hy : op.y s = op.value s op.dest := by simp only [y, h]
  have hload := op.loadOperand s op.dest_rm
  rw [← hy] at hload
  refine @follows_of is64BitMode op s idivOp (by rw [h]; rfl) ?_
  unfold idivOp
  rw [hload]
  simp only [bind_eq_bind, bind_some, op.getSrcSize_eq]
  by_cases hsize : op.size = 1
  · obtain ⟨y, hvalue, hnumber⟩ := op.divisor_byte s hsize
    rw [hnumber, h] at hdivisor
    obtain ⟨n, hn, hquotient⟩ := signed_byte ofIntegers_sdiv (readReg 2 false (s.cpu.gregs .rax)) y hdivisor
    obtain ⟨m, hm, hremainder⟩ := signed_byte ofIntegers_srem (readReg 2 false (s.cpu.gregs .rax)) y hdivisor
    rw [← h, ← hnumber, ← op.dividend_byte hsize] at hquotient hremainder
    rw [if_pos hsize, hvalue, hsize, show divide opDiv (sbfe 16 0 (s.loadGreg 2 .rax)) _ = some n from hn, bind_some,
      show divide opRem (sbfe 16 0 (s.loadGreg 2 .rax)) _ = some m from hm]
    exact ⟨_, rfl, op.leaves_byte (.inr h) hsize hquotient hremainder⟩
  · rw [if_neg hsize]
    refine op.divideWide_leaves (.inr h) hsize ?_ ?_ hdivisor
    · rw [h]
      exact signedLongOp_divides ofIntegers_sdiv
    · rw [h]
      exact signedLongOp_divides ofIntegers_srem

variable {s} in
theorem follows (hdivides : op.Divides s) : op.FollowsX86 s := by
  cases h : op.instruction with
  | mul => exact op.follows_mul h
  | imul => exact op.follows_imul h
  | imul2 => exact op.follows_imul2 h
  | imul3 => exact op.follows_imul3 h
  | div => exact op.follows_div h hdivides
  | idiv => exact op.follows_idiv h hdivides

end

end DecodedMulDiv

/-- The instructions of every size leave their products, quotients and remainders, and so does `mulx`. -/
theorem multiply_and_divide :
    (∀ (is64BitMode : Bool) (op : DecodedMulDiv is64BitMode) (s : State), op.Divides s → op.FollowsX86 s) ∧
      ∀ (is64BitMode : Bool) (op : DecodedBMI is64BitMode) (s : State), op.instruction = .mulx → op.FollowsX86 s :=
  ⟨fun _ op _ hdivides => op.follows hdivides, fun _ op s h => op.follows_mulx s h⟩

def divECX : DecodedMulDiv true where
  flags := 3#32 <<< 19 ||| 3#32 <<< 22
  pc := 0
  instSize := 2
  entry := 0
  op := ALU.opd 3 1 6
  dest := .gpr false .rcx
  src := fun _ => .nothing
  table := .primaryGroup
  instruction := .div
  size := 4
  ofOpcode_eq := by decide
  getSrcSize_eq := by decide
  getDstSize_eq := by decide
  isSize := isSize_four
  size_mode := mode_four
  size_byte := by decide
  dest_rm := ecx_rm
  dest_isGPR := by decide
  first_rm := fun h => by rcases h with h | h <;> cases h
  second_literal := fun h => by cases h

/-- `mulx eax, ebx, ecx`. -/
def mulxEAX : DecodedBMI true where
  flags := 3#32 <<< 19 ||| 3#32 <<< 22
  pc := 0
  instSize := 5
  entry := 0
  op := 0x7F6
  dest := .gpr false .rax
  src := fun i => if i = 0 then .gpr false .rbx else .gpr false .rcx
  table := .vex
  instruction := .mulx
  size := 4
  ofOpcode_eq := by decide
  getSrcSize_eq := by decide
  getDstSize_eq := by decide
  isSize := by decide
  size_mode := mode_four
  dest_isGPR := eax_gpr
  first_rm := ⟨rfl, by decide⟩
  first_isGPR := fun _ => rfl
  second_rm := fun _ => ecx_rm
  amount_literal := fun h => by cases h

/-- A dividend of seven, and seven in every other register too. -/
def sevens : State where
  cpu := ⟨fun gpr => if gpr = .rdx then 0 else 7, fun _ => 0, fun _ => 0⟩
  flags := ⟨false, false, false, false, false, false⟩
  df := false
  deferred := none
  mem := fun _ => 0

theorem divECX_mulxEAX_follow : divECX.FollowsX86 sevens ∧ mulxEAX.FollowsX86 sevens :=
  ⟨multiply_and_divide.1 true divECX sevens fun _ => ⟨by decide, by decide⟩,
    multiply_and_divide.2 true mulxEAX sevens rfl⟩

end FexEmu.OpcodeDispatcher.Integer
