import FexEmu.OpcodeDispatcher.ArithmeticFlags
import FexEmu.OpcodeDispatcher.IntegerOperands
/-!
# Flags of sums, differences and logic

The `CalculcateFlags` functions of sums, differences and logic calculate the flags of the architecture.
-/
namespace FexEmu.OpcodeDispatcher.Integer

open Interpreter
open Address (Node)
open StringOps (ALUFlags rflag)
open BitVec (toNat_inj add_assoc toNat_add)

section
variable (srcSize : Nat) (res src1 src2 : Node)

def calculatedAF : Bool := rflag (bfe 1 4 (xor (xor src1 src2) res))

def calculatedSF : Bool := rflag (lshr res (const (BitVec.ofNat 64 (srcSize * 8 - 1))))

def calculatedPF : Bool := rflag (xor (popcount (and res (const 0xFF))) (const 1))

def calculatedZF : Bool := rflag (select .EQ res (const 0) (const 1) (const 0))

/-- The overflow of a sum. -/
def calculatedOFAdd : Bool :=
  rflag (bfe 1 (srcSize * 8 - 1) (and (xor (xor src1 src2) (const (~~~0#64))) (xor res src1)))

/-- The overflow of a difference. -/
def calculatedOFSub : Bool := rflag (bfe 1 (srcSize * 8 - 1) (and (xor src1 src2) (xor res src1)))

/-! ## The functions -/

def calculcateFlags_ADC (cf : Node) : ALUFlags where
  af := calculatedAF res src1 src2
  sf := calculatedSF srcSize res
  pf := calculatedPF res
  zf := calculatedZF res
  cf := rflag (select .EQ cf (const 1) (select .ULE res src2 (const 1) (const 0)) (select .ULT res src2 (const 1) (const 0)))
  of := calculatedOFAdd srcSize res src1 src2

def calculcateFlags_SBB (cf : Node) : ALUFlags where
  af := calculatedAF res src1 src2
  sf := calculatedSF srcSize res
  pf := calculatedPF res
  zf := calculatedZF res
  cf := rflag (select .EQ cf (const 1) (select .UGE res src1 (const 1) (const 0)) (select .UGT res src1 (const 1) (const 0)))
  of := calculatedOFSub srcSize res src1 src2

def calculcateFlags_SUB (updateCF : Bool) (old : ALUFlags) : ALUFlags where
  af := calculatedAF res src1 src2
  sf := calculatedSF srcSize res
  pf := calculatedPF res
  zf := calculatedZF res
  cf := if updateCF then rflag (select .ULT src1 src2 (const 1) (const 0)) else old.cf
  of := calculatedOFSub srcSize res src1 src2

def calculcateFlags_ADD (updateCF : Bool) (old : ALUFlags) : ALUFlags where
  af := calculatedAF res src1 src2
  sf := calculatedSF srcSize res
  pf := calculatedPF res
  zf := calculatedZF res
  cf := if updateCF then rflag (select .ULT res src2 (const 1) (const 0)) else old.cf
  of := calculatedOFAdd srcSize res src1 src2

def calculcateFlags_Logical : ALUFlags where
  af := rflag (const 0)
  sf := calculatedSF srcSize res
  pf := calculatedPF res
  zf := calculatedZF res
  cf := rflag (const 0)
  of := rflag (const 0)

end

/-! ## Nodes that hold a number -/

section
variable {w : Nat} {n : Node} {x y r : BitVec w} {c : Bool}

/-- A node with nothing above the number. -/
structure Holds (n : Node) (x : BitVec w) : Prop where
  size : IsSize n.size
  le : w ≤ 8 * n.size
  value : n.value = x.setWidth 64

/-- A node with the number in its low bits, which is zero only if the number is. -/
structure Carries (n : Node) (x : BitVec w) : Prop where
  size : IsSize n.size
  le : w ≤ 8 * n.size
  low : n.value.setWidth w = x
  zero : n.value = 0 ↔ x = 0

theorem Holds.le_64 (h : Holds n x) : w ≤ 64 := by
  have := h.le
  have := h.size.le
  omega

theorem Holds.carries (h : Holds n x) : Carries n x where
  size := h.size
  le := h.le
  low := by rw [h.value, BitVec.setWidth_setWidth_of_le _ h.le_64, BitVec.setWidth_eq]
  zero := by rw [h.value, setWidth_eq_zero h.le_64]

theorem Carries.le_64 (h : Carries n x) : w ≤ 64 := by
  have := h.le
  have := h.size.le
  omega

theorem Carries.bit (h : Carries n x) {i : Nat} (hi : i < w) : n.value.getLsbD i = x.getLsbD i := by
  rw [← h.low, BitVec.getLsbD_setWidth, decide_eq_true hi, Bool.true_and]

theorem Carries.msb (h : Carries n x) (hw : 0 < w) : n.value.getLsbD (w - 1) = x.msb := by
  rw [h.bit (by omega), BitVec.msb_eq_getLsbD_last]

/-! ## Single flags -/

theorem calculatedSF_eq {srcSize : Nat} (hw : w = 8 * srcSize) (hpos : 0 < srcSize) (h : Carries n x) :
    calculatedSF srcSize n = x.msb := by
  have hle := h.le
  unfold calculatedSF rflag
  rw [lshr_bit h.size (by omega), Nat.add_zero, ← h.msb (by omega), hw, Nat.mul_comm]

theorem calculatedZF_eq (h : Carries n x) : calculatedZF n = decide (x = 0) := by
  have hsize : atLeast4 n (const 0) = 8 := by
    have := h.size.le
    unfold atLeast4
    rw [const_size]
    omega
  unfold calculatedZF rflag
  rw [select_bit, if_neg (by omega)]
  exact decide_eq_decide.2 h.zero

theorem not_getLsbD_zero (c : BitVec 64) : (!c.getLsbD 0) = decide (c.toNat % 2 = 0) := by
  rw [BitVec.getLsbD, Nat.testBit_zero]
  rcases Nat.mod_two_eq_zero_or_one c.toNat with h | h <;> rw [h] <;> rfl

theorem calculatedPF_eq (hw : 8 ≤ w) (h : Carries n x) : calculatedPF n = parity x := by
  have hand : (and n (const 0xFF)).value = (x.setWidth 8).setWidth 64 := by
    have hmask : ∀ i < 64, (0xFF : BitVec 64).getLsbD i = decide (i < 8) := by decide
    apply BitVec.eq_of_getLsbD_eq
    intro i hi
    rw [and_bit h.size isSize_eight (by rw [const_size]; omega), const_value, hmask i hi]
    by_cases hlt : i < 8
    · rw [h.bit (by omega)]
      simp [hi, hlt]
    · simp [hlt]
  have hcount := BitVec.toNat_cpop_setWidth_eq_of_le (by decide : 8 ≤ 64) (x := x.setWidth 8)
  have hsize : IsSize (popcount (and n (const 0xFF))).size := h.size.max isSize_eight
  unfold calculatedPF rflag parity
  rw [xor_bit hsize isSize_eight (by rw [const_size]; omega), const_value]
  change (_ ^^ true) = _
  rw [Bool.xor_true, not_getLsbD_zero]
  unfold popcount opPopcount
  rw [hand, hcount]

theorem xor3_bit {a b d : Node} (ha : IsSize a.size) (hb : IsSize b.size) (hd : IsSize d.size) {i : Nat}
    (hi : i < 8 * max a.size b.size) :
    (xor (xor a b) d).value.getLsbD i = ((a.value.getLsbD i ^^ b.value.getLsbD i) ^^ d.value.getLsbD i) := by
  rw [xor_bit (ha.max hb) hd (by rw [xor_size]; omega), xor_bit ha hb hi]

theorem rflag_bfe (lsb : Nat) (h : lsb < 64) : rflag (bfe 1 lsb n) = n.value.getLsbD lsb := by
  unfold rflag
  rw [bfe_bit, Nat.mod_eq_of_lt h]
  rfl

theorem carry_toNat (hw : 0 < w) (c : Bool) : (carry w c).toNat = c.toNat := by
  have hone := Nat.one_lt_two_pow (n := w) (by omega)
  have : c.toNat < 2 ^ w := by
    cases c
    · exact Nat.zero_lt_of_lt hone
    · exact hone
  rw [carry, BitVec.toNat_ofNat, Nat.mod_eq_of_lt this]

theorem carry_eq (c : Bool) : carry w c = (BitVec.ofBool c).setWidth w := by
  apply BitVec.eq_of_toNat_eq
  cases c <;> simp [carry]

theorem carry_four (hw : 8 ≤ w) :
    ((x.getLsbD 4 ^^ y.getLsbD 4) ^^ (x + y + carry w c).getLsbD 4) =
      decide (16 ≤ x.toNat % 16 + y.toNat % 16 + c.toNat) := by
  rw [carry_eq, BitVec.getLsbD_add_add_bool (by omega)]
  unfold BitVec.carry
  cases x.getLsbD 4 <;> cases y.getLsbD 4 <;> simp

theorem sub_add_cancel : x - y - carry w c + y + carry w c = x := by
  rw [add_assoc, BitVec.add_comm y, ← add_assoc, BitVec.sub_add_cancel, BitVec.sub_add_cancel]

theorem borrow_four (hw : 8 ≤ w) :
    ((x.getLsbD 4 ^^ y.getLsbD 4) ^^ (x - y - carry w c).getLsbD 4) =
      decide (x.toNat % 16 < y.toNat % 16 + c.toNat) := by
  have hcarry := @carry_four w (x - y - carry w c) y c hw
  have hmod : (x - y - carry w c + y + carry w c).toNat % 16 = ((x - y - carry w c).toNat + y.toNat + c.toNat) % 16 := by
    have hdvd : 16 ∣ 2 ^ w := Nat.pow_dvd_pow 2 (show 4 ≤ w by omega)
    rw [toNat_add, toNat_add, carry_toNat (by omega), Nat.mod_mod_of_dvd _ hdvd, Nat.add_mod,
      Nat.mod_mod_of_dvd _ hdvd, ← Nat.add_mod]
  rw [sub_add_cancel] at hcarry hmod
  have hiff : (16 ≤ (x - y - carry w c).toNat % 16 + y.toNat % 16 + c.toNat) ↔ x.toNat % 16 < y.toNat % 16 + c.toNat := by
    omega
  rw [← decide_eq_decide.2 hiff, ← hcarry]
  cases x.getLsbD 4 <;> cases y.getLsbD 4 <;> cases (x - y - carry w c).getLsbD 4 <;> rfl

theorem overflow_add (hw : 0 < w) :
    ((!(x.msb ^^ y.msb)) && ((x + y + carry w c).msb ^^ x.msb)) =
      decide ((x + y + carry w c).toInt ≠ x.toInt + y.toInt + c.toNat) := by
  have hpow : 2 ^ w = 2 * 2 ^ (w - 1) := by
    rw [← Nat.pow_succ', Nat.succ_eq_add_one, Nat.sub_add_cancel hw]
  have hx := x.isLt
  have hy := y.isLt
  have hc := c.toNat_le
  have hr := (x + y + carry w c).isLt
  have hsum : (x + y + carry w c).toNat = x.toNat + y.toNat + c.toNat ∨
      (x + y + carry w c).toNat + 2 ^ w = x.toNat + y.toNat + c.toNat := by
    rw [toNat_add, toNat_add, carry_toNat hw, Nat.mod_add_mod]
    rcases Nat.lt_or_ge (x.toNat + y.toNat + c.toNat) (2 ^ w) with hlt | hge
    · left
      exact Nat.mod_eq_of_lt hlt
    · right
      rw [Nat.mod_eq_sub_mod hge, Nat.mod_eq_of_lt (by omega)]
      omega
  simp only [BitVec.toInt_eq_msb_cond, BitVec.msb_eq_decide]
  generalize (x + y + carry w c).toNat = r at *
  generalize 2 ^ w = n at *
  generalize 2 ^ (w - 1) = p at *
  by_cases h1 : p ≤ x.toNat <;> by_cases h2 : p ≤ y.toNat <;> by_cases h3 : p ≤ r <;> simp [h1, h2, h3] <;> omega

theorem overflow_sub (hw : 0 < w) :
    ((x.msb ^^ y.msb) && ((x - y - carry w c).msb ^^ x.msb)) =
      decide ((x - y - carry w c).toInt ≠ x.toInt - y.toInt - c.toNat) := by
  have hadd := @overflow_add w (x - y - carry w c) y c hw
  rw [sub_add_cancel] at hadd
  have hiff : (x.toInt ≠ (x - y - carry w c).toInt + y.toInt + c.toNat) ↔
      (x - y - carry w c).toInt ≠ x.toInt - y.toInt - c.toNat := by
    omega
  rw [← decide_eq_decide.2 hiff, ← hadd]
  cases x.msb <;> cases y.msb <;> cases (x - y - carry w c).msb <;> rfl

theorem carry_out (hw : 0 < w) :
    (if c then decide ((x + y + carry w c).toNat ≤ y.toNat) else decide ((x + y + carry w c).toNat < y.toNat)) =
      decide (2 ^ w ≤ x.toNat + y.toNat + c.toNat) := by
  rw [toNat_add, toNat_add, carry_toNat hw, Nat.mod_add_mod]
  rcases Nat.lt_or_ge (x.toNat + y.toNat + c.toNat) (2 ^ w) with hlt | hge
  · rw [Nat.mod_eq_of_lt hlt]
    cases c <;> simp at * <;> omega
  · have hmod := Nat.mod_eq_sub_mod hge
    have := c.toNat_le
    rw [hmod, Nat.mod_eq_of_lt (by omega)]
    cases c <;> simp at * <;> omega

theorem borrow_out (hw : 0 < w) :
    (if c then decide (x.toNat ≤ (x - y - carry w c).toNat) else decide (x.toNat < (x - y - carry w c).toNat)) =
      decide (x.toNat < y.toNat + c.toNat) := by
  have hr := (x - y - carry w c).isLt
  have hsum := congrArg BitVec.toNat (@sub_add_cancel w x y c)
  rw [toNat_add, toNat_add, carry_toNat hw, Nat.mod_add_mod] at hsum
  generalize (x - y - carry w c).toNat = r at *
  rcases Nat.lt_or_ge (r + y.toNat + c.toNat) (2 ^ w) with hlt | hge
  · rw [Nat.mod_eq_of_lt hlt] at hsum
    cases c <;> simp at * <;> omega
  · have hmod := Nat.mod_eq_sub_mod hge
    have := c.toNat_le
    rw [hmod, Nat.mod_eq_of_lt (by omega)] at hsum
    cases c <;> simp at * <;> omega

/-! ## Flags of two sources -/

section
variable {srcSize : Nat} {res src1 src2 : Node}

theorem calculatedAF_eq (hw : 8 ≤ w) (h1 : Carries src1 x) (h2 : Carries src2 y) (hr : Carries res r) :
    calculatedAF res src1 src2 = ((x.getLsbD 4 ^^ y.getLsbD 4) ^^ r.getLsbD 4) := by
  have := h1.size.pos
  unfold calculatedAF
  rw [rflag_bfe 4 (by omega), xor3_bit h1.size h2.size hr.size (by omega), h1.bit (by omega), h2.bit (by omega),
    hr.bit (by omega)]

theorem calculatedOFAdd_eq (hw : w = 8 * srcSize) (hpos : 0 < srcSize) (h1 : Carries src1 x) (h2 : Carries src2 y)
    (hr : Carries res r) : calculatedOFAdd srcSize res src1 src2 = ((!(x.msb ^^ y.msb)) && (r.msb ^^ x.msb)) := by
  have hle2 := h2.le
  have hler := hr.le
  have h64 := h1.le_64
  have hnot : (~~~0#64).getLsbD (w - 1) = true := by
    rw [BitVec.getLsbD_not, BitVec.getLsbD_zero]
    simp
    omega
  unfold calculatedOFAdd
  rw [rflag_bfe _ (by omega), show srcSize * 8 - 1 = w - 1 by omega,
    and_bit ((h1.size.max h2.size).max isSize_eight) (hr.size.max h1.size) (by simp only [xor_size]; omega),
    xor3_bit h1.size h2.size isSize_eight (by omega), xor_bit hr.size h1.size (by omega), h1.msb (by omega),
    h2.msb (by omega), hr.msb (by omega), const_value, hnot, Bool.xor_true]

theorem calculatedOFSub_eq (hw : w = 8 * srcSize) (hpos : 0 < srcSize) (h1 : Carries src1 x) (h2 : Carries src2 y)
    (hr : Carries res r) : calculatedOFSub srcSize res src1 src2 = ((x.msb ^^ y.msb) && (r.msb ^^ x.msb)) := by
  have hle2 := h2.le
  have hler := hr.le
  have h64 := h1.le_64
  unfold calculatedOFSub
  rw [rflag_bfe _ (by omega), show srcSize * 8 - 1 = w - 1 by omega,
    and_bit (h1.size.max h2.size) (hr.size.max h1.size) (by simp only [xor_size]; omega), xor_bit h1.size h2.size (by omega),
    xor_bit hr.size h1.size (by omega), h1.msb (by omega), h2.msb (by omega), hr.msb (by omega)]

theorem select_holds {a b : Node} (ha : Holds a x) (hb : Holds b y) (cond : CondClass)
    (hcond : ∀ {n m : Nat} (a b : BitVec n) (a' b' : BitVec m), a.toNat = a'.toNat → b.toNat = b'.toNat →
      isConditionTrue a b cond = isConditionTrue a' b' cond) :
    rflag (select cond a b (const 1) (const 0)) = isConditionTrue x y cond := by
  have h64 := ha.le_64
  unfold rflag
  rw [select_bit, ha.value, hb.value]
  split_ifs with hsize
  · have hle : w ≤ 32 := by
      have := ha.le
      unfold atLeast4 at hsize
      omega
    apply hcond <;> rw [BitVec.setWidth_setWidth_of_le _ (by decide), BitVec.toNat_setWidth_of_le hle]
  · apply hcond <;> rw [BitVec.toNat_setWidth_of_le h64]

theorem select_carry {t f : Node} (ht : IsSize t.size) (hf : IsSize f.size) (c : Bool) :
    rflag (select .EQ (StringOps.loadFlag c) (const 1) t f) = if c then rflag t else rflag f := by
  have hcond : (if atLeast4 (StringOps.loadFlag c) (const 1) = 4 then
      isConditionTrue ((StringOps.loadFlag c).value.setWidth 32) ((const 1).value.setWidth 32) .EQ
      else isConditionTrue (StringOps.loadFlag c).value (const 1).value .EQ) = c := by
    cases c <;> rfl
  unfold rflag select opSelect
  simp only [hcond]
  rcases atLeast4_eq ht hf with h | h <;> rw [h] <;> cases c <;> simp [emit, opSize, zext]

/-! ## The functions calculate the flags of the architecture -/

theorem calculcateFlags_ADC_eq (hw : w = 8 * srcSize) (hpos : 0 < srcSize) (h1 : Holds src1 x) (h2 : Holds src2 y)
    (hr : Holds res (x + y + carry w c)) :
    calculcateFlags_ADC srcSize res src1 src2 (StringOps.loadFlag c) = addFlags x y c := by
  have hle := select_holds hr h2 .ULE fun _ _ _ _ h h' => by simp only [isConditionTrue, h, h']
  have hlt := select_holds hr h2 .ULT fun _ _ _ _ h h' => by simp only [isConditionTrue, h, h']
  unfold calculcateFlags_ADC addFlags resultFlags
  rw [calculatedAF_eq (by omega) h1.carries h2.carries hr.carries, carry_four (by omega),
    calculatedSF_eq hw hpos hr.carries, calculatedPF_eq (by omega) hr.carries, calculatedZF_eq hr.carries,
    calculatedOFAdd_eq hw hpos h1.carries h2.carries hr.carries, overflow_add (by omega),
    select_carry isSize_eight isSize_eight, hle, hlt, ← carry_out (by omega)]
  rfl

theorem calculcateFlags_SBB_eq (hw : w = 8 * srcSize) (hpos : 0 < srcSize) (h1 : Holds src1 x) (h2 : Holds src2 y)
    (hr : Holds res (x - y - carry w c)) :
    calculcateFlags_SBB srcSize res src1 src2 (StringOps.loadFlag c) = subFlags x y c := by
  have hge := select_holds hr h1 .UGE fun _ _ _ _ h h' => by simp only [isConditionTrue, h, h']
  have hgt := select_holds hr h1 .UGT fun _ _ _ _ h h' => by simp only [isConditionTrue, h, h']
  unfold calculcateFlags_SBB subFlags resultFlags
  rw [calculatedAF_eq (by omega) h1.carries h2.carries hr.carries, borrow_four (by omega),
    calculatedSF_eq hw hpos hr.carries, calculatedPF_eq (by omega) hr.carries, calculatedZF_eq hr.carries,
    calculatedOFSub_eq hw hpos h1.carries h2.carries hr.carries, overflow_sub (by omega),
    select_carry isSize_eight isSize_eight, hge, hgt, ← borrow_out (by omega)]
  rfl

/-- Flags with the old carry, unless it is updated. -/
def keepCF (updateCF : Bool) (old flags : ALUFlags) : ALUFlags :=
  { flags with cf := if updateCF then flags.cf else old.cf }

theorem calculcateFlags_ADD_eq (hw : w = 8 * srcSize) (hpos : 0 < srcSize) (h1 : Holds src1 x) (h2 : Holds src2 y)
    (hr : Holds res (x + y)) (updateCF : Bool) (old : ALUFlags) :
    calculcateFlags_ADD srcSize res src1 src2 updateCF old = keepCF updateCF old (addFlags x y false) := by
  have hsum : x + y + carry w false = x + y := BitVec.add_zero _
  have hlt := select_holds hr h2 .ULT fun _ _ _ _ h h' => by simp only [isConditionTrue, h, h']
  have hcf := @carry_out w x y false (by omega)
  have haf := @carry_four w x y false (by omega)
  have hof := @overflow_add w x y false (by omega)
  rw [hsum] at hcf haf hof
  unfold calculcateFlags_ADD addFlags resultFlags keepCF
  rw [hsum, calculatedAF_eq (by omega) h1.carries h2.carries hr.carries, haf, calculatedSF_eq hw hpos hr.carries,
    calculatedPF_eq (by omega) hr.carries, calculatedZF_eq hr.carries,
    calculatedOFAdd_eq hw hpos h1.carries h2.carries hr.carries, hof, hlt, ← hcf]
  rfl

theorem calculcateFlags_SUB_eq (hw : w = 8 * srcSize) (hpos : 0 < srcSize) (h1 : Holds src1 x) (h2 : Holds src2 y)
    (hr : Carries res (x - y)) (updateCF : Bool) (old : ALUFlags) :
    calculcateFlags_SUB srcSize res src1 src2 updateCF old = keepCF updateCF old (subFlags x y false) := by
  have hdiff : x - y - carry w false = x - y := BitVec.sub_zero _
  have hlt := select_holds h1 h2 .ULT fun _ _ _ _ h h' => by simp only [isConditionTrue, h, h']
  have haf := @borrow_four w x y false (by omega)
  have hof := @overflow_sub w x y false (by omega)
  rw [hdiff] at haf hof
  unfold calculcateFlags_SUB subFlags resultFlags keepCF
  rw [hdiff, calculatedAF_eq (by omega) h1.carries h2.carries hr, haf, calculatedSF_eq hw hpos hr,
    calculatedPF_eq (by omega) hr, calculatedZF_eq hr, calculatedOFSub_eq hw hpos h1.carries h2.carries hr, hof, hlt]
  rfl

theorem calculcateFlags_Logical_eq (hw : w = 8 * srcSize) (hpos : 0 < srcSize) (hr : Holds res r) :
    calculcateFlags_Logical srcSize res = logicFlags r := by
  unfold calculcateFlags_Logical logicFlags resultFlags
  rw [calculatedSF_eq hw hpos hr.carries, calculatedPF_eq (by omega) hr.carries, calculatedZF_eq hr.carries]
  rfl

end

end

end FexEmu.OpcodeDispatcher.Integer
