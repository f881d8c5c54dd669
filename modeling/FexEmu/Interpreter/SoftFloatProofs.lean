import FexEmu.Interpreter.SoftFloat
/-!
# The conversions are exact

A number of 64 bits becomes its canonical encoding, a canonical encoding is rounded to itself and becomes the number again.
-/
namespace FexEmu.SoftFloat

open ExtendedFloat
open BitVec (toNat_shiftLeft eq_of_getLsbD_eq getLsbD_and getLsbD_or getLsbD_setWidth eq_of_toNat_eq toNat_ofNat)

/-! ## Words -/

section Words
variable {d : Nat} {x : BitVec 64}

theorem toNat_one_shift (hd : d < 64) : (1#64 <<< d).toNat = 2 ^ d := by
  have hpow : 2 ^ d < 2 ^ 64 := Nat.pow_lt_pow_right (by decide) hd
  have hone : (1#64).toNat = 1 := rfl
  rw [toNat_shiftLeft, Nat.shiftLeft_eq, hone, Nat.one_mul, Nat.mod_eq_of_lt hpow]

theorem toNat_low_mask (hd : d < 64) : (1#64 <<< d - 1).toNat = 2 ^ d - 1 := by
  have hpos := Nat.two_pow_pos d
  have hone : (1 : BitVec 64).toNat = 1 := rfl
  rw [BitVec.toNat_sub_of_le, toNat_one_shift hd, hone]
  rw [BitVec.le_def, toNat_one_shift hd, hone]
  exact hpos

theorem low_mask_bit (hd : d < 64) (i : Nat) : (1#64 <<< d - 1).getLsbD i = decide (i < d) := by
  rw [BitVec.getLsbD, toNat_low_mask hd, Nat.testBit_two_pow_sub_one]

theorem small_bit (hx : x.toNat < 2 ^ d) {i : Nat} (hi : d ≤ i) : x.getLsbD i = false :=
  Nat.testBit_lt_two_pow (Nat.lt_of_lt_of_le hx (Nat.pow_le_pow_right (by decide) hi))

theorem shifted_add (y : BitVec 64) (hx : x.toNat < 2 ^ d) : y <<< d + x = y <<< d ||| x := by
  apply BitVec.add_eq_or_of_and_eq_zero
  apply eq_of_getLsbD_eq
  intro i hi
  by_cases h : i < d
  · simp [h, hi]
  · rw [getLsbD_and, small_bit hx (Nat.le_of_not_lt h)]
    simp

theorem shifted_high (y : BitVec 64) (hd : d < 64) (hx : x.toNat < 2 ^ d) :
    (y <<< d + x) &&& ~~~(1#64 <<< d - 1) = y <<< d := by
  rw [shifted_add y hx]
  apply eq_of_getLsbD_eq
  intro i hi
  rw [getLsbD_and, BitVec.getLsbD_not, low_mask_bit hd i, getLsbD_or]
  by_cases h : i < d
  · simp [h]
  · rw [small_bit hx (Nat.le_of_not_lt h)]
    simp [hi, h]

theorem shifted_low (y : BitVec 64) (hd : d < 64) (hx : x.toNat < 2 ^ d) :
    (y <<< d + x) &&& (1#64 <<< d - 1) = x := by
  rw [shifted_add y hx]
  apply eq_of_getLsbD_eq
  intro i hi
  rw [getLsbD_and, low_mask_bit hd i, getLsbD_or]
  by_cases h : i < d
  · simp [h]
  · rw [small_bit hx (Nat.le_of_not_lt h)]
    simp [h]

theorem half_toNat (h0 : 0 < d) (hd : d < 64) : (1#64 <<< d >>> 1).toNat = 2 ^ (d - 1) := by
  obtain ⟨k, rfl⟩ : ∃ k, d = k + 1 := ⟨d - 1, by omega⟩
  rw [BitVec.toNat_ushiftRight, toNat_one_shift hd, Nat.shiftRight_eq_div_pow, Nat.pow_succ]
  exact Nat.mul_div_cancel _ (by decide)

theorem addRounding_shifted (mode : RoundingMode) (sign : Bool) (y : BitVec 64) (h0 : 0 < d) (hd : d < 64) :
    addRounding mode sign (y <<< d) (1#64 <<< d) &&& ~~~(1#64 <<< d - 1) = y <<< d := by
  have hpow := Nat.two_pow_pos d
  have hhalf := half_toNat h0 hd
  have hmask := toNat_low_mask hd
  have htwo : 2 ^ (d - 1) < 2 ^ d := Nat.pow_lt_pow_right (by decide) (by omega)
  have hall : y <<< d + (1#64 <<< d - 1) &&& ~~~(1#64 <<< d - 1) = y <<< d := shifted_high y hd (by omega)
  have hnone : y <<< d &&& ~~~(1#64 <<< d - 1) = y <<< d := by
    simpa using shifted_high y hd (x := 0) hpow
  have hsome : y <<< d + (1#64 <<< d >>> 1) &&& ~~~(1#64 <<< d - 1) = y <<< d := shifted_high y hd (by omega)
  cases mode with
  | near_even =>
    -- the bits that are rounded off are the half, which is no tie
    have hlow : y <<< d + (1#64 <<< d >>> 1) &&& (1#64 <<< d - (1 : BitVec 64)) = 1#64 <<< d >>> 1 :=
      shifted_low y hd (by omega)
    have hne : ¬ 1#64 <<< d >>> 1 = 0 := by
      intro hz
      have := Nat.two_pow_pos (d - 1)
      rw [← hhalf, hz] at this
      exact absurd this (by decide)
    rw [addRounding]
    rw [hlow, if_neg hne]
    exact hsome
  | near_maxMag => exact hsome
  | minMag => exact hnone
  | min =>
    cases sign
    · exact hnone
    · exact hall
  | max =>
    cases sign
    · exact hall
    · exact hnone

theorem shiftRightJam64Extra_shifted {y : BitVec 64} (h0 : 0 < d) (hd : d < 64) (hy : y.toNat < 2 ^ (64 - d)) :
    shiftRightJam64Extra (y <<< d) 0 d = (y, 0) := by
  have hback : y <<< d >>> d = y := by
    apply eq_of_getLsbD_eq
    intro i hi
    by_cases h : i < 64 - d
    · simp [show d + i < 64 by omega, BitVec.getLsbD_eq_getElem hi]
    · rw [small_bit hy (Nat.le_of_not_lt h), BitVec.getLsbD_ushiftRight, BitVec.getLsbD_of_ge _ (d + i) (by omega)]
  have hlost : y <<< d <<< ((64 - d) % 64) = 0 := by
    apply eq_of_getLsbD_eq
    intro i hi
    rw [Nat.mod_eq_of_lt (by omega)]
    by_cases h : i < 64 - d
    · simp [h]
    · simp [show i - (64 - d) < d by omega]
  rw [shiftRightJam64Extra, if_pos hd, hback, hlost]
  simp

end Words

/-! ## The word of the exponent and the sign -/

section SignExp
variable (x : X80SoftFloat) (v : BitVec 16)

theorem signExp_bit {i : Nat} (hi : i < 15) : (toExtFloat80 x).signExp.getLsbD i = x.exponent.getLsbD i := by
  simp [toExtFloat80, hi, show i < 16 by omega]

theorem signExp_sign : (toExtFloat80 x).signExp.getLsbD 15 = x.sign := by
  simp [toExtFloat80]

theorem low_fifteen : (v &&& 0x7FFF).setWidth 15 = v.setWidth 15 := by
  have hmask : ∀ i < 15, (0x7FFF#16).getLsbD i = true := by decide
  apply eq_of_getLsbD_eq
  intro i hi
  rw [getLsbD_setWidth, getLsbD_setWidth, getLsbD_and]
  have hbit : (0x7FFF : BitVec 16).getLsbD i = true := hmask i hi
  rw [hbit, Bool.and_true]

theorem ofExtFloat80_toExtFloat80 : ofExtFloat80 (toExtFloat80 x) = x := by
  have hexp : ((toExtFloat80 x).signExp &&& 0x7FFF).setWidth 15 = x.exponent := by
    rw [low_fifteen]
    apply eq_of_getLsbD_eq
    intro i hi
    rw [getLsbD_setWidth, signExp_bit x hi]
    simp [hi]
  rw [ofExtFloat80, hexp, signExp_sign]
  rfl

theorem expExtF80UI64_eq : expExtF80UI64 (toExtFloat80 x).signExp = x.exponent.toNat := by
  have hexp : ((toExtFloat80 x).signExp &&& 0x7FFF).setWidth 15 = x.exponent :=
    congrArg ExtendedFloat.exponent (ofExtFloat80_toExtFloat80 x)
  have hlow : ((toExtFloat80 x).signExp &&& 0x7FFF).toNat < 2 ^ 15 := by
    exact Nat.and_lt_two_pow _ (by decide)
  rw [expExtF80UI64, ← hexp, BitVec.toNat_setWidth, Nat.mod_eq_of_lt hlow]

theorem signExp_split : (v &&& 0x8000) ||| BitVec.ofInt 16 (expExtF80UI64 v) = v := by
  rw [expExtF80UI64, BitVec.ofInt_natCast, BitVec.ofNat_toNat, BitVec.setWidth_eq, ← BitVec.and_or_distrib_left]
  exact BitVec.and_allOnes

end SignExp

/-! ## The conversions -/

theorem clz_eq {a : BitVec 64} (h : a ≠ 0) : a.clz.toNat = 63 - a.toNat.log2 := by
  have hle : a.clz.toNat < 64 := BitVec.clz_lt_iff_ne_zero.mpr h
  have hlow := BitVec.two_pow_sub_clz_le_toNat_of_ne_zero (by decide) h
  have hup := BitVec.toNat_lt_two_pow_sub_clz (x := a)
  have h0 : a.toNat ≠ 0 := fun h0 => h (eq_of_toNat_eq h0)
  have hlog : a.toNat.log2 = 63 - a.clz.toNat := by
    rw [Nat.log2_eq_iff h0]
    refine ⟨?_, ?_⟩
    · exact hlow
    · rwa [show 63 - a.clz.toNat + 1 = 64 - a.clz.toNat by omega]
  omega

theorem ofUInt64_eq (a : BitVec 64) : ofUInt64 a = ofNat false a.toNat := by
  unfold ofUInt64 ui64ToExtF80 ofExtFloat80 ofNat
  by_cases h : a = 0
  · subst h
    rfl
  · have h0 : a.toNat ≠ 0 := fun h0 => h (eq_of_toNat_eq h0)
    have hlog := (log2_bounds h0 a.isLt).1
    have hsig : a <<< (63 - a.toNat.log2) = BitVec.ofNat 64 (a.toNat * 2 ^ (63 - a.toNat.log2)) := by
      apply eq_of_toNat_eq
      rw [toNat_shiftLeft, Nat.shiftLeft_eq, toNat_ofNat]
    have hlt : bias + a.toNat.log2 < 2 ^ 15 := by
      rw [bias]
      omega
    have hword : 0x403E - (63 - a.toNat.log2) = bias + a.toNat.log2 := by
      rw [bias]
      omega
    rw [if_pos h, if_neg h0, clz_eq h]
    dsimp only
    rw [hsig, hword, low_fifteen, BitVec.setWidth_ofNat_of_le (by decide),
      BitVec.getLsbD_ofNat, Nat.testBit_lt_two_pow hlt]
    rfl

/-! ## Rounding -/

section Rounding
variable {s : Bool} {m : Nat} (mode : RoundingMode)

theorem significand_eq (h0 : m ≠ 0) : (ofNat s m).significand = BitVec.ofNat 64 m <<< (63 - m.log2) := by
  apply eq_of_toNat_eq
  rw [ofNat, if_neg h0, toNat_shiftLeft, Nat.shiftLeft_eq, toNat_ofNat, toNat_ofNat, Nat.mod_mul_mod]

theorem significand_integerBit (h0 : m ≠ 0) (hm : m < 2 ^ 64) : (ofNat s m).significand &&& 0x8000000000000000 ≠ 0 := by
  have hmsb := (ofNat_encodes (s := s) hm).integerBit h0
  intro hand
  have hbit : ((ofNat s m).significand &&& 0x8000000000000000).getLsbD 63 = false := by rw [hand]; rfl
  rw [BitVec.msb_eq_getLsbD_last] at hmsb
  rw [getLsbD_and, hmsb] at hbit
  exact absurd hbit (by decide)

theorem FRNDINT_ofNat (hm : m < 2 ^ 64) : FRNDINT (ofNat s m) mode = ofNat s m := by
  have hback := ofExtFloat80_toExtFloat80 (ofNat s m)
  have hsign := signExp_sign (ofNat s m)
  have hexp := expExtF80UI64_eq (ofNat s m)
  rw [ofNat_sign] at hsign
  by_cases h0 : m = 0
  · subst h0
    cases s <;> cases mode <;> decide
  · have hlog := (log2_bounds h0 hm).1
    rw [ofNat_exponent h0 hm] at hexp
    have htop := significand_integerBit (s := s) h0 hm
    suffices hround : extF80RoundToInt (toExtFloat80 (ofNat s m)) mode = toExtFloat80 (ofNat s m) by
      rw [FRNDINT, hround, hback]
    have hsplit := signExp_split (toExtFloat80 (ofNat s m)).signExp
    rw [hexp] at hsplit
    have hsig : (toExtFloat80 (ofNat s m)).signif = BitVec.ofNat 64 m <<< (63 - m.log2) := significand_eq h0
    rw [show (ofNat s m).significand = (toExtFloat80 (ofNat s m)).signif from rfl] at htop
    have hne : (toExtFloat80 (ofNat s m)).signif ≠ 0 := by
      intro hz
      rw [hz] at htop
      exact htop rfl
    have hcast : ((bias + m.log2 : Nat) : Int) = 16383 + m.log2 := by simp [bias]
    have h7fff : ¬ ((bias + m.log2 : Nat) : Int) = 0x7FFF := by omega
    have h3ffe : ¬ ((bias + m.log2 : Nat) : Int) ≤ 0x3FFE := by omega
    unfold extF80RoundToInt
    simp only [hexp, hsign, hsplit, htop, hne, h7fff, h3ffe, false_and, and_false, decide_false, if_false,
      Bool.false_eq_true]
    by_cases h63 : (0x403E : Int) ≤ ((bias + m.log2 : Nat) : Int)
    · rw [if_pos h63]
    · rw [if_neg h63]
      have hdist : ((0x403E : Int) - ((bias + m.log2 : Nat) : Int)).toNat = 63 - m.log2 := by omega
      rw [hsig] at hne ⊢
      simp only [hdist, addRounding_shifted mode s (BitVec.ofNat 64 m) (show 0 < 63 - m.log2 by omega)
        (show 63 - m.log2 < 64 by omega), hne, if_false]
      rw [← hsig]

theorem toUInt64_ofNat (hm : m < 2 ^ 64) : toUInt64 (ofNat false m) mode = BitVec.ofNat 64 m := by
  have hsign := signExp_sign (ofNat false m)
  have hexp := expExtF80UI64_eq (ofNat false m)
  rw [ofNat_sign] at hsign
  have hexact (sig : BitVec 64) : roundToUI64 false sig 0 mode = sig := by
    cases mode <;> simp [roundToUI64]
  by_cases h0 : m = 0
  · subst h0
    cases mode <;> decide
  · have hlog := (log2_bounds h0 hm).1
    have hsig : (toExtFloat80 (ofNat false m)).signif = BitVec.ofNat 64 m <<< (63 - m.log2) := significand_eq h0
    rw [ofNat_exponent h0 hm] at hexp
    have hcast : ((bias + m.log2 : Nat) : Int) = 16383 + m.log2 := by simp [bias]
    have hdist : (0x403E : Int) - ((bias + m.log2 : Nat) : Int) = ((63 - m.log2 : Nat) : Int) := by omega
    unfold toUInt64 extF80ToUi64
    simp only [hexp, hsign, hdist, hsig]
    rw [if_neg (by omega)]
    by_cases hd0 : 63 - m.log2 = 0
    · rw [if_neg (by omega), hexact, hd0, BitVec.shiftLeft_zero]
    · have hup : m < 2 ^ (64 - (63 - m.log2)) := by
        rw [show 64 - (63 - m.log2) = m.log2 + 1 by omega]
        exact Nat.lt_log2_self
      have hword : (BitVec.ofNat 64 m).toNat < 2 ^ (64 - (63 - m.log2)) := by
        rwa [toNat_ofNat, Nat.mod_eq_of_lt hm]
      rw [if_pos (by omega), Int.toNat_natCast, shiftRightJam64Extra_shifted (by omega) (by omega) hword]
      exact hexact _

end Rounding

end FexEmu.SoftFloat
