import FexEmu.Data.ExtendedFloat
/-!
# Integers in the software floating point

The conversions of SoftFloat are exact on the integers of 64 bits, in every rounding mode.
-/
namespace FexEmu.SoftFloat

abbrev X80SoftFloat := ExtendedFloat

/-- `extFloat80_t`: the sign is the top bit of the exponent's word. -/
structure ExtFloat80 where
  signif : BitVec 64
  signExp : BitVec 16
deriving DecidableEq, Repr

def toExtFloat80 (x : X80SoftFloat) : ExtFloat80 :=
  ⟨x.significand, x.exponent.setWidth 16 ||| (BitVec.ofBool x.sign).setWidth 16 <<< 15⟩

def ofExtFloat80 (a : ExtFloat80) : X80SoftFloat := ⟨a.signif, (a.signExp &&& 0x7FFF).setWidth 15, a.signExp.getLsbD 15⟩

/-- The rounding modes, under softfloat's names. -/
inductive RoundingMode
  | near_even
  | minMag
  | min
  | max
  | near_maxMag
deriving DecidableEq, Repr

def expExtF80UI64 (a64 : BitVec 16) : Int := (a64 &&& 0x7FFF).toNat

def ui64ToExtF80 (a : BitVec 64) : ExtFloat80 :=
  if a ≠ 0 then
    let shiftDist := a.clz.toNat
    ⟨a <<< shiftDist, BitVec.ofNat 16 (0x403E - shiftDist)⟩
  else ⟨a, 0⟩

/-- The word shifted right, and the bits that are lost as a fraction: the last of them, and whether another one is set. -/
def shiftRightJam64Extra (a extra : BitVec 64) (dist : Nat) : BitVec 64 × BitVec 64 :=
  let sticky : BitVec 64 := if extra ≠ 0 then 1 else 0
  if dist < 64 then (a >>> dist, (a <<< ((64 - dist) % 64)) ||| sticky)
  else if dist = 64 then (0, a ||| sticky)
  else (0, (if a ≠ 0 then 1 else 0) ||| sticky)

/-- The largest value, for the overflows and for what is not a number. -/
def ui64Invalid : BitVec 64 := 0xFFFFFFFFFFFFFFFF

def roundToUI64 (sign : Bool) (sig sigExtra : BitVec 64) (roundingMode : RoundingMode) : BitVec 64 :=
  let increment : Bool :=
    match roundingMode with
    | .near_maxMag | .near_even => 0x8000000000000000#64 ≤ sigExtra
    | .max => !sign && sigExtra ≠ 0
    | _ => false
  if sign ∧ roundingMode = .min ∧ (sig ||| sigExtra) ≠ 0 then ui64Invalid
  else if increment then
    let sig := sig + 1
    if sig = 0 then ui64Invalid
    else
      let sig := if sigExtra = 0x8000000000000000 ∧ roundingMode = .near_even then sig &&& ~~~1 else sig
      if sign ∧ sig ≠ 0 then ui64Invalid else sig
  else if sign ∧ sig ≠ 0 then ui64Invalid
  else sig

def extF80ToUi64 (a : ExtFloat80) (roundingMode : RoundingMode) : BitVec 64 :=
  let sign := a.signExp.getLsbD 15
  let exp := expExtF80UI64 a.signExp
  let shiftDist := 0x403E - exp
  if shiftDist < 0 then ui64Invalid
  else if shiftDist ≠ 0 then
    let (sig, sigExtra) := shiftRightJam64Extra a.signif 0 shiftDist.toNat
    roundToUI64 sign sig sigExtra roundingMode
  else roundToUI64 sign a.signif 0 roundingMode

def awayFromZero (roundingMode : RoundingMode) (sign : Bool) (exp : Int) (sigA : BitVec 64) : Bool :=
  match roundingMode with
  | .near_even => sigA &&& 0x7FFFFFFFFFFFFFFF ≠ 0 ∧ exp = 0x3FFE
  | .near_maxMag => exp = 0x3FFE
  | .min => sign
  | .max => !sign
  | .minMag => false

/-- The significand with what rounds its bits below `lastBitMask`. -/
def addRounding (roundingMode : RoundingMode) (sign : Bool) (sigA lastBitMask : BitVec 64) : BitVec 64 :=
  let roundBitsMask := lastBitMask - 1
  match roundingMode with
  | .near_maxMag => sigA + (lastBitMask >>> 1)
  | .near_even =>
    let sigZ := sigA + (lastBitMask >>> 1)
    if sigZ &&& roundBitsMask = 0 then sigZ &&& ~~~lastBitMask else sigZ
  | .min => if sign then sigA + roundBitsMask else sigA
  | .max => if sign then sigA else sigA + roundBitsMask
  | .minMag => sigA

def extF80RoundToInt (a : ExtFloat80) (roundingMode : RoundingMode) : ExtFloat80 :=
  let signUI64 := a.signExp &&& 0x8000
  let sign := a.signExp.getLsbD 15
  let exp := expExtF80UI64 a.signExp
  let sigA := a.signif
  let subnormal : Bool := sigA &&& 0x8000000000000000 = 0 ∧ exp ≠ 0x7FFF
  if subnormal ∧ sigA = 0 then ⟨0, signUI64⟩
  else
    let exp := if subnormal then exp - sigA.clz.toNat else exp
    let sigA := if subnormal then sigA <<< sigA.clz.toNat else sigA
    if 0x403E ≤ exp then
      if exp = 0x7FFF then
        if sigA &&& 0x7FFFFFFFFFFFFFFF ≠ 0 then ⟨sigA ||| 0xC000000000000000, a.signExp⟩
        else ⟨0x8000000000000000, signUI64 ||| BitVec.ofInt 16 exp⟩
      else ⟨sigA, signUI64 ||| BitVec.ofInt 16 exp⟩
    else if exp ≤ 0x3FFE then
      if awayFromZero roundingMode sign exp sigA then ⟨0x8000000000000000, signUI64 ||| 0x3FFF⟩ else ⟨0, signUI64⟩
    else
      let uiZ64 := signUI64 ||| BitVec.ofInt 16 exp
      let lastBitMask := 1#64 <<< (0x403E - exp).toNat
      let roundBitsMask := lastBitMask - 1
      let sigZ := addRounding roundingMode sign sigA lastBitMask &&& ~~~roundBitsMask
      if sigZ = 0 then ⟨0x8000000000000000, uiZ64 + 1⟩ else ⟨sigZ, uiZ64⟩

def FRNDINT (x : X80SoftFloat) (roundingMode : RoundingMode) : X80SoftFloat :=
  ofExtFloat80 (extF80RoundToInt (toExtFloat80 x) roundingMode)

def toUInt64 (x : X80SoftFloat) (roundingMode : RoundingMode) : BitVec 64 := extF80ToUi64 (toExtFloat80 x) roundingMode

def ofUInt64 (a : BitVec 64) : X80SoftFloat := ofExtFloat80 (ui64ToExtF80 a)

end FexEmu.SoftFloat
