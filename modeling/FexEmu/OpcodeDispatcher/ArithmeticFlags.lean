import FexEmu.Data.Widths
import FexEmu.OpcodeDispatcher.StringOps
/-!
# Flags of the architecture

What the instructions leave in the flags for a sum, a difference or a logical result.
-/
namespace FexEmu.OpcodeDispatcher

open StringOps (ALUFlags)

/-- The parity of the lowest byte. -/
def parity {w : Nat} (x : BitVec w) : Bool := (x.setWidth 8).cpop.toNat % 2 = 0

/-- The flags that depend on the result alone, and the others. -/
def resultFlags {w : Nat} (res : BitVec w) (cf af of : Bool) : ALUFlags := ⟨cf, parity res, af, res = 0, res.msb, of⟩

def carry (w : Nat) (c : Bool) : BitVec w := BitVec.ofNat w c.toNat

/-- The flags of a sum with a carry. -/
def addFlags {w : Nat} (x y : BitVec w) (c : Bool) : ALUFlags :=
  let res := x + y + carry w c
  resultFlags res (2 ^ w ≤ x.toNat + y.toNat + c.toNat) (16 ≤ x.toNat % 16 + y.toNat % 16 + c.toNat)
    (res.toInt ≠ x.toInt + y.toInt + c.toNat)

/-- The flags of a difference with a borrow. -/
def subFlags {w : Nat} (x y : BitVec w) (c : Bool) : ALUFlags :=
  let res := x - y - carry w c
  resultFlags res (x.toNat < y.toNat + c.toNat) (x.toNat % 16 < y.toNat % 16 + c.toNat)
    (res.toInt ≠ x.toInt - y.toInt - c.toNat)

/-- The flags of a logical result, of which AF is undefined. -/
def logicFlags {w : Nat} (res : BitVec w) : ALUFlags := resultFlags res false false false

/-- A comparison has no borrow to take in. -/
theorem subFlags_false {w : Nat} (x y : BitVec w) :
    subFlags x y false =
      ⟨x.usubOverflow y, parity (x - y), x.toNat % 16 < y.toNat % 16, x = y, (x - y).msb, x.ssubOverflow y⟩ := by
  have hdiff : x - y - carry w false = x - y := BitVec.sub_zero _
  unfold subFlags resultFlags
  simp only [hdiff, ssubOverflow_iff, BitVec.usubOverflow, Bool.toNat_false, Nat.add_zero, Int.sub_zero, sub_eq_zero,
    Nat.cast_zero]

end FexEmu.OpcodeDispatcher
