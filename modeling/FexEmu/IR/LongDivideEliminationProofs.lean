import FexEmu.IR.LongDivideElimination
/-!
# What long divide elimination preserves

The new op divides at its own size. For signed numbers that is right exactly for 8 bytes or for one node by itself.
-/
namespace FexEmu.ValueGraph

open Interpreter

/-! ## Division at twice the width -/

theorem opSbfe_sign (a : BitVec 64) : opSbfe 1 63 a = a.sshiftRight 63 := by
  simp [opSbfe]

theorem longSource_sign (a : BitVec 64) : (longSource 64 a (opSbfe 1 63 a) : BitVec 128) = a.signExtend 128 := by
  rw [opSbfe_sign]
  apply BitVec.eq_of_getLsbD_eq
  intro i hi
  simp only [longSource, BitVec.getLsbD_or, BitVec.getLsbD_shiftLeft, BitVec.getLsbD_setWidth, BitVec.getLsbD_signExtend,
    BitVec.setWidth_eq, BitVec.getLsbD_sshiftRight, BitVec.msb_eq_getLsbD_last]
  by_cases h : i < 64
  · simp [h, hi]
  · have above : a.getLsbD i = false := BitVec.getLsbD_of_ge _ _ (by omega)
    simp only [h, above, hi]
    simp
    grind

theorem longSource_zero (a : BitVec 64) : (longSource 64 a 0 : BitVec 128) = a.setWidth 128 := by
  simp [longSource]

theorem setWidth_eq_of_toInt {x : BitVec 128} {y : BitVec 64} (h : x.toInt.bmod (2 ^ 64) = y.toInt) : x.setWidth 64 = y := by
  rw [← BitVec.signExtend_eq_setWidth_of_le x (by omega)]
  apply BitVec.eq_of_toInt_eq
  rw [BitVec.toInt_signExtend_eq_toInt_bmod_of_le x (by omega), h]

theorem sdiv_signExtend (a b : BitVec 64) : ((a.signExtend 128).sdiv (b.signExtend 128)).setWidth 64 = a.sdiv b := by
  apply setWidth_eq_of_toInt
  have ha : (a.signExtend 128).toInt = a.toInt := BitVec.toInt_signExtend_of_le (by omega)
  have hb : (b.signExtend 128).toInt = b.toInt := BitVec.toInt_signExtend_of_le (by omega)
  rw [BitVec.toInt_sdiv, BitVec.toInt_sdiv, ha, hb]
  exact Int.bmod_bmod_of_dvd (by norm_num)

theorem srem_signExtend (a b : BitVec 64) : ((a.signExtend 128).srem (b.signExtend 128)).setWidth 64 = a.srem b := by
  apply setWidth_eq_of_toInt
  have ha : (a.signExtend 128).toInt = a.toInt := BitVec.toInt_signExtend_of_le (by omega)
  have hb : (b.signExtend 128).toInt = b.toInt := BitVec.toInt_signExtend_of_le (by omega)
  rw [BitVec.toInt_srem, ha, hb, ← BitVec.toInt_srem]
  exact BitVec.toInt_bmod_cancel _

theorem udiv_setWidth (a b : BitVec 64) : ((a.setWidth 128).udiv (b.setWidth 128)).setWidth 64 = a.udiv b := by
  apply BitVec.eq_of_toNat_eq
  have ha : a.toNat < 2 ^ 128 := by omega
  have hb : b.toNat < 2 ^ 128 := by omega
  have hq : a.toNat / b.toNat < 2 ^ 64 := by
    have := Nat.div_le_self a.toNat b.toNat
    omega
  simp only [BitVec.toNat_setWidth, BitVec.udiv_eq, BitVec.toNat_udiv, Nat.mod_eq_of_lt ha, Nat.mod_eq_of_lt hb, Nat.mod_eq_of_lt hq]

theorem umod_setWidth (a b : BitVec 64) : ((a.setWidth 128).umod (b.setWidth 128)).setWidth 64 = a.umod b := by
  apply BitVec.eq_of_toNat_eq
  have ha : a.toNat < 2 ^ 128 := by omega
  have hb : b.toNat < 2 ^ 128 := by omega
  have hr : a.toNat % b.toNat < 2 ^ 64 := by
    have := Nat.mod_le a.toNat b.toNat
    omega
  simp only [BitVec.toNat_setWidth, BitVec.umod_eq, BitVec.toNat_umod, Nat.mod_eq_of_lt ha, Nat.mod_eq_of_lt hb, Nat.mod_eq_of_lt hr]

variable {b divisor : BitVec 64} {g : Graph} {codeNode lower upper : NodeID} {new : Header} {op : LongOp}
    {vals : Valuation} {size : OpSize} {l : Listing}

theorem signExtend_ne_zero (h : b ≠ 0) : b.signExtend 128 ≠ 0 := by
  intro h'
  apply h
  have := congrArg BitVec.toInt h'
  rw [BitVec.toInt_signExtend_of_le (by omega)] at this
  apply BitVec.eq_of_toInt_eq
  simpa using this

theorem setWidth_ne_zero (h : b ≠ 0) : b.setWidth 128 ≠ 0 := by
  intro h'
  apply h
  have := congrArg (BitVec.setWidth 64) h'
  simpa using this

/-! ## The upper register -/

theorem replacement_of_long (h : replacement g codeNode = some new)
    {divisor : NodeID} (hop : (g codeNode).op = .long op lower upper divisor) :
    (g codeNode).size = .i64Bit ∧ new = shortDivide g op lower divisor ∧ (op.isSigned = true → isSextOp g lower upper = true) ∧
      (op.isSigned = false → isZeroOp g upper = true) := by
  simp only [replacement, hop] at h
  split at h
  · split at h
    · split at h <;> simp_all
    · split at h <;> simp_all
  · cases h

theorem op_of_replacement (h : replacement g codeNode = some new) :
    ∃ op lower upper divisor, (g codeNode).op = .long op lower upper divisor := by
  simp only [replacement] at h
  split at h
  · split at h
    · rename_i op lower upper divisor hop
      exact ⟨op, lower, upper, divisor, hop⟩
    · cases h
  · cases h

theorem sbfe_of_isSextOp (h : isSextOp g lower upper = true) : (g upper).op = .sbfe 1 63 lower := by
  simp only [isSextOp] at h
  split at h
  · split at h
    · simp_all
    · cases h
  · cases h

theorem upper_of_isSextOp (h : isSextOp g lower upper = true)
    (computed : Computed g vals upper) : vals upper = opSbfe 1 63 (vals lower) := by
  apply computed
  simp [Header.value, sbfe_of_isSextOp h]

theorem value_of_isZeroOp (h : isZeroOp g upper = true) : (g upper).value vals = some 0 := by
  simp only [isZeroOp] at h
  split at h
  · rename_i a b hop
    obtain rfl : a = b := by simpa using h
    simp [Header.value, hop, BinaryOp.run, opXor, doOp]
  · split at h
    · rename_i c hc
      obtain rfl : c = 0 := by simpa using h
      simp [Header.value, Graph.valueConstant_eq_some.mp hc]
    · cases h

theorem upper_of_isZeroOp (h : isZeroOp g upper = true) (computed : Computed g vals upper) : vals upper = 0 :=
  computed 0 (value_of_isZeroOp h)

/-! ## One register is enough -/

/-- The quotient or remainder of the register alone, at 64 bits. -/
def LongOp.short64 : LongOp → BitVec 64 → BitVec 64 → BitVec 64
  | .LDiv => BitVec.sdiv
  | .LRem => BitVec.srem
  | .LUDiv => BitVec.udiv
  | .LURem => BitVec.umod

theorem signedLongOp_64 (op : {m : Nat} → BitVec m → BitVec m → BitVec m) (lower upper : BitVec 64) (h : divisor ≠ 0) :
    signedLongOp op .i64Bit lower upper divisor = some ((@op 128 (longSource 64 lower upper) (divisor.signExtend 128)).setWidth 64) := by
  have ne := signExtend_ne_zero h
  show longDivided 64 op (·.signExtend 64) lower upper ((divisor.setWidth 64).signExtend 128) = _
  simp only [longDivided, BitVec.setWidth_eq, BitVec.signExtend_eq]
  exact if_neg ne

theorem unsignedLongOp_64 (op : {m : Nat} → BitVec m → BitVec m → BitVec m) (lower upper : BitVec 64)
    (h : divisor ≠ 0) :
    unsignedLongOp op .i64Bit lower upper divisor = some ((@op 128 (longSource 64 lower upper) (divisor.setWidth 128)).setWidth 64) := by
  have ne := setWidth_ne_zero h
  show longDivided 64 op (·.setWidth 64) lower upper ((divisor.setWidth 64).setWidth 128) = _
  exact if_neg ne

theorem long_of_sign (signed : op.isSigned = true) (lower : BitVec 64) (h : divisor ≠ 0) :
    op.run .i64Bit lower (opSbfe 1 63 lower) divisor = some (op.short64 lower divisor) := by
  cases op with
  | LDiv => simp only [LongOp.run, opLDiv, signedLongOp_64 _ _ _ h, longSource_sign, LongOp.short64, sdiv_signExtend]
  | LRem => simp only [LongOp.run, opLRem, signedLongOp_64 _ _ _ h, longSource_sign, LongOp.short64, srem_signExtend]
  | LUDiv => cases signed
  | LURem => cases signed

theorem long_of_zero (unsigned : op.isSigned = false) (lower : BitVec 64) (h : divisor ≠ 0) :
    op.run .i64Bit lower 0 divisor = some (op.short64 lower divisor) := by
  cases op with
  | LDiv => cases unsigned
  | LRem => cases unsigned
  | LUDiv => simp only [LongOp.run, opLUDiv, unsignedLongOp_64 _ _ _ h, longSource_zero, LongOp.short64, udiv_setWidth]
  | LURem => simp only [LongOp.run, opLURem, unsignedLongOp_64 _ _ _ h, longSource_zero, LongOp.short64, umod_setWidth]

theorem short_of_zext (unsigned : op.isSigned = false) {lower : BitVec 64}
    (hl : zext size lower = lower) (hd : zext size divisor = divisor) (h : divisor ≠ 0) :
    op.short.run size lower divisor = some (op.short64 lower divisor) := by
  cases op with
  | LDiv => cases unsigned
  | LRem => cases unsigned
  | LUDiv => simp only [LongOp.short, BinaryOp.run, opUDiv, divided, hl, hd, if_neg h, LongOp.short64]
  | LURem => simp only [LongOp.short, BinaryOp.run, opURem, divided, hl, hd, if_neg h, LongOp.short64]

theorem short_of_sext (signed : op.isSigned = true) {lower : BitVec 64} (h : sext size divisor ≠ 0) :
    op.short.run size lower divisor = some (op.short64 (sext size lower) (sext size divisor)) := by
  cases op with
  | LDiv => simp only [LongOp.short, BinaryOp.run, opDiv, divided, if_neg h, LongOp.short64]
  | LRem => simp only [LongOp.short, BinaryOp.run, opRem, divided, if_neg h, LongOp.short64]
  | LUDiv => cases signed
  | LURem => cases signed

theorem short64_self (signed : op.isSigned = true) {a : BitVec 64} (ha : a ≠ 0) (hb : b ≠ 0) :
    op.short64 a a = op.short64 b b := by
  cases op with
  | LDiv =>
    have ha : ¬ a = 0#64 := ha
    have hb : ¬ b = 0#64 := hb
    simp [LongOp.short64, BitVec.sdiv_self, ha, hb]
  | LRem => simp [LongOp.short64, BitVec.srem_self]
  | LUDiv => cases signed
  | LURem => cases signed

theorem sext_ne_zero {v : BitVec 64} (fits : v.toNat < 2 ^ size.bits) (h : v ≠ 0) : sext size v ≠ 0 := by
  intro h'
  apply h
  have hz := congrArg (zext size) h'
  have back : zext size (sext size v) = zext size v := by
    apply BitVec.eq_of_getLsbD_eq
    intro i hi
    simp only [zext, sext, BitVec.getLsbD_setWidth, BitVec.getLsbD_signExtend, hi, decide_true, Bool.true_and]
    by_cases h : i < size.bits <;> simp [h, show i < size.bits → i < 64 by omega]
  rw [back, zext_of_fits fits] at hz
  simpa [zext] using hz

/-! ## The new node -/

/-- The op is unsigned, or its two arguments are one node, or one of them has 8 bytes. -/
def WidthKept (g : Graph) (op : LongOp) (lower divisor : NodeID) : Prop :=
  op.isSigned = true → lower = divisor ∨ (g lower).size = .i64Bit ∨ (g divisor).size = .i64Bit

instance (g : Graph) (op : LongOp) (lower divisor : NodeID) : Decidable (WidthKept g op lower divisor) :=
  inferInstanceAs (Decidable (_ → _))

theorem long_value (h : replacement g codeNode = some new)
    {divisor : NodeID} (hop : (g codeNode).op = .long op lower upper divisor)
    (computed : Computed g vals upper) (ne : vals divisor ≠ 0) :
    (g codeNode).value vals = some (op.short64 (vals lower) (vals divisor)) := by
  obtain ⟨size, -, sign, zero⟩ := replacement_of_long h hop
  simp only [Header.value, hop, size]
  cases hs : op.isSigned with
  | true => rw [upper_of_isSextOp (sign hs) computed, long_of_sign hs _ ne]
  | false => rw [upper_of_isZeroOp (zero hs) computed, long_of_zero hs _ ne]

theorem shortDivide_value {divisor : NodeID}
    (operands : Operands g vals op lower upper divisor) (kept : WidthKept g op lower divisor) :
    (shortDivide g op lower divisor).value vals = some (op.short64 (vals lower) (vals divisor)) := by
  have hl : (vals lower).toNat < 2 ^ (maxSize (g lower).size (g divisor).size).bits :=
    lt_of_lt_of_le operands.lower_fits (Nat.pow_le_pow_right (by omega) (bits_le_max_left _ _))
  have hd : (vals divisor).toNat < 2 ^ (maxSize (g lower).size (g divisor).size).bits :=
    lt_of_lt_of_le operands.divisor_fits (Nat.pow_le_pow_right (by omega) (bits_le_max_right _ _))
  simp only [Header.value, shortDivide]
  cases hs : op.isSigned with
  | false => exact short_of_zext hs (zext_of_fits hl) (zext_of_fits hd) operands.divisor_ne
  | true =>
    have ne := sext_ne_zero hd operands.divisor_ne
    rw [short_of_sext hs ne]
    rcases kept hs with rfl | wide
    · rw [short64_self hs ne operands.divisor_ne]
    · rw [maxSize_eq_64 wide]
      simp [sext]

theorem preserves_of_widthKept (h : replacement g codeNode = some new)
    (kept : ∀ op lower upper divisor, (g codeNode).op = .long op lower upper divisor → WidthKept g op lower divisor) :
    Preserves g codeNode new := by
  intro op lower upper divisor hop vals operands
  obtain ⟨-, rfl, -⟩ := replacement_of_long h hop
  exact ⟨_, long_value h hop operands.computed operands.divisor_ne, shortDivide_value operands (kept _ _ _ _ hop)⟩

/-! ## Less than 8 bytes -/

/-- A number whose top bit is that of the size, or a divisor of ones. -/
def failingOperands (op : LongOp) (lower divisor : OpSize) : BitVec 64 × BitVec 64 :=
  if divisor.bits ≤ lower.bits then (BitVec.twoPow 64 (lower.bits - 1), if op = .LDiv then 1 else 3)
  else (1, BitVec.twoPow 64 divisor.bits - 1)

instance (op : LongOp) (lower upper divisor : BitVec 64) : Decidable (Representable op lower upper divisor) :=
  inferInstanceAs (Decidable (if op.isSigned then
    -2 ^ 63 ≤ (longSource 64 lower upper).toInt.tdiv divisor.toInt ∧
      (longSource 64 lower upper).toInt.tdiv divisor.toInt < 2 ^ 63
  else (longSource 64 lower upper).toNat / divisor.toNat < 2 ^ 64))

theorem failingOperands_spec (signed : op.isSigned = true) {lower divisor : OpSize} (hl : lower ≠ .i64Bit)
    (hd : divisor ≠ .i64Bit) {a : BitVec 64} (h : failingOperands op lower divisor = (a, b)) :
    a.toNat < 2 ^ lower.bits ∧ b.toNat < 2 ^ divisor.bits ∧ b ≠ 0 ∧ opSbfe 1 63 a = 0 ∧ Representable op a 0 b ∧
      op.short.run (maxSize lower divisor) a b ≠ some (op.short64 a b) := by
  cases op <;> cases lower <;> cases divisor <;> first | contradiction | (cases h; decide)

theorem not_preserves (wf : g.WellFormed) (h : replacement g codeNode = some new)
    {divisor : NodeID} (hop : (g codeNode).op = .long op lower upper divisor)
    (lost : ¬ WidthKept g op lower divisor) : ¬ Preserves g codeNode new := by
  intro preserves
  obtain ⟨-, rfl, sign, -⟩ := replacement_of_long h hop
  simp only [WidthKept, not_forall, not_or] at lost
  obtain ⟨signed, ne, hl, hd⟩ := lost
  have sbfe := sbfe_of_isSextOp (sign signed)
  have upper_ne_lower : upper ≠ lower := by
    rintro rfl
    exact wf.irreflexive upper (by simp [sbfe, Op.args])
  have upper_ne_divisor : upper ≠ divisor := by
    rintro rfl
    exact hd (wf.sbfe_size _ _ _ _ sbfe)
  obtain ⟨a, b, hab⟩ : ∃ a b, failingOperands op (g lower).size (g divisor).size = (a, b) := ⟨_, _, rfl⟩
  obtain ⟨fitsA, fitsB, neB, signA, repr, differ⟩ := failingOperands_spec signed hl hd hab
  let vals : Valuation := fun n => if n = lower then a else if n = divisor then b else 0
  have valsL : vals lower = a := if_pos rfl
  have valsD : vals divisor = b := by simp [vals, Ne.symm ne]
  have valsU : vals upper = 0 := by simp [vals, upper_ne_lower, upper_ne_divisor]
  have operands : Operands g vals op lower upper divisor := by
    constructor
    · intro v hv
      simp only [Header.value, sbfe, valsL, signA, Option.some.injEq] at hv
      rw [valsU, hv]
    · simpa only [Fits, valsL] using fitsA
    · simp [Fits, valsU]
    · simpa only [Fits, valsD] using fitsB
    · simpa only [valsD] using neB
    · simpa only [valsL, valsU, valsD] using repr
  obtain ⟨v, hv, hnew⟩ := preserves op lower upper divisor hop vals operands
  rw [long_value h hop operands.computed operands.divisor_ne, valsL, valsD] at hv
  apply differ
  simp only [Header.value, shortDivide, valsL, valsD] at hnew
  rw [hnew, hv]

/-- The short division gives what the long one does if and only if a signed one keeps its width. -/
theorem replacement_preserves_iff {g : Graph} (wf : g.WellFormed) {codeNode : NodeID} {new : Header}
    (h : replacement g codeNode = some new) :
    Preserves g codeNode new ↔
      ∀ op lower upper divisor, (g codeNode).op = .long op lower upper divisor → WidthKept g op lower divisor := by
  constructor
  · intro preserves op lower upper divisor hop
    by_contra lost
    exact not_preserves wf h hop lost preserves
  · exact preserves_of_widthKept h

def cqoGraph (divisorSize : OpSize) : Graph
  | 1 => ⟨.other [], .i32Bit⟩
  | 2 => ⟨.sbfe 1 63 1, .i64Bit⟩
  | 3 => ⟨.other [], divisorSize⟩
  | 4 => ⟨.long .LDiv 1 2 3, .i64Bit⟩
  | _ => ⟨.other [], .i64Bit⟩

theorem cqoGraph_wellFormed (divisorSize : OpSize) : (cqoGraph divisorSize).WellFormed := by
  constructor
  · intro n
    unfold cqoGraph
    split <;> simp [Op.args]
  · intro n width lsb src h
    unfold cqoGraph at h ⊢
    split at h <;> simp_all

theorem replacement_preserves_wide : Preserves (cqoGraph .i64Bit) 4 ⟨.binary .Div 1 3, .i64Bit⟩ := by
  refine (replacement_preserves_iff (cqoGraph_wellFormed .i64Bit) (by decide)).mpr ?_
  intro op lower upper divisor h
  cases h
  exact fun _ => .inr (.inr rfl)

theorem replacement_changes_quotient :
    ¬ ∀ (g : Graph) (codeNode : NodeID) (new : Header), g.WellFormed → replacement g codeNode = some new →
      Preserves g codeNode new := by
  intro preserves
  have h := preserves (cqoGraph .i32Bit) 4 ⟨.binary .Div 1 3, .i32Bit⟩ (cqoGraph_wellFormed .i32Bit) (by decide) .LDiv 1 2 3 rfl
    (fun n => if n = 1 then 0x80000000#64 else if n = 3 then 1#64 else 0#64)
    ⟨by intro v hv; cases hv; decide, by decide, by decide, by decide, by decide, by decide⟩
  obtain ⟨v, hv, hnew⟩ := h
  revert hnew
  rw [← hv]
  decide

/-! ## The run -/

/-- Names in use are below the next new one. -/
def Listing.Fresh (l : Listing) : Prop := ∀ n ∈ l.code, n < l.next ∧ ∀ a ∈ (l.graph n).op.args, a < l.next

/-- Each node of the code holds what the interpreter computes for it. -/
def Listing.Valued (l : Listing) (vals : Valuation) : Prop := ∀ n ∈ l.code, Computed l.graph vals n

/-- A new node has the value of the node it replaces. -/
def Listing.extend (l : Listing) (vals : Valuation) (codeNode : NodeID) : Valuation :=
  fun n => if n = l.next then vals codeNode else vals n

theorem Listing.mem_replace {n : NodeID} (h : n ∈ (l.replace codeNode new).code) : n = l.next ∨ n ∈ l.code := by
  simp only [replace, List.mem_map] at h
  obtain ⟨m, hm, hn⟩ := h
  split at hn
  · exact .inl hn.symm
  · exact .inr (hn ▸ hm)

theorem Listing.mem_of_mem {n : NodeID} (h : n ∈ l.code) (ne : n ≠ codeNode) : n ∈ (l.replace codeNode new).code := by
  simp only [replace, List.mem_map]
  exact ⟨n, h, if_neg ne⟩

theorem Listing.Fresh.map_extend (fresh : l.Fresh) (vals : Valuation) (codeNode : NodeID) (new : Header) :
    (l.replace codeNode new).code.map (l.extend vals codeNode) = l.code.map vals := by
  simp only [Listing.replace, List.map_map]
  apply List.map_congr_left
  intro n hn
  have lt := (fresh n hn).1
  simp only [Function.comp_apply, Listing.extend]
  split
  · simp_all
  · exact if_neg (Nat.ne_of_lt lt)

theorem Listing.Fresh.replace (fresh : l.Fresh)
    (args : ∀ a ∈ new.op.args, a < l.next) : (l.replace codeNode new).Fresh := by
  intro n hn
  rcases Listing.mem_replace hn with rfl | hn
  · refine ⟨Nat.lt_succ_self _, ?_⟩
    intro a ha
    simp only [Listing.replace, if_true] at ha
    exact Nat.lt_succ_of_lt (args a ha)
  · have lt := fresh n hn
    refine ⟨Nat.lt_succ_of_lt lt.1, ?_⟩
    intro a ha
    simp only [Listing.replace, if_neg (Nat.ne_of_lt lt.1), Header.mapArgs, Op.args_mapArgs, List.mem_map] at ha
    obtain ⟨b, hb, rfl⟩ := ha
    have := lt.2 b hb
    show (if b = codeNode then l.next else b) < l.next + 1
    split
    · exact Nat.lt_succ_self _
    · exact Nat.lt_succ_of_lt this

theorem Listing.Valued.replace (fresh : l.Fresh) (valued : l.Valued vals)
    (args : ∀ a ∈ new.op.args, a < l.next) (same : new.value vals = some (vals codeNode)) :
    (l.replace codeNode new).Valued (l.extend vals codeNode) := by
  have old : ∀ a, a < l.next → l.extend vals codeNode a = vals a := fun a ha => if_neg (Nat.ne_of_lt ha)
  intro n hn v hv
  rcases Listing.mem_replace hn with rfl | hn
  · simp only [Listing.replace, if_true] at hv
    rw [Header.value_congr (fun a ha => old a (args a ha)), same] at hv
    simpa [Listing.extend] using hv
  · have lt := fresh n hn
    simp only [Listing.replace, if_neg (Nat.ne_of_lt lt.1)] at hv
    rw [old n lt.1]
    apply valued n hn
    rw [← hv, Header.value_mapArgs]
    apply Header.value_congr
    intro a ha
    have := old a (lt.2 a ha)
    simp only [Function.comp_apply]
    split <;> simp_all [Listing.extend]

/-- The operands of the division that is replaced meet the condition. -/
def Listing.Meets (l : Listing) (vals : Valuation) (codeNode : NodeID) : Prop :=
  ∀ new, replacement l.graph codeNode = some new → ∀ op lower upper divisor,
    (l.graph codeNode).op = .long op lower upper divisor →
      WidthKept l.graph op lower divisor ∧ Operands l.graph vals op lower upper divisor

def Listing.stepVals (l : Listing) (vals : Valuation) (codeNode : NodeID) : Valuation :=
  match replacement l.graph codeNode with
  | some _ => l.extend vals codeNode
  | none => vals

/-- All steps of the rest of a run meet the condition. -/
def Listing.AllMeet : List NodeID → Listing → Valuation → Prop
  | [], _, _ => True
  | n :: ns, l, vals => l.Meets vals n ∧ AllMeet ns (l.step n) (l.stepVals vals n)

theorem Listing.step_valued (fresh : l.Fresh) (valued : l.Valued vals)
    (mem : codeNode ∈ l.code) (meets : l.Meets vals codeNode) :
    (l.step codeNode).Fresh ∧ (l.step codeNode).Valued (l.stepVals vals codeNode) ∧
      (∀ n ∈ l.code, n ≠ codeNode → n ∈ (l.step codeNode).code) ∧
      (l.step codeNode).code.map (l.stepVals vals codeNode) = l.code.map vals := by
  simp only [Listing.step, Listing.stepVals]
  cases h : replacement l.graph codeNode with
  | none => exact ⟨fresh, valued, fun n hn _ => hn, rfl⟩
  | some new =>
    obtain ⟨op, lower, upper, divisor, hop⟩ := op_of_replacement h
    obtain ⟨-, rfl, -⟩ := replacement_of_long h hop
    obtain ⟨kept, operands⟩ := meets _ h op lower upper divisor hop
    have value := long_value h hop operands.computed operands.divisor_ne
    have same := shortDivide_value operands kept
    rw [← valued codeNode mem _ value] at same
    have args : ∀ a ∈ (shortDivide l.graph op lower divisor).op.args, a < l.next := by
      intro a ha
      apply (fresh codeNode mem).2
      simp only [shortDivide, Op.args, List.mem_cons, List.not_mem_nil, or_false] at ha
      rcases ha with rfl | rfl <;> simp [hop, Op.args]
    exact ⟨fresh.replace args, valued.replace fresh args same, fun n hn ne => mem_of_mem hn ne, fresh.map_extend vals codeNode _⟩

/-- A pass all of whose rewrites keep the width leaves a list of nodes of the same values. -/
theorem Listing.run_valued (fresh : l.Fresh) (nodup : l.code.Nodup) (valued : l.Valued vals)
    (meets : AllMeet l.code l vals) : ∃ vals', l.run.Valued vals' ∧ l.run.code.map vals' = l.code.map vals := by
  suffices steps : ∀ (ns : List NodeID) (l : Listing) (vals : Valuation), l.Fresh → ns.Nodup → l.Valued vals →
      (∀ n ∈ ns, n ∈ l.code) → AllMeet ns l vals → ∃ vals', (ns.foldl Listing.step l).Valued vals' ∧
        (ns.foldl Listing.step l).code.map vals' = l.code.map vals from
    steps l.code l vals fresh nodup valued (fun _ hn => hn) meets
  intro ns
  induction ns with
  | nil => exact fun l vals _ _ valued _ _ => ⟨vals, valued, rfl⟩
  | cons n ns ih =>
    intro l vals fresh nodup valued mem ⟨meets, rest⟩
    obtain ⟨fresh', valued', stays, same⟩ := step_valued fresh valued (mem n List.mem_cons_self) meets
    have mem' : ∀ m ∈ ns, m ∈ (l.step n).code := by
      intro m hm
      apply stays m (mem m (List.mem_cons_of_mem n hm))
      rintro rfl
      exact (List.nodup_cons.mp nodup).1 hm
    obtain ⟨vals', final, same'⟩ := ih _ _ fresh' (List.nodup_cons.mp nodup).2 valued' mem' rest
    exact ⟨vals', final, same'.trans same⟩

def cqoListing : Listing := ⟨cqoGraph .i64Bit, [1, 2, 3, 4], 5⟩

/-- `10 / 3`. -/
def cqoVals (n : NodeID) : BitVec 64 := if n = 1 then 10 else if n = 2 then 0 else 3

theorem run_cqoListing :
    ∃ vals', cqoListing.run.Valued vals' ∧ cqoListing.run.code.map vals' = [10#64, 0#64, 3#64, 3#64] := by
  refine @Listing.run_valued cqoVals cqoListing (by unfold Listing.Fresh; decide) (by decide) ?_ ?_
  · intro n hn v hv
    simp only [cqoListing, List.mem_cons, List.not_mem_nil, or_false] at hn
    rcases hn with rfl | rfl | rfl | rfl <;> cases hv <;> decide
  · have none (n : NodeID) (h : replacement cqoListing.graph n = none) : cqoListing.Meets cqoVals n := by
      intro new hnew
      rw [h] at hnew
      cases hnew
    refine ⟨none 1 rfl, none 2 rfl, none 3 rfl, fun new h op lower upper divisor hop => ?_, trivial⟩
    cases hop
    exact ⟨fun _ => .inr (.inr rfl), by intro v hv; cases hv; decide, by decide, by decide, by decide, by decide, by decide⟩

end FexEmu.ValueGraph
