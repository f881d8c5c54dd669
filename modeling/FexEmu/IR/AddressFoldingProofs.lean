import FexEmu.IR.AddressFolding
/-!
# What address folding preserves

A folded sum is the address it stands for, but for an offset the access had and for the high bits of a shift count.
-/
namespace FexEmu.AddressFolding

open Interpreter ValueGraph

/-! ## Scales -/

variable {scale : BitVec 64} {host : Host} {arg1 arg0 : NodeID} {g : Graph} {op new : MemOp} {vals : Valuation}

theorem setWidth_scale (h : scale.toNat < 256) : (scale.setWidth 8).setWidth 64 = scale := by
  apply BitVec.eq_of_toNat_eq
  simp only [BitVec.toNat_setWidth]
  omega

theorem lt_of_isMemoryScale {accessSize : BitVec 8}
    (h : isMemoryScale host scale accessSize = true) : scale.toNat < 256 := by
  cases host with
  | x86_64 =>
    have h : scale = 1 ∨ scale = 2 ∨ scale = 4 ∨ scale = 8 := by simpa [isMemoryScale] using h
    rcases h with rfl | rfl | rfl | rfl <;> decide
  | arm64 =>
    have h : scale = accessSize.setWidth 64 := by simpa [isMemoryScale] using h
    subst h
    simp only [BitVec.toNat_setWidth]
    omega

theorem scaled_of_foldScale {accessSize : BitVec 8} {src : NodeID} {e : Extended}
    (h : foldScale host accessSize scale arg1 src = some e) :
    e.addr = arg1 ∧ e.offset = src ∧ scale.toNat < 256 ∧ ∀ v, scaled e.offsetType e.offsetScale v = v * scale := by
  simp only [foldScale] at h
  split at h
  · rename_i small
    have lt := lt_of_isMemoryScale small
    cases h
    refine ⟨rfl, rfl, lt, ?_⟩
    intro v
    simp [scaled, extend, setWidth_scale lt]
  · split at h
    · rename_i one
      cases h
      subst one
      refine ⟨rfl, rfl, by decide, ?_⟩
      intro v
      rfl
    · cases h

theorem shiftedScale_eq {count : BitVec 64} (h : (shiftedScale count).toNat < 256) :
    shiftedScale count = BitVec.twoPow 64 (count.toNat % 32) := by
  have lt : count.toNat % 32 < 32 := Nat.mod_lt _ (by omega)
  simp only [shiftedScale] at *
  generalize count.toNat % 32 = k at *
  interval_cases k <;> first | rfl | (revert h; decide)

/-! ## Sums -/

section

variable {host : Host} {g : Graph} {accessSize : BitVec 8} {arg0 arg1 : NodeID} {e : Extended} {vals : Valuation}

/-- The address that the fold takes for the sum. -/
def Extended.address (vals : Valuation) (e : Extended) : BitVec 64 :=
  vals e.addr + scaled e.offsetType e.offsetScale (vals e.offset)

theorem size_of_match (h : matchExtended host g accessSize arg0 arg1 = some e) : (g arg0).size = .i64Bit := by
  simp only [matchExtended] at h
  split at h
  · assumption
  · cases h

variable {src : NodeID}

theorem match_mul {amount : NodeID} (h : matchExtended host g accessSize arg0 arg1 = some e)
    (hop : (g arg0).op = .binary .Mul src amount) (const : HoldsConstants g vals)
    (computed : Computed g vals arg0) : e.address vals = vals arg1 + vals arg0 := by
  have size := size_of_match h
  simp only [matchExtended, size, hop, if_true] at h
  obtain ⟨scale, hc, hf⟩ := Option.bind_eq_some_iff.mp h
  obtain ⟨haddr, hoffset, -, hscaled⟩ := scaled_of_foldScale hf
  have value : vals arg0 = vals src * scale := by
    apply computed
    simp [Header.value, hop, size, BinaryOp.run, opMul, const amount scale hc]
  rw [Extended.address, haddr, hoffset, hscaled, value]

/-- A shift by a constant is folded to one by the low five bits of it. -/
theorem match_lshl {amount : NodeID} {count : BitVec 64} (h : matchExtended host g accessSize arg0 arg1 = some e)
    (hop : (g arg0).op = .binary .Lshl src amount) (hc : g.valueConstant amount = some count)
    (const : HoldsConstants g vals) (computed : Computed g vals arg0) :
    e.address vals = vals arg1 + vals src <<< (count.toNat % 32) ∧ vals arg0 = vals src <<< (count.toNat % 64) := by
  have size := size_of_match h
  simp only [matchExtended, size, hop, hc, if_true, Option.bind_some] at h
  obtain ⟨haddr, hoffset, lt, hscaled⟩ := scaled_of_foldScale h
  refine ⟨?_, ?_⟩
  · rw [Extended.address, haddr, hoffset, hscaled, shiftedScale_eq lt, BitVec.mul_twoPow_eq_shiftLeft]
  · apply computed
    simp only [Header.value, hop, size, BinaryOp.run, opLshl, const amount count hc, toNat_and_63]

theorem match_extract {width lsb : Nat} (h : matchExtended host g accessSize arg0 arg1 = some e)
    (hop : (g arg0).op = .bfe width lsb src) (computed : Computed g vals arg0) : e.address vals = vals arg1 + vals arg0 := by
  have size := size_of_match h
  simp only [matchExtended, size, hop, if_true] at h
  split at h
  · rename_i hw
    obtain ⟨-, rfl, rfl⟩ := hw
    cases h
    have value : vals arg0 = opBfe 32 0 (vals src) := by
      apply computed
      simp [Header.value, hop]
    rw [Extended.address, value, opBfe_32]
    simp [scaled, extend]
  · cases h

theorem match_signed {width lsb : Nat} (h : matchExtended host g accessSize arg0 arg1 = some e)
    (hop : (g arg0).op = .sbfe width lsb src) (computed : Computed g vals arg0) : e.address vals = vals arg1 + vals arg0 := by
  have size := size_of_match h
  simp only [matchExtended, size, hop, if_true] at h
  split at h
  · rename_i hw
    obtain ⟨-, rfl, rfl⟩ := hw
    cases h
    have value : vals arg0 = opSbfe 32 0 (vals src) := by
      apply computed
      simp [Header.value, hop]
    rw [Extended.address, value, opSbfe_32]
    simp [scaled, extend]
  · cases h

theorem match_address (h : matchExtended host g accessSize arg0 arg1 = some e)
    (count : ∀ src amount count, (g arg0).op = .binary .Lshl src amount → g.valueConstant amount = some count →
      count.toNat % 64 < 32)
    (const : HoldsConstants g vals) (computed : Computed g vals arg0) :
    e.address vals = vals arg1 + vals arg0 := by
  have size := size_of_match h
  cases hop : (g arg0).op with
  | binary op src amount =>
    cases op with
    | Mul => exact match_mul h hop const computed
    | Lshl =>
      cases hc : g.valueConstant amount with
      | none => simp [matchExtended, size, hop, hc] at h
      | some c =>
        have lt := count src amount c hop hc
        have both := match_lshl h hop hc const computed
        rw [both.1, both.2, show c.toNat % 32 = c.toNat % 64 by omega]
    | _ => simp [matchExtended, size, hop] at h
  | bfe width lsb src => exact match_extract h hop computed
  | sbfe width lsb src => exact match_signed h hop computed
  | _ => simp [matchExtended, size, hop] at h

end

theorem foldAddress_eq_some (h : foldAddress host g op = some new) :
    ∃ arg0 arg1, (g op.addr).op = .binary .Add arg0 arg1 ∧ (g op.addr).size = .i64Bit ∧
      ∀ vals, new.address vals = (memExtendedAddressing host g op.accessSize arg0 arg1).address vals := by
  simp only [foldAddress] at h
  split at h
  · rename_i arg0 arg1 hop
    split at h
    · rename_i size
      cases h
      exact ⟨arg0, arg1, hop, size, fun vals => rfl⟩
    · cases h
  · cases h

theorem sum_of_computed {addr : NodeID} (computed : Computed g vals addr)
    (hop : (g addr).op = .binary .Add arg0 arg1) (size : (g addr).size = .i64Bit) : vals addr = vals arg0 + vals arg1 := by
  apply computed
  simp [Header.value, hop, size, BinaryOp.run, opAdd, doOp48]

theorem scaled_zero (offsetType : MemOffsetType) (v : BitVec 64) : scaled offsetType 0 v = 0#64 := by
  have zero : v * (0#8).setWidth 64 = 0 := by simp
  simp only [scaled]
  cases offsetType <;> rfl

theorem contribution_of_idle (idle : OffsetIdle g op)
    (const : HoldsConstants g vals) : op.contribution vals = 0#64 := by
  simp only [MemOp.contribution]
  split
  · rename_i offset ho
    rcases idle offset ho with zero | ⟨c, hc, zero⟩
    · rw [zero, scaled_zero]
    · rw [const offset c hc, zero]
      rfl
  · rfl

theorem preserves_of_kept (idle : OffsetIdle g op) (count : CountKept host g op) : Preserves host g op := by
  intro new h vals admits
  obtain ⟨arg0, arg1, hop, size, address⟩ := foldAddress_eq_some h
  have sum := sum_of_computed admits.addr hop size
  rw [address, MemOp.address, contribution_of_idle idle admits.constants, BitVec.add_zero, sum]
  cases hm : matchExtended host g op.accessSize arg0 arg1 with
  | none =>
    simp only [memExtendedAddressing, hm, Option.getD_none, Extended.address, scaled, extend]
    simp
  | some e =>
    simp only [memExtendedAddressing, hm, Option.getD_some]
    rw [BitVec.add_comm (vals arg0)]
    apply match_address hm _ admits.constants (admits.arg0 arg0 arg1 hop)
    intro src amount c hsh hc
    exact count arg0 arg1 src amount c hop hsh hc (by simp [hm])

/-! ## Registers -/

/-- Values of the registers, from which those of the sum are computed. -/
def registerVals (g : Graph) (op : MemOp) (arg0 arg1 : NodeID) (registers : Valuation) : Valuation :=
  let base : Valuation := fun n => (g.valueConstant n).getD (registers n)
  let inner : Valuation := Function.update base arg0 (((g arg0).value base).getD (base arg0))
  Function.update inner op.addr (inner arg0 + inner arg1)

section

variable {g : Graph} {op : MemOp} {arg0 arg1 : NodeID} (separate : Separate g op) (hop : (g op.addr).op = .binary .Add arg0 arg1)
  (registers : Valuation)

theorem registerVals_other {n : NodeID} (haddr : n ≠ op.addr) (harg0 : n ≠ arg0) :
    registerVals g op arg0 arg1 registers n = (g.valueConstant n).getD (registers n) := by
  simp [registerVals, Function.update_of_ne haddr, Function.update_of_ne harg0]

include separate hop

theorem registerVals_arg0 :
    registerVals g op arg0 arg1 registers arg0 =
      ((g arg0).value (registerVals g op arg0 arg1 registers)).getD ((g.valueConstant arg0).getD (registers arg0)) := by
  obtain ⟨h0, h1, hout, hself⟩ := separate.addr arg0 arg1 hop
  have same : (g arg0).value (registerVals g op arg0 arg1 registers) =
      (g arg0).value (fun n => (g.valueConstant n).getD (registers n)) := by
    apply Header.value_congr
    intro a ha
    apply registerVals_other
    · rintro rfl
      exact hout ha
    · rintro rfl
      exact hself ha
  rw [same]
  simp [registerVals, Function.update_of_ne h0]

theorem registerVals_addr :
    registerVals g op arg0 arg1 registers op.addr =
      registerVals g op arg0 arg1 registers arg0 + registerVals g op arg0 arg1 registers arg1 := by
  obtain ⟨h0, h1, -, -⟩ := separate.addr arg0 arg1 hop
  simp [registerVals, Function.update_of_ne h0, Function.update_of_ne h1]

theorem admits_registerVals (size : (g op.addr).size = .i64Bit) : Admits g op (registerVals g op arg0 arg1 registers) where
  constants n c hc := by
    have ne : n ≠ op.addr := by
      rintro rfl
      simp [Graph.valueConstant, hop] at hc
    by_cases h0 : n = arg0
    · subst h0
      have value : (g n).value (registerVals g op n arg1 registers) = some c := by
        simp [Header.value, Graph.valueConstant_eq_some.mp hc]
      rw [registerVals_arg0 separate hop, value, Option.getD_some]
    · rw [registerVals_other registers ne h0, hc, Option.getD_some]
  addr v hv := by
    simp only [Header.value, hop, size, BinaryOp.run, opAdd, doOp48, Option.some.injEq] at hv
    rw [registerVals_addr separate hop, hv]
  arg0 arg0' arg1' hop' v hv := by
    obtain ⟨rfl, rfl⟩ : arg0 = arg0' ∧ arg1 = arg1' := by simpa [hop] using hop'
    rw [registerVals_arg0 separate hop, hv, Option.getD_some]

end

theorem setWidth_extend (offsetType : MemOffsetType) (v : BitVec 64) : (extend offsetType v).setWidth 8 = v.setWidth 8 := by
  apply BitVec.eq_of_getLsbD_eq
  intro i hi
  cases offsetType with
  | SXTX => rfl
  | UXTW =>
    simp [extend, hi, show i < 64 by omega]
  | SXTW =>
    simp only [extend, BitVec.getLsbD_setWidth, BitVec.getLsbD_signExtend, hi, show i < 32 by omega, show i < 64 by omega,
      decide_true, Bool.true_and, if_true]

theorem scale_of_scaled_one {offsetType : MemOffsetType} {scale : BitVec 8} (h : scaled offsetType scale 1 = 0) : scale = 0 := by
  have low := congrArg (BitVec.setWidth 8) h
  rw [scaled, setWidth_extend] at low
  simpa using low

theorem address_of_zero (hop : (g op.addr).op = .binary .Add arg0 arg1) (size : (g op.addr).size = .i64Bit)
    (address : new.address vals = (memExtendedAddressing host g op.accessSize arg0 arg1).address vals)
    (admits : Admits g op vals) (zero : ∀ src amount, (g arg0).op = .binary .Lshl src amount → vals src = 0#64) :
    new.address vals = vals op.addr := by
  have sum := sum_of_computed admits.addr hop size
  have computed := admits.arg0 arg0 arg1 hop
  rw [address, sum]
  cases hm : matchExtended host g op.accessSize arg0 arg1 with
  | none =>
    simp only [memExtendedAddressing, hm, Option.getD_none, Extended.address, scaled, extend]
    simp
  | some e =>
    simp only [memExtendedAddressing, hm, Option.getD_some]
    rw [BitVec.add_comm (vals arg0)]
    by_cases shift : ∃ src amount count, (g arg0).op = .binary .Lshl src amount ∧ g.valueConstant amount = some count
    · obtain ⟨src, amount, count, hsh, hc⟩ := shift
      have both := match_lshl hm hsh hc admits.constants computed
      rw [both.1, both.2, zero src amount hsh, BitVec.zero_shiftLeft, BitVec.zero_shiftLeft]
    · exact match_address hm (fun src amount count hsh hc => absurd ⟨src, amount, count, hsh, hc⟩ shift) admits.constants computed

theorem one_shiftLeft_ne {k l : Nat} (hk : k < 64) (h : k ≠ l) : 1#64 <<< k ≠ 1#64 <<< l := by
  intro eq
  have bit := congrArg (fun v => v.getLsbD k) eq
  simp [hk] at bit
  omega

theorem Separate.arg_ne {src : NodeID} (separate : Separate g op)
    (hop : (g op.addr).op = .binary .Add arg0 arg1) (mem : src ∈ (g arg0).op.args) : src ≠ op.addr ∧ src ≠ arg0 := by
  obtain ⟨-, -, hout, hself⟩ := separate.addr arg0 arg1 hop
  constructor
  · rintro rfl
    exact hout mem
  · rintro rfl
    exact hself mem

theorem kept_of_preserves (separate : Separate g op)
    (folds : foldAddress host g op = some new) (preserves : Preserves host g op) : OffsetIdle g op ∧ CountKept host g op := by
  obtain ⟨arg0, arg1, hop, size, address⟩ := foldAddress_eq_some folds
  have idle : OffsetIdle g op := by
    intro offset ho
    -- values for which the offset counts: it is 1 and all else is 0
    let vals := registerVals g op arg0 arg1 (fun n => if n = offset then 1 else 0)
    have admits : Admits g op vals := admits_registerVals separate hop _ size
    have same := preserves new folds vals admits
    rw [address_of_zero hop size (address vals) admits, MemOp.address] at same
    · have zero : op.contribution vals = 0 := by simpa using same
      simp only [MemOp.contribution, ho] at zero
      cases hc : g.valueConstant offset with
      | some c =>
        rw [admits.constants offset c hc] at zero
        exact .inr ⟨c, rfl, zero⟩
      | none =>
        obtain ⟨h1, h2, -⟩ := separate.offset arg0 arg1 offset hop ho hc
        have one : vals offset = 1 := by
          simp only [vals]
          rw [registerVals_other _ h1 h2, hc]
          simp
        rw [one] at zero
        exact .inl (scale_of_scaled_one zero)
    · intro src amount hsh
      have notConst := separate.shifted arg0 arg1 src amount hop hsh
      have mem : src ∈ (g arg0).op.args := by simp [hsh, Op.args]
      obtain ⟨h1, h2⟩ := separate.arg_ne hop mem
      have other : src ≠ offset := by
        rintro rfl
        exact (separate.offset arg0 arg1 src hop ho notConst).2.2 mem
      simp only [vals]
      rw [registerVals_other _ h1 h2, notConst]
      simp [other]
  refine ⟨idle, ?_⟩
  intro arg0' arg1' src amount count hop' hsh hc matched
  obtain ⟨rfl, rfl⟩ : arg0 = arg0' ∧ arg1 = arg1' := by simpa [hop] using hop'
  by_contra wraps
  -- values for which the count counts
  let vals := registerVals g op arg0 arg1 (fun n => if n = src then 1 else 0)
  have admits : Admits g op vals := admits_registerVals separate hop _ size
  have same := preserves new folds vals admits
  obtain ⟨e, hm⟩ := Option.isSome_iff_exists.mp matched
  have both := match_lshl hm hsh hc admits.constants (admits.arg0 arg0 arg1 hop)
  have sum := sum_of_computed admits.addr hop size
  have one : vals src = 1#64 := by
    have mem : src ∈ (g arg0).op.args := by simp [hsh, Op.args]
    obtain ⟨h1, h2⟩ := separate.arg_ne hop mem
    simp only [vals]
    rw [registerVals_other _ h1 h2, separate.shifted arg0 arg1 src amount hop hsh]
    simp
  rw [address, memExtendedAddressing, hm, Option.getD_some, both.1, MemOp.address, contribution_of_idle idle admits.constants,
    BitVec.add_zero, sum, both.2, one, BitVec.add_comm (1#64 <<< _)] at same
  have shifts := (BitVec.add_right_inj _).mp same
  exact one_shiftLeft_ne (by omega) (by omega) shifts

/-! ## Pools -/

/-- The entries are constants of the graph, with names in use. -/
def Pool.Valid (pool : Pool) : Prop :=
  ∀ node const, (node, const) ∈ pool.consts → pool.graph.valueConstant node = some const ∧ node < pool.next

theorem mem_insertConst {n m : NodeID} {value const : BitVec 64} {consts : List (NodeID × BitVec 64)}
    (h : (m, const) ∈ insertConst n value consts) : (m = n ∧ const = value) ∨ (m, const) ∈ consts := by
  induction consts with
  | nil =>
    simp only [insertConst, List.mem_singleton, Prod.mk.injEq] at h
    exact .inl h
  | cons entry rest ih =>
    simp only [insertConst] at h
    split at h
    · rcases List.mem_cons.mp h with h | h
      · exact .inl (Prod.mk.inj h)
      · exact .inr h
    · split at h
      · rcases List.mem_cons.mp h with h | h
        · exact .inl (Prod.mk.inj h)
        · exact .inr (List.mem_cons_of_mem _ h)
      · rcases List.mem_cons.mp h with h | h
        · exact .inr (h ▸ List.mem_cons_self)
        · rcases ih h with h | h
          · exact .inl h
          · exact .inr (List.mem_cons_of_mem _ h)

theorem valueConstant_update {n m : NodeID} {header : Header} (h : m ≠ n) :
    Graph.valueConstant (Function.update g n header) m = g.valueConstant m := by
  simp [Graph.valueConstant, Function.update_of_ne h]

theorem valueConstant_new (g : Graph) (n : NodeID) (c : BitVec 64) :
    Graph.valueConstant (Function.update g n ⟨.constant c, .i64Bit⟩) n = some c := by
  simp [Graph.valueConstant]

theorem Pool.step_cases (pool : Pool) (op : MemOp) :
    (pool.step op = (op, pool) ∧ (pool.graph.valueConstant op.addr = none ∨ op.offset ≠ none)) ∨
    (∃ addr, pool.graph.valueConstant op.addr = some addr ∧ op.offset = none ∧
      ((pool.consts.find? (fun const => (addr - const.2).toNat < 65536) = none ∧
        pool.step op = (op, { pool with consts := insertConst op.addr addr pool.consts })) ∨
      ∃ node const, pool.consts.find? (fun const => (addr - const.2).toNat < 65536) = some (node, const) ∧
        pool.step op = ({ op with addr := node, offset := some pool.next },
          { pool with
            graph := Function.update pool.graph pool.next ⟨.constant (addr - const), .i64Bit⟩
            next := pool.next + 1 }))) := by
  cases hc : pool.graph.valueConstant op.addr with
  | none => exact .inl ⟨by simp [Pool.step, hc], .inl rfl⟩
  | some addr =>
    cases ho : op.offset with
    | some offset => exact .inl ⟨by simp [Pool.step, hc, ho], .inr (by simp)⟩
    | none =>
      refine .inr ⟨addr, rfl, rfl, ?_⟩
      cases hf : pool.consts.find? (fun const => (addr - const.2).toNat < 65536) with
      | none => exact .inl ⟨rfl, by simp only [Pool.step, hc, ho, hf]⟩
      | some entry => exact .inr ⟨entry.1, entry.2, rfl, by simp only [Pool.step, hc, ho, hf]⟩

theorem Pool.Valid.step {pool : Pool} (valid : pool.Valid) {op : MemOp} (named : op.addr < pool.next) :
    (pool.step op).2.Valid ∧ pool.next ≤ (pool.step op).2.next := by
  rcases pool.step_cases op with ⟨h, -⟩ | ⟨addr, hc, -, ⟨-, h⟩ | ⟨node, const, -, h⟩⟩
  · rw [h]
    exact ⟨valid, le_rfl⟩
  · rw [h]
    refine ⟨?_, le_rfl⟩
    intro m c hm
    rcases mem_insertConst hm with ⟨rfl, rfl⟩ | hm
    · exact ⟨hc, named⟩
    · exact valid m c hm
  · rw [h]
    refine ⟨?_, Nat.le_succ _⟩
    intro m c hm
    obtain ⟨hmc, lt⟩ := valid m c hm
    exact ⟨(valueConstant_update (Nat.ne_of_lt lt)).trans hmc, Nat.lt_succ_of_lt lt⟩

theorem Pool.Valid.run {pool : Pool} (valid : pool.Valid) {ops : List MemOp} (named : ∀ op ∈ ops, op.addr < pool.next) :
    (pool.run ops).Valid ∧ pool.next ≤ (pool.run ops).next := by
  induction ops generalizing pool with
  | nil => exact ⟨valid, le_rfl⟩
  | cons op ops ih =>
    obtain ⟨valid', le⟩ := valid.step (named op List.mem_cons_self)
    obtain ⟨valid'', le'⟩ := ih valid' (fun o ho => lt_of_lt_of_le (named o (List.mem_cons_of_mem op ho)) le)
    exact ⟨valid'', le_trans le le'⟩

theorem extend_small (offsetType : MemOffsetType) {v : BitVec 64} (h : v.toNat < 2 ^ 31) : extend offsetType v = v := by
  cases offsetType with
  | SXTX => rfl
  | UXTW =>
    apply BitVec.eq_of_toNat_eq
    simp only [extend, BitVec.toNat_setWidth]
    omega
  | SXTW =>
    have msb : (v.setWidth 32).msb = false := by
      rw [BitVec.msb_eq_decide, BitVec.toNat_setWidth, decide_eq_false_iff_not]
      omega
    rw [extend, BitVec.signExtend_eq_setWidth_of_msb_false msb]
    apply BitVec.eq_of_toNat_eq
    simp only [BitVec.toNat_setWidth]
    omega

theorem scaled_eq_self_iff {offsetType : MemOffsetType} {scale : BitVec 8} {offset : BitVec 64} (small : offset.toNat < 65536) :
    scaled offsetType scale offset = offset ↔ scale = 1 ∨ offset = 0#64 := by
  have lt := scale.isLt
  have le : offset.toNat * scale.toNat ≤ 65536 * 256 := Nat.mul_le_mul small.le lt.le
  have product : (offset * scale.setWidth 64).toNat = offset.toNat * scale.toNat := by
    rw [BitVec.toNat_mul, BitVec.toNat_setWidth, Nat.mod_eq_of_lt (show scale.toNat < 2 ^ 64 by omega), Nat.mod_eq_of_lt (by omega)]
  rw [scaled, extend_small _ (by omega)]
  constructor
  · intro same
    rw [same] at product
    by_cases zero : offset = 0#64
    · exact .inr zero
    · left
      have pos : 0 < offset.toNat := Nat.pos_of_ne_zero (fun h => zero (BitVec.eq_of_toNat_eq h))
      apply BitVec.eq_of_toNat_eq
      have : offset.toNat * 1 = offset.toNat * scale.toNat := by rw [Nat.mul_one, ← product]
      exact (Nat.eq_of_mul_eq_mul_left pos this).symm
  · rintro (rfl | rfl)
    · simp
    · simp

theorem Pool.preserves_iff {pool : Pool} (valid : pool.Valid) {op : MemOp} (named : op.addr < pool.next) :
    pool.Preserves op ↔ pool.Kept op := by
  rcases pool.step_cases op with ⟨h, other⟩ | ⟨addr, hc, ho, ⟨hf, h⟩ | ⟨node, const, hf, h⟩⟩
  · simp only [Pool.Preserves, Pool.Kept, h]
    refine ⟨fun _ addr const hc ho => ?_, fun _ _ _ => trivial⟩
    rcases other with none | some
    · rw [none] at hc
      cases hc
    · exact absurd ho some
  · simp only [Pool.Preserves, Pool.Kept, h]
    refine ⟨fun _ addr' const hc' _ hf' => ?_, fun _ _ _ => trivial⟩
    obtain rfl : addr = addr' := by simpa [hc] using hc'
    rw [hf] at hf'
    cases hf'
  · obtain ⟨hnode, lt⟩ := valid node const (List.mem_of_find?_eq_some hf)
    have small : (addr - const).toNat < 65536 := by simpa using List.find?_some hf
    -- All three nodes are constants, so that one valuation is as good as another.
    have address : ∀ vals, HoldsConstants (pool.step op).2.graph vals → ((pool.step op).1.address vals = op.address vals ↔
        scaled op.offsetType op.offsetScale (addr - const) = addr - const) := by
      intro vals holds
      rw [h] at holds ⊢
      have base := holds node const ((valueConstant_update (Nat.ne_of_lt lt)).trans hnode)
      have old := holds op.addr addr ((valueConstant_update (Nat.ne_of_lt named)).trans hc)
      have new := holds pool.next (addr - const) (valueConstant_new _ _ _)
      simp only [MemOp.address, MemOp.contribution, ho, base, old, new]
      have whole : const + (addr - const) = addr := by rw [BitVec.add_comm, BitVec.sub_add_cancel]
      have sum : addr + 0 = const + (addr - const) := by rw [whole]; exact BitVec.add_zero addr
      rw [sum, BitVec.add_right_inj]
    have difference : addr - const = 0#64 ↔ addr = const := by
      rw [eq_comm, BitVec.eq_sub_iff_add_eq, BitVec.zero_add, eq_comm]
    constructor
    · intro preserves addr' entry hc' _ hf'
      obtain rfl : addr = addr' := by simpa [hc] using hc'
      obtain rfl : (node, const) = entry := by
        rw [hf] at hf'
        exact Option.some.inj hf'
      have holds : HoldsConstants (pool.step op).2.graph (fun n => ((pool.step op).2.graph.valueConstant n).getD 0) := by
        intro n c hn
        simp [hn]
      have same := (scaled_eq_self_iff small).mp ((address _ holds).mp (preserves _ holds))
      rwa [difference] at same
    · intro kept vals holds
      have same := kept addr (node, const) hc ho hf
      rw [← difference] at same
      exact (address vals holds).mpr ((scaled_eq_self_iff small).mpr same)

/-! ## The pass -/

/-- One op, where the offset is idle and the count kept; and the shared pool of constants after any run of the pass. -/
theorem addressFolding_preserves_iff {host : Host} {g : Graph} {op : MemOp} {next : NodeID} {ops : List MemOp}
    (named : ∀ o ∈ op :: ops, o.addr < next) :
    ((OffsetIdle g op ∧ CountKept host g op → Preserves host g op) ∧
      (Separate g op → (foldAddress host g op).isSome → Preserves host g op → OffsetIdle g op ∧ CountKept host g op)) ∧
    (Pool.Preserves (Pool.run ⟨g, next, []⟩ ops) op ↔ Pool.Kept (Pool.run ⟨g, next, []⟩ ops) op) := by
  have empty : Pool.Valid ⟨g, next, []⟩ := fun _ _ h => nomatch h
  obtain ⟨valid, le⟩ := empty.run (fun o ho => named o (List.mem_cons_of_mem op ho))
  refine ⟨⟨fun kept => preserves_of_kept kept.1 kept.2, ?_⟩, Pool.preserves_iff valid ?_⟩
  · intro separate folds preserves
    obtain ⟨new, h⟩ := Option.isSome_iff_exists.mp folds
    exact kept_of_preserves separate h preserves
  · exact lt_of_lt_of_le (named op List.mem_cons_self) le

/-- `[base + (index << count)]`. -/
def indexedGraph (count : BitVec 64) : Graph
  | 1 => ⟨.other [], .i64Bit⟩
  | 2 => ⟨.other [], .i64Bit⟩
  | 3 => ⟨.constant count, .i64Bit⟩
  | 4 => ⟨.binary .Lshl 1 3, .i64Bit⟩
  | 5 => ⟨.binary .Add 4 2, .i64Bit⟩
  | _ => ⟨.other [], .i64Bit⟩

theorem indexed_preserves : Preserves .x86_64 (indexedGraph 3) ⟨8, 5, none, .SXTX, 1⟩ := by
  have named : ∀ o ∈ [(⟨8, 5, none, .SXTX, 1⟩ : MemOp)], o.addr < 6 := by decide
  refine (addressFolding_preserves_iff named).1.1 ⟨?_, ?_⟩
  · exact fun _ h => nomatch h
  · intro arg0 arg1 src amount count hop hsh hc _
    cases hop
    cases hsh
    cases hc
    decide

theorem indexed_loses_count : ¬ ∀ (host : Host) (g : Graph) (op : MemOp), Preserves host g op := by
  intro preserves
  let vals : Valuation := fun n => if n = 1 then 1 else if n = 3 then 32 else if n = 4 ∨ n = 5 then 0x100000000 else 0
  have admits : Admits (indexedGraph 32) ⟨8, 5, none, .SXTX, 1⟩ vals := by
    refine ⟨?_, ?_, ?_⟩
    · intro n c hc
      rw [Graph.valueConstant_eq_some] at hc
      unfold indexedGraph at hc
      split at hc <;> cases hc
      rfl
    · intro v hv
      cases hv
      decide
    · intro arg0 arg1 hop v hv
      cases hop
      cases hv
      decide
  have h := preserves .x86_64 (indexedGraph 32) ⟨8, 5, none, .SXTX, 1⟩ ⟨8, 2, some 1, .SXTX, 1⟩ (by decide) vals admits
  revert h
  decide

end FexEmu.AddressFolding
