import FexEmu.OpcodeDispatcher.IntegerFlags
/-!
# Counted branches

`LoopOp` and `CondJUMPRCXOp`. A `LOOP` counts with the register of the operand size, whatever the address size is.
-/
namespace FexEmu.OpcodeDispatcher.Integer

open Interpreter
open Address (Node constant gprSize addrSize getRelocatedPC)
open BitVec (toNat_inj)
open Option (bind_some getD_some)
open StringOps (State loadFlag hasAddressSize)
open Frontend.ModRM (DecodedOperand)
open Frontend.Prefixes (flag addressSizeBit)

/-- The entries of the blocks that are compiled along. In 32-bit mode they lie below 4 GB, as the section does. -/
structure JumpTargets (is64BitMode : Bool) where
  find : BitVec 64 → Bool
  low : is64BitMode = false → ∀ rip, find rip = true → rip.toNat < 2 ^ 32

/-- The state behind a branch, whether it was taken, and where it leads. -/
structure Branch where
  state : State
  taken : Bool
  rip : BitVec 64

/-- A counted branch as it is decoded. With an operand size prefix its sizes are 2. -/
structure CountedInst (is64BitMode : Bool) extends DecodedInst where
  rcx : op ≠ 0xE3 → src 0 = .gpr false .rcx
  srcSize : getSrcSize toDecodedInst = 2 ∨ getSrcSize toDecodedInst = gprSize is64BitMode
  dstSize : getDstSize toDecodedInst = getSrcSize toDecodedInst

def literalValue : DecodedOperand → BitVec 64
  | .literal _ value => value
  | _ => 0

section
variable {is64BitMode : Bool} (jumpTargets : JumpTargets is64BitMode) (op : DecodedInst) (s : State)

/-- To a block of its own, or through `_ExitFunction`. -/
def leave (offset : BitVec 64) : BitVec 64 :=
  let target := op.pc + BitVec.ofNat 64 op.instSize + offset
  if jumpTargets.find target then target else (getRelocatedPC is64BitMode op.toDecodedOp offset).value

def condJump (taken : Bool) (literal : BitVec 64) : Branch :=
  ⟨s, taken, leave jumpTargets op (if taken then literal else 0)⟩

def condJUMPRCXOp : Option Branch :=
  let s := s.calculateDeferredFlags
  let jcxGPRSize := if hasAddressSize op.toDecodedOp then gprSize is64BitMode >>> 1 else gprSize is64BitMode
  let condReg := s.loadGreg jcxGPRSize .rcx
  some (condJump jumpTargets op s (condReg.value = 0) (literalValue (op.src 0)))

def loopOp : Option Branch := do
  let s := s.calculateDeferredFlags
  let checkZF := op.op ≠ 0xE2
  let zfTrue := op.op = 0xE1
  let srcSize := if hasAddressSize op.toDecodedOp then 4 else 8
  let condReg ← loadSource is64BitMode op s (op.src 0)
  let condReg := sub condReg (constant (srcSize * 8) 1)
  let s ← storeResultTo is64BitMode op s (op.src 0) condReg
  let srcCond := select .NEQ condReg (const 0) (const 1) (const 0)
  let zf := loadFlag s.flags.zf
  let zf := if zfTrue then zf else xor zf (const 1)
  let srcCond := if checkZF then and srcCond zf else srcCond
  some (condJump jumpTargets op s (srcCond.value ≠ 0) (literalValue (op.src 1)))

def countedBranchOp : Option Branch := if op.op = 0xE3 then condJUMPRCXOp jumpTargets op s else loopOp jumpTargets op s

/-! ## The architecture -/

variable (is64BitMode)

/-- An operand size prefix cuts the instruction pointer of a 32-bit mode branch that is taken. -/
def targetSize : Nat := if is64BitMode = false ∧ getSrcSize op = 2 then 2 else gprSize is64BitMode

def wrapped (size : Nat) (rip : BitVec 64) : BitVec 64 := (rip.setWidth (8 * size)).setWidth 64

def branch (taken : Bool) (literal : BitVec 64) : Branch :=
  let next := op.pc + BitVec.ofNat 64 op.instSize
  ⟨s, taken, if taken then wrapped (targetSize is64BitMode op) (next + literal) else wrapped (gprSize is64BitMode) next⟩

/-- What a `LOOP` asks of the zero flag. -/
def zfAllows : Bool := op.op = 0xE2 || s.calculateDeferredFlags.flags.zf = decide (op.op = 0xE1)

/-- A `LOOP` that counts with `size` bytes. -/
def countDown (size : Nat) : Branch :=
  let rcx := s.cpu.gregs .rcx
  let count : BitVec (8 * size) := readReg size false rcx - 1
  branch is64BitMode op (setGPR s.calculateDeferredFlags .rcx (writeReg is64BitMode false count rcx))
    (count ≠ 0 && zfAllows op s) (literalValue (op.src 1))

def countedBranch : Branch :=
  let size := addrSize is64BitMode op.toDecodedOp
  if op.op = 0xE3 then
    branch is64BitMode op s.calculateDeferredFlags (readReg size false (s.cpu.gregs .rcx) = 0) (literalValue (op.src 0))
  else countDown is64BitMode op s size

/-- The count register of the operand size and the one of the address size count down to the same. -/
def CountsAlike : Prop :=
  let rcx := (s.cpu.gregs .rcx).toNat
  let size := addrSize is64BitMode op.toDecodedOp
  getSrcSize op = size ∨
    if getSrcSize op = 8 then 1 ≤ rcx ∧ rcx ≤ 2 ^ 32
    else (is64BitMode = true → size = 4 → rcx < 2 ^ 32) ∧ rcx % 2 ^ 16 ≠ 0 ∧
      (rcx % 2 ^ 16 = 1 → zfAllows op s = true → rcx % 2 ^ (8 * max (getSrcSize op) size) = 1)

/-- A target that is cut to 16 bits has no more. -/
def TargetFits : Prop :=
  let target := op.pc + BitVec.ofNat 64 op.instSize + literalValue (if op.op = 0xE3 then op.src 0 else op.src 1)
  (countedBranch is64BitMode op s).taken = true → targetSize is64BitMode op = 2 → target.toNat % 2 ^ 32 < 2 ^ 16

end

section
variable {is64BitMode : Bool} {jumpTargets : JumpTargets is64BitMode} {op : DecodedInst} {s : State} {size : Nat}

theorem leave_eq (offset : BitVec 64) : leave jumpTargets op offset
    = wrapped (gprSize is64BitMode) (op.pc + BitVec.ofNat 64 op.instSize + offset) := by
  unfold leave wrapped
  generalize htarget : op.pc + BitVec.ofNat 64 op.instSize + offset = target
  have hexit : op.entry + (target - op.entry) = target := by bv_omega
  cases is64BitMode with
  | true => simp [getRelocatedPC, Address.entrypointOffset, gprSize, htarget, hexit]
  | false =>
    have hmask : target &&& 0xFFFFFFFF = (target.setWidth 32).setWidth 64 := by
      apply BitVec.eq_of_toNat_eq
      rw [show (0xFFFFFFFF : BitVec 64) = BitVec.allOnes 64 >>> (64 - 32) by decide, Address.toNat_and_mask _ (by decide)]
      bv_omega
    simp only [getRelocatedPC, Address.entrypointOffset, gprSize, htarget, hexit]
    split
    · case isTrue found =>
      have hlow : target.toNat < 2 ^ 32 := jumpTargets.low rfl target found
      apply BitVec.eq_of_toNat_eq
      simp
      omega
    · exact hmask

/-- The code wraps a target to the mode's size. -/
theorem wrapped_target_iff (target : BitVec 64) :
    wrapped (gprSize is64BitMode) target = wrapped (targetSize is64BitMode op) target ↔
      (targetSize is64BitMode op = 2 → target.toNat % 2 ^ 32 < 2 ^ 16) := by
  unfold targetSize
  split_ifs with hcut
  · rw [hcut.1, eq_self, true_implies]
    show (target.setWidth 32).setWidth 64 = (target.setWidth 16).setWidth 64 ↔ _
    bv_omega
  · have hsize : gprSize is64BitMode ≠ 2 := by cases is64BitMode <;> decide
    simp [hsize]

theorem condJump_eq_iff (s' : State) (taken taken' : Bool) (literal : BitVec 64) :
    condJump jumpTargets op s taken literal = branch is64BitMode op s' taken' literal ↔
      (s = s' ∧ taken = taken') ∧ (taken' = true → targetSize is64BitMode op = 2 →
        (op.pc + BitVec.ofNat 64 op.instSize + literal).toNat % 2 ^ 32 < 2 ^ 16) := by
  rw [condJump, branch, Branch.mk.injEq, leave_eq, ← and_assoc]
  refine and_congr_right ?_
  rintro ⟨-, rfl⟩
  cases taken with
  | false => simp
  | true =>
    simp only [if_true, forall_const]
    exact wrapped_target_iff _

theorem addrSize_le (op : Address.DecodedOp) : addrSize is64BitMode op ≤ 8 := by
  unfold addrSize gprSize
  split <;> split <;> decide

theorem addrSize_eq (op : Address.DecodedOp) :
    addrSize is64BitMode op = if hasAddressSize op then gprSize is64BitMode / 2 else gprSize is64BitMode := by
  simp [hasAddressSize, addrSize]

theorem condJUMPRCXOp_eq : condJUMPRCXOp jumpTargets op s = some (condJump jumpTargets op s.calculateDeferredFlags
    (readReg (addrSize is64BitMode op.toDecodedOp) false (s.cpu.gregs .rcx) = 0) (literalValue (op.src 0))) := by
  have hsize : (if hasAddressSize op.toDecodedOp then gprSize is64BitMode >>> 1 else gprSize is64BitMode)
      = addrSize is64BitMode op.toDecodedOp := by
    rw [addrSize_eq, Nat.shiftRight_one]
  have hzero : (s.calculateDeferredFlags.loadGreg (addrSize is64BitMode op.toDecodedOp) .rcx).value = 0 ↔
      readReg (addrSize is64BitMode op.toDecodedOp) false (s.cpu.gregs .rcx) = 0 :=
    setWidth_eq_zero (by have := @addrSize_le is64BitMode op.toDecodedOp; omega)
  simp only [condJUMPRCXOp, hsize, hzero]

/-- One less than the count: its low bytes, and whether it is zero. -/
theorem sub_one (hsize : size = 2 ∨ size = 4 ∨ size = 8) {k : Nat} (hk : k = 4 ∨ k = 8) (count : BitVec (8 * size)) :
    Carries (sub ⟨size, count.setWidth 64⟩ (constant (k * 8) 1)) (count - 1) := by
  have ha : IsSize size := .inr hsize
  have hone : constant (k * 8) 1 = ⟨k, 1⟩ := by rcases hk with rfl | rfl <;> rfl
  have hb : IsSize k := hk.elim (fun h => h ▸ isSize_four) fun h => h ▸ isSize_eight
  have hvalue := @sub_value ⟨size, count.setWidth 64⟩ ⟨k, 1⟩ ha hb
  have hwide : atLeast4 ⟨size, count.setWidth 64⟩ ⟨k, 1⟩ = 4 ∧ size ≠ 8 ∨
      atLeast4 ⟨size, count.setWidth 64⟩ ⟨k, 1⟩ = 8 := by
    simp only [atLeast4]
    omega
  rw [hone]
  refine ⟨isSize_four.max (ha.max hb), ?_, ?_, ?_⟩
  · simp only [sub_size, atLeast4]
    omega
  all_goals
    rw [hvalue]
    obtain ⟨hwide, hne⟩ | hwide := hwide
    · rw [hwide]
      obtain rfl | rfl | rfl := hsize <;> bv_omega
    · rw [hwide]
      obtain rfl | rfl | rfl := hsize <;> bv_omega

theorem select_NEQ (a : Node) (ha : a.size ≤ 8) :
    select .NEQ a (const 0) (const 1) (const 0) = const (if a.value = 0 then 0 else 1) := by
  have hsize : atLeast4 a (const 0) = 8 := by
    simp only [atLeast4, const_size]
    omega
  have hnode : atLeast4 (const 1) (const 0) = 8 := rfl
  rw [select, hsize, hnode]
  simp only [emit, opSize, opSelect, isConditionTrue, bind_some, getD_some, const_value]
  by_cases hzero : a.value = 0#64 <;> simp [hzero, const]

theorem srcCond_eq (zero : Prop) [Decidable zero] (zf : Bool) (op : Nat) :
    decide ((if op ≠ 0xE2 then
      and (const (if zero then 0 else 1)) (if op = 0xE1 then loadFlag zf else xor (loadFlag zf) (const 1))
      else const (if zero then 0 else 1)).value ≠ 0)
    = (decide ¬zero && (decide (op = 0xE2) || decide (zf = decide (op = 0xE1)))) := by
  by_cases hzero : zero <;> by_cases hloop : op = 0xE2 <;> by_cases hloope : op = 0xE1 <;> cases zf <;>
    simp only [hzero, hloop, hloope, ne_eq, if_true, if_false] <;> decide

/-- What the count register of a size counts down to. -/
def counted (is64BitMode : Bool) (s : State) (size : Nat) : BitVec 64 :=
  writeReg is64BitMode false ((readReg size false (s.cpu.gregs .rcx) : BitVec (8 * size)) - 1) (s.cpu.gregs .rcx)

def countTaken (op : DecodedInst) (s : State) (size : Nat) : Bool :=
  (readReg size false (s.cpu.gregs .rcx) : BitVec (8 * size)) - 1 ≠ 0 && zfAllows op s

theorem CountedInst.srcSize_cases (op : CountedInst is64BitMode) : getSrcSize op.toDecodedInst = 2 ∨
    (getSrcSize op.toDecodedInst = 4 ∧ is64BitMode = false) ∨ (getSrcSize op.toDecodedInst = 8 ∧ is64BitMode = true) := by
  have hsize := op.srcSize
  cases is64BitMode with
  | false => exact hsize.imp_right fun h => .inl ⟨h, rfl⟩
  | true => exact hsize.imp_right fun h => .inr ⟨h, rfl⟩

theorem addrSize_cases (op : Address.DecodedOp) :
    (is64BitMode = true ∧ (addrSize is64BitMode op = 8 ∨ addrSize is64BitMode op = 4)) ∨
    (is64BitMode = false ∧ (addrSize is64BitMode op = 4 ∨ addrSize is64BitMode op = 2)) := by
  rw [addrSize_eq]
  cases is64BitMode <;> cases hasAddressSize op <;> simp [gprSize]

theorem loopOp_eq (op : CountedInst is64BitMode) (hloop : op.op ≠ 0xE3) :
    loopOp jumpTargets op.toDecodedInst s = some (condJump jumpTargets op.toDecodedInst
      (setGPR s.calculateDeferredFlags .rcx (counted is64BitMode s (getSrcSize op.toDecodedInst)))
      (countTaken op.toDecodedInst s (getSrcSize op.toDecodedInst)) (literalValue (op.src 1))) := by
  generalize hopSize : getSrcSize op.toDecodedInst = opSize
  have hmode := hopSize ▸ op.srcSize_cases
  have hcases : opSize = 2 ∨ opSize = 4 ∨ opSize = 8 := by omega
  have hsize : IsSize opSize := .inr hcases
  have hrm : IsRM opSize (.gpr false .rcx) := ⟨rfl, fun h => by cases h⟩
  have hk : (if hasAddressSize op.toDecodedOp then 4 else 8) = 4 ∨ (if hasAddressSize op.toDecodedOp then 4 else 8) = 8 := by
    split <;> simp
  obtain ⟨l, hl, hload⟩ := @loadSource_rm is64BitMode op.toDecodedInst s.calculateDeferredFlags _ _ hsize.le hrm
  obtain rfl : Location.reg false .rcx = l := Option.some_inj.1 hl
  have hsub := sub_one hcases hk (readReg opSize false (s.cpu.gregs .rcx))
  have hstore (src : Node) := @storeResult_rm is64BitMode op.toDecodedInst s.calculateDeferredFlags _ _
    hsize (fun h8 => by simpa [h8] using hmode) hrm _ hl src (fun _ h64 h4 => by simp [h64, h4] at hmode)
  have hread : Location.read s.calculateDeferredFlags opSize (.reg false .rcx)
      = readReg opSize false (s.cpu.gregs .rcx) := rfl
  unfold loopOp
  simp only [loadSource, storeResultTo, op.rcx hloop, op.dstSize, hopSize, hload, Option.bind_eq_bind,
    Option.bind_some, hstore, hread, hsub.low, select_NEQ _ hsub.size.le, hsub.zero]
  rw [srcCond_eq]
  rfl

theorem toNat_writeReg (hmode : ¬(is64BitMode = true ∧ 4 ≤ size)) (hsize : size < 8) (v : BitVec (8 * size)) (reg : BitVec 64) :
    (writeReg is64BitMode false v reg).toNat = reg.toNat / 2 ^ (8 * size) * 2 ^ (8 * size) + v.toNat := by
  have hreg := reg.isLt
  have hle : reg.toNat / 2 ^ (8 * size) * 2 ^ (8 * size) ≤ reg.toNat := Nat.div_mul_le_self _ _
  have hor := Nat.shiftLeft_add_eq_or_of_lt v.isLt (reg.toNat / 2 ^ (8 * size))
  rw [Nat.shiftLeft_eq] at hor
  rw [hor]
  simp [writeReg, hmode, Nat.shiftLeft_eq, Nat.shiftRight_eq_div_pow, Nat.mod_eq_of_lt (hle.trans_lt hreg),
    BitVec.toNat_setWidth_of_le (show 8 * size ≤ 64 by omega)]

theorem setGPR_rcx_inj {v w : BitVec 64} : setGPR s .rcx v = setGPR s .rcx w ↔ v = w := by
  refine ⟨fun h => ?_, fun h => h ▸ rfl⟩
  simpa [setGPR] using congrArg (fun s : State => s.cpu.gregs .rcx) h

theorem half_64 (rcx : BitVec 64) (z : Bool) :
    (rcx.setWidth 64 - 1#64).setWidth 64 = (rcx.setWidth 32 - 1#32).setWidth 64 ∧
      (decide (rcx.setWidth 64 - 1#64 ≠ 0) && z) = (decide (rcx.setWidth 32 - 1#32 ≠ 0) && z) ↔
    1 ≤ rcx.toNat ∧ rcx.toNat ≤ 2 ^ 32 := by
  have hsame : (rcx.setWidth 64 - 1#64).setWidth 64 = (rcx.setWidth 32 - 1#32).setWidth 64 ↔
      1 ≤ rcx.toNat ∧ rcx.toNat ≤ 2 ^ 32 := by bv_omega
  rw [hsame]
  refine and_iff_left_of_imp fun h => ?_
  have hzero : rcx.setWidth 64 - 1#64 ≠ 0 ↔ rcx.setWidth 32 - 1#32 ≠ 0 := by bv_omega
  simp only [hzero]

theorem half_32 (rcx : BitVec 64) (z : Bool) :
    @writeReg false 4 false (rcx.setWidth 32 - 1#32) rcx = @writeReg false 2 false (rcx.setWidth 16 - 1#16) rcx ∧
      (decide (rcx.setWidth 32 - 1#32 ≠ 0) && z) = (decide (rcx.setWidth 16 - 1#16 ≠ 0) && z) ↔
    rcx.toNat % 2 ^ 16 ≠ 0 ∧ (rcx.toNat % 2 ^ 16 = 1 → z = true → rcx.toNat % 2 ^ 32 = 1) := by
  have hsame : @writeReg false 4 false (rcx.setWidth 32 - 1#32) rcx
      = @writeReg false 2 false (rcx.setWidth 16 - 1#16) rcx ↔ rcx.toNat % 2 ^ 16 ≠ 0 := by
    rw [← toNat_inj, toNat_writeReg (by decide) (by decide), toNat_writeReg (by decide) (by decide)]
    bv_omega
  have hwide : rcx.setWidth 32 - 1#32 ≠ 0 ↔ rcx.toNat % 2 ^ 32 ≠ 1 := by bv_omega
  have hnarrow : rcx.setWidth 16 - 1#16 ≠ 0 ↔ rcx.toNat % 2 ^ 16 ≠ 1 := by bv_omega
  simp only [hsame, hwide, hnarrow]
  refine and_congr_right fun _ => ?_
  cases z with
  | false => simp
  | true =>
    simp only [Bool.and_true, decide_eq_decide, true_implies]
    omega

/-- Taken or not, where one count is zero only with the other. -/
theorem taken_iff {p q : Prop} [Decidable p] [Decidable q] (h : q → p) (z : Bool) :
    (decide ¬p && z) = (decide ¬q && z) ↔ (p → z = true → q) := by
  by_cases hp : p
  · by_cases hq : q <;> cases z <;> simp [hp, hq]
  · simp [hp, mt h hp]

theorem narrow_64 (rcx : BitVec 64) (z : Bool) {w : Nat} (hw : w = 32 ∨ w = 64) :
    @writeReg true 2 false (rcx.setWidth 16 - 1#16) rcx = (rcx.setWidth w - 1#w).setWidth 64 ∧
      (decide (rcx.setWidth 16 - 1#16 ≠ 0) && z) = (decide (rcx.setWidth w - 1#w ≠ 0) && z) ↔
    (w = 32 → rcx.toNat < 2 ^ 32) ∧ rcx.toNat % 2 ^ 16 ≠ 0 ∧
      (rcx.toNat % 2 ^ 16 = 1 → z = true → rcx.toNat % 2 ^ w = 1) := by
  have hwrite : (@writeReg true 2 false (rcx.setWidth 16 - 1#16) rcx).toNat =
      rcx.toNat / 2 ^ 16 * 2 ^ 16 + (rcx.toNat % 2 ^ 16 + (2 ^ 16 - 1)) % 2 ^ 16 := by
    rw [toNat_writeReg (by decide) (by decide)]
    bv_omega
  have hsame : @writeReg true 2 false (rcx.setWidth 16 - 1#16) rcx = (rcx.setWidth w - 1#w).setWidth 64 ↔
      (w = 32 → rcx.toNat < 2 ^ 32) ∧ rcx.toNat % 2 ^ 16 ≠ 0 := by
    rw [← toNat_inj, hwrite]
    -- a borrow out of the low 16 bits stays there on one side only
    obtain hzero | ⟨h, hborrow⟩ : rcx.toNat % 2 ^ 16 = 0 ∨ rcx.toNat % 2 ^ 16 ≠ 0 ∧
        (rcx.toNat % 2 ^ 16 + (2 ^ 16 - 1)) % 2 ^ 16 = rcx.toNat % 2 ^ 16 - 1 := by omega
    · rw [hzero]
      obtain rfl | rfl := hw <;> bv_omega
    · have hnone : ((rcx.setWidth w - 1#w).setWidth 64).toNat = rcx.toNat % 2 ^ w - 1 := by
        obtain rfl | rfl := hw <;> bv_omega
      rw [hborrow, hnone]
      clear hnone hborrow
      obtain rfl | rfl := hw <;> omega
  have hnarrow : rcx.setWidth 16 - 1#16 = 0 ↔ rcx.toNat % 2 ^ 16 = 1 := by bv_omega
  have hwide : rcx.setWidth w - 1#w = 0 ↔ rcx.toNat % 2 ^ w = 1 := by
    obtain rfl | rfl := hw <;> bv_omega
  have himp : rcx.setWidth w - 1#w = 0 → rcx.setWidth 16 - 1#16 = 0 := by
    rw [hwide, hnarrow]
    obtain rfl | rfl := hw <;> omega
  rw [hsame, taken_iff himp, hnarrow, hwide, and_assoc]

theorem counted_iff (op : CountedInst is64BitMode) :
    (counted is64BitMode s (getSrcSize op.toDecodedInst) = counted is64BitMode s (addrSize is64BitMode op.toDecodedOp) ∧
      countTaken op.toDecodedInst s (getSrcSize op.toDecodedInst) =
        countTaken op.toDecodedInst s (addrSize is64BitMode op.toDecodedOp)) ↔
    CountsAlike is64BitMode op.toDecodedInst s := by
  unfold CountsAlike
  have hop := op.srcSize_cases
  have haddr := @addrSize_cases is64BitMode op.toDecodedOp
  generalize getSrcSize op.toDecodedInst = opSize at hop ⊢
  generalize addrSize is64BitMode op.toDecodedOp = size at haddr ⊢
  obtain rfl | ⟨rfl, rfl⟩ | ⟨rfl, rfl⟩ := hop
  · obtain ⟨rfl, rfl | rfl⟩ | ⟨rfl, rfl | rfl⟩ := haddr
    · exact (narrow_64 _ _ (.inr rfl)).trans (by simp)
    · exact (narrow_64 _ _ (.inl rfl)).trans (by simp)
    · rw [eq_comm, eq_comm (a := countTaken _ _ 2)]
      exact (half_32 _ _).trans (by simp)
    · simp
  · obtain rfl | rfl : size = 4 ∨ size = 2 := by simpa using haddr
    · simp
    · exact (half_32 _ _).trans (by simp)
  · obtain rfl | rfl : size = 8 ∨ size = 4 := by simpa using haddr
    · simp
    · exact (half_64 _ _).trans (by simp)

/-- A counted branch is that of the architecture exactly when it is a `JrCXZ` or counts alike in the registers of both
sizes, and its target fits. -/
theorem countedBranchOp_iff (op : CountedInst is64BitMode) (s : State) :
    countedBranchOp jumpTargets op.toDecodedInst s = some (countedBranch is64BitMode op.toDecodedInst s) ↔
      (op.op = 0xE3 ∨ CountsAlike is64BitMode op.toDecodedInst s) ∧ TargetFits is64BitMode op.toDecodedInst s := by
  unfold countedBranchOp TargetFits countedBranch
  split
  · case isTrue hjcx =>
    rw [condJUMPRCXOp_eq, Option.some.injEq, condJump_eq_iff]
    simp [hjcx, branch]
  · case isFalse hloop =>
    rw [loopOp_eq op hloop, Option.some.injEq, countDown, condJump_eq_iff, setGPR_rcx_inj]
    exact and_congr ((counted_iff op).trans (by simp [hloop])) (by simp [branch])

/-- `addr32 loop` with a one in `ECX` and another above it. -/
def addr32Loop : CountedInst true where
  flags := flag addressSizeBit ||| 4#32 <<< 19 ||| 4#32 <<< 22
  pc := 0x1000
  instSize := 3
  entry := 0x1000
  op := 0xE2
  dest := .nothing
  src := fun i => if i = 0 then .gpr false .rcx else .literal 1 0x10
  rcx := fun _ => rfl
  srcSize := by decide
  dstSize := by decide

theorem addr32Loop_taken : ¬ ∀ (is64BitMode : Bool) (jumpTargets : JumpTargets is64BitMode) (op : CountedInst is64BitMode)
    (s : State), countedBranchOp jumpTargets op.toDecodedInst s = some (countedBranch is64BitMode op.toDecodedInst s) := by
  intro h
  have htaken := h true ⟨fun _ => false, fun _ _ h => by cases h⟩ addr32Loop
    ⟨⟨fun _ => 0x100000001, fun _ => 0, fun _ => 0⟩, ⟨false, false, false, false, false, false⟩, false, none, fun _ => 0⟩
  exact absurd (congrArg (·.map Branch.taken) htaken) (by decide)

end
end FexEmu.OpcodeDispatcher.Integer
