import FexEmu.OpcodeDispatcher.IntegerALUProofs
import FexEmu.OpcodeDispatcher.IntegerBitTestProofs
import FexEmu.OpcodeDispatcher.IntegerDoubleShifts
import FexEmu.OpcodeDispatcher.IntegerMulDivProofs
import FexEmu.OpcodeDispatcher.IntegerRotatesCarry
/-!
# Runs of integer instructions

The emitted code of one instruction after another. Flags that are deferred go from each to the next.
-/
namespace FexEmu.OpcodeDispatcher.Integer

open StringOps (State)

/-- The integer instructions, by their family of handlers. -/
inductive IntegerInst (is64BitMode : Bool)
  | alu (op : DecodedALU is64BitMode)
  | shift (op : DecodedShift is64BitMode)
  | bmi (op : DecodedBMI is64BitMode)
  | bitTest (op : DecodedBitTest is64BitMode)
  | mulDiv (op : DecodedMulDiv is64BitMode)

section
variable {is64BitMode : Bool}

/-- A shift or rotate shows none of the faults in its flags. -/
def DecodedShift.Right (op : DecodedShift is64BitMode) (s : State) : Prop :=
  (∀ h, ¬ DecodedPlainShift.WrongOverflow ⟨op, h⟩ s) ∧ (∀ h, ¬ DecodedRotate.WrongCarry ⟨op, h⟩ s) ∧
    ∀ h, ¬ DecodedRotateCarry.ChangesOF ⟨op, h⟩ s

namespace IntegerInst

def emit : IntegerInst is64BitMode → State → Option State
  | alu op, s => (handlerOf is64BitMode op.table op.op).bind (·.handler is64BitMode op.toDecodedInst s)
  | shift op, s => (ShiftHandler.ofOp op.table op.op).bind (·.handler is64BitMode op.toDecodedInst s)
  | bmi op, s => (BMIHandler.ofOp op.table op.op).bind (·.handler is64BitMode op.toDecodedInst s)
  | bitTest op, s => (BitHandler.ofOp op.table op.op).bind fun p => p.1.handler p.2 is64BitMode op.toDecodedInst s
  | mulDiv op, s => (MulDivHandler.ofOp op.table op.op).bind (·.handler is64BitMode op.toDecodedInst s)

/-- The architecture may go from one state to the other. -/
def Steps : IntegerInst is64BitMode → State → State → Prop
  | alu op, s, s' => op.SameState (op.execute s) s'
  | shift op, s, s' => ∃ res, s' = op.executed s res s'.flags ∧
      (op.shift.definesResult (8 * op.size) (op.count s) = true →
        res = (op.shift.result (op.x s) (op.y s) s.flags.cf (op.count s)).1) ∧
      op.shift.FlagsMatch (8 * op.size) (op.count s) (op.shift.flags (op.x s) (op.y s) (op.count s) s.flags) s'.flags
  | bmi op, s, s' => s' = op.executed s s'.flags ∧
      FlagsAgree op.instruction.defined (op.instruction.flags (op.x s) (op.y s) s.flags) s'.flags
  | bitTest op, s, s' => s' = op.executed s
  | mulDiv op, s, s' => visible is64BitMode s' = visible is64BitMode { op.executed s with flags := s'.flags } ∧
      (op.instruction.isDivision = false →
        s'.flags.cf = !op.instruction.fits (8 * op.size) (op.product s) ∧
          s'.flags.of = !op.instruction.fits (8 * op.size) (op.product s))

/-- The instruction shows none of the faults, and a division has a quotient. -/
def Right : IntegerInst is64BitMode → State → Prop
  | alu op, s => ¬ op.NegatesHalf s
  | shift op, s => op.Right s
  | bmi op, s => op.instruction ≠ .blsmsk ∧ op.instruction ≠ .blsr ∧ ¬ op.CutsHighest s ∧
      (op.instruction = .tzcnt → BMI.EvenLowest (op.x s))
  | bitTest op, s => ¬ op.Wraps s ∨ op.Alike s
  | mulDiv op, s => op.Divides s

end IntegerInst

/-! ## One instruction -/

section
variable {s : State}

theorem DecodedRotateCarry.follows_rcr (op : DecodedRotateCarry is64BitMode) (h : op.shift = .rcr)
    (hright : ¬ op.ChangesOF s) : op.FollowsX86 s := by
  have hmatch := op.rcrFlags_match s h
  by_cases hkeeps : op.countForm = .one ∨ op.size = 4 ∨ op.size = 8
  · obtain ⟨s', hrun, hs'⟩ := op.rcr_runs s h hkeeps
    exact (op.follows_iff s (op.ofOp_size op.table_eq) hrun hs' (fun _ => by rw [h]; rfl)).2 hmatch
  · obtain ⟨hform, hwide⟩ := not_or.1 hkeeps
    have hsize : op.size = 1 ∨ op.size = 2 := (or_assoc.2 op.isSize).resolve_right hwide
    obtain ⟨s', hrun, hs'⟩ := op.rcr_runs_narrow s h hsize hform
    refine (op.follows_iff s (op.ofOp_size op.table_eq) hrun hs' (fun _ => by rw [h]; rfl)).2
      ⟨hmatch.cf, fun hle => ?_, hmatch.af, hmatch.result⟩
    by_cases hzero : op.count s = 0
    · rw [hzero, show op.rotated ((op.carried s).rotateRight 0) = op.x s from rotateRight_none _ _]
      exact Classical.byContradiction fun hne => hright ⟨h, by omega, hform, hzero, hne⟩
    · have hof := hmatch.of hle
      simp only [DecodedShift.rcrFlags, variableFlags, hzero, if_false] at hof
      exact hof

theorem DecodedShift.follows_of_right (op : DecodedShift is64BitMode) (h : op.Right s) : op.FollowsX86 s := by
  obtain ⟨hoverflow, hcarry, hchanges⟩ := h
  cases hshift : op.shift with
  | shl => exact DecodedPlainShift.follows_shl ⟨op, by rw [hshift]; rfl⟩ s hshift
  | shr => exact DecodedPlainShift.follows_shr ⟨op, by rw [hshift]; rfl⟩ s hshift
  | sar => exact DecodedPlainShift.follows_sar ⟨op, by rw [hshift]; rfl⟩ s hshift
  | shld => exact DecodedPlainShift.follows_shld ⟨op, by rw [hshift]; rfl⟩ s hshift
  | shrd => exact (DecodedPlainShift.follows_shrd ⟨op, by rw [hshift]; rfl⟩ s hshift).2 (hoverflow _)
  | rol =>
    by_cases hform : op.countForm = .cl
    · exact DecodedRotate.follows_cl ⟨op, .inl hshift⟩ s hform
    · exact (DecodedRotate.follows_rol ⟨op, .inl hshift⟩ s hshift hform).2 (hcarry _)
  | ror =>
    by_cases hform : op.countForm = .cl
    · exact DecodedRotate.follows_cl ⟨op, .inr hshift⟩ s hform
    · exact (DecodedRotate.follows_ror ⟨op, .inr hshift⟩ s hshift hform).2 (hcarry _)
  | rcl => exact DecodedRotateCarry.follows_rcl ⟨op, .inl hshift⟩ s hshift
  | rcr => exact DecodedRotateCarry.follows_rcr ⟨op, .inr hshift⟩ hshift (hchanges _)

theorem DecodedBMI.follows_of_right (op : DecodedBMI is64BitMode) (h : (IntegerInst.bmi op).Right s) :
    op.FollowsX86 s := by
  obtain ⟨hblsmsk, hblsr, hcuts, heven⟩ := h
  cases hop : op.instruction with
  | andn => exact op.follows_andn s hop
  | blsi => exact op.follows_blsi s hop
  | sarx => exact op.follows_shift s hop (.inl rfl)
  | shlx => exact op.follows_shift s hop (.inr (.inl rfl))
  | shrx => exact op.follows_shift s hop (.inr (.inr rfl))
  | bzhi => exact op.follows_bzhi s hop
  | rorx => exact op.follows_rorx s hop
  | mulx => exact op.follows_mulx s hop
  | lzcnt => exact op.follows_lzcnt s hop
  | popcnt => exact op.follows_popcnt s hop
  | blsmsk => exact absurd hop hblsmsk
  | blsr => exact absurd hop hblsr
  | bextr => exact (op.follows_bextr_iff s hop).2 hcuts
  | tzcnt => exact (op.follows_tzcnt_iff s hop).2 (heven hop)

theorem ran {α : Type} {table : Option α} {run : α → Option State} {P : State → Prop}
    (h : ∃ name s', table = some name ∧ run name = some s' ∧ P s') : ∃ s', table.bind run = some s' ∧ P s' := by
  obtain ⟨name, s', hname, hrun, hs'⟩ := h
  exact ⟨s', Option.bind_eq_some_iff.2 ⟨name, hname, hrun⟩, hs'⟩

/-- Flags that wait to be calculated change nothing that an instruction reads. -/
theorem IntegerInst.emit_steps (op : IntegerInst is64BitMode) (h : op.Right s.calculateDeferredFlags) :
    ∃ s', op.emit s = some s' ∧ op.Steps s.calculateDeferredFlags s'.calculateDeferredFlags := by
  cases op with
  | alu op => exact ran (follows_of_not_negatesHalf op s h)
  | shift op => exact ran (@DecodedShift.follows_of_right _ s op h)
  | bmi op => exact ran (@DecodedBMI.follows_of_right _ s op h)
  | bitTest op =>
    have haddress : isGPR op.dest = true ∨ op.uncutAddress s = op.bitAddress s ∨ op.Alike s := by
      cases hdest : isGPR op.dest with
      | true => exact .inl rfl
      | false => exact .inr (h.imp_left (op.uncutAddress_eq_iff s hdest).2)
    obtain ⟨name, srcIndex, hrun⟩ := (op.follows_iff_address s).2 haddress
    exact ran ⟨(name, srcIndex), hrun⟩
  | mulDiv op => exact ran (op.follows (s := s) h)

end

/-! ## Runs -/

def emitAll : List (IntegerInst is64BitMode) → State → Option State
  | [], s => some s
  | op :: ops, s => (op.emit s).bind (emitAll ops)

/-- The architecture may go through all instructions from one state to the other. -/
def Runs : List (IntegerInst is64BitMode) → State → State → Prop
  | [], s, s' => s = s'
  | op :: ops, s, s' => ∃ next, op.Steps s next ∧ Runs ops next s'

/-- Wherever the architecture may go, it comes to no fault. -/
def AllRight : List (IntegerInst is64BitMode) → State → Prop
  | [], _ => True
  | op :: ops, s => op.Right s ∧ ∀ next, op.Steps s next → AllRight ops next

/-- The emitted code goes through, to where the architecture may go once the deferred flags are calculated. -/
theorem emitAll_runs {ops : List (IntegerInst is64BitMode)} {s : State} (h : AllRight ops s.calculateDeferredFlags) :
    ∃ s', emitAll ops s = some s' ∧ Runs ops s.calculateDeferredFlags s'.calculateDeferredFlags := by
  induction ops generalizing s with
  | nil => exact ⟨s, rfl, rfl⟩
  | cons op ops ih =>
    obtain ⟨hright, hrest⟩ := h
    obtain ⟨next, hemit, hstep⟩ := op.emit_steps hright
    obtain ⟨s', hrun, hruns⟩ := ih (hrest _ hstep)
    exact ⟨s', Option.bind_eq_some_iff.2 ⟨next, hemit, hrun⟩, _, hstep, hruns⟩

end

/-- `add ecx, ebx`. -/
def addECX : DecodedALU true where
  flags := 3#32 <<< 19 ||| 3#32 <<< 22
  pc := 0
  instSize := 2
  entry := 0
  op := 0x01
  dest := .gpr false .rcx
  src := fun _ => .gpr false .rbx
  table := .base
  instruction := .add
  size := 4
  ofOpcode_eq := by decide
  getSrcSize_eq := by decide
  getDstSize_eq := by decide
  isSize := isSize_four
  size_mode := mode_four
  dest_rm := ecx_rm
  src_isSource := fun _ _ _ => ⟨rfl, by decide⟩
  src_isGPR := fun h => by cases h
  noRep := fun h => by rcases h with h | h <;> cases h

/-- `adc ecx, ebx`. -/
def adcECX : DecodedALU true :=
  { addECX with
    op := 0x11
    instruction := .adc
    ofOpcode_eq := by decide
    src_isSource := fun _ _ _ => ⟨rfl, by decide⟩
    src_isGPR := fun h => by cases h
    noRep := fun h => by rcases h with h | h <;> cases h }

/-- A sum or difference leaves one state. -/
theorem steps_alu {is64BitMode : Bool} {op : DecodedALU is64BitMode} {s next : State} (h : op.instruction.isLogic = false)
    (hstep : (IntegerInst.alu op).Steps s next) : next = op.execute s := by
  have hsame : op.SameState (op.execute s) next := hstep
  unfold DecodedALU.SameState at hsame
  rwa [h] at hsame

/-- The first sum carries. -/
def carries : State :=
  { sevens with cpu := { sevens.cpu with gregs := fun gpr => if gpr = .rcx then 0xFFFFFFFF else sevens.cpu.gregs gpr } }

/-- `add ecx, ebx`, whose flags are deferred, `adc ecx, ebx`, `div ecx` and `mulx eax, ebx, ecx`. -/
theorem emitAll_runs_divECX : ∃ s',
    emitAll [.alu addECX, .alu adcECX, .mulDiv divECX, .bmi mulxEAX] carries = some s' ∧
      Runs [.alu addECX, .alu adcECX, .mulDiv divECX, .bmi mulxEAX] carries s'.calculateDeferredFlags := by
  have added : ¬ addECX.NegatesHalf carries := fun h => nomatch (h.1 : Instruction.add = .neg)
  have carried : ¬ adcECX.NegatesHalf (addECX.execute carries) := fun h => nomatch (h.1 : Instruction.adc = .neg)
  have divides : divECX.Divides (adcECX.execute (addECX.execute carries)) := fun _ => ⟨by decide, by decide⟩
  refine emitAll_runs (s := carries) ⟨added, fun next hadd => ?_⟩
  obtain rfl := steps_alu rfl hadd
  refine ⟨carried, fun next hadc => ?_⟩
  obtain rfl := steps_alu rfl hadc
  refine ⟨divides, fun _ _ => ⟨⟨by decide, by decide, ?_, ?_⟩, ?_⟩⟩
  · exact fun hcuts => by cases hcuts.1
  · exact fun h => by cases h
  · exact fun _ _ => trivial

end FexEmu.OpcodeDispatcher.Integer
