import FexEmu.OpcodeDispatcher.X87Stack
/-!
# The handlers refine the stack

A handler that pushes tags the slot it writes, another leaves the tag alone, so a step does what the stack does if such a slot
is full before (`StepOk`).
-/
namespace FexEmu.OpcodeDispatcher.X87

open Stack X87State
open Function (update update_of_ne)
open List (mem_singleton_self ofFn)

variable {V : Type} (A : Arith V)

namespace X87State

/-- The stack registers of a state. -/
def slots (s : X87State V) (j : Fin 8) : V := s.mm j.val

def stack (s : X87State V) : Stack V := ⟨Fin.ofNat 8 s.top, s.slots, fullOf s.ftw⟩

end X87State

@[simp]
theorem stIndex_val (t i : Fin 8) : stIndex t.val i.val = (t + i).val := by
  revert t i
  decide +kernel

@[simp]
theorem stIndex_one (t : Fin 8) : stIndex t.val 1 = (t + 1).val := stIndex_val t 1

@[simp]
theorem pushIndex_val (t : Fin 8) : pushIndex t.val = (t - 1).val := by
  revert t
  decide +kernel

theorem ofNat_val (t : Fin 8) : Fin.ofNat 8 t.val = t := by simp

/-! ## Parts of a handler -/

@[simp]
theorem slots_storeST (s : X87State V) (k : Fin 8) (v : V) :
    (s.storeST k.val v).slots = update s.slots k v := by
  funext j
  by_cases h : j = k
  · subst h
    simp [slots, storeST]
  · have hv : j.val ≠ k.val := fun e => h (Fin.ext e)
    simp [slots, storeST, update_of_ne h, update_of_ne hv]

theorem X87Tag.getLsbD_bits (tag : X87Tag) (b : Nat) (hb : 2 ≤ b) : tag.bits.getLsbD b = false := by
  have h : tag.bits.toNat < 2 ^ b := by
    have : tag.bits.toNat < 4 := by cases tag <;> decide
    exact this.trans_le (Nat.pow_le_pow_right (n := 2) (by omega) hb)
  rw [BitVec.getLsbD, Nat.testBit_lt_two_pow h]

theorem getLsbD_three (b : Nat) : (0b11#16).getLsbD b = decide (b < 2) := by
  by_cases h : b < 2
  · interval_cases b <;> rfl
  · have h2 : 2 ≤ b := by omega
    rw [decide_eq_false h]
    exact X87Tag.getLsbD_bits .empty b h2

theorem extractLsb'_tag (w : BitVec 16) (tag : X87Tag) (k j : Fin 8) :
    ((w &&& ~~~(0b11#16 <<< (2 * k.val))) ||| (tag.bits <<< (2 * k.val))).extractLsb' (2 * j.val) 2 =
      if j = k then tag.bits.truncate 2 else w.extractLsb' (2 * j.val) 2 := by
  ext b hb
  have hlt : 2 * j.val + b < 16 := by omega
  split_ifs with h
  · subst h
    simp only [BitVec.getElem_extractLsb', BitVec.getLsbD_or, BitVec.getLsbD_and, BitVec.getLsbD_not,
      BitVec.getLsbD_shiftLeft, getLsbD_three, BitVec.truncate_eq_setWidth, BitVec.getElem_setWidth]
    have h2 : ¬2 * j.val + b < 2 * j.val := by omega
    simp [hlt, h2, hb]
  · have hv : j.val ≠ k.val := fun e => h (Fin.ext e)
    simp only [BitVec.getElem_extractLsb', BitVec.getLsbD_or, BitVec.getLsbD_and, BitVec.getLsbD_not,
      BitVec.getLsbD_shiftLeft, getLsbD_three]
    rcases Nat.lt_or_gt_of_ne hv with hlt' | hgt
    · have h2 : 2 * j.val + b < 2 * k.val := by omega
      simp [hlt, h2]
    · have h3 : ¬2 * j.val + b - 2 * k.val < 2 := by omega
      simp [hlt, h3, X87Tag.getLsbD_bits tag _ (Nat.le_of_not_lt h3)]

theorem fullOf_setX87TopTag (s : X87State V) (k : Fin 8) (tag : X87Tag) :
    fullOf (s.setX87TopTag k.val tag).ftw = update (fullOf s.ftw) k (decide (tag ≠ .empty)) := by
  funext j
  rw [fullOf, X87State.setX87TopTag, extractLsb'_tag, Function.update_apply]
  split_ifs with h
  · cases tag <;> decide
  · rfl

theorem fullOf_empty : fullOf 0xFFFF = fun _ => false := by decide

section Parts
variable (s : X87State V)

@[simp]
theorem stack_slot : s.stack.slot = s.slots := rfl

@[simp]
theorem stack_storeST (k : Fin 8) (v : V) :
    (s.storeST k.val v).stack = { s.stack with slot := update s.stack.slot k v } := by
  rw [stack, slots_storeST]
  rfl

@[simp]
theorem stack_setX87Top (k : Fin 8) : (s.setX87Top k.val).stack = { s.stack with top := k } := by
  have hk : k.val % 256 = k.val := Nat.mod_eq_of_lt (by omega)
  simp only [stack, setX87Top, hk, ofNat_val]
  rfl

@[simp]
theorem stack_setX87TopTag (k : Fin 8) (tag : X87Tag) : (s.setX87TopTag k.val tag).stack =
    { s.stack with full := update s.stack.full k (decide (tag ≠ .empty)) } := by
  rw [stack, fullOf_setX87TopTag]
  rfl

theorem top_eq_stack (h : s.top < 8) : s.top = s.stack.top.val := (Nat.mod_eq_of_lt h).symm

@[simp]
theorem stack_popTop (k : Fin 8) : (s.popTop k.val).stack =
    { s.stack with top := k + 1, full := update s.stack.full k false } := by
  simp [popTop]

@[simp]
theorem stack_pushTop (k : Fin 8) : (s.pushTop k.val).stack =
    { s.stack with top := k, full := update s.stack.full k true } := by
  simp [pushTop]

theorem stack_push (v : V) :
    ((s.pushTop (s.stack.top - 1).val).storeST (s.stack.top - 1).val v).stack = s.stack.push v := by
  simp [push, decTop, Stack.write]

theorem stack_pop : (s.popTop s.stack.top.val).stack = s.stack.pop := by
  simp [pop, free, incTop]

theorem stack_popIf (b : Bool) : (X87.popIf b s s.stack.top.val).stack = s.stack.popIf b := by
  cases b
  · rfl
  · exact stack_pop s

@[simp]
theorem stack_setX87Flags (r : Compare) : (s.setX87Flags r).stack = s.stack := rfl

theorem stack_write (i : Fin 8) (v : V) (h : s.stack.full (s.stack.top + i) = true) :
    (s.storeST (s.stack.top + i).val v).stack = s.stack.write i v := by
  simp [Stack.write, ← h]

theorem stack_write_zero (v : V) (h : s.stack.full (s.stack.top + 0) = true) :
    (s.storeST s.stack.top.val v).stack = s.stack.write 0 v := by
  simpa using stack_write s 0 v h

theorem stack_write_push (x y : V) (h : s.stack.full (s.stack.top + 0) = true) :
    (((s.pushTop (s.stack.top - 1).val).storeST s.stack.top.val x).storeST (s.stack.top - 1).val y).stack =
      (s.stack.write 0 x).push y := by
  have hp := stack_push (s.storeST s.stack.top.val x) y
  rw [stack_write_zero s x h] at hp
  exact hp

theorem stack_write_popIf (b : Bool) (i : Fin 8) (v : V)
    (h : ∀ k ∈ (if b && i == 0 then [] else [i]), s.stack.full (s.stack.top + k) = true) :
    (X87.popIf b (s.storeST (s.stack.top + i).val v) s.stack.top.val).stack = (s.stack.write i v).popIf b := by
  by_cases hi : (b && i == 0) = true
  · obtain ⟨rfl, rfl⟩ : b = true ∧ i = 0 := by simpa using hi
    simp [X87.popIf, Stack.popIf, Stack.write, pop, free, incTop]
  · rw [if_neg hi] at h
    have hs := stack_write s i v (h i (mem_singleton_self i))
    have hp := stack_popIf (s.storeST (s.stack.top + i).val v) b
    rw [hs] at hp
    exact hp

theorem popIf_storeST (b : Bool) (k l : Nat) (v : V) :
    (X87.popIf b s k).storeST l v = X87.popIf b (s.storeST l v) k := by
  cases b <;> rfl

end Parts

/-! ## The save area -/

theorem saveRegisters_eq (s : X87State V) (n : Nat) : ∀ k : Fin 8,
    saveRegisters s n k.val = ofFn fun i : Fin n => s.slots (k + Fin.ofNat 8 i.val) := by
  induction n with
  | zero => intro k; rfl
  | succ n ih =>
    intro k
    rw [saveRegisters, stIndex_one, ih, List.ofFn_succ]
    congr 2
    · simp
    · funext i
      have hi : k + 1 + Fin.ofNat 8 i.val = k + Fin.ofNat 8 i.succ.val := by
        apply Fin.ext
        simp [Fin.val_add]
        omega
      rw [hi]

theorem restoreRegisters_top (regs : List V) : ∀ (k : Nat) (s : X87State V),
    (restoreRegisters regs k s).top = s.top ∧ (restoreRegisters regs k s).ftw = s.ftw := by
  induction regs with
  | nil => intro k s; exact ⟨rfl, rfl⟩
  | cons reg regs ih => intro k s; exact ih _ _

theorem restoreRegisters_slots (regs : List V) : ∀ (k : Fin 8) (s : X87State V), regs.length ≤ 8 →
    ∀ j, (restoreRegisters regs k.val s).slots j = (regs[(j - k).val]?).getD (s.slots j) := by
  induction regs with
  | nil => intro k s _ j; rfl
  | cons reg regs ih =>
    intro k s hlen j
    have hlen' : regs.length ≤ 7 := by
      rw [List.length_cons] at hlen
      omega
    rw [restoreRegisters, stIndex_one, ih (k + 1) _ (by omega), slots_storeST]
    by_cases h : j = k
    · subst h
      have h7 : (j - (j + 1)).val = 7 := by revert j; decide
      rw [h7, List.getElem?_eq_none hlen']
      simp
    · have hs : (j - k).val = (j - (k + 1)).val + 1 := by revert j k; decide
      rw [hs, List.getElem?_cons_succ, update_of_ne h]

theorem stack_x87LDENV (s : X87State V) (env : Env) : (x87LDENV s env).stack =
    { s.stack with top := (env.fsw.extractLsb' 11 3).toFin, full := fullOf env.ftw } := by
  have ht := stack_setX87Top s (env.fsw.extractLsb' 11 3).toFin
  exact congrArg (fun t : Stack V => { t with full := fullOf env.ftw }) ht

theorem stack_x87FRSTOR (s : X87State V) (env : Env) (regs : Fin 8 → BitVec 80) : (x87FRSTOR A s env regs).stack =
    { top := (env.fsw.extractLsb' 11 3).toFin,
      slot := fun j => A.ofFloat (.f80 (regs (j - (env.fsw.extractLsb' 11 3).toFin))),
      full := fullOf env.ftw } := by
  set k : Fin 8 := (env.fsw.extractLsb' 11 3).toFin with hk
  set l := (ofFn regs).map (fun bits => A.ofFloat (.f80 bits)) with hl
  have hlen : l.length ≤ 8 := by simp [hl]
  have he : x87FRSTOR A s env regs = restoreRegisters l k.val (x87LDENV s env) := rfl
  have hs := stack_x87LDENV s env
  obtain ⟨htop, hftw⟩ := restoreRegisters_top l k.val (x87LDENV s env)
  apply Stack.ext'
  · change Fin.ofNat 8 (restoreRegisters l k.val (x87LDENV s env)).top = k
    exact congrArg Stack.top hs
  · funext j
    have hj := (j - k).isLt
    refine (restoreRegisters_slots l k _ hlen j).trans ?_
    rw [hl, List.getElem?_map, List.getElem?_ofFn, dif_pos hj]
    rfl
  · change fullOf (restoreRegisters l k.val (x87LDENV s env)).ftw = fullOf env.ftw
    exact congrArg Stack.full hs

/-! ## One instruction -/

/-- The registers, from the top, that a handler writes without a push and does not pop. -/
def overwritten (s : X87State V) : Inst → List (Fin 8)
  | .fstReg i pop => if pop && i == 0 then [] else [i]
  | .arithMem _ _ => [0]
  | .arithST0 _ _ => [0]
  | .arithSTi _ i pop => if pop && i == 0 then [] else [i]
  | .fchs => [0]
  | .fabs => [0]
  | .frndint => [0]
  | .unary _ => [0]
  | .binary _ => [0]
  | .fxtract => [0]
  | .fsincos => [0]
  | .fptan => [0]
  | .fyl2x _ => [1]
  | .fpatan => [1]
  | .fcmov c _ => if c.eval s then [0] else []
  | .fxch i => [0, i]
  | _ => []

/-- The registers that `FFREEP` does not free. -/
def unfreed : Inst → List (Fin 8)
  | .ffreep i => [i]
  | _ => []

/-- What a handler writes without a push is full, what it does not free is empty. -/
def StepOk (s : X87State V) (inst : Inst) : Prop :=
  (∀ i ∈ overwritten s inst, s.stack.full (s.stack.top + i) = true) ∧
    ∀ i ∈ unfreed inst, s.stack.full (s.stack.top + i) = false

instance (s : X87State V) (inst : Inst) : Decidable (StepOk s inst) := inferInstanceAs (Decidable (_ ∧ _))

/-- Whether a conditional move is taken. -/
def taken (s : X87State V) : Inst → Bool
  | .fcmov c _ => c.eval s
  | _ => false

theorem st_zero (s : X87State V) : s.stack.st 0 = s.mm s.stack.top.val := by
  simp [st, slots]

theorem fild_eq (s : X87State V) (data : IntData) : fild A s data =
    (s.pushTop (pushIndex s.top)).storeST (pushIndex s.top) (A.ofInt data.value) := by
  cases data with
  | i16 bits => rw [fild, IntData.value, BitVec.toInt_signExtend_of_le (by omega)]
  | i32 bits => rw [fild, IntData.value, BitVec.toInt_signExtend_of_le (by omega)]
  | i64 bits => rfl

theorem x87BinaryOp_stack (op : BinaryOp) (s : X87State V) : (x87BinaryOp A op s).stack =
    (s.storeST s.top (A.binary op (s.mm s.top) (s.mm (stIndex s.top 1)))).stack := by
  cases op <;> rfl

theorem loadOperand_eq (src : MemOperand) : loadOperand A f80Int src = src.value A := by
  cases src <;> rfl

theorem exec_refines (s : X87State V) (inst : Inst) (htop : s.top < 8) (hok : StepOk s inst) :
    (exec A s inst).1.stack = (specStep A (taken s inst) s.env s.stack inst).1 ∧
      (exec A s inst).2 = (specStep A (taken s inst) s.env s.stack inst).2 := by
  have hst : s.top = s.stack.top.val := top_eq_stack s htop
  obtain ⟨hw, hf⟩ := hok
  -- each handler reads and pushes where the stack does; what is left is its write and its pop
  cases inst with
  | fld data =>
    simp only [exec, fld, specStep, hst, pushIndex_val]
    exact ⟨stack_push s _, trivial⟩
  | fldReg i =>
    simp only [exec, fldReg, specStep, hst, pushIndex_val, stIndex_val]
    exact ⟨stack_push s _, trivial⟩
  | fldConst c =>
    simp only [exec, fldConst, specStep, hst, pushIndex_val]
    exact ⟨stack_push s _, trivial⟩
  | fild data =>
    rw [exec, fild_eq, specStep, hst, pushIndex_val]
    exact ⟨stack_push s _, rfl⟩
  | fbld data =>
    simp only [exec, fbld, specStep, hst, pushIndex_val]
    exact ⟨stack_push s _, trivial⟩
  | fst width pop =>
    simp only [exec, fst, specStep, hst, st_zero]
    exact ⟨stack_popIf s pop, trivial⟩
  | fist bytes truncate pop =>
    simp only [exec, fist, specStep, hst, st_zero]
    exact ⟨stack_popIf s pop, trivial⟩
  | fbstp =>
    simp only [exec, fbstp, specStep, hst, st_zero]
    exact ⟨stack_pop s, trivial⟩
  | fstReg i pop =>
    simp only [exec, fstReg, specStep, hst, stIndex_val, st_zero]
    exact ⟨stack_write_popIf s pop i _ hw, trivial⟩
  | arithMem op src =>
    simp only [exec, arithMem, specStep, hst, st_zero, loadOperand_eq]
    exact ⟨stack_write_zero s _ (hw 0 (mem_singleton_self 0)), trivial⟩
  | arithST0 op i =>
    simp only [exec, arithReg, specStep, hst, st_zero, stIndex_val]
    exact ⟨stack_write_zero s _ (hw 0 (mem_singleton_self 0)), trivial⟩
  | arithSTi op i pop =>
    simp only [exec, arithReg, specStep, hst, st_zero, stIndex_val, popIf_storeST]
    exact ⟨stack_write_popIf s pop i _ hw, trivial⟩
  | fchs =>
    simp only [exec, fchs, specStep, hst, st_zero]
    exact ⟨stack_write_zero s _ (hw 0 (mem_singleton_self 0)), trivial⟩
  | fabs =>
    simp only [exec, fabs, specStep, hst, st_zero]
    exact ⟨stack_write_zero s _ (hw 0 (mem_singleton_self 0)), trivial⟩
  | frndint =>
    simp only [exec, frndint, specStep, hst, st_zero]
    exact ⟨stack_write_zero s _ (hw 0 (mem_singleton_self 0)), trivial⟩
  | unary op =>
    simp only [exec, x87UnaryOp, specStep, hst, st_zero]
    exact ⟨stack_write_zero s _ (hw 0 (mem_singleton_self 0)), trivial⟩
  | binary op =>
    simp only [exec, x87BinaryOp_stack, specStep, hst, st_zero, stIndex_one]
    exact ⟨stack_write_zero s _ (hw 0 (mem_singleton_self 0)), trivial⟩
  | fxtract =>
    simp only [exec, X87.fxtract, specStep, hst, st_zero, pushIndex_val]
    exact ⟨stack_write_push s _ _ (hw 0 (mem_singleton_self 0)), trivial⟩
  | fsincos =>
    simp only [exec, x87SinCos, specStep, hst, st_zero, pushIndex_val]
    exact ⟨stack_write_push s _ _ (hw 0 (mem_singleton_self 0)), trivial⟩
  | fptan =>
    simp only [exec, x87TAN, specStep, hst, st_zero, pushIndex_val]
    exact ⟨stack_write_push s _ _ (hw 0 (mem_singleton_self 0)), trivial⟩
  | fyl2x plus1 =>
    simp only [exec, x87FYL2X, specStep, hst, st_zero, stIndex_one]
    exact ⟨stack_write_popIf s true 1 _ hw, trivial⟩
  | fpatan =>
    simp only [exec, x87ATAN, specStep, hst, st_zero, stIndex_one]
    exact ⟨stack_write_popIf s true 1 _ hw, trivial⟩
  | fcomMem src pop =>
    simp only [exec, fcomi, specStep, hst, st_zero, loadOperand_eq]
    exact ⟨stack_popIf (s.setX87Flags _) pop, trivial⟩
  | fcomReg flags i pop =>
    simp only [exec, fcomi, specStep, hst, st_zero, stIndex_val]
    cases flags
    · exact ⟨stack_popIf (s.setX87Flags _) pop, rfl⟩
    · exact ⟨stack_popIf (s.setRFlags _) pop, rfl⟩
  | fcompp =>
    simp only [exec, fcomi, specStep, hst, st_zero, stIndex_one, if_true]
    refine ⟨?_, rfl⟩
    simp [pop, free, incTop, stack_setX87Flags]
  | ftst =>
    refine ⟨rfl, ?_⟩
    simp [exec, X87.ftst, specStep, hst, st_zero]
  | fxam =>
    refine ⟨rfl, ?_⟩
    simp [exec, x87FXAM, specStep, hst, st_zero]
  | fcmov c i =>
    have ht : taken s (.fcmov c i) = c.eval s := rfl
    simp only [exec, x87FCMOV, specStep, hst, stIndex_val]
    refine ⟨?_, trivial⟩
    rw [ht]
    by_cases hc : c.eval s = true
    · rw [if_pos hc, if_pos hc]
      have h0 : (0 : Fin 8) ∈ overwritten s (.fcmov c i) := by simp [overwritten, hc]
      exact stack_write_zero s _ (hw 0 h0)
    · rw [if_neg hc, if_neg hc, stack_storeST]
      have hu : update s.stack.slot s.stack.top (s.mm s.stack.top.val) = s.stack.slot :=
        Function.update_eq_self _ _
      rw [hu]
  | fxch i =>
    simp only [exec, fxch, specStep, hst, st_zero, stIndex_val]
    refine ⟨?_, trivial⟩
    have h0 := stack_write_zero s (s.mm (s.stack.top + i).val) (hw 0 (by simp [overwritten]))
    have hi := stack_write (s.storeST s.stack.top.val (s.mm (s.stack.top + i).val)) i (s.mm s.stack.top.val)
      (hw i (by simp [overwritten]))
    rw [h0] at hi
    exact hi
  | fincstp =>
    simp only [exec, x87ModifySTP, specStep, hst, stIndex_one, if_true]
    exact ⟨stack_setX87Top s _, trivial⟩
  | fdecstp =>
    simp only [exec, x87ModifySTP, specStep, hst, pushIndex_val, Bool.false_eq_true, if_false]
    exact ⟨stack_setX87Top s _, trivial⟩
  | ffree i =>
    simp only [exec, x87FFREE, specStep, hst, stIndex_val]
    exact ⟨stack_setX87TopTag s _ _, trivial⟩
  | ffreep i =>
    simp only [exec, x87ModifySTP, specStep, hst, stIndex_one, if_true]
    refine ⟨?_, trivial⟩
    have he := hf i (mem_singleton_self i)
    simp [free, incTop, ← he]
  | emms => exact ⟨congrArg (Stack.mk _ _) fullOf_empty, rfl⟩
  | fninit => exact ⟨congrArg (Stack.mk _ _) fullOf_empty, rfl⟩
  | fldenv env => exact ⟨stack_x87LDENV s env, rfl⟩
  | fnstenv => exact ⟨rfl, rfl⟩
  | fldcw fcw => exact ⟨rfl, rfl⟩
  | fnstcw => exact ⟨rfl, rfl⟩
  | fnstsw => exact ⟨rfl, rfl⟩
  | fnsave =>
    refine ⟨congrArg (Stack.mk _ _) fullOf_empty, ?_⟩
    simp only [exec, x87FNSAVE, specStep]
    rw [hst, saveRegisters_eq]
    have hreg : (fun i : Fin 8 => s.slots (s.stack.top + Fin.ofNat 8 i.val)) = s.stack.st := by
      funext i
      rw [ofNat_val]
      rfl
    rw [hreg]
  | frstor env regs => exact ⟨stack_x87FRSTOR A s env regs, rfl⟩

theorem stIndex_lt (top i : Nat) : stIndex top i < 8 := by
  rw [stIndex]
  have h : (top + i) % 2 ^ 64 &&& 7 ≤ 7 := Nat.and_le_right
  omega

theorem pushIndex_lt (top : Nat) : pushIndex top < 8 := by
  rw [pushIndex]
  have h : (top + 2 ^ 64 - 1) % 2 ^ 64 &&& 7 ≤ 7 := Nat.and_le_right
  omega

theorem setX87Top_lt (s : X87State V) (value : Nat) (h : value < 8) : (s.setX87Top value).top < 8 :=
  (Nat.mod_le _ _).trans_lt h

theorem popIf_top_lt (b : Bool) (s : X87State V) (k : Nat) (h : s.top < 8) : (X87.popIf b s k).top < 8 := by
  cases b
  · exact h
  · exact setX87Top_lt _ _ (stIndex_lt k 1)

@[simp]
theorem storeST_top (s : X87State V) (k : Nat) (v : V) : (s.storeST k v).top = s.top := rfl

@[simp]
theorem pushTop_lt (s : X87State V) (k : Nat) : (s.pushTop (pushIndex k)).top < 8 :=
  setX87Top_lt _ _ (pushIndex_lt k)

@[simp]
theorem popTop_lt (s : X87State V) (k : Nat) : (s.popTop k).top < 8 := setX87Top_lt _ _ (stIndex_lt k 1)

/-- The top is moved through a mask, or comes from three bits of a status word. -/
theorem exec_top_lt (s : X87State V) (inst : Inst) (h : s.top < 8) : (exec A s inst).1.top < 8 := by
  cases inst with
  | fld data => simp [exec, fld]
  | fldReg i => simp [exec, fldReg]
  | fldConst c => simp [exec, fldConst]
  | fild data => simp [exec, fild]
  | fbld data => simp [exec, fbld]
  | fst width pop => simp [exec, fst, popIf_top_lt, h]
  | fist bytes truncate pop => simp [exec, fist, popIf_top_lt, h]
  | fbstp => simp [exec, fbstp]
  | fstReg i pop => exact popIf_top_lt pop (s.storeST _ _) s.top h
  | arithSTi op i pop => simp [exec, arithReg, popIf_top_lt, h]
  | binary op => cases op <;> exact h
  | fxtract => simp [exec, X87.fxtract]
  | fsincos => simp [exec, x87SinCos]
  | fptan => simp [exec, x87TAN]
  | fyl2x plus1 => simp [exec, x87FYL2X]
  | fpatan => simp [exec, x87ATAN]
  | fcomMem src pop => exact popIf_top_lt pop (s.setX87Flags _) s.top h
  | fcomReg flags i pop =>
    cases flags
    · exact popIf_top_lt pop (s.setX87Flags _) s.top h
    · exact popIf_top_lt pop (s.setRFlags _) s.top h
  | fcompp => simp [exec, fcomi, setX87Top_lt, stIndex_lt]
  | fincstp => simp [exec, x87ModifySTP, setX87Top_lt, stIndex_lt]
  | fdecstp => simp [exec, x87ModifySTP, setX87Top_lt, pushIndex_lt]
  | ffreep i => simp [exec, x87ModifySTP, setX87Top_lt, stIndex_lt]
  | arithMem | arithST0 | fchs | fabs | frndint | unary | ftst | fxam | fcmov | fxch | ffree | emms | fnstenv |
    fldcw | fnstcw | fnstsw => exact h
  | fninit => exact Nat.zero_lt_succ 7
  | fnsave => exact Nat.zero_lt_succ 7
  | fldenv env => exact setX87Top_lt s _ (env.fsw.extractLsb' 11 3).isLt
  | frstor env regs =>
    have hr := (restoreRegisters_top ((ofFn regs).map (fun bits => A.ofFloat (.f80 bits)))
      (env.fsw.extractLsb' 11 3).toNat (x87LDENV s env)).1
    exact hr.trans_lt (setX87Top_lt s _ (env.fsw.extractLsb' 11 3).isLt)

/-! ## Sequences of instructions -/

/-- A sequence of instructions with the handlers. -/
def run (s : X87State V) : List Inst → X87State V × List (Output V)
  | [] => (s, [])
  | inst :: insts =>
    let (s', out) := exec A s inst
    let (s', outs) := run s' insts
    (s', out :: outs)

/-- The state gives what is not on the stack, the flags of a conditional move and the words that are stored. -/
def runStack (s : X87State V) (t : Stack V) : List Inst → Stack V × List (Output V)
  | [] => (t, [])
  | inst :: insts =>
    let (t', out) := specStep A (taken s inst) s.env t inst
    let (t', outs) := runStack (exec A s inst).1 t' insts
    (t', out :: outs)

def StepsOk (s : X87State V) : List Inst → Prop
  | [] => True
  | inst :: insts => StepOk s inst ∧ StepsOk (exec A s inst).1 insts

theorem StepsOk.of_prefix {insts : List Inst} : ∀ {s : X87State V} {pre : List Inst}, StepsOk A s insts →
    pre <+: insts → StepsOk A s pre := by
  induction insts with
  | nil =>
    intro s pre _ hpre
    rw [List.prefix_nil.mp hpre]
    trivial
  | cons inst insts ih =>
    intro s pre hok hpre
    cases pre with
    | nil => trivial
    | cons i pre =>
      obtain ⟨rfl, htail⟩ := List.cons_prefix_cons.mp hpre
      exact ⟨hok.1, ih hok.2 htail⟩

theorem run_refines (insts : List Inst) : ∀ s : X87State V, s.top < 8 → StepsOk A s insts →
    (run A s insts).1.top < 8 ∧ (run A s insts).1.stack = (runStack A s s.stack insts).1 ∧
      (run A s insts).2 = (runStack A s s.stack insts).2 := by
  induction insts with
  | nil => intro s htop _; exact ⟨htop, rfl, rfl⟩
  | cons inst insts ih =>
    intro s htop hok
    obtain ⟨hstack, hout⟩ := exec_refines A s inst htop hok.1
    obtain ⟨h1, h2, h3⟩ := ih (exec A s inst).1 (exec_top_lt A s inst htop) hok.2
    simp only [run, runStack]
    rw [← hstack, ← hout]
    exact ⟨h1, h2, by rw [h3]⟩

/-- In every state of a sequence the registers are the slots, the tags those of the full slots, and the handlers read what
the instructions read. -/
theorem x87_refines_stack (s : X87State V) (insts : List Inst) (htop : s.top < 8) (hok : StepsOk A s insts) :
    ∀ pre, pre <+: insts → (run A s pre).1.top < 8 ∧ (run A s pre).1.stack = (runStack A s s.stack pre).1 ∧
      (run A s pre).2 = (runStack A s s.stack pre).2 := by
  intro pre hpre
  exact run_refines A pre s htop (hok.of_prefix A hpre)

/-- The values as terms of the operations. -/
inductive Term
  | arith (op : Fin 4) (a b : Term)
  | unary (op : UnaryOp) (a : Term)
  | binary (op : BinaryOp) (a b : Term)
  | yl2x (a b : Term)
  | atan (a b : Term)
  | xtractExp (a : Term)
  | xtractSig (a : Term)
  | const (c : Constant)
  | ofFloat (data : FloatData)
  | ofInt (n : Int)
  | ofBCD (data : BitVec 80)

def termArith : Arith Term where
  add := .arith 0
  mul := .arith 1
  sub := .arith 2
  div := .arith 3
  unary := .unary
  binary := .binary
  yl2x := .yl2x
  atan := .atan
  xtractExp := .xtractExp
  xtractSig := .xtractSig
  const := .const
  ofFloat := .ofFloat
  ofInt := .ofInt
  ofBCD := .ofBCD
  cmp _ _ := ⟨false, false, false⟩
  sign _ := false

/-- The state after `FNINIT`. -/
def initialState : X87State Term where
  top := 0
  mm _ := .const .zero
  ftw := 0xFFFF
  fcw := 0x037F
  c0 := false
  c1 := false
  c2 := false
  c3 := false
  cf := false
  zf := false
  pf := false
  softRounding := 0
  hostRounding := 0

/-- Two loads, `FADDP`, and a store to the register that is left. -/
theorem x87_refines_stack_faddp :
    let insts : List Inst := [.fldConst .pi, .fldConst .one, .arithSTi .fadd 1 true, .fstReg 0 true]
    StepsOk termArith initialState insts ∧
      (run termArith initialState insts).1.stack = (runStack termArith initialState initialState.stack insts).1 := by
  intro insts
  have hok : StepsOk termArith initialState insts := by
    refine ⟨?_, ?_, ?_, ?_, trivial⟩ <;> decide +kernel
  exact ⟨hok, (x87_refines_stack termArith initialState insts (by decide) hok insts List.prefix_rfl).2.1⟩

/-- `FST ST(2)` to an empty register. -/
theorem fst_keeps_empty_tag :
    let insts : List Inst := [.fldConst .one, .fstReg 2 false]
    initialState.top < 8 ∧ (run termArith initialState insts).1.stack.full 1 = false ∧
      (runStack termArith initialState initialState.stack insts).1.full 1 = true := by
  decide +kernel

end FexEmu.OpcodeDispatcher.X87
