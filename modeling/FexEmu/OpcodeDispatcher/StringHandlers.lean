import FexEmu.OpcodeDispatcher.StringOpsProofs
/-!
# What the handlers of string instructions leave

Elements, flags and the count are those of the architecture. Some handlers store the pointers of the access.
-/
namespace FexEmu.OpcodeDispatcher.StringOps

open Address
open Frontend.ModRM (X86Reg)
open Frontend.Prefixes (flag repPrefixBit repnePrefixBit)
open ByteMemory (bytes)

/-! ## States -/

section
variable {is64BitMode : Bool} (s : State)

theorem gprSize_le (is64BitMode : Bool) : gprSize is64BitMode ≤ 8 := by cases is64BitMode <;> decide

theorem reg_storeGreg (value : Node) (reg reg' : X86Reg) :
    (s.storeGreg (gprSize is64BitMode) value reg).reg is64BitMode reg' =
      if reg' = reg then value.value.toNat % 2 ^ linearBits is64BitMode else s.reg is64BitMode reg' := by
  unfold State.reg State.storeGreg
  dsimp only
  rw [Function.update_apply]
  split_ifs with h
  · rw [storeContext_toNat (gprSize_le _), ← linearBits_eq, Nat.mul_add_mod', Nat.mod_mod]
  · rfl

theorem loadGreg_value (reg : X86Reg) :
    (s.loadGreg (gprSize is64BitMode) reg).value.toNat = s.reg is64BitMode reg := by
  unfold State.loadGreg State.reg
  rw [loadContext_toNat (gprSize_le _), linearBits_eq]

theorem loadGreg_storeMem (size : Nat) (address value : Node) (size' : Nat) (reg : X86Reg) :
    (s.storeMem size address value).loadGreg size' reg = s.loadGreg size' reg := rfl

theorem loadGreg_storeGreg {reg reg' : X86Reg} (h : reg' ≠ reg) (size size' : Nat) (value : Node) :
    (s.storeGreg size value reg).loadGreg size' reg' = s.loadGreg size' reg' := by
  unfold State.loadGreg State.storeGreg
  dsimp only
  rw [Function.update_of_ne h]

theorem loadGreg_ok (reg : X86Reg) : (s.loadGreg (gprSize is64BitMode) reg).Ok (gprSize is64BitMode) :=
  loadContext_ok _ (.inr (gprSize_cases is64BitMode)) le_rfl

theorem arch_storeMem (size : Nat) (address value : Node) :
    (s.storeMem size address value).arch is64BitMode = { s.arch is64BitMode with
      mem := FlatMemory.store s.mem address.value.toNat (bytes size value.value.toNat) } := rfl

theorem arch_calculateDeferredFlags : s.calculateDeferredFlags.arch is64BitMode = s.arch is64BitMode := rfl

theorem arch_generateFlags_SUB (size : Nat) (res src1 src2 : Node) :
    (s.generateFlags_SUB size res src1 src2).arch is64BitMode = { s.arch is64BitMode with
      flags := calculcateFlags_SUB size res src1 src2 } := rfl

theorem arch_storeRCX (value : Node) :
    (s.storeGreg (gprSize is64BitMode) value .rcx).arch is64BitMode = { s.arch is64BitMode with
      rcx := value.value.toNat % 2 ^ linearBits is64BitMode } := by
  apply Arch.ext <;> try rfl
  all_goals exact reg_storeGreg s value _ _

theorem arch_storeRSI (value : Node) :
    (s.storeGreg (gprSize is64BitMode) value .rsi).arch is64BitMode = { s.arch is64BitMode with
      rsi := value.value.toNat % 2 ^ linearBits is64BitMode } := by
  apply Arch.ext <;> try rfl
  all_goals exact reg_storeGreg s value _ _

theorem arch_storeRDI (value : Node) :
    (s.storeGreg (gprSize is64BitMode) value .rdi).arch is64BitMode = { s.arch is64BitMode with
      rdi := value.value.toNat % 2 ^ linearBits is64BitMode } := by
  apply Arch.ext <;> try rfl
  all_goals exact reg_storeGreg s value _ _

end

/-! ## Pointers -/

/-- A node that moves a pointer to the next element. -/
structure Directs (size : Nat) (df : Bool) (ptrDir : Node) : Prop where
  size_eq : ptrDir.size = 8
  means : ptrDir.Means 64 (step size df)

theorem ptrDir_directs (s : State) {size : Nat} (h : size ≤ 8) : Directs size s.df (s.ptrDir size) where
  size_eq := ptrDir_size s size
  means := ptrDir_means s h

section
variable {is64BitMode : Bool} {op : Decoded is64BitMode} {ptrDir : Node} (s : State)

theorem linearBits_le (is64BitMode : Bool) : linearBits is64BitMode ≤ 64 := by cases is64BitMode <;> decide

theorem add_ptrDir (cpu : CPUState) (h : Directs op.size s.df ptrDir) (pointer : Node) :
    (add pointer ptrDir).value.toNat % 2 ^ linearBits is64BitMode =
      (op.operands cpu).advance s.df pointer.value.toNat := by
  have hsize := h.size_eq
  have hle := linearBits_le is64BitMode
  exact (add_means (Int.ModEq.refl _) (h.means.mono hle) (by omega) hle).toNat_mod

theorem decrement_value (h : s.reg is64BitMode .rcx ≠ 0) :
    (sub (s.loadGreg (gprSize is64BitMode) .rcx) (constant 64 1)).value.toNat % 2 ^ linearBits is64BitMode =
      s.reg is64BitMode .rcx - 1 := by
  have hle := linearBits_le is64BitMode
  have hsize : (constant 64 1).size = 8 := rfl
  have hone : (constant 64 1).Means (linearBits is64BitMode) 1 := (constant64_means 1).mono hle
  have hmeans := (sub_means (Int.ModEq.refl _) hone (by omega) hle).toNat_mod
    (n := sub (s.loadGreg (gprSize is64BitMode) .rcx) (constant 64 1))
  rw [hmeans, loadGreg_value]
  have hlt : s.reg is64BitMode .rcx < 2 ^ linearBits is64BitMode := Nat.mod_lt _ (by positivity)
  have hcast : ((s.reg is64BitMode .rcx : Nat) : Int) - 1 = (s.reg is64BitMode .rcx - 1 : Nat) := by omega
  have hless : ((s.reg is64BitMode .rcx - 1 : Nat) : Int) < 2 ^ linearBits is64BitMode := by
    exact_mod_cast Nat.lt_of_le_of_lt (Nat.sub_le _ _) hlt
  rw [hcast, Int.emod_eq_of_lt (Int.natCast_nonneg _) hless, Int.toNat_natCast]

theorem arch_offsetTail_rdi (cpu : CPUState) (h : Directs op.size s.df ptrDir) (hcount : s.reg is64BitMode .rcx ≠ 0) :
    (s.offsetTail (gprSize is64BitMode) ptrDir .rdi).arch is64BitMode = { s.arch is64BitMode with
      rcx := s.reg is64BitMode .rcx - 1
      rdi := (op.operands cpu).advance s.df (s.reg is64BitMode .rdi) } := by
  unfold State.offsetTail
  rw [arch_storeRDI, arch_storeRCX, decrement_value s hcount, add_ptrDir s cpu h, loadGreg_value]

theorem arch_offsetTail_rsi (cpu : CPUState) (h : Directs op.size s.df ptrDir) (hcount : s.reg is64BitMode .rcx ≠ 0) :
    (s.offsetTail (gprSize is64BitMode) ptrDir .rsi).arch is64BitMode = { s.arch is64BitMode with
      rcx := s.reg is64BitMode .rcx - 1
      rsi := (op.operands cpu).advance s.df (s.reg is64BitMode .rsi) } := by
  unfold State.offsetTail
  rw [arch_storeRSI, arch_storeRCX, decrement_value s hcount, add_ptrDir s cpu h, loadGreg_value]

theorem arch_offsetPointer_rdi (cpu : CPUState) (h : Directs op.size s.df ptrDir) :
    (s.offsetPointer (gprSize is64BitMode) ptrDir .rdi).arch is64BitMode = { s.arch is64BitMode with
      rdi := (op.operands cpu).advance s.df (s.reg is64BitMode .rdi) } := by
  unfold State.offsetPointer
  rw [arch_storeRDI, add_ptrDir s cpu h, loadGreg_value]

theorem arch_offsetPointer_rsi (cpu : CPUState) (h : Directs op.size s.df ptrDir) :
    (s.offsetPointer (gprSize is64BitMode) ptrDir .rsi).arch is64BitMode = { s.arch is64BitMode with
      rsi := (op.operands cpu).advance s.df (s.reg is64BitMode .rsi) } := by
  unfold State.offsetPointer
  rw [arch_storeRSI, add_ptrDir s cpu h, loadGreg_value]

theorem loadES_value :
    (s.appendES is64BitMode (s.loadGreg (gprSize is64BitMode) .rdi)).value.toNat =
      (op.operands s.cpu).linear (op.operands s.cpu).dstBase (s.reg is64BitMode .rdi) := by
  rw [appendES_value s (loadGreg_ok s .rdi), loadGreg_value]
  rfl

theorem loadDS_value :
    (s.appendDS is64BitMode op.toDecodedOp (s.loadGreg (gprSize is64BitMode) .rsi)).value.toNat =
      (op.operands s.cpu).linear (op.operands s.cpu).srcBase (s.reg is64BitMode .rsi) := by
  rw [appendDS_value op s (loadGreg_ok s .rsi), loadGreg_value]
  rfl

end

/-! ## Iterations -/

theorem Decoded.sizes_cases {is64BitMode : Bool} (op : Decoded is64BitMode) :
    op.size = 1 ∨ op.size = 2 ∨ op.size = 4 ∨ op.size = 8 := by
  rcases op.sizes with h | h | h | h
  · exact .inl h
  · exact .inr (.inl h)
  · exact .inr (.inr (.inl h))
  · exact .inr (.inr (.inr h.1))

theorem Decoded.size_le {is64BitMode : Bool} (op : Decoded is64BitMode) : op.size ≤ gprSize is64BitMode := by
  have hcases := gprSize_cases is64BitMode
  rcases op.sizes with h | h | h | ⟨h, rfl⟩
  · omega
  · omega
  · omega
  · rw [h]
    decide

section
variable {is64BitMode : Bool} (op : Decoded is64BitMode) (s : State)

theorem load_lt (x : Operands) (a : Arch) (base pointer : Nat) : x.load a base pointer < 2 ^ (8 * x.size) := by
  rw [Nat.pow_mul]
  exact FlatMemory.load_lt _ _ _

theorem loadMem_element {address : Node} {base pointer : Nat}
    (h : address.value.toNat = (op.operands s.cpu).linear base pointer) :
    Element op.size (s.loadMem op.size address) ∧ (s.loadMem op.size address).value.setWidth (8 * op.size) =
      BitVec.ofNat (8 * op.size) ((op.operands s.cpu).load (s.arch is64BitMode) base pointer) ∧
      (s.loadMem op.size address).value.toNat = (op.operands s.cpu).load (s.arch is64BitMode) base pointer := by
  have hlt := load_lt (op.operands s.cpu) (s.arch is64BitMode) base pointer
  have hle := op.size_le
  have hgpr := gprSize_le is64BitMode
  have hvalue : (s.loadMem op.size address).value.toNat = (op.operands s.cpu).load (s.arch is64BitMode) base pointer := by
    unfold State.loadMem
    rw [h]
    exact Nat.mod_eq_of_lt (hlt.trans_le (Nat.pow_le_pow_right (by decide) (Nat.mul_le_mul_left 8 (hle.trans hgpr))))
  refine ⟨⟨rfl, by rw [hvalue]; exact hlt⟩, ?_, hvalue⟩
  apply BitVec.eq_of_toNat_eq
  rw [BitVec.toNat_setWidth, hvalue, BitVec.toNat_ofNat]

theorem loadRAX_element : Element op.size (s.loadGreg op.size .rax) ∧
    (s.loadGreg op.size .rax).value.toNat = s.reg is64BitMode .rax % 2 ^ (8 * op.size) := by
  have hle := op.size_le
  have hgpr := gprSize_le is64BitMode
  have hvalue : (s.loadGreg op.size .rax).value.toNat = s.reg is64BitMode .rax % 2 ^ (8 * op.size) := by
    unfold State.loadGreg State.reg
    rw [loadContext_toNat (hle.trans hgpr), linearBits_eq,
      Nat.mod_mod_of_dvd _ (pow_dvd_pow 2 (Nat.mul_le_mul_left 8 hle))]
  refine ⟨⟨rfl, ?_⟩, hvalue⟩
  rw [hvalue]
  exact Nat.mod_lt _ (by positivity)

theorem arch_stos : (stos is64BitMode op.toDecodedOp s).arch is64BitMode = { s.arch is64BitMode with
    mem := (op.operands s.cpu).store (s.arch is64BitMode) (s.arch is64BitMode).rax } := by
  unfold stos
  rw [arch_storeMem, op.getSrcSize_eq, @loadES_value _ op, (loadRAX_element op s).2]
  rfl

theorem arch_scas : (scas is64BitMode op.toDecodedOp s).arch is64BitMode = { s.arch is64BitMode with
    flags := (op.operands s.cpu).compare (s.arch is64BitMode).rax
      ((op.operands s.cpu).load (s.arch is64BitMode) (op.operands s.cpu).dstBase (s.arch is64BitMode).rdi) } := by
  obtain ⟨hsrc2, hvalue2, -⟩ := loadMem_element op s (loadES_value s)
  obtain ⟨hsrc1, hvalue1⟩ := loadRAX_element op s
  have hwidth : (s.loadGreg op.size .rax).value.setWidth (8 * op.size) =
      BitVec.ofNat (8 * op.size) (s.arch is64BitMode).rax := by
    apply BitVec.eq_of_toNat_eq
    rw [BitVec.toNat_setWidth, hvalue1, BitVec.toNat_ofNat, Nat.mod_mod]
    rfl
  unfold scas
  rw [arch_generateFlags_SUB, op.getSrcSize_eq, calculcateFlags_eq op.getSrcSize_eq op.sizes_cases hsrc1 hsrc2, hvalue2,
    hwidth]
  rfl

theorem arch_cmps : (cmps is64BitMode op.toDecodedOp s).1.arch is64BitMode = { s.arch is64BitMode with
    flags := (op.operands s.cpu).compare
      ((op.operands s.cpu).load (s.arch is64BitMode) (op.operands s.cpu).srcBase (s.arch is64BitMode).rsi)
      ((op.operands s.cpu).load (s.arch is64BitMode) (op.operands s.cpu).dstBase (s.arch is64BitMode).rdi) } := by
  obtain ⟨hsrc1, hvalue1, -⟩ := loadMem_element op s (loadES_value s)
  obtain ⟨hsrc2, hvalue2, -⟩ := loadMem_element op s (loadDS_value s)
  unfold cmps
  rw [arch_generateFlags_SUB, op.getSrcSize_eq, calculcateFlags_eq op.getSrcSize_eq op.sizes_cases hsrc2 hsrc1, hvalue1,
    hvalue2]
  rfl

theorem arch_storeRAX (size : Nat) (value : Node) :
    (s.storeGreg size value .rax).arch is64BitMode = { s.arch is64BitMode with
      rax := (storeContext size value (s.cpu.gregs .rax)).toNat % 2 ^ linearBits is64BitMode } := by
  apply Arch.ext <;> rfl

theorem storeContext_accumulate {value : Node} (h : Element op.size value)
    (hwide : ¬(gprSize is64BitMode = 8 ∧ op.size = 4)) :
    (storeContext (min (gprSize is64BitMode) op.size) value (s.cpu.gregs .rax)).toNat % 2 ^ linearBits is64BitMode =
      (op.operands s.cpu).accumulate (s.reg is64BitMode .rax) value.value.toNat := by
  have hle := op.size_le
  have hfits := h.fits
  rw [Nat.min_eq_right hle, storeContext_toNat (hle.trans (gprSize_le _)), Nat.mod_eq_of_lt hfits]
  unfold Operands.accumulate State.reg
  change _ = if op.size < 4 then _ / 2 ^ (8 * op.size) * 2 ^ (8 * op.size) + _ else _
  rw [linearBits_eq]
  rcases op.sizes with hsize | hsize | hsize | ⟨hsize, rfl⟩
  · rw [hsize] at hfits ⊢
    rcases gprSize_cases is64BitMode with hgpr | hgpr <;> rw [hgpr, if_pos (by decide)] <;> omega
  · rw [hsize] at hfits ⊢
    rcases gprSize_cases is64BitMode with hgpr | hgpr <;> rw [hgpr, if_pos (by decide)] <;> omega
  · rw [hsize] at hfits hwide ⊢
    have hgpr : gprSize is64BitMode = 4 := (gprSize_cases is64BitMode).resolve_right fun h => hwide ⟨h, rfl⟩
    rw [hgpr, if_neg (by decide)]
    omega
  · rw [hsize] at hfits ⊢
    change _ % 2 ^ 64 = _
    rw [if_neg (by decide)]
    omega

theorem arch_lods : (lods is64BitMode op.toDecodedOp s).arch is64BitMode = { s.arch is64BitMode with
    rax := (op.operands s.cpu).accumulate (s.arch is64BitMode).rax
      ((op.operands s.cpu).load (s.arch is64BitMode) (op.operands s.cpu).srcBase (s.arch is64BitMode).rsi) } := by
  obtain ⟨hsrc, -, hvalue⟩ := loadMem_element op s (loadDS_value s)
  unfold lods State.storeResultRAX
  dsimp only
  rw [op.getSrcSize_eq, op.getDstSize_eq]
  split_ifs with hwide hsize
  · exact absurd (hsrc.size_eq.symm.trans hsize) (by omega)
  · have hfits := hsrc.fits
    have hlinear := linearBits_eq is64BitMode
    rw [arch_storeRAX, storeContext_toNat (gprSize_le _), ← hlinear, Nat.mul_add_mod', Nat.mod_mod, Nat.mod_eq_of_lt,
      hvalue]
    · unfold Operands.accumulate
      rw [if_neg (by change ¬op.size < 4; omega)]
      rfl
    · rw [hlinear, hwide.1]
      omega
  · rw [arch_storeRAX, storeContext_accumulate op s hsrc hwide, hvalue]
    rfl

/-! ### Both pointers -/

def keepsBases : Instruction → Bool → Bool
  | .movs, repeated => !repeated
  | .cmps, _ => true
  | _, _ => false

/-- One iteration of the emitted code. -/
def Operands.emit (x : Operands) (instruction : Instruction) (keeps : Bool) (a : Arch) : Arch :=
  if keeps then { x.iterate instruction a with
    rsi := x.advance a.df (x.linear x.srcBase a.rsi)
    rdi := x.advance a.df (x.linear x.dstBase a.rdi) }
  else x.iterate instruction a

variable {ptrDir : Node}

theorem arch_storeMem_movs : (s.storeMem op.size (s.appendES is64BitMode (s.loadGreg (gprSize is64BitMode) .rdi))
      (s.loadMem op.size
        (s.appendDS is64BitMode op.toDecodedOp (s.loadGreg (gprSize is64BitMode) .rsi)))).arch is64BitMode =
    { s.arch is64BitMode with
      mem := (op.operands s.cpu).store (s.arch is64BitMode) ((op.operands s.cpu).load (s.arch is64BitMode)
        (op.operands s.cpu).srcBase (s.arch is64BitMode).rsi) } := by
  obtain ⟨hsrc, -, hvalue⟩ := loadMem_element op s (loadDS_value s)
  have hmod := Nat.mod_eq_of_lt hsrc.fits
  rw [arch_storeMem, @loadES_value _ op, ← hmod, hvalue]
  rfl

theorem arch_movsTail (h : Directs op.size s.df ptrDir) (hcount : s.reg is64BitMode .rcx ≠ 0) :
    (movsTail is64BitMode op.toDecodedOp ptrDir s).arch is64BitMode =
      { (op.operands s.cpu).emit .movs false (s.arch is64BitMode) with rcx := s.reg is64BitMode .rcx - 1 } := by
  unfold movsTail
  rw [arch_storeRDI, arch_storeRSI, arch_storeRCX, op.getSrcSize_eq, arch_storeMem_movs, add_ptrDir s s.cpu h,
    add_ptrDir s s.cpu h, loadGreg_storeGreg _ (by decide), loadGreg_storeGreg _ (by decide), loadGreg_storeMem,
    loadGreg_storeMem, loadGreg_storeMem, decrement_value s hcount, loadGreg_value, loadGreg_value]
  rfl

theorem arch_movs (h : Directs op.size s.df ptrDir) :
    (movs is64BitMode op.toDecodedOp ptrDir s).arch is64BitMode =
      (op.operands s.cpu).emit .movs true (s.arch is64BitMode) := by
  unfold movs
  rw [arch_storeRDI, arch_storeRSI, op.getSrcSize_eq, arch_storeMem_movs, add_ptrDir s s.cpu h, add_ptrDir s s.cpu h,
    @loadES_value _ op, loadDS_value]
  rfl

theorem arch_stosTail (h : Directs op.size s.df ptrDir) (hcount : s.reg is64BitMode .rcx ≠ 0) :
    (stosTail is64BitMode op.toDecodedOp ptrDir s).arch is64BitMode =
      { (op.operands s.cpu).emit .stos false (s.arch is64BitMode) with rcx := s.reg is64BitMode .rcx - 1 } := by
  unfold stosTail
  rw [arch_offsetTail_rdi (stos is64BitMode op.toDecodedOp s) s.cpu h hcount, arch_stos]
  rfl

theorem arch_cmpsTail (h : Directs op.size s.df ptrDir) (hcount : s.reg is64BitMode .rcx ≠ 0) :
    (cmpsTail is64BitMode op.toDecodedOp ptrDir s).arch is64BitMode =
      { (op.operands s.cpu).emit .cmps true (s.arch is64BitMode) with rcx := s.reg is64BitMode .rcx - 1 } := by
  have hcmps := arch_cmps op s
  have hdecrement := decrement_value (cmps is64BitMode op.toDecodedOp s).1.calculateDeferredFlags hcount
  unfold cmpsTail
  rw [arch_storeRSI, arch_storeRDI, arch_storeRCX, arch_calculateDeferredFlags, hcmps, hdecrement, add_ptrDir s s.cpu h,
    add_ptrDir s s.cpu h]
  unfold cmps
  rw [@loadES_value _ op, loadDS_value]
  rfl

theorem arch_scasTail (h : Directs op.size s.df ptrDir) (hcount : s.reg is64BitMode .rcx ≠ 0) :
    (scasTail is64BitMode op.toDecodedOp ptrDir s).arch is64BitMode =
      { (op.operands s.cpu).emit .scas false (s.arch is64BitMode) with rcx := s.reg is64BitMode .rcx - 1 } := by
  unfold scasTail
  rw [arch_offsetTail_rdi (scas is64BitMode op.toDecodedOp s).calculateDeferredFlags s.cpu h hcount,
    arch_calculateDeferredFlags, arch_scas]
  rfl

theorem arch_lodsTail (h : Directs op.size s.df ptrDir) (hcount : s.reg is64BitMode .rcx ≠ 0) :
    (lodsTail is64BitMode op.toDecodedOp ptrDir s).arch is64BitMode =
      { (op.operands s.cpu).emit .lods false (s.arch is64BitMode) with rcx := s.reg is64BitMode .rcx - 1 } := by
  have hlods := arch_lods op s
  have hdf : (lods is64BitMode op.toDecodedOp s).df = s.df := congrArg Arch.df hlods
  have hrcx : (lods is64BitMode op.toDecodedOp s).reg is64BitMode .rcx = s.reg is64BitMode .rcx :=
    congrArg Arch.rcx hlods
  have hrsi : (lods is64BitMode op.toDecodedOp s).reg is64BitMode .rsi = s.reg is64BitMode .rsi :=
    congrArg Arch.rsi hlods
  unfold lodsTail
  rw [arch_offsetTail_rsi (lods is64BitMode op.toDecodedOp s) s.cpu (hdf ▸ h) (hrcx ▸ hcount), hlods, hdf, hrcx, hrsi]
  rfl

end

/-! ## Loops -/

section
variable {is64BitMode : Bool} {tail : State → State} {jumpsBack : State → Bool} {iterate : Arch → Arch}
  {leave : ALUFlags → Bool} {Inv : State → Prop}

/-- A pass through the tail of a loop is one iteration, and jumps back unless the flags leave. -/
def TailRuns (is64BitMode : Bool) (tail : State → State) (jumpsBack : State → Bool) (iterate : Arch → Arch)
    (leave : ALUFlags → Bool) (Inv : State → Prop) : Prop :=
  ∀ s, Inv s → s.reg is64BitMode .rcx ≠ 0 → Inv (tail s) ∧
    (tail s).arch is64BitMode = { iterate (s.arch is64BitMode) with rcx := s.reg is64BitMode .rcx - 1 } ∧
    jumpsBack (tail s) = !leave ((tail s).arch is64BitMode).flags

theorem counter_eq_zero (s : State) :
    (s.loadGreg (gprSize is64BitMode) .rcx).value = 0 ↔ s.reg is64BitMode .rcx = 0 := by
  rw [← loadGreg_value, ← BitVec.toNat_inj]
  rfl

theorem repeated_leaves {n : Nat} {a : Arch} (h : leave (iterate a).flags = true) :
    repeated iterate leave (n + 1) a = ({ iterate a with rcx := n }, 1) := if_pos h

theorem repeated_stays {n : Nat} {a : Arch} (h : leave (iterate a).flags = false) :
    repeated iterate leave (n + 1) a = ((repeated iterate leave n { iterate a with rcx := n }).1,
      (repeated iterate leave n { iterate a with rcx := n }).2 + 1) := if_neg (by rw [h]; exact Bool.false_ne_true)

theorem loop_ends (h : TailRuns is64BitMode tail jumpsBack iterate leave Inv) (n : Nat) :
    ∀ s, Inv s → s.reg is64BitMode .rcx = n → ∃ s', loop (gprSize is64BitMode) tail jumpsBack (n + 1) s = some s' ∧
      s'.arch is64BitMode = (repeated iterate leave n (s.arch is64BitMode)).1 := by
  induction n with
  | zero =>
    intro s _ hcount
    refine ⟨s, ?_, rfl⟩
    unfold loop
    rw [if_pos ((counter_eq_zero s).2 hcount)]
  | succ n ih =>
    intro s hs hcount
    have hne : s.reg is64BitMode .rcx ≠ 0 := by omega
    obtain ⟨htail, harch, hjump⟩ := h s hs hne
    have hleft : s.reg is64BitMode .rcx - 1 = n := by omega
    have hflags : ((tail s).arch is64BitMode).flags = (iterate (s.arch is64BitMode)).flags := by rw [harch]
    rw [hleft] at harch
    unfold loop
    dsimp only
    rw [if_neg ((counter_eq_zero s).not.2 hne), hjump, hflags]
    cases hleave : leave (iterate (s.arch is64BitMode)).flags with
    | true =>
      rw [repeated_leaves hleave]
      exact ⟨tail s, rfl, harch⟩
    | false =>
      rw [repeated_stays hleave, ← harch]
      exact ih (tail s) htail (congrArg Arch.rcx harch)

theorem loop_more {passes : Nat} : ∀ {s s' : State}, loop (gprSize is64BitMode) tail jumpsBack passes s = some s' →
    ∀ more, loop (gprSize is64BitMode) tail jumpsBack (passes + more) s = some s' := by
  induction passes with
  | zero =>
    intro s s' h
    cases h
  | succ passes ih =>
    intro s s' h more
    rw [Nat.succ_add]
    unfold loop at h ⊢
    dsimp only at h ⊢
    split_ifs at h ⊢ with hcount hjump
    · exact h
    · exact ih h more
    · exact h

/-- However often it may be entered, a loop that ends does so in the same state. -/
theorem loop_unique {passes passes' : Nat} {s s₁ s₂ : State}
    (h₁ : loop (gprSize is64BitMode) tail jumpsBack passes s = some s₁)
    (h₂ : loop (gprSize is64BitMode) tail jumpsBack passes' s = some s₂) : s₁ = s₂ := by
  have hmore := loop_more h₂ passes
  rw [Nat.add_comm, loop_more h₁ passes'] at hmore
  exact Option.some.inj hmore

end

/-! ## Handlers -/

section
variable {is64BitMode : Bool} (op : Decoded is64BitMode)

theorem hasAddressSize_eq : hasAddressSize op.toDecodedOp = false := by
  unfold hasAddressSize
  rw [op.flags_addressSize]
  rfl

theorem repeats_eq : repeats op.toDecodedOp = op.repeatPrefix.isSome := by
  have hiff : op.flags &&& (flag repPrefixBit ||| flag repnePrefixBit) ≠ 0 ↔ op.repeatPrefix.isSome = true := by
    have hor : op.flags &&& (flag repPrefixBit ||| flag repnePrefixBit) =
        (op.flags &&& flag repPrefixBit) ||| (op.flags &&& flag repnePrefixBit) := by
      apply BitVec.eq_of_getLsbD_eq
      intro i _
      simp only [BitVec.getLsbD_and, BitVec.getLsbD_or, Bool.and_or_distrib_left]
    have hzero : ∀ a b : BitVec 32, a ||| b = 0 ↔ a = 0 ∧ b = 0 := fun _ _ => BitVec.or_eq_zero_iff
    rw [hor, Ne, hzero, not_and_or, ← ne_eq, ← ne_eq, op.flags_rep, op.flags_repne]
    rcases op.repeatPrefix with _ | _ | _ <;> simp
  unfold repeats
  rw [Bool.eq_iff_iff, decide_eq_true_iff, hiff]

theorem repe_eq : repe op.toDecodedOp = decide (op.repeatPrefix = some .rep) := by
  unfold repe
  rw [decide_eq_decide, op.flags_rep]

theorem zfJumpsBack_eq {instruction : Instruction} (h : instruction = .cmps ∨ instruction = .scas)
    {repeatPrefix : RepeatPrefix} (hop : op.repeatPrefix = some repeatPrefix) (s : State) :
    zfJumpsBack (repe op.toDecodedOp) s = !leaves instruction repeatPrefix s.flags := by
  unfold zfJumpsBack leaves
  rw [repe_eq, hop, if_pos h]
  cases repeatPrefix <;> cases hzf : s.flags.zf <;> simp [loadFlag]

/-- What the emitted code leaves. -/
def Decoded.emitted (cpu : CPUState) (a : Arch) : Arch :=
  match op.repeatPrefix with
  | none => (op.operands cpu).emit op.instruction (keepsBases op.instruction false) a
  | some repeatPrefix => (repeated ((op.operands cpu).emit op.instruction (keepsBases op.instruction true))
      (leaves op.instruction repeatPrefix) a.rcx a).1

/-- The segments and the direction stay. -/
structure Same (s s' : State) : Prop where
  segments : s'.cpu.segments = s.cpu.segments
  gdt : s'.cpu.gdt = s.cpu.gdt
  df : s'.df = s.df

theorem operands_congr {cpu cpu' : CPUState} (hsegments : cpu'.segments = cpu.segments) (hgdt : cpu'.gdt = cpu.gdt) :
    op.operands cpu' = op.operands cpu := by
  cases cpu
  cases cpu'
  cases hsegments
  cases hgdt
  rfl

/-- The tail of the loop of an instruction, and whether it jumps back. -/
def tailOf (ptrDir : Node) : (State → State) × (State → Bool) :=
  match op.instruction with
  | .movs => (movsTail is64BitMode op.toDecodedOp ptrDir, fun _ => true)
  | .stos => (stosTail is64BitMode op.toDecodedOp ptrDir, fun _ => true)
  | .lods => (lodsTail is64BitMode op.toDecodedOp ptrDir, fun _ => true)
  | .cmps => (cmpsTail is64BitMode op.toDecodedOp ptrDir, zfJumpsBack (repe op.toDecodedOp))
  | .scas => (scasTail is64BitMode op.toDecodedOp ptrDir, zfJumpsBack (repe op.toDecodedOp))

theorem same_lodsTail (ptrDir : Node) (s : State) : Same s (lodsTail is64BitMode op.toDecodedOp ptrDir s) := by
  unfold lodsTail lods State.storeResultRAX
  split_ifs <;> exact ⟨rfl, rfl, rfl⟩

theorem tail_runs (s₀ : State) {repeatPrefix : RepeatPrefix} (hop : op.repeatPrefix = some repeatPrefix) :
    TailRuns is64BitMode (tailOf op (s₀.ptrDir op.size)).1 (tailOf op (s₀.ptrDir op.size)).2
      ((op.operands s₀.cpu).emit op.instruction (keepsBases op.instruction true)) (leaves op.instruction repeatPrefix)
      (Same s₀) := by
  intro s hs hcount
  have hdirects : Directs op.size s.df (s₀.ptrDir op.size) := by
    rw [hs.df]
    exact ptrDir_directs s₀ (op.size_le.trans (gprSize_le _))
  rw [← operands_congr op hs.segments hs.gdt]
  unfold tailOf
  cases hinstruction : op.instruction with
  | movs => exact ⟨⟨hs.segments, hs.gdt, hs.df⟩, arch_movsTail op s hdirects hcount, rfl⟩
  | stos => exact ⟨⟨hs.segments, hs.gdt, hs.df⟩, arch_stosTail op s hdirects hcount, rfl⟩
  | lods =>
    have hsame := same_lodsTail op (s₀.ptrDir op.size) s
    exact ⟨⟨hsame.segments.trans hs.segments, hsame.gdt.trans hs.gdt, hsame.df.trans hs.df⟩,
      arch_lodsTail op s hdirects hcount, rfl⟩
  | cmps =>
    exact ⟨⟨hs.segments, hs.gdt, hs.df⟩, arch_cmpsTail op s hdirects hcount, zfJumpsBack_eq op (.inl rfl) hop _⟩
  | scas =>
    exact ⟨⟨hs.segments, hs.gdt, hs.df⟩, arch_scasTail op s hdirects hcount, zfJumpsBack_eq op (.inr rfl) hop _⟩

/-- A repeated instruction runs its loop. -/
theorem handler_repeated {repeatPrefix : RepeatPrefix} (hop : op.repeatPrefix = some repeatPrefix) :
    handler op.instruction is64BitMode op.toDecodedOp = some fun passes s =>
      loop (gprSize is64BitMode) (tailOf op (s.ptrDir op.size)).1 (tailOf op (s.ptrDir op.size)).2 passes
        s.calculateDeferredFlags := by
  have hrepeats : repeats op.toDecodedOp = true := by rw [repeats_eq, hop]; rfl
  unfold handler tailOf
  cases hinstruction : op.instruction <;>
    simp [movsOp, stosOp, lodsOp, cmpsOp, scasOp, hasAddressSize_eq, hrepeats, op.getSrcSize_eq] <;> rfl

/-- What an instruction that is not repeated does. -/
def once (s : State) : State :=
  match op.instruction with
  | .movs => movs is64BitMode op.toDecodedOp (s.ptrDir op.size) s
  | .stos =>
    let s := stos is64BitMode op.toDecodedOp s
    s.offsetPointer (gprSize is64BitMode) (s.ptrDir op.size) .rdi
  | .lods =>
    let s := lods is64BitMode op.toDecodedOp s
    s.offsetPointer (gprSize is64BitMode) (s.ptrDir op.size) .rsi
  | .cmps =>
    let (s, destRDI, destRSI) := cmps is64BitMode op.toDecodedOp s
    let ptrDir := s.ptrDir op.size
    let s := s.storeGreg (gprSize is64BitMode) (add destRDI ptrDir) .rdi
    s.storeGreg (gprSize is64BitMode) (add destRSI ptrDir) .rsi
  | .scas =>
    let s := scas is64BitMode op.toDecodedOp s
    s.offsetPointer (gprSize is64BitMode) (s.ptrDir op.size) .rdi

theorem handler_once (hop : op.repeatPrefix = none) :
    handler op.instruction is64BitMode op.toDecodedOp = some fun _ s => some (once op s) := by
  have hrepeats : repeats op.toDecodedOp = false := by rw [repeats_eq, hop]; rfl
  unfold handler once
  cases hinstruction : op.instruction <;>
    simp [movsOp, stosOp, lodsOp, cmpsOp, scasOp, hasAddressSize_eq, hrepeats, op.getSrcSize_eq]

theorem arch_once (s : State) : (once op s).arch is64BitMode =
    (op.operands s.cpu).emit op.instruction (keepsBases op.instruction false) (s.arch is64BitMode) := by
  have hdirects : ∀ s' : State, Directs op.size s'.df (s'.ptrDir op.size) :=
    fun s' => ptrDir_directs s' (op.size_le.trans (gprSize_le _))
  unfold once
  cases hinstruction : op.instruction with
  | movs => exact arch_movs op s (hdirects s)
  | stos =>
    rw [arch_offsetPointer_rdi _ s.cpu (hdirects (stos is64BitMode op.toDecodedOp s)), arch_stos]
    rfl
  | lods =>
    have hlods := arch_lods op s
    have hdf : (lods is64BitMode op.toDecodedOp s).df = s.df := congrArg Arch.df hlods
    have hrsi : (lods is64BitMode op.toDecodedOp s).reg is64BitMode .rsi = s.reg is64BitMode .rsi :=
      congrArg Arch.rsi hlods
    rw [arch_offsetPointer_rsi _ s.cpu (hdirects (lods is64BitMode op.toDecodedOp s)), hlods, hdf, hrsi]
    rfl
  | cmps =>
    have hcmps := arch_cmps op s
    have hptrDir := hdirects (cmps is64BitMode op.toDecodedOp s).1
    rw [arch_storeRSI, arch_storeRDI, hcmps, add_ptrDir _ s.cpu hptrDir, add_ptrDir _ s.cpu hptrDir]
    unfold cmps
    rw [@loadES_value _ op, loadDS_value]
    rfl
  | scas =>
    rw [arch_offsetPointer_rdi _ s.cpu (hdirects (scas is64BitMode op.toDecodedOp s)), arch_scas]
    rfl

/-- The handler emits code that ends, and always in the same way. -/
theorem handler_spec (s : State) : ∃ code, handler op.instruction is64BitMode op.toDecodedOp = some code ∧
    (∃ passes s', code passes s = some s') ∧
    ∀ passes s', code passes s = some s' → s'.arch is64BitMode = op.emitted s.cpu (s.arch is64BitMode) := by
  unfold Decoded.emitted
  cases hop : op.repeatPrefix with
  | none =>
    refine ⟨_, handler_once op hop, ⟨0, _, rfl⟩, ?_⟩
    intro passes s' h
    cases h
    exact arch_once op s
  | some repeatPrefix =>
    obtain ⟨last, hends, hlast⟩ := loop_ends (tail_runs op s hop) _ s.calculateDeferredFlags ⟨rfl, rfl, rfl⟩ rfl
    refine ⟨_, handler_repeated op hop, ⟨_, last, hends⟩, ?_⟩
    intro passes s' h
    rw [loop_unique h hends, hlast]
    rfl

end

end FexEmu.OpcodeDispatcher.StringOps
