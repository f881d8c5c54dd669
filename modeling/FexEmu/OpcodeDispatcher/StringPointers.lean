import FexEmu.OpcodeDispatcher.StringHandlers
/-!
# Pointers of string instructions

When the pointers come out as the architecture has them, whatever memory holds.
-/
namespace FexEmu.OpcodeDispatcher.StringOps

open FlatMemory (Memory)
open Address (CPUState linearBits segmentBase inEffect)
open Frontend.ModRM (X86Reg)

/-! ## Runs of a repetition -/

section
variable {iterate : Arch → Arch} {leave : ALUFlags → Bool} {P : Nat → Arch → Prop}

theorem repeated_keeps (hstep : ∀ k a c, P k a → P (k + 1) { iterate a with rcx := c }) (n : Nat) :
    ∀ k a, P k a → P (k + (repeated iterate leave n a).2) (repeated iterate leave n a).1 := by
  induction n with
  | zero => exact fun k a h => h
  | succ n ih =>
    intro k a h
    cases hleave : leave (iterate a).flags with
    | true =>
      rw [repeated_leaves hleave]
      exact hstep k a n h
    | false =>
      rw [repeated_stays hleave]
      have hrest := ih (k + 1) _ (hstep k a n h)
      rw [Nat.add_assoc, Nat.add_comm 1] at hrest
      exact hrest

theorem repeated_all (hstep : ∀ k a c, P k a → P (k + 1) { iterate a with rcx := c })
    (hstay : ∀ k a, P k a → leave (iterate a).flags = false) (n : Nat) :
    ∀ k a, P k a → (repeated iterate leave n a).2 = n := by
  induction n with
  | zero => exact fun k a h => rfl
  | succ n ih =>
    intro k a h
    rw [repeated_stays (hstay k a h), ih (k + 1) _ (hstep k a n h)]

theorem repeated_rcx (n : Nat) :
    ∀ a : Arch, a.rcx = n → (repeated iterate leave n a).1.rcx = n - (repeated iterate leave n a).2 := by
  induction n with
  | zero => exact fun a h => h
  | succ n ih =>
    intro a h
    cases hleave : leave (iterate a).flags with
    | true =>
      rw [repeated_leaves hleave]
      rfl
    | false =>
      rw [repeated_stays hleave, ih _ rfl]
      omega

end

/-! ## Moving pointers -/

section
variable (x : Operands) (instruction : Instruction) (keeps : Bool)

/-- What an iteration adds to the pointers. -/
def rsiStep (df : Bool) : Int := if usesRSI instruction then step x.size df + (if keeps then x.srcBase else 0) else 0

def rdiStep (df : Bool) : Int := if usesRDI instruction then step x.size df + (if keeps then x.dstBase else 0) else 0

/-- The pointers after some iterations. -/
structure Moving (start : Arch) (k : Nat) (a : Arch) : Prop where
  rsi : (a.rsi : Int) = (start.rsi + k * rsiStep x instruction keeps start.df) % 2 ^ x.bits
  rdi : (a.rdi : Int) = (start.rdi + k * rdiStep x instruction keeps start.df) % 2 ^ x.bits
  df : a.df = start.df

variable {x instruction keeps}

theorem stay (pointer : Nat) (h : pointer < 2 ^ x.bits) : (pointer : Int) = (pointer + 0) % 2 ^ x.bits := by
  exact (Int.emod_eq_of_lt (by omega) (by exact_mod_cast h)).symm

variable {a : Arch}

theorem Moving.start (hrsi : a.rsi < 2 ^ x.bits) (hrdi : a.rdi < 2 ^ x.bits) : Moving x instruction keeps a 0 a where
  rsi := by
    rw [Nat.cast_zero, zero_mul]
    exact stay a.rsi hrsi
  rdi := by
    rw [Nat.cast_zero, zero_mul]
    exact stay a.rdi hrdi
  df := rfl

theorem advance_cast (df : Bool) (pointer : Nat) :
    (x.advance df pointer : Int) = (pointer + step x.size df) % 2 ^ x.bits :=
  Int.toNat_of_nonneg (Int.emod_nonneg _ (by positivity))

theorem advance_linear (df : Bool) (base pointer : Nat) :
    (x.advance df (x.linear base pointer) : Int) = (pointer + (step x.size df + base)) % 2 ^ x.bits := by
  rw [advance_cast]
  unfold Operands.linear
  push_cast
  rw [Int.emod_add_emod]
  ring_nf

theorem emit_rsi (hkeeps : keeps = true → instruction = .movs ∨ instruction = .cmps) (h : a.rsi < 2 ^ x.bits) :
    ((x.emit instruction keeps a).rsi : Int) = (a.rsi + rsiStep x instruction keeps a.df) % 2 ^ x.bits := by
  cases keeps with
  | true => rcases hkeeps rfl with rfl | rfl <;> exact advance_linear a.df x.srcBase a.rsi
  | false =>
    have hadvance : (x.advance a.df a.rsi : Int) = (a.rsi + (step x.size a.df + 0)) % 2 ^ x.bits := by
      rw [advance_cast, add_zero]
    cases instruction with
    | movs => exact hadvance
    | stos => exact stay a.rsi h
    | lods => exact hadvance
    | cmps => exact hadvance
    | scas => exact stay a.rsi h

theorem emit_rdi (hkeeps : keeps = true → instruction = .movs ∨ instruction = .cmps) (h : a.rdi < 2 ^ x.bits) :
    ((x.emit instruction keeps a).rdi : Int) = (a.rdi + rdiStep x instruction keeps a.df) % 2 ^ x.bits := by
  cases keeps with
  | true => rcases hkeeps rfl with rfl | rfl <;> exact advance_linear a.df x.dstBase a.rdi
  | false =>
    have hadvance : (x.advance a.df a.rdi : Int) = (a.rdi + (step x.size a.df + 0)) % 2 ^ x.bits := by
      rw [advance_cast, add_zero]
    cases instruction with
    | movs => exact hadvance
    | stos => exact hadvance
    | lods => exact stay a.rdi h
    | cmps => exact hadvance
    | scas => exact hadvance

theorem emit_df (a : Arch) : (x.emit instruction keeps a).df = a.df := by
  cases keeps <;> cases instruction <;> rfl

theorem add_step (p d : Int) (k : Nat) (m : Int) : ((p + k * d) % m + d) % m = (p + (k + 1 : Nat) * d) % m := by
  rw [Int.emod_add_emod]
  push_cast
  ring_nf

theorem lt_of_cast_mod {pointer : Nat} {y : Int} (h : (pointer : Int) = y % 2 ^ x.bits) : pointer < 2 ^ x.bits := by
  have hlt := Int.emod_lt_of_pos y (by positivity : (0 : Int) < 2 ^ x.bits)
  rw [← h] at hlt
  exact_mod_cast hlt

theorem Moving.step {start a : Arch} {k : Nat} (h : Moving x instruction keeps start k a)
    (hkeeps : keeps = true → instruction = .movs ∨ instruction = .cmps) (c : Nat) :
    Moving x instruction keeps start (k + 1) { x.emit instruction keeps a with rcx := c } where
  rsi := by
    rw [← add_step, ← h.rsi, ← h.df]
    exact emit_rsi hkeeps (lt_of_cast_mod h.rsi)
  rdi := by
    rw [← add_step, ← h.rdi, ← h.df]
    exact emit_rdi hkeeps (lt_of_cast_mod h.rdi)
  df := (emit_df a).trans h.df

theorem moving_repeated {leave : ALUFlags → Bool} (hrsi : a.rsi < 2 ^ x.bits) (hrdi : a.rdi < 2 ^ x.bits)
    (hkeeps : keeps = true → instruction = .movs ∨ instruction = .cmps) (n : Nat) :
    Moving x instruction keeps a (repeated (x.emit instruction keeps) leave n a).2
      (repeated (x.emit instruction keeps) leave n a).1 := by
  have hstep : ∀ k b c, Moving x instruction keeps a k b →
      Moving x instruction keeps a (k + 1) { x.emit instruction keeps b with rcx := c } := fun _ _ c h => h.step hkeeps c
  have hrun : Moving x instruction keeps a (0 + (repeated _ leave n a).2) (repeated _ leave n a).1 :=
    repeated_keeps hstep n 0 a (.start hrsi hrdi)
  rw [Nat.zero_add] at hrun
  exact hrun

end

/-! ## The architecture -/

section
variable {is64BitMode : Bool} (op : Decoded is64BitMode) (s : State)

theorem reg_lt (reg : X86Reg) : s.reg is64BitMode reg < 2 ^ (op.operands s.cpu).bits := Nat.mod_lt _ (by positivity)

theorem moving_execute : Moving (op.operands s.cpu) op.instruction false (s.arch is64BitMode)
    (op.execute s.cpu (s.arch is64BitMode)).2 (op.execute s.cpu (s.arch is64BitMode)).1 := by
  have hkeeps : false = true → op.instruction = .movs ∨ op.instruction = .cmps := fun h => absurd h Bool.false_ne_true
  have hrsi := reg_lt op s .rsi
  have hrdi := reg_lt op s .rdi
  unfold Decoded.execute
  cases op.repeatPrefix with
  | none => exact (Moving.start (a := s.arch is64BitMode) hrsi hrdi).step hkeeps _
  | some repeatPrefix => exact moving_repeated (a := s.arch is64BitMode) hrsi hrdi hkeeps _

theorem moved_of {uses : Bool} {pointer iterations pointer' : Nat} (cpu : CPUState) (df : Bool)
    (hlt : pointer < 2 ^ (op.operands cpu).bits)
    (h : (pointer' : Int) = (pointer + iterations * (if uses then step op.size df + 0 else 0)) %
      2 ^ (op.operands cpu).bits) : Moved op uses pointer iterations pointer' cpu df := by
  unfold Moved
  cases uses with
  | true =>
    rw [if_pos rfl, add_zero, mul_comm] at h
    rw [if_pos rfl, ← h, Int.toNat_natCast]
  | false =>
    rw [if_neg Bool.false_ne_true, mul_zero, ← stay pointer hlt] at h
    exact_mod_cast h

theorem follows_iff : FollowsX86 op s ↔
    op.emitted s.cpu (s.arch is64BitMode) = (op.execute s.cpu (s.arch is64BitMode)).1 := by
  obtain ⟨code, hcode, ⟨passes, last, hends⟩, hunique⟩ := handler_spec op s
  constructor
  · rintro ⟨code', passes', s', hcode', hs', harch, -, -⟩
    rw [hcode] at hcode'
    cases hcode'
    rw [← hunique passes' s' hs', harch]
  · intro h
    have hmoving := moving_execute op s
    have hlast := (hunique passes last hends).trans h
    have hrsi : last.reg is64BitMode .rsi = _ := congrArg Arch.rsi hlast
    have hrdi : last.reg is64BitMode .rdi = _ := congrArg Arch.rdi hlast
    refine ⟨code, passes, last, hcode, hends, hlast, ?_, ?_⟩
    · rw [hrsi]
      exact moved_of op s.cpu s.df (reg_lt op s .rsi) hmoving.rsi
    · rw [hrdi]
      exact moved_of op s.cpu s.df (reg_lt op s .rdi) hmoving.rdi

end

/-! ## Comparisons -/

def equalFlags : ALUFlags where
  cf := false
  pf := true
  af := false
  zf := true
  sf := false
  of := false

theorem subFlags_self {w : Nat} (x : BitVec w) : subFlags x x false = equalFlags := by
  have hparity : decide (((0 : BitVec w).setWidth 8).cpop.toNat % 2 = 0) = true := by
    have hzero : (0 : BitVec w).setWidth 8 = 0 := BitVec.setWidth_zero 8 w
    rw [hzero]
    decide
  rw [subFlags_false]
  unfold parity equalFlags
  rw [BitVec.ssubOverflow_eq, sub_self, hparity]
  simp [BitVec.usubOverflow]

section
variable {x : Operands}

theorem compare_ne {value value' : Nat} (h : value % 2 ^ 8 ≠ value' % 2 ^ 8) (hsize : 1 ≤ x.size) :
    (x.compare value value').zf = false := by
  unfold Operands.compare
  rw [subFlags_false, decide_eq_false_iff_not, ← BitVec.toNat_inj, BitVec.toNat_ofNat, BitVec.toNat_ofNat]
  intro heq
  have hdvd : 2 ^ 8 ∣ 2 ^ (8 * x.size) := pow_dvd_pow 2 (by omega)
  apply h
  rw [← Nat.mod_mod_of_dvd value hdvd, heq, Nat.mod_mod_of_dvd _ hdvd]

/-- Memory with a one at an address. -/
def oneAt (address : Nat) : Memory := fun b => if b = address then 1 else 0

theorem load_low (m : Memory) (address : Nat) {n : Nat} (h : 1 ≤ n) :
    FlatMemory.load m address n % 2 ^ 8 = (m address).toNat := by
  obtain ⟨n, rfl⟩ := Nat.exists_eq_add_of_le' h
  unfold FlatMemory.load
  rw [List.range_succ_eq_map, List.map_cons]
  unfold ByteMemory.ofBytes
  rw [Nat.mul_add_mod, Nat.mod_eq_of_lt (m (address + 0)).isLt]
  rfl

variable {base pointer base' pointer' : Nat}

theorem compare_oneAt {a : Arch} (hsize : 1 ≤ x.size)
    (hmem : a.mem = oneAt (x.linear base pointer)) (hne : x.linear base pointer ≠ x.linear base' pointer') :
    (x.compare (x.load a base pointer) (x.load a base' pointer')).zf = false := by
  apply compare_ne _ hsize
  unfold Operands.load
  rw [load_low _ _ hsize, load_low _ _ hsize, hmem]
  unfold oneAt
  rw [if_pos rfl, if_neg hne.symm]
  decide

theorem compare_linear {a : Arch} (h : x.linear base pointer = x.linear base' pointer') :
    x.compare (x.load a base pointer) (x.load a base' pointer') = equalFlags := by
  unfold Operands.compare Operands.load
  rw [h, subFlags_self]

theorem advance_linear_eq_iff (hbase : base < 2 ^ x.bits) (df : Bool) (pointer : Nat) :
    x.advance df (x.linear base pointer) = x.advance df pointer ↔ base = 0 := by
  constructor
  · intro h
    have hcast := congrArg (Nat.cast (R := Int)) h
    rw [advance_linear, advance_cast] at hcast
    have hdvd : (2 ^ x.bits : Int) ∣ base := by
      have hsub := Int.ModEq.dvd hcast.symm
      ring_nf at hsub
      exact hsub
    have hdvd' : 2 ^ x.bits ∣ base := by exact_mod_cast hdvd
    exact Nat.eq_zero_of_dvd_of_lt hdvd' hbase
  · rintro rfl
    have hcast : (x.advance df (x.linear 0 pointer) : Int) = x.advance df pointer := by
      rw [advance_linear, advance_cast, Nat.cast_zero, add_zero]
    exact_mod_cast hcast

/-- A comparison of elements at the same addresses goes on. -/
structure Equal (x : Operands) (keeps : Bool) (start : Arch) (k : Nat) (a : Arch) : Prop where
  moving : Moving x .cmps keeps start k a
  mem : a.mem = start.mem
  rax : a.rax = start.rax
  flags : 0 < k → a.flags = equalFlags

variable {keeps : Bool} {start a : Arch}

theorem linear_eq_iff : x.linear base pointer = x.linear base' pointer' ↔
    ((pointer : Int) + base) % 2 ^ x.bits = ((pointer' : Int) + base') % 2 ^ x.bits := by
  rw [← Nat.cast_inj (R := Int)]
  rfl

theorem Equal.linear {k : Nat} (h : Equal x keeps start k a) (hkeeps : keeps = true → x.srcBase = x.dstBase)
    (hlinear : x.linear x.srcBase start.rsi = x.linear x.dstBase start.rdi) :
    x.linear x.srcBase a.rsi = x.linear x.dstBase a.rdi := by
  have hsteps : rsiStep x .cmps keeps start.df = rdiStep x .cmps keeps start.df := by
    cases keeps with
    | true =>
      change step x.size start.df + (x.srcBase : Int) = step x.size start.df + (x.dstBase : Int)
      rw [hkeeps rfl]
    | false => rfl
  rw [linear_eq_iff] at hlinear ⊢
  rw [h.moving.rsi, h.moving.rdi, hsteps, Int.emod_add_emod, Int.emod_add_emod, add_right_comm,
    add_right_comm (start.rdi : Int)]
  exact Int.ModEq.add_right _ hlinear

theorem emit_cmps_flags (a : Arch) : (x.emit .cmps keeps a).flags =
    x.compare (x.load a x.srcBase a.rsi) (x.load a x.dstBase a.rdi) := by
  cases keeps <;> rfl

theorem emit_cmps_mem (a : Arch) : (x.emit .cmps keeps a).mem = a.mem := by cases keeps <;> rfl

theorem emit_cmps_rax (a : Arch) : (x.emit .cmps keeps a).rax = a.rax := by cases keeps <;> rfl

theorem Equal.step {k : Nat} (h : Equal x keeps start k a) (hkeeps : keeps = true → x.srcBase = x.dstBase)
    (hlinear : x.linear x.srcBase start.rsi = x.linear x.dstBase start.rdi) (c : Nat) :
    Equal x keeps start (k + 1) { x.emit .cmps keeps a with rcx := c } where
  moving := h.moving.step (fun _ => .inr rfl) c
  mem := (emit_cmps_mem a).trans h.mem
  rax := (emit_cmps_rax a).trans h.rax
  flags := fun _ => (emit_cmps_flags a).trans (compare_linear (h.linear hkeeps hlinear))

theorem equal_run (hrsi : start.rsi < 2 ^ x.bits) (hrdi : start.rdi < 2 ^ x.bits)
    (hkeeps : keeps = true → x.srcBase = x.dstBase)
    (hlinear : x.linear x.srcBase start.rsi = x.linear x.dstBase start.rdi) (n : Nat) :
    (repeated (x.emit .cmps keeps) (leaves .cmps .rep) n start).2 = n ∧
      Equal x keeps start n (repeated (x.emit .cmps keeps) (leaves .cmps .rep) n start).1 := by
  have hstep : ∀ k b c, Equal x keeps start k b → Equal x keeps start (k + 1) { x.emit .cmps keeps b with rcx := c } :=
    fun _ _ c h => h.step hkeeps hlinear c
  have hstay : ∀ k b, Equal x keeps start k b → leaves .cmps .rep (x.emit .cmps keeps b).flags = false := by
    intro k b h
    rw [emit_cmps_flags, compare_linear (h.linear hkeeps hlinear)]
    rfl
  have hstart : Equal x keeps start 0 start := ⟨.start hrsi hrdi, rfl, rfl, fun h => absurd h (lt_irrefl 0)⟩
  have hall := repeated_all hstep hstay n 0 start hstart
  have hrun : Equal x keeps start (0 + (repeated (x.emit .cmps keeps) (leaves .cmps .rep) n start).2)
      (repeated (x.emit .cmps keeps) (leaves .cmps .rep) n start).1 := repeated_keeps hstep n 0 start hstart
  rw [hall, Nat.zero_add] at hrun
  exact ⟨hall, hrun⟩

end

/-! ## The instructions -/

section
variable {is64BitMode : Bool} (op : Decoded is64BitMode) (s : State)

/-- No base is added to a stored pointer, or it comes to nothing: there are no iterations, or all pairs of elements are at
one address, and the bases add up to a multiple of the size of memory. -/
def PointersRight : Prop :=
  keepsBases op.instruction op.repeatPrefix.isSome = false ∨
    (op.operands s.cpu).srcBase = 0 ∧ (op.operands s.cpu).dstBase = 0 ∨
    op.repeatPrefix.isSome = true ∧ s.reg is64BitMode .rcx = 0 ∨
    op.repeatPrefix = some .rep ∧ (op.operands s.cpu).srcBase = (op.operands s.cpu).dstBase ∧
      s.reg is64BitMode .rsi = s.reg is64BitMode .rdi ∧
      2 ^ linearBits is64BitMode ∣ s.reg is64BitMode .rcx * (op.operands s.cpu).srcBase

theorem bases_lt : (op.operands s.cpu).srcBase < 2 ^ (op.operands s.cpu).bits ∧
    (op.operands s.cpu).dstBase < 2 ^ (op.operands s.cpu).bits := by
  have hsegment : ∀ segment, segmentBase is64BitMode s.cpu segment < 2 ^ linearBits is64BitMode := by
    intro segment
    cases is64BitMode <;> exact BitVec.isLt _
  have hzero : 0 < 2 ^ linearBits is64BitMode := by positivity
  constructor
  · change sourceBase is64BitMode s.cpu op.override < 2 ^ linearBits is64BitMode
    unfold sourceBase
    cases op.override.filter (inEffect is64BitMode) with
    | some segment => exact hsegment segment
    | none =>
      cases is64BitMode with
      | true => exact hzero
      | false => exact hsegment .ds
  · cases is64BitMode with
    | true => exact hzero
    | false => exact hsegment .es

variable {x : Operands} {a : Arch}

/-- Without bases, the pointers of an access are those that the architecture stores. -/
theorem emit_eq_iterate {keeps : Bool} {instruction : Instruction}
    (hkeeps : keeps = true → instruction = .movs ∨ instruction = .cmps)
    (h : keeps = false ∨ x.srcBase = 0 ∧ x.dstBase = 0) : x.emit instruction keeps = x.iterate instruction := by
  funext a
  cases keeps with
  | false => rfl
  | true =>
    obtain ⟨hsrc, hdst⟩ := h.resolve_left Bool.noConfusion
    have hrsi : x.advance a.df (x.linear x.srcBase a.rsi) = x.advance a.df a.rsi :=
      (advance_linear_eq_iff (by rw [hsrc]; positivity) a.df a.rsi).2 hsrc
    have hrdi : x.advance a.df (x.linear x.dstBase a.rdi) = x.advance a.df a.rdi :=
      (advance_linear_eq_iff (by rw [hdst]; positivity) a.df a.rdi).2 hdst
    unfold Operands.emit
    rw [if_pos rfl, hrsi, hrdi]
    rcases hkeeps rfl with rfl | rfl <;> rfl

theorem keepsBases_cases {instruction : Instruction} {repeated : Bool} (h : keepsBases instruction repeated = true) :
    instruction = .movs ∧ repeated = false ∨ instruction = .cmps := by
  cases instruction <;> cases repeated <;> simp_all [keepsBases]

theorem repeated_equal (hrsi : a.rsi < 2 ^ x.bits) (hrdi : a.rdi < 2 ^ x.bits)
    (hbases : x.srcBase = x.dstBase) (hpointers : a.rsi = a.rdi) (hdvd : 2 ^ x.bits ∣ a.rcx * x.srcBase) :
    (repeated (x.emit .cmps true) (leaves .cmps .rep) a.rcx a).1 =
      (repeated (x.iterate .cmps) (leaves .cmps .rep) a.rcx a).1 := by
  have hlinear : x.linear x.srcBase a.rsi = x.linear x.dstBase a.rdi := by rw [hbases, hpointers]
  obtain ⟨hall, hrun⟩ := @equal_run x true a hrsi hrdi (fun _ => hbases) hlinear a.rcx
  obtain ⟨hall', hrun'⟩ := @equal_run x false a hrsi hrdi (fun h => absurd h Bool.false_ne_true) hlinear a.rcx
  have hmoves : ∀ pointer : Nat, ((pointer : Int) + a.rcx * (step x.size a.df + x.srcBase)) % 2 ^ x.bits =
      ((pointer : Int) + a.rcx * (step x.size a.df + 0)) % 2 ^ x.bits := by
    intro pointer
    have hdvd' : (2 ^ x.bits : Int) ∣ a.rcx * x.srcBase := by exact_mod_cast hdvd
    have hsplit : (pointer : Int) + a.rcx * (step x.size a.df + x.srcBase) =
        (pointer + a.rcx * (step x.size a.df + 0)) + a.rcx * x.srcBase := by ring
    obtain ⟨c, hc⟩ := hdvd'
    rw [hsplit, hc, Int.add_mul_emod_self_left]
  by_cases hzero : a.rcx = 0
  · rw [hzero]
    rfl
  · have hpos : 0 < a.rcx := Nat.pos_of_ne_zero hzero
    apply Arch.ext
    · exact hrun.rax.trans hrun'.rax.symm
    · rw [repeated_rcx a.rcx a rfl, hall]
      exact ((repeated_rcx a.rcx a rfl).trans (congrArg (a.rcx - ·) hall')).symm
    · have hsrc := hrun.moving.rsi.trans (hmoves a.rsi)
      exact_mod_cast hsrc.trans hrun'.moving.rsi.symm
    · have hdst := hrun.moving.rdi
      change _ = ((a.rdi : Int) + a.rcx * (step x.size a.df + x.dstBase)) % 2 ^ x.bits at hdst
      rw [← hbases, hmoves] at hdst
      exact_mod_cast hdst.trans hrun'.moving.rdi.symm
    · exact (hrun.flags hpos).trans (hrun'.flags hpos).symm
    · exact hrun.moving.df.trans hrun'.moving.df.symm
    · exact hrun.mem.trans hrun'.mem.symm

theorem emitted_of_right (h : PointersRight op s) :
    op.emitted s.cpu (s.arch is64BitMode) = (op.execute s.cpu (s.arch is64BitMode)).1 := by
  have hsame : (keepsBases op.instruction op.repeatPrefix.isSome = false ∨
      (op.operands s.cpu).srcBase = 0 ∧ (op.operands s.cpu).dstBase = 0) →
      (op.operands s.cpu).emit op.instruction (keepsBases op.instruction op.repeatPrefix.isSome) =
        (op.operands s.cpu).iterate op.instruction := by
    apply emit_eq_iterate
    intro hkeeps
    exact (keepsBases_cases hkeeps).imp_left And.left
  unfold Decoded.emitted Decoded.execute
  unfold PointersRight at h
  cases hop : op.repeatPrefix with
  | none =>
    rw [hop] at h hsame
    have hbases := h.imp_right fun h => h.resolve_right (by simp)
    exact congrFun (hsame hbases) _
  | some repeatPrefix =>
    rw [hop] at h hsame
    by_cases hbases : keepsBases op.instruction true = false ∨
        (op.operands s.cpu).srcBase = 0 ∧ (op.operands s.cpu).dstBase = 0
    · have hemit := hsame hbases
      change (op.operands s.cpu).emit op.instruction (keepsBases op.instruction true) = _ at hemit
      rw [hemit]
    · rcases h with h | h | ⟨-, hcount⟩ | ⟨hrep, hsrc, hpointers, hdvd⟩
      · exact absurd (.inl h) hbases
      · exact absurd (.inr h) hbases
      · change (repeated _ _ (s.reg is64BitMode .rcx) _).1 = (repeated _ _ (s.reg is64BitMode .rcx) _).1
        rw [hcount]
        rfl
      · have hkeeps : keepsBases op.instruction true = true := by
          rw [← Bool.not_eq_false]
          exact fun h => hbases (.inl h)
        have hcmps := (keepsBases_cases hkeeps).resolve_left fun h => Bool.noConfusion h.2
        cases hrep
        rw [hkeeps, hcmps]
        exact repeated_equal (a := s.arch is64BitMode) (reg_lt op s .rsi) (reg_lt op s .rdi) hsrc hpointers hdvd

/-! ## What memory can hold -/

/-- States that also agree on the registers of the instruction. -/
structure Alike (is64BitMode : Bool) (s s' : State) : Prop extends Same s s' where
  rcx : s'.reg is64BitMode .rcx = s.reg is64BitMode .rcx
  rsi : s'.reg is64BitMode .rsi = s.reg is64BitMode .rsi
  rdi : s'.reg is64BitMode .rdi = s.reg is64BitMode .rdi

theorem alike_mem (m : Memory) : Alike is64BitMode s { s with mem := m } := ⟨⟨rfl, rfl, rfl⟩, rfl, rfl, rfl⟩

theorem PointersRight.congr {s' : State} (h : PointersRight op s) (halike : Alike is64BitMode s s') :
    PointersRight op s' := by
  unfold PointersRight at *
  rw [operands_congr op halike.segments halike.gdt, halike.rcx, halike.rsi, halike.rdi]
  exact h

section
variable {x : Operands} {a : Arch}

theorem bases_of_emit (hsrc : x.srcBase < 2 ^ x.bits) (hdst : x.dstBase < 2 ^ x.bits) {instruction : Instruction}
    (hinstruction : instruction = .movs ∨ instruction = .cmps)
    (hrsi : (x.emit instruction true a).rsi = (x.iterate instruction a).rsi)
    (hrdi : (x.emit instruction true a).rdi = (x.iterate instruction a).rdi) : x.srcBase = 0 ∧ x.dstBase = 0 := by
  constructor
  · apply (advance_linear_eq_iff hsrc a.df a.rsi).1
    rcases hinstruction with rfl | rfl <;> exact hrsi
  · apply (advance_linear_eq_iff hdst a.df a.rdi).1
    rcases hinstruction with rfl | rfl <;> exact hrdi

theorem bases_of_leaves (hsrc : x.srcBase < 2 ^ x.bits) (hdst : x.dstBase < 2 ^ x.bits) {repeatPrefix : RepeatPrefix}
    {n : Nat} (hleaves : leaves .cmps repeatPrefix (x.iterate .cmps a).flags = true)
    (h : (repeated (x.emit .cmps true) (leaves .cmps repeatPrefix) (n + 1) a).1 =
      (repeated (x.iterate .cmps) (leaves .cmps repeatPrefix) (n + 1) a).1) : x.srcBase = 0 ∧ x.dstBase = 0 := by
  have hleaves' : leaves .cmps repeatPrefix (x.emit .cmps true a).flags = true := hleaves
  rw [repeated_leaves hleaves, repeated_leaves hleaves'] at h
  have hrsi := congrArg Arch.rsi h
  have hrdi := congrArg Arch.rdi h
  exact bases_of_emit hsrc hdst (.inr rfl) hrsi hrdi

/-- With different bases, the second pair of elements is at different addresses. -/
theorem linear_emit_ne (hsrc : x.srcBase < 2 ^ x.bits) (hdst : x.dstBase < 2 ^ x.bits) (hne : x.srcBase ≠ x.dstBase)
    (hlinear : x.linear x.srcBase a.rsi = x.linear x.dstBase a.rdi) :
    x.linear x.srcBase (x.emit .cmps true a).rsi ≠ x.linear x.dstBase (x.emit .cmps true a).rdi := by
  have hrsi : ((x.emit .cmps true a).rsi : Int) = _ := advance_linear a.df x.srcBase a.rsi
  have hrdi : ((x.emit .cmps true a).rdi : Int) = _ := advance_linear a.df x.dstBase a.rdi
  intro heq
  rw [linear_eq_iff] at hlinear heq
  rw [hrsi, hrdi, Int.emod_add_emod, Int.emod_add_emod] at heq
  have hsum : ((a.rsi : Int) + x.srcBase) + (step x.size a.df + x.srcBase) ≡
      ((a.rdi : Int) + x.dstBase) + (step x.size a.df + x.dstBase) [ZMOD 2 ^ x.bits] := by
    ring_nf at heq ⊢
    exact heq
  have hbases := Int.ModEq.add_left_cancel' _ (Int.ModEq.add_left_cancel hlinear hsum)
  apply hne
  have hmod : x.srcBase % 2 ^ x.bits = x.dstBase % 2 ^ x.bits := by exact_mod_cast hbases
  rw [← Nat.mod_eq_of_lt hsrc, hmod, Nat.mod_eq_of_lt hdst]

/-- Such a second pair need not be equal, which the architecture does not see. -/
theorem not_repeated_of_ne (hsrc : x.srcBase < 2 ^ x.bits) (hdst : x.dstBase < 2 ^ x.bits) (hsize : 1 ≤ x.size)
    (hrsi : a.rsi < 2 ^ x.bits) (hrdi : a.rdi < 2 ^ x.bits) (hne : x.srcBase ≠ x.dstBase)
    (hlinear : x.linear x.srcBase a.rsi = x.linear x.dstBase a.rdi) (n : Nat)
    (hmem : a.mem = oneAt (x.linear x.srcBase (x.emit .cmps true a).rsi)) :
    (repeated (x.emit .cmps true) (leaves .cmps .rep) (n + 2) a).1 ≠
      (repeated (x.iterate .cmps) (leaves .cmps .rep) (n + 2) a).1 := by
  have hfirst : leaves .cmps .rep (x.emit .cmps true a).flags = false := by
    rw [emit_cmps_flags, compare_linear hlinear]
    rfl
  have hmem' : (x.emit .cmps true a).mem = oneAt (x.linear x.srcBase (x.emit .cmps true a).rsi) :=
    (emit_cmps_mem a).trans hmem
  have hzf : (x.emit .cmps true { x.emit .cmps true a with rcx := n + 1 }).flags.zf = false := by
    exact compare_oneAt hsize hmem' (linear_emit_ne hsrc hdst hne hlinear)
  have hsecond : leaves .cmps .rep (x.emit .cmps true { x.emit .cmps true a with rcx := n + 1 }).flags = true := by
    change (!(x.emit .cmps true { x.emit .cmps true a with rcx := n + 1 }).flags.zf) = true
    rw [hzf]
    rfl
  obtain ⟨-, hrun⟩ := @equal_run x false a hrsi hrdi (fun h => absurd h Bool.false_ne_true) hlinear (n + 2)
  have hequal : (repeated (x.iterate .cmps) (leaves .cmps .rep) (n + 2) a).1.flags = equalFlags :=
    hrun.flags (Nat.succ_pos _)
  rw [repeated_stays hfirst, repeated_leaves hsecond]
  intro heq
  have hflags : (x.emit .cmps true { x.emit .cmps true a with rcx := n + 1 }).flags = equalFlags :=
    (congrArg Arch.flags heq).trans hequal
  rw [hflags] at hzf
  exact Bool.noConfusion hzf

end

theorem dvd_of_repeated (hrsi : a.rsi < 2 ^ x.bits) (hrdi : a.rdi < 2 ^ x.bits)
    (hbases : x.srcBase = x.dstBase) (hlinear : x.linear x.srcBase a.rsi = x.linear x.dstBase a.rdi)
    (h : (repeated (x.emit .cmps true) (leaves .cmps .rep) a.rcx a).1 =
      (repeated (x.iterate .cmps) (leaves .cmps .rep) a.rcx a).1) :
    a.rsi = a.rdi ∧ 2 ^ x.bits ∣ a.rcx * x.srcBase := by
  obtain ⟨-, hrun⟩ := @equal_run x true a hrsi hrdi (fun _ => hbases) hlinear a.rcx
  obtain ⟨-, hrun'⟩ := @equal_run x false a hrsi hrdi (fun h => absurd h Bool.false_ne_true) hlinear a.rcx
  constructor
  · have hsum : a.rsi + x.srcBase ≡ a.rdi + x.srcBase [MOD 2 ^ x.bits] := by
      nth_rewrite 2 [hbases]
      exact hlinear
    have hmod : a.rsi % 2 ^ x.bits = a.rdi % 2 ^ x.bits := Nat.ModEq.add_right_cancel' _ hsum
    rwa [Nat.mod_eq_of_lt hrsi, Nat.mod_eq_of_lt hrdi] at hmod
  · have hmoved : ((a.rsi : Int) + a.rcx * (step x.size a.df + x.srcBase)) % 2 ^ x.bits =
        ((a.rsi : Int) + a.rcx * (step x.size a.df + 0)) % 2 ^ x.bits := by
      refine hrun.moving.rsi.symm.trans ?_
      rw [h]
      exact hrun'.moving.rsi
    have hdvd : (2 ^ x.bits : Int) ∣ a.rcx * x.srcBase := by
      have hsub := Int.ModEq.dvd (n := 2 ^ x.bits) hmoved.symm
      ring_nf at hsub
      exact hsub
    exact_mod_cast hdvd

theorem right_of_repeated {repeatPrefix : RepeatPrefix} (hsrc : x.srcBase < 2 ^ x.bits)
    (hdst : x.dstBase < 2 ^ x.bits) (hsize : 1 ≤ x.size) (hrsi : a.rsi < 2 ^ x.bits) (hrdi : a.rdi < 2 ^ x.bits)
    (hcount : a.rcx ≠ 0)
    (h : ∀ m, (repeated (x.emit .cmps true) (leaves .cmps repeatPrefix) a.rcx { a with mem := m }).1 =
      (repeated (x.iterate .cmps) (leaves .cmps repeatPrefix) a.rcx { a with mem := m }).1) :
    x.srcBase = 0 ∧ x.dstBase = 0 ∨
      repeatPrefix = .rep ∧ x.srcBase = x.dstBase ∧ a.rsi = a.rdi ∧ 2 ^ x.bits ∣ a.rcx * x.srcBase := by
  obtain ⟨n, hn⟩ := Nat.exists_eq_succ_of_ne_zero hcount
  have hruns : ∀ k, k = a.rcx → ∀ m,
      (repeated (x.emit .cmps true) (leaves .cmps repeatPrefix) k { a with mem := m }).1 =
      (repeated (x.iterate .cmps) (leaves .cmps repeatPrefix) k { a with mem := m }).1 := by
    rintro k rfl
    exact h
  replace h := hruns (n + 1) hn.symm
  cases repeatPrefix with
  | repne =>
    -- Memory that is zero everywhere has no pair that differs.
    left
    refine bases_of_leaves hsrc hdst ?_ (h fun _ => 0)
    exact congrArg ALUFlags.zf (subFlags_self _)
  | rep =>
    by_cases hlinear : x.linear x.srcBase a.rsi = x.linear x.dstBase a.rdi
    · by_cases hbases : x.srcBase = x.dstBase
      · right
        exact ⟨rfl, hbases, dvd_of_repeated hrsi hrdi hbases hlinear (hruns a.rcx rfl a.mem)⟩
      · cases n with
        | zero =>
          left
          have hone : (repeated (x.emit .cmps true) (leaves .cmps .rep) (0 + 1) a).1 =
              (repeated (x.iterate .cmps) (leaves .cmps .rep) (0 + 1) a).1 := h a.mem
          have hfirst : leaves .cmps .rep (x.emit .cmps true a).flags = false := by
            rw [emit_cmps_flags, compare_linear hlinear]
            rfl
          have hfirst' : leaves .cmps .rep (x.iterate .cmps a).flags = false := hfirst
          rw [repeated_stays hfirst, repeated_stays hfirst'] at hone
          have hrsi := congrArg Arch.rsi hone
          have hrdi := congrArg Arch.rdi hone
          exact bases_of_emit hsrc hdst (.inr rfl) hrsi hrdi
        | succ n =>
          have hsecond := h (oneAt (x.linear x.srcBase (x.emit .cmps true a).rsi))
          let b : Arch := { a with mem := oneAt (x.linear x.srcBase (x.emit .cmps true a).rsi) }
          exact absurd hsecond (not_repeated_of_ne (a := b) hsrc hdst hsize hrsi hrdi hbases hlinear n rfl)
    · -- The first pair differs.
      left
      refine bases_of_leaves hsrc hdst ?_ (h (oneAt (x.linear x.srcBase a.rsi)))
      have hzf : (x.iterate .cmps { a with mem := oneAt (x.linear x.srcBase a.rsi) }).flags.zf = false :=
        compare_oneAt hsize rfl hlinear
      change (!(x.iterate .cmps { a with mem := oneAt (x.linear x.srcBase a.rsi) }).flags.zf) = true
      rw [hzf]
      rfl

theorem size_pos : 1 ≤ op.size := by
  have hsizes := op.sizes_cases
  omega

theorem right_of_emitted (h : ∀ m, op.emitted s.cpu { s.arch is64BitMode with mem := m } =
    (op.execute s.cpu { s.arch is64BitMode with mem := m }).1) : PointersRight op s := by
  obtain ⟨hsrc, hdst⟩ := bases_lt op s
  by_cases hkeeps : keepsBases op.instruction op.repeatPrefix.isSome = true
  · have hcases := keepsBases_cases hkeeps
    right
    unfold Decoded.emitted Decoded.execute at h
    cases hop : op.repeatPrefix with
    | none =>
      left
      rw [hop] at h hkeeps hcases
      have hone := h s.mem
      change keepsBases op.instruction false = true at hkeeps
      rw [hkeeps] at hone
      have hrsi := congrArg Arch.rsi hone
      have hrdi := congrArg Arch.rdi hone
      exact bases_of_emit hsrc hdst (hcases.imp_left And.left) hrsi hrdi
    | some repeatPrefix =>
      rw [hop] at h hkeeps hcases
      have hcmps := hcases.resolve_left fun h => Bool.noConfusion h.2
      rw [hcmps] at h
      by_cases hcount : s.reg is64BitMode .rcx = 0
      · exact .inr (.inl ⟨rfl, hcount⟩)
      · have hright := right_of_repeated (a := s.arch is64BitMode) hsrc hdst (size_pos op) (reg_lt op s .rsi)
          (reg_lt op s .rdi) hcount h
        refine hright.imp_right fun hright => .inr ?_
        exact ⟨congrArg some hright.1, hright.2⟩
  · rw [Bool.not_eq_true] at hkeeps
    exact .inl hkeeps

/-- A string instruction follows the architecture if and only if no base comes into a pointer that it stores, or what comes
into it adds up to nothing. -/
theorem stringOp_follows_iff {is64BitMode : Bool} (op : Decoded is64BitMode) (s : State) :
    (∀ s', Alike is64BitMode s s' → FollowsX86 op s') ↔ PointersRight op s := by
  constructor
  · intro h
    apply right_of_emitted
    intro m
    exact (follows_iff op _).1 (h _ (alike_mem s m))
  · intro h s' halike
    rw [follows_iff]
    exact emitted_of_right op s' (h.congr op s halike)

end

/-! ## The pointers of a move -/

/-- `movsb` in 64-bit mode, with an override. -/
def movsbFS : Decoded true where
  flags := 0x00488000
  pc := 0
  instSize := 2
  entry := 0
  instruction := .movs
  repeatPrefix := none
  override := some .fs
  size := 1
  flags_addressSize := by decide
  flags_rep := by decide
  flags_repne := by decide
  flags_segment := by
    intro segment
    cases segment <;> decide
  getSrcSize_eq := by decide
  getDstSize_eq := by decide
  sizes := .inl rfl

/-- A thread with local storage. -/
def threadState : State where
  cpu := ⟨fun _ => 0x1000, fun _ => 0x7000, fun _ => 0⟩
  flags := equalFlags
  df := false
  deferred := none
  mem := fun _ => 0

theorem movsb_adds_base : ¬∀ (is64BitMode : Bool) (op : Decoded is64BitMode) (s : State), FollowsX86 op s := by
  intro h
  have hpointers := congrArg Arch.rsi ((follows_iff movsbFS threadState).1 (h true movsbFS threadState))
  revert hpointers
  decide

end FexEmu.OpcodeDispatcher.StringOps
