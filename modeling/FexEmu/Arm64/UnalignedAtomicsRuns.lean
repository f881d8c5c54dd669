import FexEmu.Arm64.UnalignedAtomicsProofs
/-!
# Runs of the handlers of atomics that are not aligned

A handler takes its accesses one after the other, and between any two of them other threads change any bytes.
-/
namespace FexEmu.Arm64.Unaligned

open ByteMemory
open BitVec (toNat_ofNat ofNat_toNat setWidth_eq getElem_and getElem_not getLsbD_setWidth)
open Option (bind_some map_some)

/-! ## Handlers -/

/-- It wrote the desired value over the expected one, or nothing, and reports bytes that the memory had and that are not
expected. -/
def Swapped (t : Task) (w : World t) (result expected desired : BitVec t.loop.size) : Prop :=
  (result = expected ∧ ∃ a ∈ w.accesses, Writes t.loop a expected desired) ∨
    ((∀ a ∈ w.accesses, a.wrote = false) ∧ result ≠ expected ∧ ∃ a ∈ w.accesses, t.loop.accessed a.before = result)

/-- The handlers that a fault can reach. -/
inductive Handler
  | memOp (code : SiCode) (instr : BitVec 32)
  | store (code : SiCode) (instr : BitVec 32) (offset : BitVec 64)
  | casal (size desiredReg expectedReg addressReg : Nat)
  | caspal (size desiredReg1 desiredReg2 expectedReg1 expectedReg2 addressReg : Nat)

namespace Handler

def task (regs : Regs) : Handler → Option Task
  | .memOp code instr => handleAtomicMemOp code instr regs
  | .store code instr offset => handleAtomicStore code instr offset regs
  | .casal size desiredReg expectedReg addressReg => runCASAL size desiredReg expectedReg addressReg regs
  | .caspal size desiredReg1 desiredReg2 expectedReg1 expectedReg2 addressReg =>
    runCASPAL size desiredReg1 desiredReg2 expectedReg1 expectedReg2 addressReg regs

def address (regs : Regs) : Handler → BitVec 64
  | .memOp _ instr => regs (reg instr 5)
  | .store _ instr offset => regs (reg instr 5) + offset
  | .casal _ _ _ addressReg => regs addressReg
  | .caspal _ _ _ _ _ addressReg => regs addressReg

def bytes : Handler → Nat
  | .memOp _ instr => sizeOf instr
  | .store _ instr _ => sizeOf instr
  | .casal size _ _ _ => size
  | .caspal _ _ _ _ _ _ => 8

def opOf (instr : BitVec 32) : BitVec 4 := (instr >>> 12).setWidth 4

def Supported : Handler → Prop
  | .memOp code instr => code = .BUS_ADRALN ∧ sizeOf instr ∈ [2, 4, 8] ∧ (memOpFunction (n := 64) (opOf instr)).isSome
  | .store code instr _ => code = .BUS_ADRALN ∧ sizeOf instr ∈ [2, 4, 8]
  | .casal size _ _ _ => size ∈ [2, 4, 8]
  | .caspal size _ _ _ _ _ => size = 0

/-- The access is inside of a 16-byte granule. -/
def InGranule (h : Handler) (regs : Regs) : Prop := (h.address regs).toNat % 16 + h.bytes ≤ 16

/-- What a handler that has returned did. -/
def Correct (h : Handler) (regs : Regs) {t : Task} (w : World t) (result : BitVec t.loop.size) : Prop :=
  match h with
  | .memOp _ instr => ∃ f, memOpFunction (opOf instr) = some f ∧
      (∃ a ∈ w.accesses, Writes t.loop a result (f result ((regs (reg instr 16)).setWidth t.loop.size))) ∧
      (reg instr 0 ≠ 31 → w.regs (reg instr 0) = result.setWidth 64)
  | .store _ instr _ => ∃ a ∈ w.accesses, ∃ x, Writes t.loop a x ((regs (reg instr 0)).setWidth t.loop.size)
  | .casal _ desiredReg expectedReg _ =>
      Swapped t w result ((regs expectedReg).setWidth t.loop.size) ((regs desiredReg).setWidth t.loop.size) ∧
      (expectedReg ≠ 31 → w.regs expectedReg = result.setWidth 64)
  | .caspal _ desiredReg1 desiredReg2 expectedReg1 expectedReg2 _ =>
      Swapped t w result ((pair regs expectedReg1 expectedReg2).setWidth t.loop.size)
        ((pair regs desiredReg1 desiredReg2).setWidth t.loop.size) ∧
      (expectedReg1 ≠ expectedReg2 → pair w.regs expectedReg1 expectedReg2 = result.setWidth 64)

end Handler

/-! ## The loop of a handler -/

theorem and_low (addr : BitVec 64) (k : Nat) (hk : k < 64) :
    (addr &&& BitVec.ofNat 64 (2 ^ k - 1)).toNat = addr.toNat % 2 ^ k := by
  have : 2 ^ k < 2 ^ 64 := Nat.pow_lt_pow_right (by decide) hk
  rw [BitVec.toNat_and, toNat_ofNat, Nat.mod_eq_of_lt (by omega), Nat.and_two_pow_sub_one_eq_mod]

theorem low_add_high (addr m : BitVec 64) : (addr &&& ~~~m) + BitVec.ofNat 64 (addr &&& m).toNat = addr := by
  rw [ofNat_toNat, setWidth_eq, BitVec.add_eq_or_of_and_eq_zero]
  · ext i hi
    simp only [BitVec.getElem_or, getElem_and, getElem_not]
    cases addr[i] <;> cases m[i] <;> rfl
  · ext i hi
    simp only [getElem_and, getElem_not]
    cases addr[i] <;> cases m[i] <;> simp

theorem high_toNat (addr m : BitVec 64) : (addr &&& ~~~m).toNat = addr.toNat - (addr &&& m).toNat := by
  have hle : addr &&& m ≤ addr := by
    exact Nat.and_le_left
  have hsub : addr &&& ~~~m = addr - (addr &&& m) := by
    have := low_add_high addr m
    rw [ofNat_toNat, setWidth_eq] at this
    rw [eq_sub_iff_add_eq]
    exact this
  rw [hsub, BitVec.toNat_sub_of_le hle]

theorem covers_of_low {n width k : Nat} (hk : k < 64) {r : Bool} {e d : BitVec n} {f g : CASFn n} (addr : BitVec 64)
    (hn : n % 8 = 0) (hw : width ≤ 128) (hw8 : width % 8 = 0) (hin : addr.toNat % 2 ^ k * 8 + n ≤ width) :
    let c : CasLoop := ⟨width, n, addr &&& ~~~BitVec.ofNat 64 (2 ^ k - 1),
      (addr &&& BitVec.ofNat 64 (2 ^ k - 1)).toNat, r, e, d, f, g⟩
    c.Covers ∧ c.address = addr := by
  refine ⟨⟨?_, hw, hw8, hn⟩, low_add_high _ _⟩
  rw [and_low addr k hk]
  exact hin

theorem fits_of_low {n width k : Nat} (hk : k < 64) {r : Bool} {e d : BitVec n} {f g : CASFn n} (addr : BitVec 64)
    (hn : n % 8 = 0) (hw : width ≤ 128) (hw8 : width % 8 = 0) (hin : addr.toNat % 2 ^ k * 8 + n ≤ width)
    (ha : (addr.toNat - addr.toNat % 2 ^ k) % (width / 8) = 0) :
    let c : CasLoop := ⟨width, n, addr &&& ~~~BitVec.ofNat 64 (2 ^ k - 1),
      (addr &&& BitVec.ofNat 64 (2 ^ k - 1)).toNat, r, e, d, f, g⟩
    c.Fits ∧ c.address = addr := by
  obtain ⟨hcov, haddr⟩ := covers_of_low hk (r := r) (e := e) (d := d) (f := f) (g := g) addr hn hw hw8 hin
  refine ⟨⟨?_, hcov.inside, hw, hw8, hn⟩, haddr⟩
  rw [high_toNat, and_low addr k hk]
  exact ha

section Templates
variable (retry : Bool) (addr : BitVec 64)

theorem and_low_eq_iff (k v : Nat) (hk : k < 64) (hv : v < 2 ^ 64) :
    addr &&& BitVec.ofNat 64 (2 ^ k - 1) = BitVec.ofNat 64 v ↔ addr.toNat % 2 ^ k = v := by
  rw [← BitVec.toNat_inj, and_low addr k hk, toNat_ofNat, Nat.mod_eq_of_lt hv]

theorem and_low_lt_iff (k v : Nat) (hk : k < 64) (hv : v < 2 ^ 64) :
    BitVec.ofNat 64 v < addr &&& BitVec.ofNat 64 (2 ^ k - 1) ↔ v < addr.toNat % 2 ^ k := by
  rw [BitVec.lt_def, and_low addr k hk, toNat_ofNat, Nat.mod_eq_of_lt hv]

theorem and_low_ge_iff (k v : Nat) (hk : k < 64) (hv : v < 2 ^ 64) :
    BitVec.ofNat 64 v ≤ addr &&& BitVec.ofNat 64 (2 ^ k - 1) ↔ v ≤ addr.toNat % 2 ^ k := by
  rw [BitVec.le_def, and_low addr k hk, toNat_ofNat, Nat.mod_eq_of_lt hv]

theorem doCAS16_spec (d e : BitVec 16) (ef df : CASFn 16) (h : addr.toNat % 16 + 2 ≤ 16) :
    ∃ width base alignment, doCAS16 retry d e addr ef df = some ⟨width, 16, base, alignment, retry, e, d, ef, df⟩ ∧
      (⟨width, 16, base, alignment, retry, e, d, ef, df⟩ : CasLoop).Fits ∧
      (⟨width, 16, base, alignment, retry, e, d, ef, df⟩ : CasLoop).address = addr := by
  have h15 := and_low_eq_iff addr 4 15 (by decide) (by decide)
  have h7 := and_low_eq_iff addr 3 7 (by decide) (by decide)
  have h3 := and_low_eq_iff addr 2 3 (by decide) (by decide)
  unfold doCAS16
  split
  · case isTrue hc =>
    have := h15.mp hc
    omega
  · split
    · exact ⟨128, _, _, rfl, fits_of_low (k := 4) (by decide) addr (by decide) (by decide) (by decide) (by omega) (by omega)⟩
    · case isFalse hn7 =>
      have hne7 := h7.not.mp hn7
      split
      · case isTrue hc =>
        have := h3.mp hc
        exact ⟨64, _, _, rfl,
          fits_of_low (k := 2) (by decide) addr (by decide) (by decide) (by decide) (by omega) (by omega)⟩
      · case isFalse hn3 =>
        have := h3.not.mp hn3
        exact ⟨32, _, _, rfl,
          fits_of_low (k := 2) (by decide) addr (by decide) (by decide) (by decide) (by omega) (by omega)⟩

theorem doCAS32_spec (d e : BitVec 32) (ef df : CASFn 32) (h : addr.toNat % 16 + 4 ≤ 16) :
    ∃ width base alignment, doCAS32 retry d e addr ef df = some ⟨width, 32, base, alignment, retry, e, d, ef, df⟩ ∧
      (⟨width, 32, base, alignment, retry, e, d, ef, df⟩ : CasLoop).Fits ∧
      (⟨width, 32, base, alignment, retry, e, d, ef, df⟩ : CasLoop).address = addr := by
  have h12 := and_low_lt_iff addr 4 12 (by decide) (by decide)
  have h5 := and_low_ge_iff addr 3 5 (by decide) (by decide)
  unfold doCAS32
  split
  · case isTrue hc =>
    have := h12.mp hc
    omega
  · split
    · exact ⟨128, _, _, rfl, fits_of_low (k := 4) (by decide) addr (by decide) (by decide) (by decide) (by omega) (by omega)⟩
    · case isFalse hn5 =>
      have := h5.not.mp hn5
      exact ⟨64, _, _, rfl, fits_of_low (k := 3) (by decide) addr (by decide) (by decide) (by decide) (by omega) (by omega)⟩

theorem doCAS64_spec (d e : BitVec 64) (ef df : CASFn 64) (h : addr.toNat % 16 + 8 ≤ 16) :
    ∃ base alignment, doCAS64 retry d e addr ef df = some ⟨128, 64, base, alignment, retry, e, d, ef, df⟩ ∧
      (⟨128, 64, base, alignment, retry, e, d, ef, df⟩ : CasLoop).Fits ∧
      (⟨128, 64, base, alignment, retry, e, d, ef, df⟩ : CasLoop).address = addr := by
  have h8 := and_low_lt_iff addr 4 8 (by decide) (by decide)
  unfold doCAS64
  split
  · case isTrue hc =>
    have := h8.mp hc
    omega
  · exact ⟨_, _, rfl, fits_of_low (k := 4) (by decide) addr (by decide) (by decide) (by decide) (by omega) (by omega)⟩

end Templates

/-! ## Runs -/

/-- The exchange of a store finds the accessed bytes changed and the others as they were: it fails and is not retried. -/
def losesStore {t : Task} (w : World t) : Event → Bool
  | .access =>
    match w.pc with
    | .exchange word =>
      t.loop.accessed w.mem ≠ t.loop.extract word &&
        t.loop.merge (read w.mem t.loop.addr t.loop.width) (t.loop.extract word) = word
    | _ => false
  | .others _ => false

/-- The states of the runs whose steps are all `allowed`. -/
inductive Reachable {t : Task} (allowed : World t → Event → Bool) (start : World t) : World t → Prop
  | refl : Reachable allowed start start
  | step {w : World t} (e : Event) : Reachable allowed start w → allowed w e = true → Reachable allowed start (w.step e)

section Runs
variable {t : Task} {regs : Regs} {mem : Memory} {allowed : World t → Event → Bool} {w : World t}

theorem Reachable.inv (hf : t.loop.Fits) (h : Reachable allowed (World.initial t mem regs) w) : Inv regs w := by
  induction h with
  | refl => exact inv_initial mem regs
  | step e _ _ ih => exact ih.step hf e

theorem Reachable.wrote (hf : t.loop.Fits) (he : ∀ word, t.loop.expected word = t.loop.extract word)
    (hallowed : ∀ (w : World t) e, allowed w e = true → losesStore w e = false)
    (h : Reachable allowed (World.initial t mem regs) w) :
    ∀ r, w.pc = .returned r → ∃ a ∈ w.accesses, a.wrote = true := by
  induction h with
  | refl =>
    intro r hr
    cases hr
  | @step w e hreach ha ih =>
    cases e with
    | others mem => exact ih
    | access =>
      have hl := hallowed w _ ha
      intro r hr
      rw [World.step, World.access] at hr ⊢
      cases hpc : w.pc with
      | returned r' =>
        exact ih r' hpc
      | load =>
        simp only [hpc] at hr
        cases hr
      | exchange word =>
        simp only [hpc] at hr ⊢
        split at hr
        · case isTrue hx =>
          rw [if_pos hx]
          exact ⟨_, List.mem_append_right _ List.mem_cons_self, rfl⟩
        · case isFalse hx =>
          exfalso
          dsimp only [CasLoop.failed] at hr
          split at hr
          · cases hr
          · split at hr
            · cases hr
            · case isFalse hothers =>
              have hothers := not_not.mp hothers
              have hne := extract_ne_expected hf hx hothers
              rw [he, CasLoop.extract_read hf.covers] at hne
              rw [CasLoop.others_eq_iff, CasLoop.tmpDesired, CasLoop.extract_merge hf.covers] at hothers
              have hsame : t.loop.merge (read w.mem t.loop.addr t.loop.width) (t.loop.extract word) = word := by
                have := congrArg (t.loop.merge · (t.loop.extract word)) hothers
                simpa [CasLoop.merge_merge, CasLoop.tmpExpected, he, CasLoop.merge_extract] using this
              simp [losesStore, hpc, hne, hsame] at hl

end Runs

/-- No step of a store may lose it. -/
def Handler.allowed (h : Handler) {t : Task} (w : World t) (e : Event) : Bool :=
  match h with
  | .store _ _ _ => !losesStore w e
  | _ => true

/-- What is proved of a handler with its registers. -/
def Handler.Safe (h : Handler) (regs : Regs) (t : Task) : Prop :=
  t.loop.address = h.address regs ∧ t.loop.size = 8 * h.bytes ∧
    ∀ mem w, Reachable h.allowed (World.initial t mem regs) w →
      History t.loop w.accesses ∧ ∀ result, w.pc = .returned result → h.Correct regs w result

section Handlers
variable {regs : Regs} {t : Task}

/-- The task puts its result into a register. -/
def Task.ToReg (t : Task) (r : Nat) : Prop :=
  ∀ wrote result regs, t.finish wrote result regs = if r ≠ 31 then setReg regs r (result.setWidth 64) else regs

theorem Task.ToReg.result {r : Nat} (h : t.ToReg r) (hr : r ≠ 31) (wrote : Bool) (result : BitVec t.loop.size) :
    t.finish wrote result regs r = result.setWidth 64 := by
  simp [h wrote result regs, hr, setReg]

theorem memOp_safe {code : SiCode} {instr : BitVec 32} (hf : t.loop.Fits) (hfin : t.ToReg (reg instr 0))
    (haddr : t.loop.address = regs (reg instr 5)) (hsize : t.loop.size = 8 * sizeOf instr) (hretry : t.loop.retry = true)
    {f : CASFn t.loop.size} (hop : memOpFunction (Handler.opOf instr) = some f)
    (he : ∀ word, t.loop.expected word = t.loop.extract word)
    (hd : ∀ word, t.loop.desired word = f (t.loop.extract word) ((regs (reg instr 16)).setWidth t.loop.size)) :
    (Handler.memOp code instr).Safe regs t := by
  refine ⟨haddr, hsize, fun mem w hw => ?_⟩
  have hinv := hw.inv hf
  refine ⟨hinv.history, fun result hr => ?_⟩
  cases hinv.ended result hr with
  | failed word a hno => exact absurd (hretry.symm.trans hno) (by simp)
  | written word a ha hres hwr hregs =>
    refine ⟨f, hop, ⟨a, ha, ?_⟩, fun h31 => ?_⟩
    · rw [hd, ← he, ← hres] at hwr
      exact hwr
    · rw [hregs]
      exact hfin.result h31 true result

theorem store_safe {code : SiCode} {instr : BitVec 32} {offset : BitVec 64} (hf : t.loop.Fits)
    (haddr : t.loop.address = regs (reg instr 5) + offset) (hsize : t.loop.size = 8 * sizeOf instr)
    (he : ∀ word, t.loop.expected word = t.loop.extract word)
    (hd : ∀ word, t.loop.desired word = (regs (reg instr 0)).setWidth t.loop.size) :
    (Handler.store code instr offset).Safe regs t := by
  refine ⟨haddr, hsize, fun mem w hw => ?_⟩
  have hinv := hw.inv hf
  refine ⟨hinv.history, fun result hr => ?_⟩
  obtain ⟨b, hb, hwrote⟩ := hw.wrote hf he (fun w e ha => by simpa [Handler.allowed] using ha) result hr
  cases hinv.ended result hr with
  | failed word a hno hquiet =>
    rw [hquiet b hb] at hwrote
    cases hwrote
  | written word a ha hres hwr hregs =>
    rw [hd] at hwr
    exact ⟨a, ha, _, hwr⟩

theorem Inv.swapped {w : World t} (h : Inv regs w) {e d : BitVec t.loop.size} (he : ∀ word, t.loop.expected word = e)
    (hd : ∀ word, t.loop.desired word = d) {result : BitVec t.loop.size} (hr : w.pc = .returned result) :
    Swapped t w result e d ∧ ∃ wrote, w.regs = t.finish wrote result regs ∧ (wrote = true → result = e) := by
  cases h.ended result hr with
  | written word a ha hres hwr hregs =>
    rw [he] at hres
    rw [he, hd] at hwr
    exact ⟨.inl ⟨hres, a, ha, hwr⟩, true, hregs, fun _ => hres⟩
  | failed word a hno hquiet ha hacc hne hregs =>
    rw [he] at hne
    exact ⟨.inr ⟨hquiet, hne, a, ha, hacc⟩, false, hregs, fun hf => by cases hf⟩

theorem casal_safe {size desiredReg expectedReg addressReg : Nat} (hf : t.loop.Fits) (hfin : t.ToReg expectedReg)
    (haddr : t.loop.address = regs addressReg) (hsize : t.loop.size = 8 * size)
    (he : ∀ word, t.loop.expected word = (regs expectedReg).setWidth t.loop.size)
    (hd : ∀ word, t.loop.desired word = (regs desiredReg).setWidth t.loop.size) :
    (Handler.casal size desiredReg expectedReg addressReg).Safe regs t := by
  refine ⟨haddr, hsize, fun mem w hw => ?_⟩
  have hinv := hw.inv hf
  refine ⟨hinv.history, fun result hr => ?_⟩
  obtain ⟨hswap, wrote, hregs, -⟩ := hinv.swapped he hd hr
  refine ⟨hswap, fun h31 => ?_⟩
  rw [hregs]
  exact hfin.result h31 wrote result

end Handlers

/-! ### Every handler -/

section All
variable {regs : Regs}

theorem memOpFunction_isSome {n k : Nat} {op : BitVec 4} (h : (memOpFunction (n := n) op).isSome) :
    ∃ f : CASFn k, memOpFunction op = some f := by
  unfold memOpFunction at h ⊢
  split at h <;> simp_all

theorem memOp_handled {code : SiCode} {instr : BitVec 32} (hs : (Handler.memOp code instr).Supported)
    (hg : (Handler.memOp code instr).InGranule regs) :
    ∃ t, (Handler.memOp code instr).task regs = some t ∧ (Handler.memOp code instr).Safe regs t := by
  obtain ⟨hcode, hsize, hop⟩ := hs
  rw [Handler.task, handleAtomicMemOp, if_neg (by simp [hcode])]
  have hg' : (regs (reg instr 5)).toNat % 16 + sizeOf instr ≤ 16 := hg
  simp only [List.mem_cons, List.not_mem_nil, or_false] at hsize
  rcases hsize with h | h | h
  · obtain ⟨f, hf⟩ := memOpFunction_isSome (k := 16) hop
    obtain ⟨width, base, al, heq, hfits, haddr⟩ :=
      doCAS16_spec true (regs (reg instr 5)) ((regs (reg instr 16)).setWidth 16) 0 srcFunction f (by omega)
    rw [Handler.opOf] at hf
    simp only [h, hf, bind_some, heq, map_some]
    exact ⟨_, rfl, memOp_safe (t := .toReg _ _) hfits (fun _ _ _ => rfl) haddr (by rw [h]; rfl) rfl hf
      (fun _ => rfl) (fun _ => rfl)⟩
  · obtain ⟨f, hf⟩ := memOpFunction_isSome (k := 32) hop
    obtain ⟨width, base, al, heq, hfits, haddr⟩ :=
      doCAS32_spec true (regs (reg instr 5)) ((regs (reg instr 16)).setWidth 32) 0 srcFunction f (by omega)
    rw [Handler.opOf] at hf
    simp only [h, hf, bind_some, heq, map_some]
    exact ⟨_, rfl, memOp_safe (t := .toReg _ _) hfits (fun _ _ _ => rfl) haddr (by rw [h]; rfl) rfl hf
      (fun _ => rfl) (fun _ => rfl)⟩
  · obtain ⟨f, hf⟩ := memOpFunction_isSome (k := 64) hop
    obtain ⟨base, al, heq, hfits, haddr⟩ :=
      doCAS64_spec true (regs (reg instr 5)) (regs (reg instr 16)) 0 srcFunction f (by omega)
    rw [Handler.opOf] at hf
    simp only [h, hf, bind_some, heq, map_some]
    exact ⟨_, rfl, memOp_safe (t := .toReg _ _) hfits (fun _ _ _ => rfl) haddr (by rw [h]; rfl) rfl hf
      (fun _ => rfl) (fun word => congrArg (f _) (setWidth_eq _).symm)⟩

theorem store_handled {code : SiCode} {instr : BitVec 32} {offset : BitVec 64}
    (hs : (Handler.store code instr offset).Supported) (hg : (Handler.store code instr offset).InGranule regs) :
    ∃ t, (Handler.store code instr offset).task regs = some t ∧ (Handler.store code instr offset).Safe regs t := by
  obtain ⟨hcode, hsize⟩ := hs
  rw [Handler.task, handleAtomicStore, if_neg (by simp [hcode])]
  have hg' : (regs (reg instr 5) + offset).toNat % 16 + sizeOf instr ≤ 16 := hg
  simp only [List.mem_cons, List.not_mem_nil, or_false] at hsize
  rcases hsize with h | h | h
  · obtain ⟨width, base, al, heq, hfits, haddr⟩ := doCAS16_spec false (regs (reg instr 5) + offset)
      ((regs (reg instr 0)).setWidth 16) 0 srcFunction argFunction (by omega)
    simp only [h, heq, map_some]
    exact ⟨_, rfl, store_safe (t := .toNone _) hfits haddr (by rw [h]; rfl) (fun _ => rfl) (fun _ => rfl)⟩
  · obtain ⟨width, base, al, heq, hfits, haddr⟩ := doCAS32_spec false (regs (reg instr 5) + offset)
      ((regs (reg instr 0)).setWidth 32) 0 srcFunction argFunction (by omega)
    simp only [h, heq, map_some]
    exact ⟨_, rfl, store_safe (t := .toNone _) hfits haddr (by rw [h]; rfl) (fun _ => rfl) (fun _ => rfl)⟩
  · obtain ⟨base, al, heq, hfits, haddr⟩ := doCAS64_spec false (regs (reg instr 5) + offset) (regs (reg instr 0)) 0
      srcFunction argFunction (by omega)
    simp only [h, heq, map_some]
    exact ⟨_, rfl, store_safe (t := .toNone _) hfits haddr (by rw [h]; rfl) (fun _ => rfl)
      (fun _ => (setWidth_eq _).symm)⟩

theorem casal_handled {size desiredReg expectedReg addressReg : Nat}
    (hs : (Handler.casal size desiredReg expectedReg addressReg).Supported)
    (hg : (Handler.casal size desiredReg expectedReg addressReg).InGranule regs) :
    ∃ t, (Handler.casal size desiredReg expectedReg addressReg).task regs = some t ∧
      (Handler.casal size desiredReg expectedReg addressReg).Safe regs t := by
  have hg' : (regs addressReg).toNat % 16 + size ≤ 16 := hg
  have hs' : size ∈ [2, 4, 8] := hs
  simp only [List.mem_cons, List.not_mem_nil, or_false] at hs'
  rcases hs' with rfl | rfl | rfl
  · obtain ⟨width, base, al, heq, hfits, haddr⟩ := doCAS16_spec false (regs addressReg)
      ((regs desiredReg).setWidth 16) ((regs expectedReg).setWidth 16) argFunction argFunction (by omega)
    simp only [Handler.task, runCASAL, heq, map_some]
    exact ⟨_, rfl, casal_safe (t := .toReg _ _) hfits (fun _ _ _ => rfl) haddr rfl (fun _ => rfl) (fun _ => rfl)⟩
  · obtain ⟨width, base, al, heq, hfits, haddr⟩ := doCAS32_spec false (regs addressReg)
      ((regs desiredReg).setWidth 32) ((regs expectedReg).setWidth 32) argFunction argFunction (by omega)
    simp only [Handler.task, runCASAL, heq, map_some]
    exact ⟨_, rfl, casal_safe (t := .toReg _ _) hfits (fun _ _ _ => rfl) haddr rfl (fun _ => rfl) (fun _ => rfl)⟩
  · obtain ⟨base, al, heq, hfits, haddr⟩ := doCAS64_spec false (regs addressReg) (regs desiredReg) (regs expectedReg)
      argFunction argFunction (by omega)
    simp only [Handler.task, runCASAL, heq, map_some]
    exact ⟨_, rfl, casal_safe (t := .toReg _ _) hfits (fun _ _ _ => rfl) haddr rfl
      (fun _ => (setWidth_eq _).symm) (fun _ => (setWidth_eq _).symm)⟩

theorem pair_setReg {lower upper : Nat} (h : lower ≠ upper) (result : BitVec 64) :
    pair (setReg (setReg regs lower (result &&& 0xFFFFFFFF)) upper (result >>> 32)) lower upper = result := by
  rw [pair, setReg, Function.update_self, Function.update_of_ne h, setReg, Function.update_self]
  apply BitVec.eq_of_getLsbD_eq
  intro i hi
  rw [BitVec.getLsbD_append]
  by_cases hlow : i < 32
  · have hmask : (0xFFFFFFFF#64).getLsbD i = true := by
      rw [show (0xFFFFFFFF#64) = (BitVec.allOnes 32).setWidth 64 from rfl, getLsbD_setWidth, BitVec.getLsbD_allOnes]
      simp [hi, hlow]
    rw [if_pos hlow, getLsbD_setWidth, BitVec.getLsbD_and]
    simp [hlow, hmask]
  · have hsum : 32 + (i - 32) = i := by omega
    rw [if_neg hlow, getLsbD_setWidth, BitVec.getLsbD_ushiftRight, hsum]
    have : i - 32 < 32 := by omega
    simp [this]

theorem caspal_handled {size desiredReg1 desiredReg2 expectedReg1 expectedReg2 addressReg : Nat}
    (hs : (Handler.caspal size desiredReg1 desiredReg2 expectedReg1 expectedReg2 addressReg).Supported)
    (hg : (Handler.caspal size desiredReg1 desiredReg2 expectedReg1 expectedReg2 addressReg).InGranule regs) :
    ∃ t, (Handler.caspal size desiredReg1 desiredReg2 expectedReg1 expectedReg2 addressReg).task regs = some t ∧
      (Handler.caspal size desiredReg1 desiredReg2 expectedReg1 expectedReg2 addressReg).Safe regs t := by
  have hg' : (regs addressReg).toNat % 16 + 8 ≤ 16 := hg
  have hs' : size = 0 := hs
  have h8 := and_low_lt_iff (regs addressReg) 4 8 (by decide) (by decide)
  rw [Handler.task, runCASPAL, if_pos hs']
  dsimp only
  split
  · case isTrue hc =>
    have := h8.mp hc
    omega
  · refine ⟨_, rfl, ?_⟩
    obtain ⟨hfits, haddr⟩ := @fits_of_low 64 128 4 (by decide) false (pair regs expectedReg1 expectedReg2)
      (pair regs desiredReg1 desiredReg2) argFunction argFunction (regs addressReg) (by decide) (by decide) (by decide)
      (by omega) (by omega)
    refine ⟨haddr, rfl, fun mem w hw => ?_⟩
    have hinv := hw.inv hfits
    refine ⟨hinv.history, fun result hr => ?_⟩
    obtain ⟨hswap, wrote, hregs, hwrote⟩ := hinv.swapped (e := pair regs expectedReg1 expectedReg2)
      (d := pair regs desiredReg1 desiredReg2) (fun _ => rfl) (fun _ => rfl) hr
    refine ⟨?_, fun hne => ?_⟩
    · rw [setWidth_eq, setWidth_eq]
      exact hswap
    · rw [hregs, setWidth_eq]
      cases wrote with
      | true => exact (hwrote rfl).symm
      | false => exact pair_setReg hne result

end All

/-- Every handler, for every access inside of a 16-byte granule, in every interleaving in which no store is lost. -/
theorem unaligned_safe (h : Handler) (regs : Regs) (hs : h.Supported) (hg : h.InGranule regs) :
    ∃ t, h.task regs = some t ∧ h.Safe regs t := by
  cases h with
  | memOp code instr => exact memOp_handled hs hg
  | store code instr offset => exact store_handled hs hg
  | casal size desiredReg expectedReg addressReg => exact casal_handled hs hg
  | caspal size desiredReg1 desiredReg2 expectedReg1 expectedReg2 addressReg => exact caspal_handled hs hg

/-- The registers at a store of four bytes that starts one byte into its word. -/
def storeRegs : Regs := fun r => if r = 1 then 0x1001 else 0x11223344

def storeHandler : Handler := .store .BUS_ADRALN 0x80000020 0

theorem unaligned_safe_store : storeHandler.Supported ∧ storeHandler.InGranule storeRegs ∧
    ∃ t, storeHandler.task storeRegs = some t ∧ storeHandler.Safe storeRegs t := by
  have hs : storeHandler.Supported := ⟨rfl, by decide⟩
  have hg : storeHandler.InGranule storeRegs := by
    unfold Handler.InGranule
    decide
  exact ⟨hs, hg, unaligned_safe storeHandler storeRegs hs hg⟩

def storeTask : Task :=
  .toNone ⟨64, 32, 0x1000, 1, false, 0, 0x11223344, srcFunction, argFunction⟩

def storeLost : World storeTask :=
  ((World.initial storeTask (fun _ => 0) storeRegs).step .access).step (.others fun a => if a = 0x1001 then 1 else 0)
    |>.step .access

/-- The run of a supported store inside of a granule that returns and has not written. -/
theorem store_returns_unwritten : storeHandler.Supported ∧ storeHandler.InGranule storeRegs ∧
    storeHandler.task storeRegs = some storeTask ∧
    Reachable (fun _ _ => true) (World.initial storeTask (fun _ => 0) storeRegs) storeLost ∧
    storeLost.pc = .returned 1 ∧ ¬ storeHandler.Correct storeRegs storeLost 1 := by
  refine ⟨⟨rfl, by decide⟩, ?_, ?_, ?_, ?_, ?_⟩
  · unfold Handler.InGranule
    decide
  · rfl
  · exact ((Reachable.refl.step _ rfl).step _ rfl).step _ rfl
  · decide +kernel
  · rintro ⟨a, ha, x, hwrites⟩
    have hquiet : storeLost.accesses.all (!·.wrote) = true := by decide +kernel
    have hno := List.all_eq_true.mp hquiet a ha
    rw [hwrites.wrote] at hno
    cases hno

end FexEmu.Arm64.Unaligned
