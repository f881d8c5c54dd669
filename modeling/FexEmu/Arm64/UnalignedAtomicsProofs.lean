import FexEmu.Arm64.UnalignedAtomics
/-!
# Atomics that are not aligned lose no update

A compare-exchange that succeeds changes only the accessed bytes. `HandleAtomicStore` is not retried after a failure, and
then the store is lost.
-/
namespace FexEmu.Arm64.Unaligned

open ByteMemory
open BitVec (getLsbD_setWidth getLsbD_and getLsbD_not eq_of_getLsbD_eq getLsbD_extractLsb')

/-! ## Words -/

namespace CasLoop
variable {c : CasLoop}

/-- The word is aligned, and the accessed bits are inside of it. -/
structure Fits (c : CasLoop) : Prop where
  aligned : c.addr.toNat % (c.width / 8) = 0
  inside : c.shift + c.size ≤ c.width
  width : c.width ≤ 128
  word : c.width % 8 = 0
  bytes : c.size % 8 = 0

/-- The accessed bits are inside of a word of whole bytes, which need not be aligned. -/
structure Covers (c : CasLoop) : Prop where
  inside : c.shift + c.size ≤ c.width
  width : c.width ≤ 128
  word : c.width % 8 = 0
  bytes : c.size % 8 = 0

theorem Fits.covers (h : c.Fits) : c.Covers := ⟨h.inside, h.width, h.word, h.bytes⟩

/-- The accessed bits, as positions in the word. -/
def Ours (c : CasLoop) (i : Nat) : Prop := c.shift ≤ i ∧ i < c.shift + c.size

instance (i : Nat) : Decidable (c.Ours i) := inferInstanceAs (Decidable (_ ∧ _))

theorem getLsbD_mask {i : Nat} (hi : i < c.width) : c.mask.getLsbD i = decide (c.Ours i) := by
  rw [mask, BitVec.getLsbD_shiftLeft, getLsbD_setWidth, BitVec.getLsbD_allOnes]
  by_cases hs : i < c.shift
  · simp [Ours, hs, Nat.not_le.mpr hs]
  · have : i - c.shift < c.size ↔ i < c.shift + c.size := by omega
    have hlt : i - c.shift < c.width := by omega
    simp [Ours, hs, hi, hlt, this, Nat.le_of_not_lt hs]

theorem getLsbD_extract (word : BitVec c.width) {i : Nat} (hi : i < c.size) :
    (c.extract word).getLsbD i = word.getLsbD (c.shift + i) := by
  rw [extract, getLsbD_setWidth, BitVec.getLsbD_ushiftRight]
  simp [hi]

theorem getLsbD_merge (word : BitVec c.width) (x : BitVec c.size) {i : Nat} (hi : i < c.width) :
    (c.merge word x).getLsbD i = if c.Ours i then x.getLsbD (i - c.shift) else word.getLsbD i := by
  rw [merge, BitVec.getLsbD_or, getLsbD_and, getLsbD_not, getLsbD_mask hi, BitVec.getLsbD_shiftLeft,
    getLsbD_setWidth]
  by_cases ho : c.Ours i
  · have h1 : ¬ i < c.shift := Nat.not_lt.mpr ho.1
    have h2 : i - c.shift < c.width := by omega
    simp [ho, hi, h1, h2]
  · by_cases hs : i < c.shift
    · simp [ho, hi, hs]
    · have hge : c.size ≤ i - c.shift := by
        simp only [Ours, not_and, not_lt] at ho
        omega
      simp [ho, hi, BitVec.getLsbD_of_ge x _ hge]

theorem extract_merge (h : c.Covers) (word : BitVec c.width) (x : BitVec c.size) : c.extract (c.merge word x) = x := by
  apply eq_of_getLsbD_eq
  intro i hi
  have := h.inside
  have ho : c.Ours (c.shift + i) := ⟨by omega, by omega⟩
  rw [getLsbD_extract _ hi, getLsbD_merge _ _ (by omega), if_pos ho, Nat.add_sub_cancel_left]

theorem merge_extract (word : BitVec c.width) : c.merge word (c.extract word) = word := by
  apply eq_of_getLsbD_eq
  intro i hi
  rw [getLsbD_merge _ _ hi]
  split
  · case isTrue ho =>
    rw [getLsbD_extract _ (by have := ho.1; have := ho.2; omega), Nat.add_sub_cancel' ho.1]
  · rfl

theorem merge_merge (word : BitVec c.width) (x y : BitVec c.size) :
    c.merge (c.merge word x) y = c.merge word y := by
  apply eq_of_getLsbD_eq
  intro i hi
  rw [getLsbD_merge (c.merge word x) y hi, getLsbD_merge word y hi]
  split
  · rfl
  · case isFalse ho => rw [getLsbD_merge _ _ hi, if_neg ho]

theorem tmpDesired_eq (word : BitVec c.width) : c.tmpDesired word = c.merge word (c.desired word) :=
  merge_merge _ _ _

theorem others_eq_iff (a b : BitVec c.width) :
    (a &&& ~~~c.mask) ^^^ (b &&& ~~~c.mask) = 0 ↔ c.merge a (c.extract b) = b := by
  have hbits : (a &&& ~~~c.mask) ^^^ (b &&& ~~~c.mask) = 0 ↔ ∀ i < c.width, ¬ c.Ours i → a.getLsbD i = b.getLsbD i := by
    change _ = 0#c.width ↔ _
    rw [BitVec.xor_eq_zero_iff]
    constructor
    · intro he i hi ho
      have hb : (a &&& ~~~c.mask).getLsbD i = (b &&& ~~~c.mask).getLsbD i := by rw [he]
      rw [getLsbD_and, getLsbD_and, getLsbD_not, getLsbD_mask hi] at hb
      simpa [ho, hi] using hb
    · intro hall
      apply eq_of_getLsbD_eq
      intro i hi
      rw [getLsbD_and, getLsbD_and, getLsbD_not, getLsbD_mask hi]
      by_cases ho : c.Ours i
      · simp [ho]
      · rw [hall i hi ho]
  rw [hbits]
  constructor
  · intro hall
    apply eq_of_getLsbD_eq
    intro i hi
    rw [getLsbD_merge _ _ hi]
    split
    · case isTrue ho =>
      rw [getLsbD_extract _ (by have := ho.1; have := ho.2; omega), Nat.add_sub_cancel' ho.1]
    · case isFalse ho => exact hall i hi ho
  · intro he i hi ho
    rw [← he, getLsbD_merge _ _ hi, if_neg ho]

theorem failed_result (h : c.Covers) (actual : BitVec c.width) :
    ((actual &&& c.mask) >>> c.shift).setWidth c.size = c.extract actual := by
  apply eq_of_getLsbD_eq
  intro i hi
  have := h.inside
  have ho : c.Ours (c.shift + i) := ⟨by omega, by omega⟩
  rw [getLsbD_setWidth, BitVec.getLsbD_ushiftRight, getLsbD_and, getLsbD_mask (by omega),
    getLsbD_extract _ hi]
  simp [hi, ho]

/-! ## Memory -/

def address (c : CasLoop) : BitVec 64 := c.addr + BitVec.ofNat 64 c.alignment

def accessed (c : CasLoop) (m : Memory) : BitVec c.size := read m c.address c.size

theorem extract_read (h : c.Covers) (m : Memory) : c.extract (read m c.addr c.width) = c.accessed m := by
  apply eq_of_getLsbD_eq
  intro i hi
  have := h.inside
  have hdiv : (c.shift + i) / 8 = c.alignment + i / 8 := by
    rw [shift]
    omega
  have hmod : (c.shift + i) % 8 = i % 8 := by
    rw [shift]
    omega
  rw [getLsbD_extract _ hi, getLsbD_read _ (by omega), accessed, getLsbD_read _ hi, hdiv, hmod, address, BitVec.ofNat_add,
    BitVec.add_assoc]

theorem write_merge (h : c.Covers) (m : Memory) (x : BitVec c.size) :
    write m c.addr (c.merge (read m c.addr c.width) x) = write m c.address x := by
  funext b
  obtain ⟨hin, hw, hword, hbytes⟩ := h
  have hshift : c.shift = 8 * c.alignment := Nat.mul_comm _ _
  have hsub : (b - c.address).toNat = (2 ^ 64 - c.alignment + (b - c.addr).toNat) % 2 ^ 64 := by
    have : b - c.address = (b - c.addr) - BitVec.ofNat 64 c.alignment := by
      rw [address]
      ring
    rw [this, BitVec.toNat_sub, BitVec.toNat_ofNat, Nat.mod_eq_of_lt (show c.alignment < 2 ^ 64 by omega)]
  have hlt := (b - c.addr).isLt
  rw [write_apply, write_apply, hsub]
  generalize hd : (b - c.addr).toNat = d at hlt ⊢
  have hb : b = c.addr + BitVec.ofNat 64 d := by
    rw [← hd, BitVec.ofNat_toNat, BitVec.setWidth_eq]
    ring
  by_cases hours : c.alignment ≤ d ∧ 8 * (d - c.alignment) < c.size
  · have hd' : (2 ^ 64 - c.alignment + d) % 2 ^ 64 = d - c.alignment := by omega
    rw [hd', if_pos (by omega), if_pos hours.2]
    apply eq_of_getLsbD_eq
    intro k hk
    have ho : c.Ours (8 * d + k) := ⟨by omega, by omega⟩
    have hpos : 8 * d + k - c.shift = 8 * (d - c.alignment) + k := by omega
    rw [getLsbD_extractLsb', getLsbD_extractLsb', getLsbD_merge _ _ (by omega),
      if_pos ho, hpos]
  · have hd' : ¬ 8 * ((2 ^ 64 - c.alignment + d) % 2 ^ 64) < c.size := by omega
    split
    · case isTrue hdw =>
      apply eq_of_getLsbD_eq
      intro k hk
      have ho : ¬ c.Ours (8 * d + k) := by
        simp only [Ours]
        omega
      have hdiv : (8 * d + k) / 8 = d := by omega
      have hmod : (8 * d + k) % 8 = k := by omega
      rw [getLsbD_extractLsb', getLsbD_merge _ _ (by omega), if_neg ho,
        getLsbD_read _ (by omega), hdiv, hmod, ← hb]
      simp [hk]
    · rfl

end CasLoop

/-! ## One access -/

section Steps
variable {t : Task} {w : World t}

/-- The access replaced x by y. -/
structure Writes (c : CasLoop) (a : Access) (x y : BitVec c.size) : Prop where
  wrote : a.wrote = true
  before : c.accessed a.before = x
  after : a.after = write a.before c.address y

/-- The history of a handler: at most one step writes, and only the accessed bytes. -/
structure History (c : CasLoop) (accesses : List Access) : Prop where
  once : (accesses.filter (·.wrote)).length ≤ 1
  keeps : ∀ a ∈ accesses, a.wrote = false → a.after = a.before
  only : ∀ a ∈ accesses, a.wrote = true → ∃ y : BitVec c.size, a.after = write a.before c.address y

/-- A handler has returned: its exchange was done for a word that was loaded, or one that was not retried found other
accessed bytes than expected and the other bytes as they were loaded. -/
inductive Ended (t : Task) (regs : Regs) (w : World t) (result : BitVec t.loop.size) : Prop
  | written (word : BitVec t.loop.width) (a : Access) : a ∈ w.accesses → result = t.loop.expected word →
      Writes t.loop a (t.loop.expected word) (t.loop.desired word) → w.regs = t.finish true result regs →
      Ended t regs w result
  | failed (word : BitVec t.loop.width) (a : Access) : t.loop.retry = false → (∀ b ∈ w.accesses, b.wrote = false) →
      a ∈ w.accesses → t.loop.accessed a.before = result → result ≠ t.loop.expected word →
      w.regs = t.finish false result regs → Ended t regs w result

/-- Nothing is written before the loop returns, and a result has its history. -/
structure Inv (regs : Regs) (w : World t) : Prop where
  history : History t.loop w.accesses
  quiet : (∀ result, w.pc ≠ .returned result) → w.regs = regs ∧ ∀ a ∈ w.accesses, a.wrote = false
  ended : ∀ result, w.pc = .returned result → Ended t regs w result

theorem inv_initial (mem : Memory) (regs : Regs) : Inv regs (World.initial t mem regs) := by
  refine ⟨⟨by simp [World.initial], fun a ha => ?_, fun a ha => ?_⟩, fun _ => ⟨rfl, fun a ha => ?_⟩, fun r hr => ?_⟩
  · cases ha
  · cases ha
  · cases ha
  · cases hr

theorem History.quiet {c : CasLoop} {accesses : List Access} (h : History c accesses) (m : Memory) :
    History c (accesses ++ [⟨m, m, false⟩]) := by
  refine ⟨?_, fun a ha hw => ?_, fun a ha hw => ?_⟩
  · simpa using h.once
  · rcases List.mem_append.mp ha with ha | ha
    · exact h.keeps a ha hw
    · rw [List.mem_singleton.mp ha]
  · rcases List.mem_append.mp ha with ha | ha
    · exact h.only a ha hw
    · rw [List.mem_singleton.mp ha] at hw
      cases hw

theorem quiet_append {accesses : List Access} (h : ∀ a ∈ accesses, a.wrote = false) (m : Memory) :
    ∀ a ∈ accesses ++ [⟨m, m, false⟩], a.wrote = false := by
  intro a ha
  rcases List.mem_append.mp ha with ha | ha
  · exact h a ha
  · rw [List.mem_singleton.mp ha]

theorem extract_ne_expected {c : CasLoop} (h : c.Fits) {word actual : BitVec c.width} (hne : actual ≠ c.tmpExpected word)
    (hothers : (actual &&& ~~~c.mask) ^^^ (c.tmpDesired word &&& ~~~c.mask) = 0) : c.extract actual ≠ c.expected word := by
  intro he
  apply hne
  rw [CasLoop.others_eq_iff, CasLoop.tmpDesired, CasLoop.extract_merge h.covers] at hothers
  calc actual = c.merge actual (c.extract actual) := (CasLoop.merge_extract _).symm
    _ = c.merge (c.merge actual (c.desired word)) (c.extract actual) := (CasLoop.merge_merge _ _ _).symm
    _ = c.merge (c.merge (c.tmpExpected word) (c.desired word)) (c.extract actual) := by rw [hothers]
    _ = c.merge (c.merge word (c.expected word)) (c.expected word) := by
      rw [CasLoop.merge_merge, he, CasLoop.tmpExpected]
    _ = c.tmpExpected word := CasLoop.merge_merge _ _ _

theorem writes_of_expected {c : CasLoop} (h : c.Fits) {m : Memory} {word : BitVec c.width}
    (he : read m c.addr c.width = c.tmpExpected word) :
    Writes c ⟨m, write m c.addr (c.tmpDesired word), true⟩ (c.expected word) (c.desired word) := by
  refine ⟨rfl, ?_, ?_⟩
  · rw [← CasLoop.extract_read h.covers, he, CasLoop.tmpExpected, CasLoop.extract_merge h.covers]
  · rw [CasLoop.tmpDesired, ← he]
    exact CasLoop.write_merge h.covers m _

theorem Inv.access {regs : Regs} (h : Inv regs w) (hf : t.loop.Fits) : Inv regs w.access := by
  rw [World.access]
  split
  · exact h
  · case h_2 hpc =>
    obtain ⟨hregs, hquiet⟩ := h.quiet (by simp [hpc])
    exact ⟨h.history.quiet _, fun _ => ⟨hregs, quiet_append hquiet _⟩, fun r hr => by cases hr⟩
  · case h_3 word hpc =>
    obtain ⟨hregs, hquiet⟩ := h.quiet (by simp [hpc])
    dsimp only
    split
    · case isTrue he =>
      -- the exchange finds the word that was loaded, and it is the only access that writes
      have hw := writes_of_expected hf he
      have hnone : w.accesses.filter (·.wrote) = [] := List.filter_eq_nil_iff.mpr fun a ha => by simp [hquiet a ha]
      refine ⟨⟨?_, fun a ha hwrote => ?_, fun a ha hwrote => ?_⟩, fun hno => absurd rfl (hno _), fun r hr => ?_⟩
      · simp [hnone]
      · rcases List.mem_append.mp ha with ha | ha
        · exact h.history.keeps a ha hwrote
        · rw [List.mem_singleton.mp ha] at hwrote
          cases hwrote
      · rcases List.mem_append.mp ha with ha | ha
        · exact h.history.only a ha hwrote
        · rw [List.mem_singleton.mp ha]
          exact ⟨_, hw.after⟩
      · cases hr
        exact .written word _ (List.mem_append_right _ List.mem_cons_self) rfl hw (by rw [hregs])
    · case isFalse hne =>
      refine ⟨h.history.quiet _, fun hno => ⟨?_, quiet_append hquiet _⟩, fun r hr => ?_⟩
      -- lost to another thread: the loop loads again or goes on with the new word
      · cases hpc' : t.loop.failed word (read w.mem t.loop.addr t.loop.width) with
        | load => exact hregs
        | exchange _ => exact hregs
        | returned r => exact absurd hpc' (hno r)
      · have hfin : finishAt false w.regs (t.loop.failed word (read w.mem t.loop.addr t.loop.width)) =
            t.finish false r regs := by
          change t.loop.failed _ _ = _ at hr
          rw [hr, finishAt, hregs]
        dsimp only [CasLoop.failed] at hr
        split at hr
        · cases hr
        · case isFalse hretry =>
          split at hr
          · cases hr
          · case isFalse hothers =>
            cases hr
            -- the value itself is another, not only the bytes around it
            have hne' := extract_ne_expected hf hne (by simpa using hothers)
            refine .failed word ⟨w.mem, w.mem, false⟩ (by simpa using hretry) (quiet_append hquiet _) (by simp) ?_ ?_ hfin
            · rw [CasLoop.failed_result hf.covers, CasLoop.extract_read hf.covers]
            · rw [CasLoop.failed_result hf.covers]
              exact hne'

theorem Inv.step {regs : Regs} (h : Inv regs w) (hf : t.loop.Fits) (e : Event) : Inv regs (w.step e) := by
  cases e with
  | access => exact h.access hf
  | others mem =>
    refine ⟨h.history, h.quiet, fun r hr => ?_⟩
    cases h.ended r hr with
    | written word a ha hr hw hregs => exact .written word a ha hr hw hregs
    | failed word a hretry hquiet ha hr hne hregs => exact .failed word a hretry hquiet ha hr hne hregs

end Steps

end FexEmu.Arm64.Unaligned
