import FexEmu.IR.DeadStoreLocations
/-!
# Dead store elimination preserves what is left at the exits

Two runs are compared byte by byte. A byte that differs is still overwritten without a read, or is an invalidated flag.
-/
namespace FexEmu.IR.DeadStoreElimination
open Bool (and_eq_true)

variable (avx : Bool)

/-! ## The two runs -/

/-- The next blocks or the rest of this one overwrite the location without having read it. -/
def Pending (info : Info) (rest : List Op) (l : Loc) : Prop :=
  Kills info l ∨ (¬ Reads info l ∧ ∃ op ∈ rest, Writes (opInfo avx op) l)

/-- The two runs may differ in the location between the ops `done` and `rest` of a block. -/
def Outstanding (p : Program) (i : Nat) (done rest : List Op) (l : Loc) : Prop :=
  Pending avx (infoMap avx p i) rest l ∧ Stale avx p i done l

/-- The states of the two runs inside a block. -/
structure Rel (upper : Nat → Bool) (p : Program) (i : Nat) (done rest : List Op) (s s' : State) : Prop where
  ssa : s'.ssa = s.ssa
  events : s'.events = s.events
  differ : ∀ a, s.ctx a ≠ s'.ctx a → ∃ l, Covers avx upper l a ∧
    ((∃ n, l = .flag n ∧ s.invalid n = true) ∨ Outstanding avx p i done rest l)
  invalid : ∀ n, s.invalid n ≠ s'.invalid n → Outstanding avx p i done rest (.flag n)

/-- What the sets of a block say about its ops. -/
structure Facts (upper : Nat → Bool) (info : Info) (ops : List Op) : Prop where
  reads : ∀ op ∈ ops, ∀ l, Reads (opInfo avx op) l → Reads info l
  kills : ∀ l, Kills info l → ¬ Reads info l
  base : ∀ size offset v, .storeContext size offset v ∈ ops → isTrackedWriteFPR avx offset size = true →
    fprBase avx upper ((offset - xmmOffset) / xmmRegSize avx) = offset

/-- Where an op stands in its block. -/
structure At (upper : Nat → Bool) (p : Program) (i : Nat) (b : Block) (done : List Op) (op : Op) (rest : List Op) :
    Prop where
  block : p[i]? = some b
  ops : b.ops = done ++ op :: rest
  facts : Facts avx upper (infoMap avx p i) b.ops

/-- The byte is none of a flag that is invalidated, or that the last store was dropped of. -/
def Settled (p : Program) (i : Nat) (done : List Op) (s : State) (a : Nat) : Prop :=
  ∀ n < numFlags, a = flagsOffset + n → s.invalid n = false ∧ ¬ Stale avx p i done (.flag n)

/-- An op reads no other register than its offset's and no flag that it may not, and is not given the frame while a location
is stale. -/
def Keeps (p : Program) (i : Nat) (done : List Op) (s : State) : Op → Prop
  | .loadContext _ size offset => ∀ a, offset ≤ a → a < offset + size →
      (registerOf avx a = none ∨ registerOf avx a = registerOf avx offset) ∧ Settled avx p i done s a
  | .loadContextIndexed _ size base stride index => ∀ a, base + s.ssa index * stride ≤ a →
      a < base + s.ssa index * stride + size → Settled avx p i done s a
  | .storeFlag flag _ => flag < numFlags
  | .loadFlag _ flag => flag < numFlags ∧ s.invalid flag = false
  | .frameEffect .. => ∀ l, ¬ Stale avx p i done l
  | _ => True

variable {avx}
variable {upper : Nat → Bool} {info : Info} {ops done rest : List Op} {b : Block} {s s' : State}

variable {l : Loc} {a size offset v r dest i flag : Nat} {op : Op} {env : Environment} {p : Program}

theorem At.mem (A : At avx upper p i b done op rest) : op ∈ b.ops := by
  rw [A.ops]
  exact List.mem_append_right _ List.mem_cons_self

theorem At.isPrefix (A : At avx upper p i b done op rest) : done ++ [op] <+: b.ops :=
  ⟨rest, by rw [A.ops, List.append_assoc]; rfl⟩

theorem Outstanding.step (A : At avx upper p i b done op rest) (h : Outstanding avx p i done (op :: rest) l)
    (hw : ¬ Writes (opInfo avx op) l) : Outstanding avx p i (done ++ [op]) rest l := by
  obtain ⟨hp, hs⟩ := h
  refine ⟨?_, hs.keep A.block A.isPrefix hw⟩
  rcases hp with hk | ⟨hn, op', hm, hw'⟩
  · exact .inl hk
  · rcases List.mem_cons.1 hm with rfl | hm
    · exact absurd hw' hw
    · exact .inr ⟨hn, op', hm, hw'⟩

theorem At.outstanding (A : At avx upper p i b done op rest) (hstore : op.isStore) (hw : Writes (opInfo avx op) l)
    (hk : Kills (infoMap avx p i) l) : Outstanding avx p i (done ++ [op]) rest l :=
  ⟨.inl hk, .store A.block A.isPrefix hstore hw (dead_of_kills hk)⟩

theorem At.not_reads (A : At avx upper p i b done op rest) (h : Outstanding avx p i done (op :: rest) l) :
    ¬ Reads (opInfo avx op) l := by
  intro hrd
  have hri := A.facts.reads op A.mem l hrd
  rcases h.1 with hk | ⟨hn, -⟩
  · exact A.facts.kills l hk hri
  · exact hn hri

theorem covers_fpr_lane (h : Covers avx upper l a) : ∀ r lane, l = .fpr r lane → lane < 3 := by
  rintro r lane rfl
  exact h.2.1

theorem write_in_range (F : Facts avx upper info ops)
    (hop : .storeContext size offset v ∈ ops) (hw : Writes (opInfo avx (.storeContext size offset v)) l)
    (hc : Covers avx upper l a) : offset ≤ a ∧ a < offset + size := by
  rcases (writes_storeContext avx (covers_fpr_lane hc)).1 hw with ⟨hf, rfl⟩ | ⟨ht, lane, hl, rfl⟩
  · exact (covers_fullGPR avx hf).1 hc
  · exact (covers_tracked avx ht (F.base size offset v hop ht)).1 ⟨lane, hl, hc⟩

/-- A store that is removed writes whole locations, and all of them are killed. -/
theorem removed_kills (F : Facts avx upper info ops)
    (hop : .storeContext size offset v ∈ ops) (hr : removes avx info (.storeContext size offset v) = true) :
    (isFullGPR offset size = true ∧ Kills info (.gpr ((offset - 8) / 8))) ∨
    (isTrackedWriteFPR avx offset size = true ∧ ∀ lane, lane < lanes avx offset size →
      Kills info (.fpr ((offset - xmmOffset) / xmmRegSize avx) lane)) := by
  simp only [removes, Bool.or_eq_true, and_eq_true, decide_eq_true_eq] at hr
  rcases hr with hr | ⟨hall, hne⟩
  · left
    obtain ⟨r, hr⟩ : ∃ r, (info.gpr.kill &&& gprBit offset).getLsbD r = true := by
      by_contra hn
      push Not at hn
      exact hr (BitVec.eq_of_getLsbD_eq (fun i _ => by simpa using hn i))
    rw [BitVec.getLsbD_and, and_eq_true, getLsbD_gprBit] at hr
    obtain ⟨hk, hg, rfl⟩ := hr
    have hk' : Kills info (.gpr ((offset - 8) / 8)) := hk
    refine ⟨?_, hk'⟩
    cases hf : isFullGPR offset size with
    | true => rfl
    | false =>
      have hrd : Reads (opInfo avx (.storeContext size offset v)) _ := (reads_storeContext avx).1 hf hg
      exact absurd (F.reads _ hop _ hrd) (F.kills _ hk')
  · right
    have hf : isFPR avx offset = true := by
      by_contra hn
      simp [fprBit, hn] at hne
    have hkl : ∀ lane, lane < lanes avx offset size →
        Kills info (.fpr ((offset - xmmOffset) / xmmRegSize avx) lane) := by
      intro lane hl
      have hl3 : lane < 3 := by
        unfold lanes at hl
        split_ifs at hl <;> omega
      have hb := (@getLsbD_fprBit avx offset size _ lane hl3).2 ⟨hf, rfl, hl⟩
      rw [← hall, BitVec.getLsbD_and, and_eq_true] at hb
      exact hb.1
    refine ⟨?_, hkl⟩
    cases ht : isTrackedWriteFPR avx offset size with
    | true => rfl
    | false =>
      have hrd : Reads (opInfo avx (.storeContext size offset v)) _ := (reads_storeContext avx).2 ht hf
      exact absurd (F.reads _ hop _ hrd) (F.kills _ (hkl 0 (by simp [lanes, ht])))

theorem not_writes_flag {n : Nat} : ¬ Writes (opInfo avx (.storeContext size offset v)) (.flag n) := by
  simp [Writes, opInfo, Info.has]

theorem rel_storeContext (A : At avx upper p i b done (.storeContext size offset v) rest)
    (h : Rel avx upper p i done (.storeContext size offset v :: rest) s s') :
    Rel avx upper p i (done ++ [.storeContext size offset v]) rest
      { s with ctx := storeBytes s.ctx offset size (s.ssa v) }
      (if removes avx (infoMap avx p i) (.storeContext size offset v) then s'
        else { s' with ctx := storeBytes s'.ctx offset size (s'.ssa v) }) := by
  have F := A.facts
  -- Outside the bytes stored to, a difference is an old one in a location the store does not write.
  have hold : ∀ a, ¬ (offset ≤ a ∧ a < offset + size) → s.ctx a ≠ s'.ctx a → ∃ l, Covers avx upper l a ∧
      ((∃ n, l = .flag n ∧ s.invalid n = true) ∨ Outstanding avx p i (done ++ [.storeContext size offset v]) rest l) := by
    intro a hin ha
    obtain ⟨l, hc, hl⟩ := h.differ a ha
    exact ⟨l, hc, hl.imp_right fun ho => ho.step A fun hw => hin (write_in_range F A.mem hw hc)⟩
  have hinvalid := fun n hn => (h.invalid n hn).step A not_writes_flag
  split
  · rename_i hr
    refine ⟨h.ssa, h.events, fun a ha => ?_, hinvalid⟩
    dsimp only at ha
    by_cases hin : offset ≤ a ∧ a < offset + size
    · rcases removed_kills F A.mem hr with ⟨hf, hk⟩ | ⟨ht, hk⟩
      · have hc : Covers avx upper _ a := (covers_fullGPR avx hf).2 hin
        exact ⟨_, hc, .inr (A.outstanding trivial ((writes_storeContext avx (covers_fpr_lane hc)).2 (.inl ⟨hf, rfl⟩)) hk)⟩
      · obtain ⟨lane, hl, hc⟩ := (covers_tracked avx ht (F.base size offset v A.mem ht)).2 hin
        have hw := (writes_storeContext avx (v := v) (covers_fpr_lane hc)).2 (.inr ⟨ht, lane, hl, rfl⟩)
        exact ⟨_, hc, .inr (A.outstanding trivial hw (hk lane hl))⟩
    · rw [storeBytes_of_not_mem hin] at ha
      exact hold a hin ha
  · refine ⟨h.ssa, h.events, fun a ha => ?_, hinvalid⟩
    dsimp only at ha
    by_cases hin : offset ≤ a ∧ a < offset + size
    · rw [storeBytes_of_mem hin, storeBytes_of_mem hin, h.ssa] at ha
      exact absurd rfl ha
    · rw [storeBytes_of_not_mem hin, storeBytes_of_not_mem hin] at ha
      exact hold a hin ha

theorem isFlagByte_of_covers {n : Nat} (h : Covers avx upper (.flag n) a) : isFlagByte a = true := by
  obtain ⟨h1, rfl⟩ := h
  unfold isFlagByte
  simp only [and_eq_true, decide_eq_true_eq]
  omega

theorem registerOf_of_covers_gpr (h : Covers avx upper (.gpr r) a) : registerOf avx a = some (false, r) := by
  obtain ⟨h1, h2, h3⟩ := h
  have hg : isGPR a = true := by
    unfold isGPR
    simp only [and_eq_true, decide_eq_true_eq]
    omega
  unfold registerOf
  rw [if_pos hg]
  congr 2
  omega

theorem of_covers_fpr {lane : Nat} (h : Covers avx upper (.fpr r lane) a) :
    registerOf avx a = some (true, r) ∧ isGPR a = false := by
  obtain ⟨h1, h2, h3, h4⟩ := h
  have hend : laneEnd lane ≤ 16 := by
    unfold laneEnd
    split_ifs <;> omega
  have hg : isGPR a = false := by
    cases hg : isGPR a with
    | false => rfl
    | true =>
      simp only [isGPR, and_eq_true, decide_eq_true_eq] at hg
      unfold fprBase xmmOffset at h3
      omega
  have hb : xmmOffset + r * xmmRegSize avx ≤ a ∧ a < xmmOffset + r * xmmRegSize avx + xmmRegSize avx := by
    unfold fprBase at h3 h4
    cases avx with
    | false =>
      simp only [xmmRegSize, Bool.false_and, if_false, Bool.false_eq_true] at h3 h4 ⊢
      omega
    | true =>
      simp only [xmmRegSize, Bool.true_and, if_true] at h3 h4 ⊢
      split_ifs at h3 h4 <;> omega
  have hf : isFPR avx a = true := by
    unfold isFPR
    simp only [and_eq_true, decide_eq_true_eq]
    have : r * xmmRegSize avx + xmmRegSize avx ≤ 16 * xmmRegSize avx := by
      rw [← Nat.succ_mul]
      exact Nat.mul_le_mul_right _ h1
    omega
  refine ⟨?_, hg⟩
  unfold registerOf
  rw [hg, if_neg (by simp), if_pos hf]
  congr 2
  have hpos : 0 < xmmRegSize avx := by
    unfold xmmRegSize
    split <;> omega
  rw [Nat.div_eq_iff hpos]
  omega

theorem registerOf_gpr (h : registerOf avx offset = some (false, r)) : isGPR offset = true ∧ r = (offset - 8) / 8 := by
  unfold registerOf at h
  split at h
  · cases h; exact ⟨‹_›, rfl⟩
  · split at h <;> cases h

theorem registerOf_fpr (h : registerOf avx offset = some (true, r)) :
    isFPR avx offset = true ∧ r = (offset - xmmOffset) / xmmRegSize avx := by
  unfold registerOf at h
  split at h
  · cases h
  · split at h
    · cases h; exact ⟨‹_›, rfl⟩
    · cases h

theorem half_of_aligned (ha : offset % 16 = 0) (hf : isFPR avx offset = true)
    (hr : r = (offset - xmmOffset) / xmmRegSize avx) :
    fprBase avx upper r = offset ∨ fprBase avx upper r + 16 ≤ offset ∨ offset + 16 ≤ fprBase avx upper r := by
  unfold fprBase
  unfold xmmOffset at *
  cases avx with
  | false =>
    simp only [xmmRegSize, Bool.false_and, if_false, Bool.false_eq_true] at *
    omega
  | true =>
    simp only [xmmRegSize, Bool.true_and, if_true] at *
    split_ifs <;> omega

theorem reads_of_loadContext (hreg : registerOf avx a = none ∨ registerOf avx a = registerOf avx offset)
    (hin : offset ≤ a ∧ a < offset + size) (hc : Covers avx upper l a) (hnf : ∀ n, l ≠ .flag n) :
    Reads (opInfo avx (.loadContext dest size offset)) l := by
  cases l with
  | flag n => exact absurd rfl (hnf n)
  | gpr r =>
    have hra := registerOf_of_covers_gpr hc
    have hro : registerOf avx offset = some (false, r) := by
      rcases hreg with h | h
      · rw [hra] at h; cases h
      · rw [← h, hra]
    exact getLsbD_gprBit.2 (registerOf_gpr hro)
  | fpr r lane =>
    have hra := (of_covers_fpr hc).1
    have hro : registerOf avx offset = some (true, r) := by
      rcases hreg with h | h
      · rw [hra] at h; cases h
      · rw [← h, hra]
    obtain ⟨hf, hr⟩ := registerOf_fpr hro
    refine (getLsbD_fprBit avx hc.2.1).2 ⟨hf, hr, ?_⟩
    obtain ⟨-, hl3, h3, h4⟩ := hc
    have hend : laneEnd lane ≤ 16 := by
      unfold laneEnd
      split_ifs <;> omega
    unfold lanes
    split
    · rename_i ht
      obtain ⟨hsize, hal, -⟩ := (isTrackedWriteFPR_iff avx).1 ht
      rcases half_of_aligned hal hf hr with hh | hh | hh
      · rw [hh] at h3
        unfold laneStart at h3
        rcases hsize with rfl | rfl | rfl <;> split_ifs at h3 <;> simp <;> omega
      · omega
      · omega
    · exact hl3

/-- No byte that the runs differ in is a settled one of a flag. -/
theorem Settled.not_flag {n : Nat} (hs : Settled avx p i done s a) (hc : Covers avx upper (.flag n) a)
    (h : s.invalid n = true ∨ Outstanding avx p i done rest (.flag n)) : False := by
  obtain ⟨hvalid, hstale⟩ := hs n hc.1 hc.2
  rcases h with h | h
  · rw [hvalid] at h
    cases h
  · exact hstale h.2

theorem rel_loadContext (A : At avx upper p i b done (.loadContext dest size offset) rest)
    (h : Rel avx upper p i done (.loadContext dest size offset :: rest) s s')
    (hkeeps : Keeps avx p i done s (.loadContext dest size offset)) :
    loadBytes s'.ctx offset size = loadBytes s.ctx offset size := by
  refine (loadBytes_congr (fun a h1 h2 => ?_)).symm
  obtain ⟨hreg, hsettled⟩ := hkeeps a h1 h2
  by_contra ha
  obtain ⟨l, hc, ⟨n, rfl, hn⟩ | ho⟩ := h.differ a ha
  · have hflag : s.invalid n = true ∨ Outstanding avx p i done rest (.flag n) := .inl hn
    exact hsettled.not_flag hc hflag
  · refine A.not_reads ho (reads_of_loadContext hreg ⟨h1, h2⟩ hc ?_)
    rintro n rfl
    exact hsettled.not_flag hc (.inr ho)

theorem getLsbD_neg_one {w : Nat} (h : i < w) : (-1 : BitVec w).getLsbD i = true := by
  have he : (-1 : BitVec w) = BitVec.allOnes w := BitVec.neg_one_eq_allOnes
  rw [he, BitVec.getLsbD_allOnes]
  exact decide_eq_true h

theorem rel_loadContextIndexed {base stride index : Nat}
    (A : At avx upper p i b done (.loadContextIndexed dest size base stride index) rest)
    (h : Rel avx upper p i done (.loadContextIndexed dest size base stride index :: rest) s s')
    (hkeeps : Keeps avx p i done s (.loadContextIndexed dest size base stride index)) :
    loadBytes s'.ctx (base + s.ssa index * stride) size = loadBytes s.ctx (base + s.ssa index * stride) size := by
  refine (loadBytes_congr (fun a h1 h2 => ?_)).symm
  have hsettled := hkeeps a h1 h2
  by_contra ha
  obtain ⟨l, hc, ⟨n, rfl, hn⟩ | ho⟩ := h.differ a ha
  · have hflag : s.invalid n = true ∨ Outstanding avx p i done rest (.flag n) := .inl hn
    exact hsettled.not_flag hc hflag
  · cases l with
    | flag n => exact hsettled.not_flag hc (.inr ho)
    | gpr r =>
      have h1 := hc.1
      exact A.not_reads ho (getLsbD_neg_one (by omega))
    | fpr r lane =>
      have h1 := hc.1
      have h2 := hc.2.1
      exact A.not_reads ho (getLsbD_neg_one (by omega))

theorem covers_flagByte {n : Nat} (h : Covers avx upper l (flagsOffset + n)) : l = .flag n := by
  cases l with
  | flag m =>
    obtain ⟨-, h⟩ := h
    congr 1
    omega
  | gpr r =>
    obtain ⟨h1, h2, h3⟩ := h
    unfold flagsOffset at h3
    omega
  | fpr r lane =>
    have hf := (registerOf_fpr (of_covers_fpr h).1).1
    simp only [isFPR, and_eq_true, decide_eq_true_eq] at hf
    unfold flagsOffset xmmOffset xmmRegSize at hf
    split at hf <;> omega

theorem writes_storeFlag (hf : flag < numFlags) : Writes (opInfo avx (.storeFlag flag v)) l ↔ l = .flag flag := by
  unfold Writes opInfo Info.has
  cases l with
  | flag n =>
    unfold numFlags at hf
    rw [getLsbD_one_shift]
    simp only [Loc.flag.injEq]
    omega
  | gpr r => simp
  | fpr r lane => simp

theorem removes_storeFlag (hf : flag < numFlags) :
    removes avx info (.storeFlag flag v) = true ↔ Kills info (.flag flag) := by
  unfold numFlags at hf
  unfold removes Kills Info.has
  simp only [decide_eq_true_eq]
  constructor
  · intro h
    by_contra hn
    apply h
    apply BitVec.eq_of_getLsbD_eq
    intro i hi
    by_cases hif : i = flag
    · subst hif
      simp [hn]
    · have : (1#64 <<< flag).getLsbD i = false := by
        rw [← Bool.not_eq_true, getLsbD_one_shift]
        exact fun h => hif h.1
      simp [this]
  · intro h h0
    have h1 : (info.flag.kill &&& 1#64 <<< flag).getLsbD flag = true := by
      rw [BitVec.getLsbD_and, h, getLsbD_one_shift.2 ⟨rfl, by omega⟩]
      rfl
    rw [h0] at h1
    simp at h1

theorem rel_storeFlag (A : At avx upper p i b done (.storeFlag flag v) rest) (hf : flag < numFlags)
    (h : Rel avx upper p i done (.storeFlag flag v :: rest) s s') :
    Rel avx upper p i (done ++ [.storeFlag flag v]) rest (execOp env s (.storeFlag flag v))
      (if removes avx (infoMap avx p i) (.storeFlag flag v) then s' else execOp env s' (.storeFlag flag v)) := by
  have hother : ∀ l, l ≠ .flag flag → Outstanding avx p i done (.storeFlag flag v :: rest) l →
      Outstanding avx p i (done ++ [.storeFlag flag v]) rest l :=
    fun l hl ho => ho.step A fun hw => hl ((writes_storeFlag hf).1 hw)
  have hold : ∀ a, ¬ (flagsOffset + flag ≤ a ∧ a < flagsOffset + flag + 1) → s.ctx a ≠ s'.ctx a →
      ∃ l, Covers avx upper l a ∧ ((∃ n, l = .flag n ∧ (execOp env s (.storeFlag flag v)).invalid n = true) ∨
        Outstanding avx p i (done ++ [.storeFlag flag v]) rest l) := by
    intro a hin ha
    obtain ⟨l, hc, hl⟩ := h.differ a ha
    have hlf : l ≠ .flag flag := by
      rintro rfl
      obtain ⟨-, rfl⟩ := hc
      omega
    refine ⟨l, hc, hl.imp ?_ (hother l hlf)⟩
    rintro ⟨n, rfl, hn⟩
    have hnf : n ≠ flag := fun e => hlf (by rw [e])
    exact ⟨n, rfl, by simpa [execOp, Function.update_of_ne hnf] using hn⟩
  split
  · rename_i hr
    have hflag : Outstanding avx p i (done ++ [.storeFlag flag v]) rest (.flag flag) :=
      A.outstanding trivial ((writes_storeFlag hf).2 rfl) ((removes_storeFlag hf).1 hr)
    refine ⟨h.ssa, h.events, fun a ha => ?_, fun n hn => ?_⟩
    · by_cases hin : flagsOffset + flag ≤ a ∧ a < flagsOffset + flag + 1
      · exact ⟨.flag flag, ⟨hf, by omega⟩, .inr hflag⟩
      · simp only [execOp, storeBytes_of_not_mem hin] at ha
        exact hold a hin ha
    · by_cases hnf : n = flag
      · rw [hnf]
        exact hflag
      · simp only [execOp, Function.update_of_ne hnf] at hn
        exact hother _ (by simpa using hnf) (h.invalid n hn)
  · refine ⟨h.ssa, h.events, fun a ha => ?_, fun n hn => ?_⟩
    · by_cases hin : flagsOffset + flag ≤ a ∧ a < flagsOffset + flag + 1
      · simp only [execOp, storeBytes_of_mem hin, h.ssa] at ha
        exact absurd rfl ha
      · simp only [execOp, storeBytes_of_not_mem hin] at ha
        exact hold a hin ha
    · by_cases hnf : n = flag
      · simp [execOp, hnf] at hn
      · simp only [execOp, Function.update_of_ne hnf] at hn
        exact hother _ (by simpa using hnf) (h.invalid n hn)

theorem rel_loadFlag (A : At avx upper p i b done (.loadFlag dest flag) rest)
    (h : Rel avx upper p i done (.loadFlag dest flag :: rest) s s') (hkeeps : Keeps avx p i done s (.loadFlag dest flag)) :
    loadBytes s'.ctx (flagsOffset + flag) 1 = loadBytes s.ctx (flagsOffset + flag) 1 := by
  obtain ⟨hf, hv⟩ := hkeeps
  refine (loadBytes_congr (fun a h1 h2 => ?_)).symm
  by_contra ha
  obtain rfl : a = flagsOffset + flag := by omega
  obtain ⟨l, hc, hl⟩ := h.differ _ ha
  obtain rfl := covers_flagByte hc
  rcases hl with ⟨n, hn, hi⟩ | ho
  · cases hn
    rw [hv] at hi
    cases hi
  · unfold numFlags at hf
    exact A.not_reads ho (getLsbD_one_shift.2 ⟨rfl, by omega⟩)

/-- With nothing stale, the handler of an op is given the same frame in both runs. -/
theorem frame_eq (h : Rel avx upper p i done rest s s') (hstale : ∀ l, ¬ Stale avx p i done l) : s'.frame = s.frame := by
  have hinvalid : s'.invalid = s.invalid := by
    funext n
    by_contra hn
    exact hstale _ (h.invalid n (Ne.symm hn)).2
  funext a
  unfold State.frame
  rw [hinvalid]
  split_ifs with hmasked
  · rfl
  · by_contra ha
    obtain ⟨l, hc, ⟨n, rfl, hn⟩ | ho⟩ := h.differ a (Ne.symm ha)
    · refine hmasked ?_
      rw [isFlagByte_of_covers hc, hc.2, Nat.add_sub_cancel_left, hn]
      rfl
    · exact hstale l ho.2

theorem rel_of_ctx {t t' : State} (A : At avx upper p i b done op rest) (named : Nat → Bool)
    (h : Rel avx upper p i done (op :: rest) s s')
    (hw : ∀ l, Writes (opInfo avx op) l → ∃ n, l = .flag n ∧ named n = true)
    (hi : ∀ n, t.invalid n = (s.invalid n || named n)) (hi' : ∀ n, t'.invalid n = (s'.invalid n || named n))
    (hc : ∀ a, t.ctx a ≠ t'.ctx a → s.ctx a ≠ s'.ctx a) (hs : t'.ssa = t.ssa) (he : t'.events = t.events) :
    Rel avx upper p i (done ++ [op]) rest t t' := by
  refine ⟨hs, he, fun a ha => ?_, fun n hn => ?_⟩
  · obtain ⟨l, hcov, hl⟩ := h.differ a (hc a ha)
    refine ⟨l, hcov, ?_⟩
    rcases hl with ⟨n, rfl, hn⟩ | ho
    · exact .inl ⟨n, rfl, by rw [hi, hn, Bool.true_or]⟩
    · by_cases hwl : Writes (opInfo avx op) l
      · obtain ⟨n, rfl, hn⟩ := hw l hwl
        exact .inl ⟨n, rfl, by rw [hi, hn, Bool.or_true]⟩
      · exact .inr (ho.step A hwl)
  · rw [hi, hi'] at hn
    cases hnamed : named n with
    | true => simp [hnamed] at hn
    | false =>
      rw [hnamed, Bool.or_false, Bool.or_false] at hn
      refine (h.invalid n hn).step A fun hwl => ?_
      obtain ⟨m, hm, hmn⟩ := hw _ hwl
      cases hm
      rw [hnamed] at hmn
      cases hmn

theorem not_writes_empty (l : Loc) : ¬ Writes {} l := by
  cases l <;> simp [Writes, Info.has]

theorem not_writes_of_reads {r : BitVec 32} {q : BitVec 64} (l : Loc) :
    ¬ Writes { gpr := { reads := r }, fpr := { reads := q } } l := by
  cases l <;> simp [Writes, Info.has]

theorem rel_execOp (A : At avx upper p i b done op rest) (h : Rel avx upper p i done (op :: rest) s s')
    (hkeeps : Keeps avx p i done s op) :
    Rel avx upper p i (done ++ [op]) rest (execOp env s op)
      (if removes avx (infoMap avx p i) op then s' else execOp env s' op) := by
  -- all ops but two leave the invalid flags alone
  have hsame : ∀ (s : State) (n : Nat), s.invalid n = (s.invalid n || false) := fun s n => (Bool.or_false _).symm
  cases op with
  | storeContext size offset v => exact rel_storeContext A h
  | loadContext dest size offset =>
    refine rel_of_ctx A (fun _ => false) h (fun l hw => absurd hw (not_writes_of_reads l)) (hsame s) (hsame s') (fun a => id)
      ?_ h.events
    simp [execOp, State.set, h.ssa, rel_loadContext A h hkeeps, removes]
  | storeContextIndexed size base stride index v =>
    refine rel_of_ctx A (fun _ => false) h (fun l hw => absurd hw (not_writes_of_reads l)) (hsame s) (hsame s') ?_ h.ssa
      h.events
    intro a ha
    simp only [execOp, removes, Bool.false_eq_true, if_false, h.ssa] at ha
    by_cases hin : base + s.ssa index * stride ≤ a ∧ a < base + s.ssa index * stride + size
    · rw [storeBytes_of_mem hin, storeBytes_of_mem hin] at ha
      exact absurd rfl ha
    · rwa [storeBytes_of_not_mem hin, storeBytes_of_not_mem hin] at ha
  | loadContextIndexed dest size base stride index =>
    refine rel_of_ctx A (fun _ => false) h (fun l hw => absurd hw (not_writes_of_reads l)) (hsame s) (hsame s') (fun a => id)
      ?_ h.events
    simp [execOp, State.set, h.ssa, rel_loadContextIndexed A h hkeeps, removes]
  | storeFlag flag v => exact rel_storeFlag A hkeeps h
  | loadFlag dest flag =>
    refine rel_of_ctx A (fun _ => false) h (fun l hw => ?_) (hsame s) (hsame s') (fun a => id) ?_ h.events
    · cases l <;> simp [Writes, opInfo, Info.has] at hw
    · simp [execOp, State.set, h.ssa, rel_loadFlag A h hkeeps, removes]
  | invalidateFlags flags =>
    refine rel_of_ctx A flags.getLsbD h (fun l hw => ?_) (fun _ => rfl) (fun _ => rfl) (fun a => id) h.ssa h.events
    cases l with
    | flag n => exact ⟨n, rfl, hw⟩
    | gpr r => simp [Writes, opInfo, Info.has] at hw
    | fpr r lane => simp [Writes, opInfo, Info.has] at hw
  | value dest f args =>
    refine rel_of_ctx A (fun _ => false) h (fun l hw => absurd hw (not_writes_empty l)) (hsame s) (hsame s') (fun a => id) ?_
      h.events
    simp [execOp, State.set, h.ssa, removes]
  | effect dest kind args =>
    refine rel_of_ctx A (fun _ => false) h (fun l hw => absurd hw (not_writes_empty l)) (hsame s) (hsame s') (fun a => id) ?_
      ?_ <;> simp [execOp, State.set, h.ssa, h.events, removes]
  | frameEffect dest kind args =>
    have hframe := frame_eq h hkeeps
    refine rel_of_ctx A (fun _ => false) h (fun l hw => absurd hw (not_writes_empty l)) (hsame s) (hsame s') (fun a ha => ?_) ?_
      ?_
    · simp only [execOp, removes, Bool.false_eq_true, if_false, h.ssa, h.events, hframe] at ha
      intro heq
      rw [heq] at ha
      exact ha rfl
    · simp [execOp, State.set, h.ssa, h.events, hframe, removes]
    · simp [execOp, h.ssa, h.events, hframe, removes]
  | brk reason =>
    exact rel_of_ctx A (fun _ => false) h (fun l hw => absurd hw (not_writes_empty l)) (hsame s) (hsame s') (fun a => id) h.ssa
      h.events

/-! ## Blocks and runs -/

/-- A run from the start of a block comes to the state behind these ops of a block. -/
inductive Reaches (env : Environment) (p : Program) (i : Nat) (s : State) : Nat → List Op → State → Prop
  | start : Reaches env p i s i [] s
  | op {j b done op t} : Reaches env p i s j done t → p[j]? = some b → done ++ [op] <+: b.ops →
      Reaches env p i s j (done ++ [op]) (execOp env t op)
  | next {j b t k} : Reaches env p i s j b.ops t → p[j]? = some b → execTerminator t b.terminator = .at k →
      Reaches env p i s k [] t

theorem rel_foldl {i₀ : Nat} {s₀ : State} (hblock : p[i]? = some b) (F : Facts avx upper (infoMap avx p i) b.ops)
    (hkeeps : ∀ done op t, Reaches env p i₀ s₀ i done t → done ++ [op] <+: b.ops → Keeps avx p i done t op)
    (hops : b.ops = done ++ rest) (hreach : Reaches env p i₀ s₀ i done s) (h : Rel avx upper p i done rest s s') :
    Reaches env p i₀ s₀ i b.ops (rest.foldl (execOp env) s) ∧
      Rel avx upper p i b.ops [] (rest.foldl (execOp env) s)
        ((rest.filter (fun op => !removes avx (infoMap avx p i) op)).foldl (execOp env) s') := by
  induction rest generalizing done s s' with
  | nil =>
    rw [List.append_nil] at hops
    subst hops
    exact ⟨hreach, h⟩
  | cons op rest ih =>
    have A : At avx upper p i b done op rest := ⟨hblock, hops, F⟩
    have hstep : Rel avx upper p i (done ++ [op]) rest (execOp env s op) _ :=
      rel_execOp A h (hkeeps done op s hreach A.isPrefix)
    have hops' : b.ops = (done ++ [op]) ++ rest := by rw [hops, List.append_assoc]; rfl
    have hrun := ih hops' (hreach.op hblock A.isPrefix) hstep
    rw [List.foldl_cons, List.filter_cons]
    split
    · rename_i hk
      rwa [if_neg (by simpa using hk)] at hrun
    · rename_i hk
      rwa [if_pos (by simpa using hk)] at hrun

theorem execOps_eq (h : ∀ reason, Op.brk reason ∉ rest) :
    execOps env rest s = (none, rest.foldl (execOp env) s) := by
  induction rest generalizing s with
  | nil => rfl
  | cons op rest ih =>
    have h' : ∀ reason, Op.brk reason ∉ rest := fun r hr => h r (List.mem_cons_of_mem _ hr)
    cases op with
    | brk reason => exact absurd List.mem_cons_self (h reason)
    | _ => exact ih h'

variable (avx)

/-- A `StoreContext` of the program with lanes of its own goes to this offset. -/
def TrackedStore (p : Program) (offset : Nat) : Prop :=
  ∃ b ∈ p, ∃ size v, .storeContext size offset v ∈ b.ops ∧ isTrackedWriteFPR avx offset size = true

/-- With AVX, the short stores to a YMM register all go to the same half. -/
def HalvesApart (p : Program) : Prop :=
  avx = true → ∀ o o', TrackedStore avx p o → TrackedStore avx p o' →
    (o - xmmOffset) / 32 = (o' - xmmOffset) / 32 → o = o'

/-- A `Break` is the last op of its block. -/
def BreaksLast (p : Program) : Prop := ∀ b ∈ p, ∀ reason, Op.brk reason ∉ b.ops

open Classical in
/-- The half the short stores to a register go to. -/
noncomputable def upperHalf (p : Program) (r : Nat) : Bool :=
  decide (TrackedStore avx p (xmmOffset + r * 32 + 16))

theorem upperHalf_iff : upperHalf avx p r = true ↔ TrackedStore avx p (xmmOffset + r * 32 + 16) := by
  simp [upperHalf]

theorem fprBase_upperHalf (h : HalvesApart avx p) (ht : TrackedStore avx p offset) :
    fprBase avx (upperHalf avx p) ((offset - xmmOffset) / xmmRegSize avx) = offset := by
  obtain ⟨b, hb, size, v, hop, htr⟩ := ht
  obtain ⟨-, hal, hf⟩ := (isTrackedWriteFPR_iff avx).1 htr
  simp only [isFPR, and_eq_true, decide_eq_true_eq] at hf
  have hts : TrackedStore avx p offset := ⟨b, hb, size, v, hop, htr⟩
  cases avx with
  | false =>
    simp only [fprBase, xmmRegSize, Bool.false_and, Bool.false_eq_true, if_false]
    simp only [xmmOffset] at *
    omega
  | true =>
    simp only [fprBase, xmmRegSize, Bool.true_and, if_true]
    by_cases hu : upperHalf true p ((offset - xmmOffset) / 32) = true
    · rw [if_pos hu]
      have := h rfl _ _ ((upperHalf_iff true).1 hu) hts (by omega)
      omega
    · rw [if_neg hu]
      have hne : xmmOffset + (offset - xmmOffset) / 32 * 32 + 16 ≠ offset := by
        intro he
        apply hu
        rw [upperHalf_iff, he]
        exact hts
      simp only [xmmOffset] at *
      omega

theorem facts_of_block (h : HalvesApart avx p) {b : Block} (hb : p[i]? = some b) :
    Facts avx (upperHalf avx p) (infoMap avx p i) b.ops where
  reads op hop l hr := by
    rw [reads_infoMap]
    unfold ownInfo
    rw [hb]
    exact (reads_blockInfo avx b.ops l).2 ⟨op, hop, hr⟩
  kills l hk := (kills_cases avx hk).1
  base size offset v hop ht :=
    fprBase_upperHalf avx h ⟨b, List.mem_of_getElem? hb, size, v, hop, ht⟩

/-- The states of the two runs between blocks. -/
structure EntryRel (p : Program) (i : Nat) (s s' : State) : Prop where
  ssa : s'.ssa = s.ssa
  events : s'.events = s.events
  differ : ∀ a, s.ctx a ≠ s'.ctx a → ∃ l, Covers avx (upperHalf avx p) l a ∧
    ((∃ n, l = .flag n ∧ s.invalid n = true) ∨
      (Writes (infoMap avx p i) l ∧ ¬ Reads (infoMap avx p i) l ∧ Stale avx p i [] l))
  invalid : ∀ n, s.invalid n ≠ s'.invalid n →
    Writes (infoMap avx p i) (.flag n) ∧ ¬ Reads (infoMap avx p i) (.flag n) ∧ Stale avx p i [] (.flag n)

theorem EntryRel.enter {b : Block} (hb : p[i]? = some b) (h : EntryRel avx p i s s') :
    Rel avx (upperHalf avx p) p i [] b.ops s s' := by
  have houtstanding : ∀ l, Writes (infoMap avx p i) l ∧ ¬ Reads (infoMap avx p i) l ∧ Stale avx p i [] l →
      Outstanding avx p i [] b.ops l := by
    rintro l ⟨hw, hr, hs⟩
    refine ⟨?_, hs⟩
    rcases writes_cases avx hw with hw | hk
    · unfold ownInfo at hw
      rw [hb] at hw
      exact .inr ⟨hr, (writes_blockInfo avx b.ops l).1 hw⟩
    · exact .inl hk
  refine ⟨h.ssa, h.events, fun a ha => ?_, fun n hn => houtstanding _ (h.invalid n hn)⟩
  obtain ⟨l, hc, hl⟩ := h.differ a ha
  exact ⟨l, hc, hl.imp_right (houtstanding l)⟩

theorem Rel.leave {b : Block} (hb : p[i]? = some b) (h : Rel avx (upperHalf avx p) p i b.ops [] s s') :
    (∀ t ∈ successors p i, EntryRel avx p t s s') ∧
      (successors p i = [] → ∀ a, s.ctx a ≠ s'.ctx a → ∃ n < numFlags, a = flagsOffset + n ∧ s.invalid n = true) := by
  have hkills : ∀ l, Outstanding avx p i b.ops [] l → Kills (infoMap avx p i) l := by
    rintro l ⟨hk | ⟨-, op, hop, -⟩, -⟩
    · exact hk
    · cases hop
  constructor
  · intro t ht
    have hnext : ∀ l, Outstanding avx p i b.ops [] l →
        Writes (infoMap avx p t) l ∧ ¬ Reads (infoMap avx p t) l ∧ Stale avx p t [] l := by
      intro l ho
      obtain ⟨hw, hr⟩ := (kills_cases avx (hkills l ho)).2.2 t ht
      exact ⟨hw, hr, .enter hb ht ho.2⟩
    refine ⟨h.ssa, h.events, fun a ha => ?_, fun n hn => hnext _ (h.invalid n hn)⟩
    obtain ⟨l, hc, hl⟩ := h.differ a ha
    exact ⟨l, hc, hl.imp_right (hnext l)⟩
  · intro hs a ha
    obtain ⟨l, hc, ⟨n, rfl, hn⟩ | ho⟩ := h.differ a ha
    · exact ⟨n, hc.1, hc.2, hn⟩
    · exact absurd hs (kills_cases avx (hkills l ho)).2.1

/-- In a run from the start of a block, every op keeps to what it may read. -/
def RunKeeps (env : Environment) (p : Program) (i : Nat) (s : State) : Prop :=
  ∀ j b done op t, Reaches env p i s j done t → p[j]? = some b → done ++ [op] <+: b.ops → Keeps avx p j done t op

/-- The runs have made the same effects and are at the same place; if they have left, the context is the same but for
invalidated flags. -/
def SameOutcome (o o' : Place × State) : Prop :=
  o'.1 = o.1 ∧ o'.2.events = o.2.events ∧
    ((∀ i, o.1 ≠ .at i) → ∀ a, o.2.ctx a ≠ o'.2.ctx a →
      ∃ n < numFlags, a = flagsOffset + n ∧ o.2.invalid n = true)

theorem getElem?_deadStoreElimination (p : Program) (i : Nat) :
    (deadStoreElimination avx p)[i]? = (p[i]?).map (fun b =>
      { b with ops := b.ops.filter (fun op => !removes avx (infoMap avx p i) op) }) := by
  unfold deadStoreElimination
  rw [List.getElem?_mapIdx]

theorem run_rel {i₀ : Nat} {s₀ : State} (hh : HalvesApart avx p) (hb : BreaksLast p) (hkeeps : RunKeeps avx env p i₀ s₀)
    (fuel : Nat) (hreach : Reaches env p i₀ s₀ i [] s) (h : EntryRel avx p i s s') :
    SameOutcome (run env p fuel i s) (run env (deadStoreElimination avx p) fuel i s') := by
  induction fuel generalizing i s s' with
  | zero => exact ⟨rfl, h.events, fun hn => absurd rfl (hn i)⟩
  | succ fuel ih =>
    unfold run
    rw [getElem?_deadStoreElimination]
    cases hbi : p[i]? with
    | none => exact ⟨rfl, h.events, fun hn => absurd rfl (hn i)⟩
    | some b =>
      have hnb := hb b (List.mem_of_getElem? hbi)
      have hnb' : ∀ reason, Op.brk reason ∉ b.ops.filter (fun op => !removes avx (infoMap avx p i) op) :=
        fun r hr => hnb r (List.mem_filter.1 hr).1
      have hsucc : successors p i = b.successors := by
        unfold successors
        rw [hbi]
        rfl
      simp only [Option.map_some, execOps_eq hnb, execOps_eq hnb']
      obtain ⟨hlast, hrel⟩ := rel_foldl hbi (facts_of_block avx hh hbi)
        (fun done op t ht => hkeeps i b done op t ht hbi) rfl hreach (h.enter avx hbi)
      -- dead at the end is dead at the start of each successor, and nothing is where the run leaves
      obtain ⟨hnext, hexit⟩ := hrel.leave avx hbi
      rw [hsucc] at hnext hexit
      unfold Block.successors at hnext hexit
      cases ht : b.terminator with
      | jump t =>
        have hgo := hlast.next (k := t) hbi (by rw [ht]; rfl)
        simp only [ht, execTerminator] at hnext ⊢
        exact ih hgo (hnext t List.mem_cons_self)
      | condJump cond args t f =>
        simp only [ht, execTerminator, hrel.ssa] at hnext ⊢
        cases hc : cond (args.map (b.ops.foldl (execOp env) s).ssa) with
        | true =>
          have hgo := hlast.next (k := t) hbi (by rw [ht]; simp [execTerminator, hc])
          simp only [if_true]
          exact ih hgo (hnext t List.mem_cons_self)
        | false =>
          have hgo := hlast.next (k := f) hbi (by rw [ht]; simp [execTerminator, hc])
          simp only [Bool.false_eq_true, if_false]
          exact ih hgo (hnext f (by simp))
      | exitFunction newRIP =>
        simp only [ht, execTerminator, hrel.ssa] at hexit ⊢
        exact ⟨rfl, hrel.events, fun _ => hexit trivial⟩
      | brk reason =>
        simp only [ht, execTerminator] at hexit ⊢
        exact ⟨rfl, hrel.events, fun _ => hexit trivial⟩

/-! ## The theorem -/

/-- If with AVX the short stores to each YMM register go to one half of it, every `Break` ends its block, and every op of the
run keeps to what it may read, then the IR before and after the pass have the same outcome. -/
theorem deadStoreElimination_preserves (env : Environment) (p : Program) (hh : HalvesApart avx p) (hb : BreaksLast p)
    (i : Nat) (s : State) (hkeeps : RunKeeps avx env p i s) (fuel : Nat) :
    SameOutcome (run env p fuel i s) (run env (deadStoreElimination avx p) fuel i s) :=
  run_rel avx hh hb hkeeps fuel .start
    ⟨rfl, rfl, fun _ ha => absurd rfl ha, fun _ hn => absurd rfl hn⟩

variable {avx}

/-- The last op of some decides whether a location is stale behind them. -/
theorem Stale.snoc (h : Stale avx p i (done ++ [op]) l) :
    Dead avx p i l ∧ Writes (opInfo avx op) l ∨ ¬ Writes (opInfo avx op) l ∧ Stale avx p i done l := by
  generalize hops : done ++ [op] = ops at h
  cases h with
  | enter => simp at hops
  | store _ _ _ hw hdead =>
    obtain ⟨-, rfl⟩ := List.append_singleton_inj.1 hops
    exact .inl ⟨hdead, hw⟩
  | keep _ _ hw hstale =>
    obtain ⟨rfl, rfl⟩ := List.append_singleton_inj.1 hops
    exact .inr ⟨hw, hstale⟩

theorem Stale.written (h : Stale avx p i done l) : ∃ b ∈ p, ∃ op ∈ b.ops, op.isStore ∧ Writes (opInfo avx op) l := by
  induction h with
  | enter _ _ _ ih => exact ih
  | store hb hpre hstore hw _ =>
    exact ⟨_, List.mem_of_getElem? hb, _, hpre.subset (List.mem_append_right _ List.mem_cons_self), hstore, hw⟩
  | keep _ _ _ _ ih => exact ih

/-- A context of zeros, and nodes that hold their own number. -/
def zeroState : State := ⟨id, fun _ => 0, [], fun _ => false⟩

/-- Effects have the result zero and write nothing. -/
def quiet : Environment := ⟨fun _ => 0, fun _ _ => none⟩

/-- XMM0 and CF are stored in both blocks; the first stores are dead. A system call, given the frame and the x87 top of stack,
comes behind the second. -/
def twoStores : Program :=
  [⟨[.storeContext 16 xmmOffset 7, .storeFlag 0 1], .jump 1⟩,
   ⟨[.storeContext 16 xmmOffset 9, .storeFlag 0 0, .loadContext 3 1 (flagsOffset + 43), .frameEffect 4 0 [3]],
    .exitFunction 5⟩]

theorem mem_twoStores (hb : b ∈ twoStores) (hop : op ∈ b.ops) :
    (∃ v, op = .storeContext 16 xmmOffset v) ∨ (∃ v, op = .storeFlag 0 v) ∨
      op = .loadContext 3 1 (flagsOffset + 43) ∨ op = .frameEffect 4 0 [3] := by
  simp only [twoStores, List.mem_cons, List.not_mem_nil, or_false] at hb
  rcases hb with rfl | rfl
  · simp only [List.mem_cons, List.not_mem_nil, or_false] at hop
    rcases hop with rfl | rfl
    · exact .inl ⟨_, rfl⟩
    · exact .inr (.inl ⟨_, rfl⟩)
  · simp only [List.mem_cons, List.not_mem_nil, or_false] at hop
    rcases hop with rfl | rfl | hop
    · exact .inl ⟨_, rfl⟩
    · exact .inr (.inl ⟨_, rfl⟩)
    · exact .inr (.inr hop)

theorem valid_twoStores (h : Reaches quiet twoStores 0 zeroState i done s) (n : Nat) : s.invalid n = false := by
  induction h with
  | start => rfl
  | @op j b done op t _ hb hpre ih =>
    have hop : op ∈ b.ops := hpre.subset (List.mem_append_right _ List.mem_cons_self)
    rcases mem_twoStores (List.mem_of_getElem? hb) hop with ⟨v, rfl⟩ | ⟨v, rfl⟩ | rfl | rfl
    · exact ih
    · show Function.update t.invalid 0 false n = false
      rw [Function.update_apply, ih, ite_self]
    · exact ih
    · exact ih
  | next _ _ _ ih => exact ih

theorem keeps_twoStores : RunKeeps true quiet twoStores 0 zeroState := by
  intro j b done op t hreach hb hpre
  have hop : op ∈ b.ops := hpre.subset (List.mem_append_right _ List.mem_cons_self)
  rcases mem_twoStores (List.mem_of_getElem? hb) hop with ⟨v, rfl⟩ | ⟨v, rfl⟩ | rfl | rfl
  · trivial
  · exact (by decide : 0 < numFlags)
  · intro a h1 h2
    obtain rfl : a = flagsOffset + 43 := by omega
    refine ⟨.inl (by decide), fun n _ hn => ⟨valid_twoStores hreach n, fun hstale => ?_⟩⟩
    obtain rfl : n = 43 := by omega
    obtain ⟨b', hb', op', hop', -, hw⟩ := hstale.written
    rcases mem_twoStores hb' hop' with ⟨v, rfl⟩ | ⟨v, rfl⟩ | rfl | rfl
    · exact not_writes_flag hw
    · cases (writes_storeFlag (by decide)).1 hw
    · exact not_writes_of_reads _ hw
    · exact not_writes_empty _ hw
  · intro l hstale
    match j with
    | 0 =>
      cases hb
      simp at hop
    | 1 =>
      cases hb
      have hdone : done = [.storeContext 16 xmmOffset 9, .storeFlag 0 0, .loadContext 3 1 (flagsOffset + 43)] := by
        rcases done with _ | ⟨x, _ | ⟨y, _ | ⟨z, _ | ⟨w, done⟩⟩⟩⟩ <;> simp_all [List.cons_prefix_cons]
      subst hdone
      -- behind the stores of the second block nothing is stale that they write, and the first block stores nothing else
      have hdead : ∀ l, ¬ Dead true twoStores 1 l := fun l h => h.2.1 rfl
      obtain ⟨b', hb', op', hop', -, hw⟩ := hstale.written
      obtain ⟨h, -⟩ | ⟨-, hstale⟩ := Stale.snoc (show Stale true twoStores 1 ([_, _] ++ [_]) l from hstale)
      · exact hdead l h
      obtain ⟨h, -⟩ | ⟨hflag, hstale⟩ := Stale.snoc (show Stale true twoStores 1 ([_] ++ [_]) l from hstale)
      · exact hdead l h
      obtain ⟨h, -⟩ | ⟨hxmm, hstale⟩ := Stale.snoc (show Stale true twoStores 1 ([] ++ [_]) l from hstale)
      · exact hdead l h
      rcases mem_twoStores hb' hop' with ⟨v, rfl⟩ | ⟨v, rfl⟩ | rfl | rfl
      · exact hxmm hw
      · exact hflag hw
      · exact not_writes_of_reads _ hw
      · exact not_writes_empty _ hw
    | j + 2 => cases hb

theorem deadStoreElimination_preserves_twoStores :
    SameOutcome (run quiet twoStores 2 0 zeroState) (run quiet (deadStoreElimination true twoStores) 2 0 zeroState) := by
  refine deadStoreElimination_preserves true quiet twoStores ?_ ?_ 0 zeroState keeps_twoStores 2
  · intro _ o o' ho ho' _
    have hoff : ∀ o, TrackedStore true twoStores o → o = xmmOffset := by
      rintro o ⟨b, hb, size, v, hop, -⟩
      rcases mem_twoStores hb hop with ⟨v, h⟩ | ⟨v, h⟩ | h | h <;> cases h
      rfl
    rw [hoff o ho, hoff o' ho']
  · intro b hb reason hr
    rcases mem_twoStores hb hr with ⟨v, h⟩ | ⟨v, h⟩ | h | h <;> cases h

example : ((deadStoreElimination true twoStores)[0]?).map (fun b => b.ops.length) = some 0 := by decide

/-- The upper half of YMM0 is stored in the first block, the lower in the second. -/
def halfStores : Program :=
  [⟨[.storeContext 16 (xmmOffset + 16) 7], .jump 1⟩, ⟨[.storeContext 16 xmmOffset 9], .exitFunction 5⟩]

/-- RBX is stored in front of a system call, and again in the next block. -/
def callStores : Program :=
  [⟨[.storeContext 8 (gregsOffset + 8) 7, .frameEffect 3 0 []], .jump 1⟩,
   ⟨[.storeContext 8 (gregsOffset + 8) 9], .exitFunction 5⟩]

/-- The store to the upper half is removed, because the lower half has the same bits, and the store in front of the system
call, because the call is not taken for a read. -/
theorem upper_half_lost :
    (¬ ∀ (avx : Bool) (env : Environment) (p : Program) (fuel i : Nat) (s : State), BreaksLast p → RunKeeps avx env p i s →
        SameOutcome (run env p fuel i s) (run env (deadStoreElimination avx p) fuel i s)) ∧
      ¬ SameOutcome (run quiet callStores 2 0 zeroState) (run quiet (deadStoreElimination false callStores) 2 0 zeroState) := by
  constructor
  · intro h
    have hstores : ∀ b ∈ halfStores, ∀ op ∈ b.ops, ∃ offset v, op = .storeContext 16 offset v := by
      intro b hb op hop
      simp only [halfStores, List.mem_cons, List.not_mem_nil, or_false] at hb
      rcases hb with rfl | rfl <;> exact ⟨_, _, List.mem_singleton.1 hop⟩
    obtain ⟨-, -, hctx⟩ := h true quiet halfStores 2 0 zeroState
      (fun b hb reason hr => by
        obtain ⟨_, _, hop⟩ := hstores b hb _ hr
        cases hop)
      (fun j b done op t _ hb hpre => by
        obtain ⟨offset, v, rfl⟩ := hstores b (List.mem_of_getElem? hb) op
          (hpre.subset (List.mem_append_right _ List.mem_cons_self))
        trivial)
    have hexit : (run quiet halfStores 2 0 zeroState).1 = .exited 5 := by decide
    obtain ⟨n, -, hn, -⟩ := hctx (by rw [hexit]; exact fun i hi => by cases hi) (xmmOffset + 16) (by decide)
    unfold xmmOffset flagsOffset at hn
    omega
  · rintro ⟨-, hevents, -⟩
    have hframe := congrArg (fun events : List Event => (events.map fun e => e.frame.map fun f => f 16)) hevents
    revert hframe
    decide

end FexEmu.IR.DeadStoreElimination
