import FexEmu.LinuxSyscalls.PageAlignment
import FexEmu.LinuxSyscalls.VMAHistory
/-!
# Write-protected pages can be written again

Only stretches of writable mappings are write-protected, so a fault there finds one. For a shared one the mirrors of the page
are gone through.
-/
namespace FexEmu.LinuxSyscalls.VMATracking

open IntrusiveList
open List (mem_cons not_mem_nil mem_flatMap)

variable {t : VMATracking}

/-- The states of the tracker that the operations lead to, of whole pages. -/
structure Tracked (t : VMATracking) : Prop where
  layout : Layout t.data
  lists : Mirrors t
  aligned : t.Aligned
  resource : ∀ {k e}, t.vmas.find? k = some e → e.flags.shared → e.resource.isSome
  offset : ∀ {k e}, t.vmas.find? k = some e → 4096 ∣ e.offset ∧ e.offset + e.length < 2 ^ 64

theorem Tracked.entry (ht : Tracked t) {k : Nat} {e : VMAEntry} (hk : t.vmas.find? k = some e) :
    e.base = k ∧ 0 < e.length ∧ k + e.length < 2 ^ 64 ∧ 4096 ∣ k ∧ 4096 ∣ e.length ∧ 4096 ∣ e.offset ∧
      e.offset + e.length < 2 ^ 64 := by
  have hd : t.data k = some (unlinked e) := data_eq_some.mpr ⟨e, hk, rfl⟩
  have hb := ht.layout.bounded hd
  obtain ⟨hbase, hk4, hlen⟩ := ht.aligned.entry hk
  exact ⟨hbase, hb.1, hb.2, hk4, hlen, ht.offset hk⟩

/-! ## The walk along a list -/

theorem walk_segment {p : Option Nat} {c : List Nat} (h : Segment t.next t.prev p c none) :
    ∀ fuel, c.length ≤ fuel → t.walk fuel c.head? = c := by
  induction c generalizing p with
  | nil =>
    intro fuel _
    cases fuel <;> rfl
  | cons k ks ih =>
    intro fuel hfuel
    obtain ⟨-, hn, hks⟩ := h
    cases fuel with
    | zero => simp at hfuel
    | succ fuel =>
      have hnext : (t.vma k).resourceNextVMA = ks.head? := by
        rw [← Option.or_none (o := ks.head?)]
        exact hn
      rw [List.head?_cons, walk, hnext, ih hks fuel (by simpa using hfuel)]

variable {e : VMAEntry} {k : Nat}

theorem mem_mirrors (h : Mirrors t) {r : MRID} :
    e ∈ t.mirrors (some r) ↔ ∃ k, t.vmas.find? k = some e ∧ e.resource = some r := by
  obtain ⟨c, hc, hmem⟩ := h r
  have hlen : c.length ≤ t.vmas.entries.length := by
    have hsub : c ⊆ t.vmas.entries.map Prod.fst := by
      intro k hk
      have hfind := find_of_owner ((hmem k).mp hk)
      exact List.mem_map_of_mem ((OrderedMap.mem_entries _ _ _).mpr hfind)
    have hle := (List.subperm_of_subset hc.nodup hsub).length_le
    rwa [List.length_map] at hle
  have hwalk : t.walk t.vmas.entries.length (t.firstVMA r) = c := by
    rw [hc.first_eq]
    exact walk_segment hc.links _ hlen
  unfold mirrors
  rw [Option.bind_some, hwalk, List.mem_map]
  constructor
  · rintro ⟨k, hk, rfl⟩
    have howner := (hmem k).mp hk
    exact ⟨k, find_of_owner howner, howner⟩
  · rintro ⟨k, hk, hr⟩
    exact ⟨k, (hmem k).mpr (owner_of_find hk hr), vma_of_find hk⟩

/-! ## Faults -/

/-- The address where an entry maps an offset of a resource. -/
def MirrorAt (t : VMATracking) (resource : Option MRID) (offset address : Nat) (e : VMAEntry) : Prop :=
  ∃ k, t.vmas.find? k = some e ∧ e.resource = resource ∧ e.offset ≤ offset ∧ offset < e.offset + e.length ∧
    address = e.base + (offset - e.offset)

/-- The fault is handled. For a shared mapping the calls are those for the mirrors of the page: all are invalidated. -/
def Recovered (t : VMATracking) (a : Nat) : Prop :=
  ∃ k e calls, t.lookupVMAUnsafe a = some (k, e) ∧ t.handleSegfault a = (true, calls) ∧
    if e.flags.shared then
      ∀ c, c ∈ calls ↔
        (∃ q m, c = .mprotect q pageSize true ∧ MirrorAt t e.resource (e.offset + (alignDown a - k)) q m ∧
          m.prot.writable) ∨
        (∃ q m, c = .invalidateGuestCodeRange q pageSize ∧ MirrorAt t e.resource (e.offset + (alignDown a - k)) q m)
    else calls = [.invalidateGuestCodeRange (alignDown a) pageSize, .mprotect (alignDown a) pageSize true]

theorem mem_faultMirror {offset : Nat} (hoff : e.offset + e.length < 2 ^ 64)
    (hbase : e.base + e.length < 2 ^ 64) (c : HostCall) :
    c ∈ faultMirror offset e ↔ e.offset ≤ offset ∧ offset < e.offset + e.length ∧
      ((c = .mprotect (e.base + (offset - e.offset)) pageSize true ∧ e.prot.writable) ∨
        c = .invalidateGuestCodeRange (e.base + (offset - e.offset)) pageSize) := by
  unfold faultMirror
  rw [add64_of_lt hoff]
  by_cases hin : e.offset ≤ offset ∧ offset < e.offset + e.length
  · have haddr : add64 (sub64 offset e.offset) e.base = e.base + (offset - e.offset) := by
      rw [sub64_of_le hin.1 (by omega), add64_of_lt (by omega), Nat.add_comm]
    rw [haddr]
    by_cases hw : e.prot.writable
    · simp only [hw, if_true, mem_cons, not_mem_nil, or_false, and_true, hin.1, hin.2, true_and]
      exact or_comm
    · simp [hw, hin.1, hin.2]
  · rw [if_neg hin]
    constructor
    · exact fun hx => absurd hx not_mem_nil
    · exact fun hx => absurd ⟨hx.1, hx.2.1⟩ hin

theorem recovered_of_writable (ht : Tracked t) {a : Nat} (hk : t.vmas.find? k = some e)
    (hw : e.prot.writable) (hka : k ≤ a) (hae : a < k + e.length) : Recovered t a := by
  have hlookup := lookupVMAUnsafe_of_mem ht.layout hk hka hae
  obtain ⟨hbase, hpos, hwrap, hk4, hlen, hoff4, hoff⟩ := ht.entry hk
  have hpage : k ≤ alignDown a := by
    unfold alignDown pageSize
    omega
  have hle : alignDown a ≤ a := Nat.sub_le _ _
  by_cases hs : e.flags.shared
  · obtain ⟨r, hr⟩ := Option.isSome_iff_exists.mp (ht.resource hk hs)
    refine ⟨k, e, (t.mirrors e.resource).flatMap (faultMirror (e.offset + (alignDown a - k))), hlookup, ?_, ?_⟩
    · unfold handleSegfault
      rw [hlookup]
      dsimp only
      rw [if_pos hw, if_pos hs, sub64_of_le hpage (by omega), add64_of_lt (by omega), Nat.add_comm]
    · rw [if_pos hs]
      intro c
      rw [mem_flatMap, hr]
      constructor
      · rintro ⟨m, hm, hc⟩
        obtain ⟨j, hj, hmr⟩ := (mem_mirrors ht.lists).mp hm
        obtain ⟨hmb, -, hmwrap, -, -, -, hmoff⟩ := ht.entry hj
        obtain ⟨h1, h2, hcall⟩ := (mem_faultMirror hmoff (hmb ▸ hmwrap) c).mp hc
        rcases hcall with ⟨rfl, hmw⟩ | rfl
        · exact Or.inl ⟨_, m, rfl, ⟨j, hj, hmr, h1, h2, rfl⟩, hmw⟩
        · exact Or.inr ⟨_, m, rfl, ⟨j, hj, hmr, h1, h2, rfl⟩⟩
      · rintro (⟨q, m, rfl, ⟨j, hj, hmr, h1, h2, rfl⟩, hmw⟩ | ⟨q, m, rfl, ⟨j, hj, hmr, h1, h2, rfl⟩⟩) <;>
          obtain ⟨hmb, -, hmwrap, -, -, -, hmoff⟩ := ht.entry hj <;>
          refine ⟨m, (mem_mirrors ht.lists).mpr ⟨j, hj, hmr⟩, (mem_faultMirror hmoff (hmb ▸ hmwrap) _).mpr ⟨h1, h2, ?_⟩⟩
        · exact Or.inl ⟨rfl, hmw⟩
        · exact Or.inr rfl
  · refine ⟨k, e, [.invalidateGuestCodeRange (alignDown a) pageSize, .mprotect (alignDown a) pageSize true], hlookup,
      ?_, ?_⟩
    · unfold handleSegfault
      rw [hlookup]
      dsimp only
      rw [if_pos hw, if_neg hs]
    · rw [if_neg hs]

/-! ## Protected pages -/

def protect (readOnly : Nat → Bool) : HostCall → Nat → Bool
  | .mprotect start length writable => fun p =>
    if start + length < 2 ^ 64 ∧ start ≤ pageSize * p ∧ pageSize * p < start + length then !writable else readOnly p
  | .invalidateGuestCodeRange _ _ => readOnly

/-- The page is in an entry that the guest may write. -/
def InWritable (t : VMATracking) (p : Nat) : Prop :=
  ∃ k e, t.vmas.find? k = some e ∧ e.prot.writable ∧ k ≤ pageSize * p ∧ pageSize * p < k + e.length

/-- The call write-protects pages of writable mappings only. -/
def ProtectsWritable (t : VMATracking) : HostCall → Prop
  | .mprotect start length false =>
    start + length < 2 ^ 64 → ∀ p, start ≤ pageSize * p → pageSize * p < start + length → InWritable t p
  | _ => True

theorem protectsWritable_of_range {s n : Nat} (hk : t.vmas.find? k = some e) (hw : e.prot.writable)
    (h : s + n < 2 ^ 64 → k ≤ s ∧ s + n ≤ k + e.length) : ProtectsWritable t (.mprotect s n false) := by
  intro hwrap p h1 h2
  exact ⟨k, e, hk, hw, by omega, by omega⟩

theorem protectMirror_protects {j ob ot : Nat} {m : VMAEntry} (ht : Tracked t) (hj : t.vmas.find? j = some m)
    (hot : ot < 2 ^ 64) : ∀ c ∈ protectMirror ob ot m, ProtectsWritable t c := by
  obtain ⟨hbase, -, hwrap, -, -, -, hoff⟩ := ht.entry hj
  intro c hc
  unfold protectMirror at hc
  rw [add64_of_lt hoff] at hc
  by_cases hin : m.prot.writable ∧ m.offset < ot ∧ ob < m.offset + m.length
  · rw [if_pos hin] at hc
    obtain rfl := List.mem_singleton.mp hc
    obtain ⟨hw, h1, h2⟩ := hin
    refine protectsWritable_of_range hj hw ?_
    have hs : sub64 (max m.offset ob) m.offset = max m.offset ob - m.offset := sub64_of_le (le_max_left _ _) (by omega)
    have ha : add64 (max m.offset ob - m.offset) m.base = max m.offset ob - m.offset + j := by
      rw [hbase, add64_of_lt (by omega)]
    rw [hs, ha]
    -- a stretch that ends before it starts is a range that wraps
    by_cases hle : max m.offset ob ≤ min ot (m.offset + m.length)
    · rw [sub64_of_le hle (by omega)]
      omega
    · unfold sub64
      omega
  · rw [if_neg hin] at hc
    exact absurd hc not_mem_nil

theorem protectMapping_protects (ht : Tracked t) {base top : Nat} (hk : t.vmas.find? k = some e)
    (hbase : base < k + e.length) (htop : k < top) : ∀ c ∈ protectMapping t base top k e, ProtectsWritable t c := by
  obtain ⟨-, hpos, hwrap, -, -, -, hoff⟩ := ht.entry hk
  intro c hc
  unfold protectMapping at hc
  rw [add64_of_lt hwrap] at hc
  by_cases hs : e.flags.shared
  · rw [if_pos hs] at hc
    obtain ⟨r, hr⟩ := Option.isSome_iff_exists.mp (ht.resource hk hs)
    obtain ⟨m, hm, hcm⟩ := mem_flatMap.mp hc
    rw [hr] at hm
    obtain ⟨j, hj, -⟩ := (mem_mirrors ht.lists).mp hm
    exact protectMirror_protects ht hj (Nat.mod_lt _ (by decide)) c hcm
  · rw [if_neg hs] at hc
    by_cases hw : e.prot.writable
    · rw [if_pos hw] at hc
      obtain rfl := List.mem_singleton.mp hc
      refine protectsWritable_of_range hk hw ?_
      by_cases hle : max k base ≤ min (k + e.length) top
      · rw [sub64_of_le hle (by omega)]
        omega
      · unfold sub64
        omega
    · rw [if_neg hw] at hc
      exact absurd hc not_mem_nil

theorem protectLoop_protects (ht : Tracked t) {base top : Nat} :
    ∀ fuel c, c ≤ top → ∀ call ∈ t.protectLoop base top fuel c, ProtectsWritable t call := by
  intro fuel
  induction fuel with
  | zero => exact fun c _ call hcall => absurd hcall not_mem_nil
  | succ fuel ih =>
    intro c hc call hcall
    unfold protectLoop at hcall
    cases hb : t.vmas.below c with
    | none =>
      rw [hb] at hcall
      exact absurd hcall not_mem_nil
    | some x =>
      obtain ⟨k, e⟩ := x
      obtain ⟨hk, hkc, -⟩ := (OrderedMap.below_eq_some _ _ _ _).mp hb
      rw [hb] at hcall
      dsimp only at hcall
      obtain ⟨-, -, hwrap, -⟩ := ht.entry hk
      rw [add64_of_lt hwrap] at hcall
      by_cases hend : k + e.length ≤ base
      · rw [if_pos hend] at hcall
        exact absurd hcall not_mem_nil
      · rw [if_neg hend] at hcall
        rcases List.mem_append.mp hcall with hcall | hcall
        · exact protectMapping_protects ht hk (by omega) (by omega) call hcall
        · exact ih k (by omega) call hcall

/-! ## Histories -/

/-- A call of `MarkGuestExecutableRange` or a fault. -/
inductive SMCOp
  | mark (start length : Nat)
  | segfault (faultAddress : Nat)

def SMCOp.calls (t : VMATracking) (smcChecks : SMCChecks) : SMCOp → List HostCall
  | mark start length => t.markGuestExecutableRange smcChecks start length
  | segfault faultAddress => (t.handleSegfault faultAddress).2

/-- The pages that were made read-only and not writable again since. -/
def readOnlyPages (t : VMATracking) (smcChecks : SMCChecks) (ops : List SMCOp) : Nat → Bool :=
  (ops.flatMap (SMCOp.calls t smcChecks)).foldl protect (fun _ => false)

theorem handleSegfault_protects (a : Nat) : ∀ c ∈ (t.handleSegfault a).2, ProtectsWritable t c := by
  intro c hc
  have hwritable : ∀ s n, c ≠ .mprotect s n false := by
    rintro s n rfl
    unfold handleSegfault at hc
    split at hc
    · split_ifs at hc with h1 h2
      · obtain ⟨m, -, hm⟩ := mem_flatMap.mp hc
        unfold faultMirror at hm
        split_ifs at hm <;> simp at hm
      · simp at hc
      · exact absurd hc not_mem_nil
    · exact absurd hc not_mem_nil
  match c, hwritable with
  | .mprotect s n false, h => exact absurd rfl (h s n)
  | .mprotect s n true, _ => exact trivial
  | .invalidateGuestCodeRange s n, _ => exact trivial

theorem calls_protect (ht : Tracked t) (smcChecks : SMCChecks) (op : SMCOp) :
    ∀ c ∈ op.calls t smcChecks, ProtectsWritable t c := by
  cases op with
  | mark start length =>
    intro c hc
    change c ∈ t.markGuestExecutableRange smcChecks start length at hc
    unfold markGuestExecutableRange at hc
    split_ifs at hc
    · exact protectLoop_protects ht _ _ le_rfl c hc
    · exact absurd hc not_mem_nil
  | segfault a => exact handleSegfault_protects a

theorem foldl_protect (calls : List HostCall) (hcalls : ∀ c ∈ calls, ProtectsWritable t c) :
    ∀ readOnly : Nat → Bool, (∀ p, readOnly p = true → InWritable t p) →
      ∀ p, calls.foldl protect readOnly p = true → InWritable t p := by
  induction calls with
  | nil => exact fun readOnly h p hp => h p hp
  | cons c calls ih =>
    intro readOnly h
    refine ih (fun d hd => hcalls d (List.mem_cons_of_mem _ hd)) (protect readOnly c) ?_
    intro p hp
    have hc := hcalls c List.mem_cons_self
    match c, hc with
    | .invalidateGuestCodeRange s n, _ => exact h p hp
    | .mprotect s n w, hc =>
      change (if s + n < 2 ^ 64 ∧ s ≤ pageSize * p ∧ pageSize * p < s + n then !w else readOnly p) = true at hp
      by_cases hin : s + n < 2 ^ 64 ∧ s ≤ pageSize * p ∧ pageSize * p < s + n
      · rw [if_pos hin] at hp
        cases w with
        | true => cases hp
        | false => exact hc hin.1 p hin.2.1 hin.2.2
      · rw [if_neg hin] at hp
        exact h p hp

/-- After any history of protections and faults, a fault anywhere in a read-only page is handled. -/
theorem protected_page_recovered (ht : Tracked t) (smcChecks : SMCChecks) (ops : List SMCOp) (p a : Nat)
    (hp : readOnlyPages t smcChecks ops p = true) (ha : a / pageSize = p) : Recovered t a := by
  have hcalls : ∀ c ∈ ops.flatMap (SMCOp.calls t smcChecks), ProtectsWritable t c := by
    intro c hc
    obtain ⟨op, -, hop⟩ := mem_flatMap.mp hc
    exact calls_protect ht smcChecks op c hop
  obtain ⟨k, e, hk, hw, h1, h2⟩ := foldl_protect _ hcalls (fun _ => false) (fun _ hq => by cases hq) p hp
  obtain ⟨-, -, -, hk4, hlen, -, -⟩ := ht.entry hk
  unfold pageSize at *
  exact recovered_of_writable ht hk hw (by omega) (by omega)

/-! ## A file mapped twice -/

/-- A page of a file, shared at `0x1000` and private at `0x5000`. -/
def mappedTwice : VMATracking :=
  [TrackerOp.set (some ⟨1, 1⟩) 0 0x1000 0 0x1000 ⟨true⟩ ⟨true, true, false⟩,
   TrackerOp.set (some ⟨1, 1⟩) 0 0x5000 0 0x1000 ⟨false⟩ ⟨true, true, false⟩].foldl TrackerOp.apply empty

theorem mappedTwice_entries :
    mappedTwice.vmas.entries =
      [(0x1000, ⟨some ⟨1, 1⟩, some 0x5000, none, 0x1000, 0, 0x1000, ⟨true⟩, ⟨true, true, false⟩⟩),
       (0x5000, ⟨some ⟨1, 1⟩, none, some 0x1000, 0x5000, 0, 0x1000, ⟨false⟩, ⟨true, true, false⟩⟩)] := by
  decide

theorem mappedTwice_find (h : mappedTwice.vmas.find? k = some e) :
    (k = 0x1000 ∨ k = 0x5000) ∧ e.base = k ∧ e.offset = 0 ∧ e.length = 0x1000 ∧ e.resource = some ⟨1, 1⟩ := by
  have hmem := (OrderedMap.mem_entries _ _ _).mpr h
  rw [mappedTwice_entries] at hmem
  simp only [mem_cons, not_mem_nil, or_false, Prod.mk.injEq] at hmem
  rcases hmem with ⟨rfl, rfl⟩ | ⟨rfl, rfl⟩
  · exact ⟨Or.inl rfl, rfl, rfl, rfl, rfl⟩
  · exact ⟨Or.inr rfl, rfl, rfl, rfl, rfl⟩

theorem mappedTwice_tracked : Tracked mappedTwice := by
  have h0 : TrackerOp.StepOk empty (.set (some ⟨1, 1⟩) 0 0x1000 0 0x1000 ⟨true⟩ ⟨true, true, false⟩) := by
    refine ⟨⟨by decide, by decide⟩, ?_⟩
    intro r hr
    simp [empty] at hr
  have hinv := step_inv inv_empty h0
  have h1 : TrackerOp.StepOk (TrackerOp.apply empty (.set (some ⟨1, 1⟩) 0 0x1000 0 0x1000 ⟨true⟩ ⟨true, true, false⟩))
      (.set (some ⟨1, 1⟩) 0 0x5000 0 0x1000 ⟨false⟩ ⟨true, true, false⟩) :=
    ⟨⟨by decide, by decide⟩, fun r hr => (hinv.resources r).mp hr⟩
  have hinv' := step_inv hinv h1
  refine ⟨hinv'.layout, hinv'.mirrors, ?_, ?_, ?_⟩
  · intro k e hk
    obtain ⟨f, hf, rfl⟩ := data_eq_some.mp hk
    obtain ⟨hkeys, hbase, -, hlen, -⟩ := mappedTwice_find hf
    refine ⟨hbase, ?_, ?_⟩
    · omega
    · change 4096 ∣ f.length
      omega
  · intro k e hk _
    rw [(mappedTwice_find hk).2.2.2.2]
    rfl
  · intro k e hk
    obtain ⟨-, -, hoff, hlen, -⟩ := mappedTwice_find hk
    omega

/-- Marking the shared page write-protects the private one as well. -/
theorem protected_page_recovered_private :
    readOnlyPages mappedTwice .mtrack [.mark 0x1000 1] 5 = true ∧ Recovered mappedTwice 0x5010 := by
  have hp : readOnlyPages mappedTwice .mtrack [.mark 0x1000 1] 5 = true := by decide
  exact ⟨hp, protected_page_recovered mappedTwice_tracked .mtrack [.mark 0x1000 1] 5 0x5010 hp (by decide)⟩

/-- The fault in the private page leaves the shared one read-only, a writable mirror of the same offset. -/
theorem private_fault_skips_mirrors :
    Tracked mappedTwice ∧ readOnlyPages mappedTwice .mtrack [.mark 0x1000 1] 5 = true ∧
      (∃ m, MirrorAt mappedTwice (some ⟨1, 1⟩) 0 0x1000 m ∧ m.prot.writable) ∧
      (mappedTwice.handleSegfault 0x5010).1 = true ∧
      .mprotect 0x1000 pageSize true ∉ (mappedTwice.handleSegfault 0x5010).2 ∧
      .invalidateGuestCodeRange 0x1000 pageSize ∉ (mappedTwice.handleSegfault 0x5010).2 := by
  refine ⟨mappedTwice_tracked, by decide, ?_, by decide, by decide, by decide⟩
  have hshared := (OrderedMap.mem_entries _ _ _).mp (mappedTwice_entries ▸ List.mem_cons_self)
  exact ⟨_, ⟨0x1000, hshared, rfl, Nat.le_refl 0, by decide, rfl⟩, rfl⟩

end FexEmu.LinuxSyscalls.VMATracking
