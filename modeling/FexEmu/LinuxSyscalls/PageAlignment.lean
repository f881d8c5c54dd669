import FexEmu.LinuxSyscalls.SMCTracking
import FexEmu.LinuxSyscalls.VMATrackingProofs
/-!
# Mappings of whole pages

The entry points round their sizes up to pages, all but `TrackShmat`.
-/
namespace FexEmu.LinuxSyscalls

theorem dvd_add64 {a b : Nat} (ha : 4096 ∣ a) (hb : 4096 ∣ b) : 4096 ∣ add64 a b := by
  unfold add64
  omega

theorem dvd_sub64 {a b : Nat} (ha : 4096 ∣ a) (hb : 4096 ∣ b) : 4096 ∣ sub64 a b := by
  unfold sub64
  omega

theorem dvd_alignUp (a : Nat) : 4096 ∣ alignUp a := by
  unfold alignUp add64 pageSize
  omega

namespace VMATracking

/-- Every mapping is keyed by its base and made of whole pages. -/
def Aligned (t : VMATracking) : Prop := ∀ k e, t.data k = some e → e.base = k ∧ 4096 ∣ k ∧ 4096 ∣ e.length

variable {t : VMATracking} {k : Nat}

theorem aligned_of_data {t' : VMATracking} (h : t'.data = t.data) (ht : t.Aligned) : t'.Aligned := by
  unfold Aligned
  rw [h]
  exact ht

theorem aligned_update {t' : VMATracking} {o : Option VMAEntry} (h : t'.data = Function.update t.data k o)
    (ht : t.Aligned) (ho : ∀ e, o = some e → e.base = k ∧ 4096 ∣ k ∧ 4096 ∣ e.length) : t'.Aligned := by
  intro j e hj
  rw [h] at hj
  by_cases hjk : j = k
  · subst hjk
    rw [Function.update_self] at hj
    exact ho e hj
  · rw [Function.update_of_ne hjk] at hj
    exact ht j e hj

theorem aligned_setLength (ht : t.Aligned) {n : Nat} (hn : 4096 ∣ n) : (t.setLength k n).Aligned := by
  refine aligned_update (data_setLength t k n) ht ?_
  intro e he
  obtain ⟨f, hf, rfl⟩ := Option.map_eq_some_iff.mp he
  obtain ⟨hbase, hk, -⟩ := ht k f hf
  exact ⟨hbase, hk, hn⟩

theorem aligned_setProt (ht : t.Aligned) (p : VMAProt) : (t.setProt k p).Aligned := by
  refine aligned_update (data_setProt t k p) ht ?_
  intro e he
  obtain ⟨f, hf, rfl⟩ := Option.map_eq_some_iff.mp he
  exact ht k f hf

theorem aligned_emplaceVMA (ht : t.Aligned) {e : VMAEntry} (hbase : e.base = k) (hk : 4096 ∣ k) (hlen : 4096 ∣ e.length) :
    (t.emplaceVMA k e).Aligned := by
  refine aligned_update (data_emplaceVMA t k e) ht ?_
  intro f hf
  obtain rfl := Option.some.inj hf
  cases hd : t.data k with
  | none => exact ⟨hbase, hk, hlen⟩
  | some g => exact ht k g hd

theorem aligned_eraseVMA (ht : t.Aligned) : (t.eraseVMA k).Aligned :=
  aligned_update (data_eraseVMA t k) ht (fun _ he => nomatch he)

theorem aligned_removeMapping (ht : t.Aligned) (preserved : Option MRID) (cur : VMAEntry) :
    (removeMapping preserved t k cur).Aligned :=
  aligned_update (data_removeMapping t k preserved cur) ht (fun _ he => nomatch he)

theorem Aligned.entry (ht : t.Aligned) {cur : VMAEntry} (hk : t.vmas.find? k = some cur) :
    cur.base = k ∧ 4096 ∣ k ∧ 4096 ∣ cur.length := by
  have hd : t.data k = some (unlinked cur) := data_eq_some.mpr ⟨cur, hk, rfl⟩
  have hentry := ht k (unlinked cur) hd
  exact hentry

/-! ## The map operations -/

variable {cur : VMAEntry} {base top length : Nat}

theorem aligned_clearMapping (ht : t.Aligned) (hk : t.vmas.find? k = some cur)
    (hbase : 4096 ∣ base) (htop : 4096 ∣ top) (preserved : Option MRID) :
    (clearMapping base top preserved t k cur).Aligned := by
  obtain ⟨hcb, hk4, hlen⟩ := ht.entry hk
  have hfirst : 4096 ∣ sub64 base cur.base := dvd_sub64 hbase (hcb ▸ hk4)
  have htrail : 4096 ∣ sub64 (add64 cur.base cur.length) top := dvd_sub64 (dvd_add64 (hcb ▸ hk4) hlen) htop
  unfold clearMapping
  dsimp only
  split
  · exact aligned_setLength ht hfirst
  · have hemp := aligned_emplaceVMA (e := trailingPart top cur (some k)) (aligned_setLength (k := k) ht hfirst)
      rfl htop htrail
    split
    · exact aligned_of_data (data_listInsertAfter _ _ _) hemp
    · exact hemp
  · exact aligned_removeMapping ht preserved cur
  · have hemp := aligned_emplaceVMA (e := trailingPart top cur cur.resourcePrevVMA) ht rfl htop htrail
    refine aligned_eraseVMA ?_
    cases cur.resource with
    | none => exact hemp
    | some r => exact aligned_of_data (data_listReplace _ _ _ _) hemp

theorem aligned_clearLoop (hbase : 4096 ∣ base) (htop : 4096 ∣ top) (preserved : Option MRID) :
    ∀ (fuel c : Nat) (t : VMATracking), t.Aligned → (clearLoop base top preserved fuel c t).Aligned := by
  intro fuel
  induction fuel with
  | zero => exact fun c t h => h
  | succ fuel ih =>
    intro c t ht
    unfold clearLoop
    cases hb : t.vmas.below c with
    | none => exact ht
    | some x =>
      obtain ⟨k, cur⟩ := x
      have hk := ((OrderedMap.below_eq_some _ _ _ _).mp hb).1
      dsimp only
      split
      · exact ht
      · exact ih k _ (aligned_clearMapping ht hk hbase htop preserved)

theorem aligned_clearUnsafe (ht : t.Aligned) (hbase : 4096 ∣ base) (hlen : 4096 ∣ length)
    (preserved : Option MRID) : (t.clearUnsafe base length preserved).Aligned :=
  aligned_clearLoop hbase (dvd_add64 hbase hlen) preserved _ _ t ht

theorem aligned_setUnsafe (ht : t.Aligned) (hbase : 4096 ∣ base) (hlen : 4096 ∣ length)
    (resource : Option MRID) (offset : Nat) (flags : VMAFlags) (prot : VMAProt) :
    (t.setUnsafe resource base offset length flags prot).Aligned := by
  refine aligned_update (data_setUnsafe t resource base offset length flags prot)
    (aligned_clearUnsafe ht hbase hlen resource) ?_
  intro e he
  obtain rfl := Option.some.inj he
  cases hd : (t.clearUnsafe base length resource).data base with
  | none => exact ⟨rfl, hbase, hlen⟩
  | some g => exact aligned_clearUnsafe ht hbase hlen resource base g hd

theorem aligned_splitFirst (ht : t.Aligned) (hk : t.vmas.find? k = some cur)
    (hbase : 4096 ∣ base) (htop : 4096 ∣ top) (prot : VMAProt) : (splitFirst base top prot t k cur).Aligned := by
  obtain ⟨hcb, hk4, hlen⟩ := ht.entry hk
  have hfirst : 4096 ∣ sub64 base cur.base := dvd_sub64 hbase (hcb ▸ hk4)
  have hemp := aligned_emplaceVMA (k := base)
    (e := ⟨cur.resource, some k, cur.resourceNextVMA, base, add64 (sub64 cur.offset cur.base) base, sub64 top base,
      cur.flags, prot⟩) (aligned_setLength (k := k) ht hfirst) rfl hbase (dvd_sub64 htop hbase)
  unfold splitFirst
  split
  · exact aligned_of_data (data_listInsertAfter _ _ _) hemp
  · exact hemp

theorem aligned_splitTrailing (ht : t.Aligned) (hcur : 4096 ∣ add64 cur.base cur.length) {c : Nat}
    (htop : 4096 ∣ top) : (splitTrailing top t c cur).Aligned := by
  have hc : 4096 ∣ (t.vma c).base := by
    unfold vma
    cases hf : t.vmas.find? c with
    | none => exact Nat.dvd_zero 4096
    | some e =>
      obtain ⟨hbase, hc4, -⟩ := ht.entry hf
      rw [Option.getD_some, hbase]
      exact hc4
  have hemp := fun e he => aligned_emplaceVMA (k := top) (e := e)
    (aligned_setLength (k := c) ht (dvd_sub64 htop hc)) he htop
  unfold splitTrailing
  dsimp only
  split
  · exact aligned_of_data (data_listInsertAfter _ _ _) (hemp _ rfl (dvd_sub64 hcur htop))
  · exact hemp _ rfl (dvd_sub64 hcur htop)

theorem aligned_changeMapping (ht : t.Aligned) (hk : t.vmas.find? k = some cur)
    (hbase : 4096 ∣ base) (htop : 4096 ∣ top) (prot : VMAProt) : (changeMapping base top prot t k cur).Aligned := by
  obtain ⟨hcb, hk4, hlen⟩ := ht.entry hk
  have hcur : 4096 ∣ add64 cur.base cur.length := dvd_add64 (hcb ▸ hk4) hlen
  have hfirst : (if decide (cur.base < base) then splitFirst base top prot t k cur else t.setProt k prot).Aligned := by
    split
    · exact aligned_splitFirst ht hk hbase htop prot
    · exact aligned_setProt ht prot
  unfold changeMapping
  dsimp only
  split
  · exact aligned_splitTrailing hfirst hcur htop
  · exact hfirst

theorem aligned_changeLoop (hbase : 4096 ∣ base) (htop : 4096 ∣ top) (prot : VMAProt) :
    ∀ (fuel c : Nat) (t : VMATracking), t.Aligned → (changeLoop base top prot fuel c t).Aligned := by
  intro fuel
  induction fuel with
  | zero => exact fun c t h => h
  | succ fuel ih =>
    intro c t ht
    unfold changeLoop
    cases hb : t.vmas.below c with
    | none => exact ht
    | some x =>
      obtain ⟨k, cur⟩ := x
      have hk := ((OrderedMap.below_eq_some _ _ _ _).mp hb).1
      dsimp only
      split
      · exact ht
      · split
        · exact ih k t ht
        · exact ih k _ (aligned_changeMapping ht hk hbase htop prot)

theorem aligned_changeUnsafe (ht : t.Aligned) (hbase : 4096 ∣ base) (hlen : 4096 ∣ length)
    (prot : VMAProt) : (t.changeUnsafe base length prot).Aligned :=
  aligned_changeLoop hbase (dvd_add64 hbase hlen) prot _ _ t ht

theorem aligned_clearShmLoop {shmLength : Nat} {r : MRID} :
    ∀ (fuel k : Nat) (t : VMATracking), t.Aligned → (clearShmLoop base shmLength r fuel k t).Aligned := by
  intro fuel
  induction fuel with
  | zero => exact fun k t h => h
  | succ fuel ih =>
    intro k t ht
    have hstep : (if (t.vma k).resource = some r then removeMapping none t k (t.vma k) else t).Aligned := by
      split
      · exact aligned_removeMapping ht none _
      · exact ht
    unfold clearShmLoop
    dsimp only
    split
    · split
      · exact ih _ _ hstep
      · exact hstep
    · exact hstep

theorem aligned_clearShmUnsafe (ht : t.Aligned) (base : Nat) : (t.clearShmUnsafe base).1.Aligned := by
  unfold clearShmUnsafe
  split
  · split
    · exact aligned_clearShmLoop _ _ t ht
    · exact ht
  · exact ht

/-! ## Lookups -/

theorem lookupVMAUnsafe_alignDown (ht : t.Aligned) (a : Nat) : t.lookupVMAUnsafe (alignDown a) = t.lookupVMAUnsafe a := by
  have hpage : ∀ k, 4096 ∣ k → (k ≤ alignDown a ↔ k ≤ a) := by
    unfold alignDown pageSize
    omega
  have hupTo : t.vmas.upTo (alignDown a) = t.vmas.upTo a := by
    apply Option.ext
    rintro ⟨k, e⟩
    rw [OrderedMap.upTo_eq_some, OrderedMap.upTo_eq_some]
    refine and_congr_right (fun hk => ?_)
    rw [hpage k (ht.entry hk).2.1]
    refine and_congr_right (fun _ => ?_)
    refine forall_congr' (fun j => forall_congr' (fun w => forall_congr' (fun hj => ?_)))
    rw [hpage j (ht.entry hj).2.1]
  unfold lookupVMAUnsafe
  rw [hupTo]
  cases hu : t.vmas.upTo a with
  | none => rfl
  | some x =>
    obtain ⟨k, e⟩ := x
    obtain ⟨-, hk4, hlen⟩ := ht.entry ((OrderedMap.upTo_eq_some _ _ _ _).mp hu).1
    have hend : alignDown a < add64 k e.length ↔ a < add64 k e.length := by
      have hdvd := dvd_add64 hk4 hlen
      unfold alignDown pageSize
      omega
    exact if_congr (and_congr (hpage k hk4) hend) rfl rfl

end VMATracking

/-! ## Histories -/

namespace SyscallHandler

/-- A call of an entry point. `file` and `shmSegsz` are what the kernel answers. -/
inductive TrackOp
  | mmap (base size prot flags : Nat) (file : Option MRID) (offset : Nat)
  | munmap (base size : Nat)
  | mprotect (base size prot : Nat)
  | mremap (oldAddress oldSize newSize flags newAddress : Nat)
  | shmat (shmid shmSegsz base shmflg : Nat)
  | shmdt (base : Nat)

namespace TrackOp

def apply (h : SyscallHandler) : TrackOp → Option SyscallHandler
  | mmap base size prot flags file offset => some (h.trackMmap base size prot flags file offset)
  | munmap base size => some (h.trackMunmap base size)
  | mprotect base size prot => some (h.trackMprotect base size prot)
  | mremap oldAddress oldSize newSize flags newAddress => h.trackMremap oldAddress oldSize newSize flags newAddress
  | shmat shmid shmSegsz base shmflg => some (h.trackShmat shmid shmSegsz base shmflg)
  | shmdt base => some (h.trackShmdt base)

def AddressesAligned : TrackOp → Prop
  | mmap base .. | munmap base _ | mprotect base .. | shmat _ _ base _ | shmdt base => 4096 ∣ base
  | mremap oldAddress _ _ _ newAddress => 4096 ∣ oldAddress ∧ 4096 ∣ newAddress

/-- An attached segment is of whole pages. -/
def WholePages : TrackOp → Prop
  | shmat _ shmSegsz _ _ => 4096 ∣ shmSegsz
  | _ => True

end TrackOp

/-- A handler without mappings. -/
def start (smcChecks : SMCChecks) : SyscallHandler := ⟨VMATracking.empty, 1, smcChecks⟩

def run : SyscallHandler → List TrackOp → Option SyscallHandler
  | h, [] => some h
  | h, op :: ops => (op.apply h).bind (fun h => h.run ops)

open VMATracking

variable {h : SyscallHandler}

theorem aligned_mmapResource (ht : h.vmaTracking.Aligned) (flags : Nat) (file : Option MRID) :
    (h.mmapResource flags file).1.vmaTracking.Aligned := by
  unfold mmapResource
  split
  · cases file with
    | none => exact ht
    | some r => exact ht
  · split
    · exact ht
    · exact ht

theorem aligned_apply {h' : SyscallHandler} (ht : h.vmaTracking.Aligned) {op : TrackOp} (haddr : op.AddressesAligned)
    (hpages : op.WholePages) (hop : op.apply h = some h') : h'.vmaTracking.Aligned := by
  cases op with
  | mmap base size prot flags file offset =>
    obtain rfl := Option.some.inj hop
    exact aligned_setUnsafe (aligned_mmapResource ht flags file) haddr (dvd_alignUp size) _ _ _ _
  | munmap base size =>
    obtain rfl := Option.some.inj hop
    exact aligned_clearUnsafe ht haddr (dvd_alignUp size) none
  | mprotect base size prot =>
    obtain rfl := Option.some.inj hop
    exact aligned_changeUnsafe ht haddr (dvd_alignUp size) _
  | mremap oldAddress oldSize newSize flags newAddress =>
    change h.trackMremap oldAddress oldSize newSize flags newAddress = some h' at hop
    unfold trackMremap at hop
    split at hop
    · obtain rfl := Option.some.inj hop
      refine aligned_setUnsafe ?_ haddr.2 (dvd_alignUp newSize) _ _ _ _
      split
      · exact ht
      · exact aligned_clearUnsafe ht haddr.1 (dvd_alignUp oldSize) _
    · cases hop
  | shmat shmid shmSegsz base shmflg =>
    obtain rfl := Option.some.inj hop
    have hreg : (h.vmaTracking.emplaceResource ⟨shmDev, shmid⟩ ⟨none, shmSegsz⟩).Aligned := ht
    exact aligned_setUnsafe hreg haddr hpages _ _ _ _
  | shmdt base =>
    obtain rfl := Option.some.inj hop
    exact aligned_clearShmUnsafe ht base

theorem aligned_run {h' : SyscallHandler} (ops : List TrackOp) (ht : h.vmaTracking.Aligned)
    (haddr : ∀ op ∈ ops, op.AddressesAligned) (hpages : ∀ op ∈ ops, op.WholePages) (hrun : h.run ops = some h') :
    h'.vmaTracking.Aligned := by
  induction ops generalizing h with
  | nil =>
    obtain rfl := Option.some.inj hrun
    exact ht
  | cons op ops ih =>
    obtain ⟨h1, hop, hrest⟩ := Option.bind_eq_some_iff.mp hrun
    refine ih ?_ ?_ ?_ hrest
    · exact aligned_apply ht (haddr op List.mem_cons_self) (hpages op List.mem_cons_self) hop
    · exact fun o ho => haddr o (List.mem_cons_of_mem _ ho)
    · exact fun o ho => hpages o (List.mem_cons_of_mem _ ho)

/-- Every mapping is of whole pages, and a lookup depends on the page only. -/
def PageExact (t : VMATracking) : Prop :=
  (∀ k e, t.vmas.find? k = some e → 4096 ∣ e.base ∧ 4096 ∣ e.length) ∧
  ∀ a, (t.lookupVMAUnsafe a).isSome ↔ (t.lookupVMAUnsafe (alignDown a)).isSome

/-- Tracking is page exact in every history that attaches segments of whole pages only. -/
theorem tracking_pageExact (smcChecks : SMCChecks) (ops : List TrackOp) (haddr : ∀ op ∈ ops, op.AddressesAligned)
    (hpages : ∀ op ∈ ops, op.WholePages) {h : SyscallHandler} (hrun : (start smcChecks).run ops = some h) :
    PageExact h.vmaTracking := by
  have hstart : (start smcChecks).vmaTracking.Aligned := by
    intro k e hk
    simp [start, data, empty] at hk
  have ht := aligned_run ops hstart haddr hpages hrun
  refine ⟨?_, ?_⟩
  · intro k e hk
    obtain ⟨hbase, hk4, hlen⟩ := ht.entry hk
    exact ⟨hbase ▸ hk4, hlen⟩
  · intro a
    rw [lookupVMAUnsafe_alignDown ht]

/-- A segment of one page and a half: the rest of its second page is not found. -/
theorem tracking_shmat_not_pageExact :
    ∃ h, (start .mtrack).run [.shmat 1 0x1800 0x10000 0] = some h ∧ ¬ PageExact h.vmaTracking := by
  refine ⟨_, rfl, ?_⟩
  intro hexact
  have hlookup := hexact.2 0x11900
  have hfirst : (((start .mtrack).trackShmat 1 0x1800 0x10000 0).vmaTracking.lookupVMAUnsafe 0x11900).isSome = false := by
    decide
  have hpage : (((start .mtrack).trackShmat 1 0x1800 0x10000 0).vmaTracking.lookupVMAUnsafe
      (alignDown 0x11900)).isSome = true := by
    decide
  exact absurd (hlookup.mpr hpage) (by rw [hfirst]; exact Bool.false_ne_true)

/-- An odd sized anonymous mapping, partly unmapped. -/
theorem tracking_pageExact_munmap :
    ∃ h, (start .mtrack).run [.mmap 0x10000 0x2345 3 0x22 none 0, .munmap 0x11000 1] = some h ∧
      PageExact h.vmaTracking := by
  refine ⟨_, rfl, ?_⟩
  refine tracking_pageExact .mtrack [.mmap 0x10000 0x2345 3 0x22 none 0, .munmap 0x11000 1] ?_ ?_ rfl
  · intro op hop
    simp only [List.mem_cons, List.not_mem_nil, or_false] at hop
    rcases hop with rfl | rfl <;> simp [TrackOp.AddressesAligned]
  · intro op hop
    simp only [List.mem_cons, List.not_mem_nil, or_false] at hop
    rcases hop with rfl | rfl <;> trivial

end SyscallHandler

end FexEmu.LinuxSyscalls
