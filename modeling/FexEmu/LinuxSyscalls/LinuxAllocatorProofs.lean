import FexEmu.Data.Triple
import FexEmu.LinuxSyscalls.LinuxAllocator
/-!
# The bitmap of the 32-bit allocator

Each operation sets and clears the bits of its pages but for `shmdt`, `shmat` at an address, and a `mremap` away from a
reserved page.
-/
namespace FexEmu.LinuxSyscalls.MemAllocator32Bit

open Hoare
open Function (update)

/-! ## Exact bitmaps -/

/-- The bits are the reserved pages and the pages mapped through the allocator. -/
def ExactBits (bits : Nat → Bool) (host : Host) : Prop :=
  ∀ p, p < bitmapSize → bits p = (reserved p || (host.pages p).isSome)

/-- The bitmap says what the host has mapped. -/
def Exact (s : AllocState) : Prop := ExactBits s.alloc.mappedPages s.host

/-- The state has this bitmap and this host. -/
def At (bits : Nat → Bool) (host : Host) (s : AllocState) : Prop := s.alloc.mappedPages = bits ∧ s.host = host

def fill (bits : Nat → Bool) (value : Bool) (page n : Nat) : Nat → Bool :=
  fun p => if page ≤ p ∧ p < page + n then value else bits p

theorem fill_zero (bits : Nat → Bool) (value : Bool) (page : Nat) : fill bits value page 0 = bits := by
  funext p
  unfold fill
  rw [if_neg (by omega)]

theorem fill_succ (bits : Nat → Bool) (value : Bool) (page n : Nat) :
    fill (update bits page value) value (page + 1) n = fill bits value page (n + 1) := by
  funext p
  unfold fill
  by_cases hp : p = page
  · rw [if_neg (by omega), hp, Function.update_self, if_pos (by omega)]
  · rw [Function.update_of_ne hp]
    by_cases hin : page + 1 ≤ p ∧ p < page + 1 + n
    · rw [if_pos hin, if_pos (by omega)]
    · rw [if_neg hin, if_neg (by omega)]

variable {bits : Nat → Bool} {host : Host} {segsz : Int → Option Nat} {α : Type}

theorem exactBits_map (h : ExactBits bits host) (page n : Nat) (kind : Nat → PageKind) :
    ExactBits (fill bits true page n) (host.map page n kind) := by
  intro p hp
  unfold fill Host.map
  dsimp only
  by_cases hin : page ≤ p ∧ p < page + n
  · rw [if_pos hin, if_pos hin, Option.isSome_some, Bool.or_true]
  · rw [if_neg hin, if_neg hin]
    exact h p hp

variable {page n a oldCount newCount oldAddress oldSize newSize flags shmaddr : Nat} {m : M α}
    {R : α → AllocState → Prop} {s : AllocState} {f : Unit → M α} {shmid : Int}

theorem exactBits_unmap (h : ExactBits bits host) (hres : ∀ p, page ≤ p → p < page + n → reserved p = false) :
    ExactBits (fill bits false page n) (host.unmap page n) := by
  intro p hp
  unfold fill Host.unmap
  dsimp only
  by_cases hin : page ≤ p ∧ p < page + n
  · rw [if_pos hin, if_pos hin, hres p hin.1 hin.2]
    rfl
  · rw [if_neg hin, if_neg hin]
    exact h p hp

theorem exactBits_of_high {host' : Host} (h : ExactBits bits host)
    (heq : ∀ p, p < topKey → host'.pages p = host.pages p) : ExactBits bits host' := by
  intro p hp
  rw [h p hp]
  by_cases htop : p < topKey
  · rw [heq p htop]
  · have hres : reserved p = true := by
      unfold reserved
      have hpt : p = topKey := by
        unfold bitmapSize topKey at *
        omega
      simp [hpt]
    rw [hres, Bool.true_or, Bool.true_or]

/-! ## The parts of the operations -/

theorem triple_exact (h : ∀ bits host, ExactBits bits host → Triple (At bits host) m R) : Triple Exact m R :=
  fun s a s' hs hm => h _ _ hs s a s' ⟨rfl, rfl⟩ hm

theorem at_exact (h : ExactBits bits host) (hs : At bits host s) : Exact s := by
  unfold Exact
  rw [hs.1, hs.2]
  exact h

theorem triple_pure (h : ExactBits bits host) (a : α) :
    Triple (At bits host) (pure a : M α) (fun _ => Exact) :=
  Triple.pure a (fun _ hs => at_exact h hs)

theorem triple_call {c : KernelCall} {f : Answer → M α}
    (h : ∀ a, Consistent segsz c a → Triple (At bits (host.apply segsz c a)) (f a) R) :
    Triple (At bits host) (call segsz c >>= f) R := by
  refine Triple.bind (Q := fun a s => Consistent segsz c a ∧ At bits (host.apply segsz c a) s) ?_ ?_
  · intro s a s' hs hm
    cases has : s.answers with
    | nil =>
      rw [call, bind_run _ rfl, has] at hm
      cases hm
    | cons b rest =>
      rw [call, bind_run _ rfl, has] at hm
      dsimp only at hm
      by_cases hc : Consistent segsz c b
      · rw [if_pos hc] at hm
        cases hm
        exact ⟨hc, hs.1, by rw [← hs.2]⟩
      · rw [if_neg hc] at hm
        cases hm
  · intro a s b s' hs hm
    exact h a hs.1 s b s' hs.2 hm

theorem triple_modifyAlloc {g : MemAllocator32Bit → MemAllocator32Bit}
    (hg : ∀ alloc, (g alloc).mappedPages = alloc.mappedPages) (h : Triple (At bits host) (f ()) R) :
    Triple (At bits host) (modifyAlloc g >>= f) R := by
  refine Triple.bind (Q := fun _ => At bits host) ?_ (fun _ => h)
  apply Triple.modify
  intro s hs
  exact ⟨(hg s.alloc).trans hs.1, hs.2⟩

theorem triple_setPage {value : Bool}
    (h : page < bitmapSize → Triple (At (update bits page value) host) (f ()) R) :
    Triple (At bits host) (setPage value page >>= f) R := by
  refine Triple.bind (Q := fun _ s => page < bitmapSize ∧ At (update bits page value) host s) ?_ ?_
  · refine Triple.ite (fun hp => Triple.modify ?_) (fun _ => Triple.throw _)
    intro s hs
    exact ⟨hp, by rw [← hs.1], hs.2⟩
  · intro _ s a s' hs hm
    exact h hs.1 s a s' hs.2 hm

theorem triple_setPages {value : Bool}
    (h : (0 < n → page + n ≤ bitmapSize) → Triple (At (fill bits value page n) host) (f ()) R) :
    Triple (At bits host) (setPages value page n >>= f) R := by
  refine Triple.bind (Q := fun _ s => (0 < n → page + n ≤ bitmapSize) ∧ At (fill bits value page n) host s) ?_ ?_
  · clear h
    induction n generalizing page bits with
    | zero =>
      refine Triple.pure _ ?_
      intro s hs
      rw [fill_zero]
      exact ⟨fun hn => absurd hn (Nat.lt_irrefl 0), hs⟩
    | succ n ih =>
      refine triple_setPage fun hp => ?_
      intro s a s' hs hm
      obtain ⟨hend, hat⟩ := ih s a s' hs hm
      rw [fill_succ] at hat
      refine ⟨fun _ => ?_, hat⟩
      by_cases hn : 0 < n
      · omega
      · omega
  · intro _ s a s' hs hm
    exact h hs.1 s a s' hs.2 hm

theorem apply_error (host : Host) (c : KernelCall) (e : Nat) : host.apply segsz c (.error e) = host := by
  cases c <;> rfl

theorem triple_of_exact (h : ExactBits bits host) (hm : Triple Exact m (fun _ => Exact)) :
    Triple (At bits host) m (fun _ => Exact) :=
  hm.consequence (fun _ hs => at_exact h hs) (fun _ _ hs => hs)

theorem triple_errnoResult (h : ExactBits bits host) : Triple (At bits host) errnoResult (fun _ => Exact) := by
  refine Triple.bind_reads (Reads.get (f := pure) Reads.pure) (fun s => triple_pure h _)

theorem reads_testPage (page : Nat) : Reads (testPage page) := by
  refine Reads.get (fun s => ?_)
  by_cases hp : page < bitmapSize
  · rw [if_pos hp]
    exact Reads.pure _
  · rw [if_neg hp]
    exact Reads.throw _

theorem triple_testPage {f : Bool → M α} (h : page < bitmapSize → Triple (At bits host) (f (bits page)) R) :
    Triple (At bits host) (testPage page >>= f) R := by
  refine Triple.bind (Q := fun b s => page < bitmapSize ∧ b = bits page ∧ At bits host s) ?_ ?_
  · refine Triple.get (fun s hs => Triple.ite (fun hp => Triple.pure _ ?_) (fun _ => Triple.throw _))
    rintro s' rfl
    exact ⟨hp, by rw [hs.1], hs⟩
  · intro b s a s' hs hm
    obtain ⟨hp, rfl, hat⟩ := hs
    exact h hp s a s' hat hm

theorem reads_scanDown (start n offset : Nat) : Reads (scanDown start offset n) := by
  induction n generalizing offset with
  | zero => exact Reads.pure _
  | succ n ih =>
    refine Reads.bind (reads_testPage _) (fun used => ?_)
    cases used with
    | true => exact Reads.pure _
    | false => exact ih _

theorem reads_findPageRange (pages fuel start : Nat) : Reads (findPageRange pages fuel start) := by
  induction fuel generalizing start with
  | zero => exact Reads.pure _
  | succ fuel ih =>
    unfold findPageRange
    by_cases hs : baseKey ≤ start ∧ start ≤ topKey
    · rw [if_pos hs]
      refine Reads.bind (reads_scanDown _ _ _) (fun offset => ?_)
      cases offset with
      | none => exact Reads.pure _
      | some offset => exact ih _
    · rw [if_neg hs]
      exact Reads.pure _

theorem reads_findLowerPage (pages bottomPage lastKey : Nat) : Reads (findLowerPage pages bottomPage lastKey) := by
  refine Reads.bind (reads_findPageRange _ _ _) (fun lowerPage => ?_)
  by_cases hl : lowerPage = 0
  · rw [if_pos hl]
    exact Reads.bind (reads_findPageRange _ _ _) (fun _ => Reads.pure _)
  · rw [if_neg hl]
    exact Reads.pure _

theorem reads_canExtend (n page : Nat) : Reads (canExtend page n) := by
  induction n generalizing page with
  | zero => exact Reads.pure _
  | succ n ih =>
    refine Reads.bind (reads_testPage _) (fun used => ?_)
    cases used with
    | true => exact Reads.pure _
    | false => exact ih _

/-! ## Sizes and flags -/

theorem pagesLengthOf_eq {size : Nat} (h : size ≤ taskSize) : pagesLengthOf size = pageCount size := by
  unfold pagesLengthOf pageCount alignUp add64 pageSize
  unfold taskSize at h
  omega

theorem pageAddress_of_lt (h : page < 2 ^ 52) : pageAddress page = page * 4096 := by
  unfold pageAddress
  omega

theorem isMayMove_withoutMayMove (flags : Nat) : isMayMove (withoutMayMove flags) = false := by
  unfold isMayMove withoutMayMove
  simp

theorem isDontUnmap_withoutMayMove (flags : Nat) :
    SyscallHandler.isDontUnmap (withoutMayMove flags) = SyscallHandler.isDontUnmap flags := by
  have hbit : Nat.testBit 0xFFFFFFFE 2 = true := by decide
  unfold SyscallHandler.isDontUnmap withoutMayMove
  rw [Nat.testBit_and, hbit, Bool.and_true]

theorem isDontUnmap_or (flags : Nat) : SyscallHandler.isDontUnmap (flags ||| 3) = SyscallHandler.isDontUnmap flags := by
  have h3 : Nat.testBit 3 2 = false := by decide
  unfold SyscallHandler.isDontUnmap
  rw [Nat.testBit_or, h3, Bool.or_false]

theorem isRemapFixed_or (flags : Nat) : isRemapFixed (flags ||| 3) = true := by
  have h3 : Nat.testBit 3 1 = true := by decide
  unfold isRemapFixed
  rw [Nat.testBit_or, h3, Bool.or_true]

theorem isFixed_and (flags : Nat) : isFixed (flags &&& 0xFFFFFFBF) = isFixed flags := by
  have hbit : Nat.testBit 0xFFFFFFBF 4 = true := by decide
  unfold isFixed
  rw [Nat.testBit_and, hbit, Bool.and_true]

theorem isFixedNoReplace_and (flags : Nat) : isFixedNoReplace (flags &&& 0xFFFFFFBF) = isFixedNoReplace flags := by
  have hbit : Nat.testBit 0xFFFFFFBF 20 = true := by decide
  unfold isFixedNoReplace
  rw [Nat.testBit_and, hbit, Bool.and_true]

/-! ## mmap -/

theorem mapped_high (h : pageAddress topKey ≤ a) (b : Answer) {kind : Nat → PageKind} {m p : Nat} (hp : p < topKey) :
    ((host.map (a / 4096) n kind).apply segsz (.munmap a m) b).pages p = host.pages p := by
  have hpage : topKey ≤ a / 4096 := by
    have htop : pageAddress topKey = topKey * 4096 := by decide
    omega
  have hmap : (host.map (a / 4096) n kind).pages p = host.pages p := if_neg (by omega)
  cases b with
  | error e => exact hmap
  | ok b => exact (if_neg (by omega)).trans hmap

theorem triple_allocateNoHint (length prot flags : Nat) (fd offset : Int) (map32Bit : Bool) (fuel : Nat) :
    ∀ (bottomPage : Nat) (wrapped : Bool),
      Triple Exact (allocateNoHint segsz length prot flags fd offset map32Bit fuel bottomPage wrapped) (fun _ => Exact) := by
  induction fuel with
  | zero => exact fun _ _ => Triple.throw _
  | succ fuel ih =>
    intro bottomPage wrapped
    refine Triple.bind_reads (reads_findLowerPage _ _ _) ?_
    rintro ⟨bottomPage, lowerPage⟩
    refine Triple.ite (fun _ => triple_exact fun bits host h => triple_pure h _) (fun _ => ?_)
    extract_lets restart
    -- the search wraps round, goes on one page below, or has come round and fails
    have hrestart : Triple Exact restart (fun _ => Exact) := by
      refine Triple.get (fun s hs => ?_)
      have hP : ∀ s', s' = s → Exact s' := fun s' h => h ▸ hs
      refine Triple.consequence (P := Exact) ?_ hP (fun _ _ h => h)
      refine Triple.ite (fun _ => ih _ _) (fun _ => Triple.ite (fun _ => ?_) (fun _ => ih _ _))
      exact triple_exact fun bits host h => triple_errnoResult h
    refine triple_exact fun bits host h => triple_call fun a hc => ?_
    cases a with
    | error e =>
      exact Triple.ite (fun _ => triple_of_exact h hrestart) (fun _ => triple_errnoResult h)
    | ok a =>
      refine Triple.ite (fun htop => ?_) (fun htop => ?_)
      · refine triple_call fun b _ => triple_of_exact ?_ hrestart
        exact exactBits_of_high h (fun p hp => mapped_high htop b hp)
      · obtain ⟨hlen, halign, hend, haddr⟩ := hc
        refine triple_modifyAlloc (fun _ => rfl) (triple_setPages fun hbits => ?_)
        refine triple_pure ?_ _
        rw [pagesLengthOf_eq (by omega)] at hbits ⊢
        have hpos : 0 < pageCount length := by
          unfold pageCount
          omega
        have hpage : a / 4096 = lowerPage := by
          have hlow := hbits hpos
          have htop' : pageAddress topKey < 2 ^ 32 := by decide
          have haddr' : a = pageAddress lowerPage := by
            rcases haddr with haddr | ⟨-, hhigh⟩
            · exact haddr
            · omega
          unfold bitmapSize at hlow
          rw [pageAddress_of_lt (by omega)] at haddr'
          omega
        change ExactBits _ (host.map (a / 4096) (pageCount length) _)
        rw [hpage]
        exact exactBits_map h _ _ _

theorem triple_mmap (addr length prot flags : Nat) (fd offset : Int) :
    Triple Exact (mmap segsz addr length prot flags fd offset) (fun _ => Exact) := by
  have hret : ∀ r : Int, Triple Exact (pure r : M Int) (fun _ => Exact) :=
    fun r => Triple.pure r (fun _ h => h)
  refine Triple.ite (fun _ => hret _) (fun halign => ?_)
  refine Triple.ite (fun _ => hret _) (fun _ => ?_)
  refine Triple.ite (fun _ => hret _) (fun hover => ?_)
  refine Triple.ite (fun _ => hret _) (fun _ => ?_)
  refine Triple.ite (fun _ => ?_) (fun hfixed => ?_)
  · refine Triple.get (fun s hs => ?_)
    exact Triple.consequence (triple_allocateNoHint _ _ _ _ _ _ _ _ _) (fun s' h => h ▸ hs) (fun _ _ h => h)
  · refine triple_exact fun bits host h => triple_call fun a hc => ?_
    cases a with
    | error e =>
      refine Triple.ite (fun _ => triple_call fun b hb => triple_pure ?_ _) (fun _ => triple_errnoResult h)
      cases b with
      | error e => exact h
      | ok b => exact absurd hb.1 (by decide)
    | ok a =>
      obtain ⟨hlen, ha, hend, haddr⟩ := hc
      refine Triple.ite (fun htop => triple_call fun b _ => triple_pure ?_ _) (fun htop => ?_)
      · exact exactBits_of_high h (fun p hp => mapped_high htop.1 b hp)
      · refine triple_setPages fun hbits => triple_pure ?_ _
        have haddr' : a = pageAddress (addr / 4096) := by
          rcases haddr with haddr | ⟨hnot, hhigh⟩
          · exact haddr
          · rw [isFixed_and] at hnot
            rw [isFixedNoReplace_and] at htop
            rw [hnot, Bool.false_or] at hfixed
            have htop' : pageAddress topKey ≤ 2 ^ 32 := by decide
            cases hno : isFixedNoReplace flags with
            | true => exact absurd ⟨by omega, hno⟩ htop
            | false => exact absurd (Or.inl hno) hfixed
        have hcount : pageCount (pagesLengthOf length * 4096) = pagesLengthOf length := by
          unfold pageCount
          omega
        have hpage : a / 4096 = addr / 4096 := by
          have hlow := hbits (by omega)
          unfold bitmapSize at hlow
          rw [haddr', pageAddress_of_lt (by omega)]
          omega
        change ExactBits _ (host.map (a / 4096) (pageCount (pagesLengthOf length * 4096)) _)
        rw [hpage, hcount]
        exact exactBits_map h _ _ _

/-! ## munmap -/

theorem fill_one (bits : Nat → Bool) (value : Bool) (page : Nat) :
    fill bits value page 1 = update bits page value := by
  rw [← fill_succ, fill_zero]

theorem triple_munmapPages (n : Nat) :
    ∀ page, 16 ≤ page → page + n ≤ topKey → Triple Exact (munmapPages segsz page n) (fun _ => Exact) := by
  induction n with
  | zero => exact fun _ _ _ => Triple.pure _ (fun _ h => h)
  | succ n ih =>
    intro page hlow htop
    refine triple_exact fun bits host h => triple_call fun a hc => ?_
    cases a with
    | error e =>
      exact triple_errnoResult h
    | ok a =>
      have hunmap : host.apply segsz (.munmap (pageAddress page) 4096) (.ok a) = host.unmap page 1 := by
        unfold topKey at htop
        rw [pageAddress_of_lt (by omega)]
        change host.unmap (page * 4096 / 4096) (pageCount 4096) = _
        rw [Nat.mul_div_cancel _ (by decide)]
        rfl
      have hexact : ExactBits (update bits page false) (host.unmap page 1) := by
        rw [← fill_one]
        refine exactBits_unmap h (fun p h1 h2 => ?_)
        have hp : p = page := by omega
        unfold reserved
        simp only [hp, Bool.or_eq_false_iff, decide_eq_false_iff_not]
        omega
      have hcont : Triple (At (update bits page false) (host.unmap page 1))
          (munmapPages segsz (page + 1) n) (fun _ => Exact) :=
        triple_of_exact hexact (ih (page + 1) (by omega) (by omega))
      rw [hunmap]
      refine triple_testPage fun _ => ?_
      cases hbit : bits page with
      | true => exact triple_setPage fun _ => hcont
      | false =>
        have hsame : update bits page false = bits := by
          rw [← hbit]
          exact Function.update_eq_self page bits
        rw [hsame] at hcont
        exact hcont

theorem triple_munmap {addr length : Nat} (hwrap : addr + length < 2 ^ 64) :
    Triple Exact (munmap segsz addr length) (fun _ => Exact) := by
  have hret : ∀ r : Int, Triple Exact (pure r : M Int) (fun _ => Exact) :=
    fun r => Triple.pure r (fun _ h => h)
  refine Triple.ite (fun _ => hret _) (fun h1 => ?_)
  refine Triple.ite (fun _ => hret _) (fun h2 => ?_)
  refine Triple.ite (fun _ => hret _) (fun h3 => ?_)
  refine Triple.ite (fun _ => hret _) (fun h4 => ?_)
  unfold add64 at h3
  refine triple_munmapPages _ _ (by omega) ?_
  rw [pagesLengthOf_eq (by unfold taskSize; omega)]
  unfold pageCount topKey
  omega

/-! ## mremap -/

/-- No page of the run is reserved. -/
def NoneReserved (page n : Nat) : Prop := ∀ p, page ≤ p → p < page + n → reserved p = false

theorem exactBits_moved (h : ExactBits bits host) {oldPage newPage : Nat} {dontUnmap : Bool}
    (hmove : ¬ (newPage = oldPage ∧ newCount < oldCount)) (hres : dontUnmap = true ∨ NoneReserved oldPage oldCount) :
    ExactBits (fill (if dontUnmap then bits else fill bits false oldPage oldCount) true newPage newCount)
      (host.remap oldPage oldCount newPage newCount dontUnmap) := by
  unfold Host.remap
  rw [if_neg hmove]
  apply exactBits_map
  cases dontUnmap with
  | true => exact h
  | false => exact exactBits_unmap h (hres.resolve_left (by decide))

theorem exactBits_grown (h : ExactBits bits host) (hle : oldCount ≤ newCount) :
    ExactBits (fill bits true page newCount) (host.remap page oldCount page newCount false) := by
  unfold Host.remap
  rw [if_neg (by omega)]
  intro p hp
  unfold fill Host.map Host.unmap
  dsimp only
  by_cases hin : page ≤ p ∧ p < page + newCount
  · rw [if_pos hin, if_pos hin, Option.isSome_some, Bool.or_true]
  · rw [if_neg hin, if_neg hin, if_neg (by decide)]
    dsimp only
    rw [if_neg (by omega)]
    exact h p hp

theorem exactBits_shrunk (h : ExactBits bits host) (hlt : newCount < oldCount) (hres : NoneReserved page oldCount) :
    ExactBits (fill bits false (page + newCount) (oldCount - newCount))
      (host.remap page oldCount page newCount false) := by
  unfold Host.remap
  rw [if_pos ⟨rfl, hlt⟩]
  exact exactBits_unmap h (fun p h1 h2 => hres p (by omega) (by omega))

theorem moved_of_fixed {newAddress : Nat} (hfixed : isRemapFixed flags = true)
    (hc : Consistent segsz (.mremap oldAddress oldSize newSize flags newAddress) (.ok a)) :
    pagesLengthOf oldSize = pageCount oldSize ∧ pagesLengthOf newSize = pageCount newSize ∧
      ¬ (a / 4096 = oldAddress / 4096 ∧ pageCount newSize < pageCount oldSize) ∧
      (a = oldAddress → pageCount oldSize = 0) := by
  obtain ⟨hold, ha, hpos, hend, hend', hf, -⟩ := hc
  obtain ⟨-, -, happart⟩ := hf hfixed
  refine ⟨pagesLengthOf_eq (by omega), pagesLengthOf_eq (by omega), ?_, ?_⟩ <;>
    unfold pageCount <;> omega

theorem triple_moveMapping
    (hres : SyscallHandler.isDontUnmap flags = true ∨ NoneReserved (oldAddress / 4096) (pagesLengthOf oldSize)) :
    Triple Exact (moveMapping segsz oldAddress oldSize newSize flags) (fun _ => Exact) := by
  refine Triple.bind (triple_mmap _ _ _ _ _ _) (fun mapped => ?_)
  refine Triple.ite (fun _ => Triple.pure _ (fun _ h => h)) (fun _ => ?_)
  refine triple_exact fun bits host h => triple_call fun a hc => ?_
  cases a with
  | error e =>
    exact triple_errnoResult h
  | ok a =>
    obtain ⟨hold, hnew, hmove, hsame⟩ := moved_of_fixed (isRemapFixed_or flags) hc
    rw [hold] at hres
    have hexact := exactBits_moved h hmove hres
    have happly : host.apply segsz (.mremap oldAddress oldSize newSize (flags ||| 3) mapped.toNat) (.ok a) =
        host.remap (oldAddress / 4096) (pageCount oldSize) (a / 4096) (pageCount newSize)
          (SyscallHandler.isDontUnmap flags) := by
      rw [← isDontUnmap_or flags]
      rfl
    rw [happly, hold, hnew]
    refine Triple.ite (fun hfree => ?_) (fun hfree => ?_)
    · rw [hfree.1] at hexact ⊢
      exact triple_setPages fun _ => triple_setPages fun _ => triple_pure hexact _
    · refine triple_setPages fun _ => triple_pure ?_ _
      cases hdont : SyscallHandler.isDontUnmap flags with
      | true =>
        rw [hdont] at hexact
        exact hexact
      | false =>
        rw [hdont] at hexact
        have hzero : pageCount oldSize = 0 := hsame (by simpa [hdont] using hfree)
        rw [hzero] at hexact ⊢
        rw [if_neg (by decide), fill_zero] at hexact
        exact hexact

/-- The mapping is not taken away from a reserved page. -/
def KeepsReserved (oldAddress oldSize newSize flags : Nat) : Prop :=
  SyscallHandler.isDontUnmap flags = true ∨ NoneReserved (oldAddress / 4096) (pagesLengthOf oldSize) ∨
    isRemapFixed flags = false ∧ isMayMove flags = false ∧ pagesLengthOf newSize = pagesLengthOf oldSize

theorem inPlace_of_consistent
    (hc : Consistent segsz (.mremap oldAddress oldSize newSize (withoutMayMove flags) 0) (.ok a)) :
    a = oldAddress ∧ SyscallHandler.isDontUnmap flags = false ∧ pagesLengthOf oldSize = pageCount oldSize ∧
      pagesLengthOf newSize = pageCount newSize ∧
      ∀ host : Host, host.apply segsz (.mremap oldAddress oldSize newSize (withoutMayMove flags) 0) (.ok a) =
        host.remap (oldAddress / 4096) (pageCount oldSize) (oldAddress / 4096) (pageCount newSize) false := by
  obtain ⟨-, -, -, hend, hend', -, hstay⟩ := hc
  obtain ⟨rfl, hdont⟩ := hstay (isMayMove_withoutMayMove flags)
  refine ⟨rfl, ?_, pagesLengthOf_eq (by omega), pagesLengthOf_eq (by omega), fun host => ?_⟩
  · rw [← isDontUnmap_withoutMayMove]
    exact hdont
  · rw [← hdont]
    rfl

theorem triple_mremap (newAddress : Nat) (hkeep : KeepsReserved oldAddress oldSize newSize flags) :
    Triple Exact (mremap segsz oldAddress oldSize newSize flags newAddress) (fun _ => Exact) := by
  refine Triple.ite (fun hfixed => ?_) (fun hfixed => Triple.ite (fun hlt => ?_) (fun hge => ?_))
  · have hres : SyscallHandler.isDontUnmap flags = true ∨ NoneReserved (oldAddress / 4096) (pagesLengthOf oldSize) := by
      rcases hkeep with hkeep | hkeep | ⟨hnot, -⟩
      · exact .inl hkeep
      · exact .inr hkeep
      · rw [hfixed] at hnot
        cases hnot
    refine triple_exact fun bits host h => triple_call fun a hc => ?_
    cases a with
    | error e =>
      exact triple_errnoResult h
    | ok a =>
      obtain ⟨hold, hnew, hmove, -⟩ := moved_of_fixed hfixed hc
      have hexact := exactBits_moved h hmove (hold ▸ hres)
      change Triple (At bits (host.remap (oldAddress / 4096) (pageCount oldSize) (a / 4096) (pageCount newSize)
        (SyscallHandler.isDontUnmap flags))) _ _
      rw [hold, hnew]
      refine Triple.ite (fun hdont => ?_) (fun hdont => ?_)
      · rw [hdont] at hexact ⊢
        exact triple_setPages fun _ => triple_setPages fun _ => triple_of_exact hexact (triple_moveMapping hres)
      · rw [Bool.not_eq_false] at hdont
        rw [hdont] at hexact ⊢
        exact triple_setPages fun _ => triple_of_exact hexact (triple_moveMapping hres)
  · refine triple_exact fun bits host h => triple_call fun a hc => ?_
    cases a with
    | error e =>
      exact triple_errnoResult h
    | ok a =>
      obtain ⟨rfl, hdont, hold, hnew, happly⟩ := inPlace_of_consistent hc
      have hres : NoneReserved (a / 4096) (pageCount oldSize) := by
        rcases hkeep with hkeep | hkeep | ⟨-, -, heq⟩
        · rw [hdont] at hkeep
          cases hkeep
        · exact hold ▸ hkeep
        · omega
      rw [happly, hold, hnew]
      rw [hold, hnew] at hlt
      exact triple_setPages fun _ => triple_pure (exactBits_shrunk h hlt hres) _
  · -- the mapping is extended in place, or else it moves
    have hextend : ∀ (m : M Int) (f : Answer → M Int), (isMayMove flags = true → Triple Exact m (fun _ => Exact)) →
        (∀ e, f (.error e) = if isMayMove flags then m else errnoResult) →
        (∀ a : Nat, f (.ok a) = setUsedPages (a / 4096) (pagesLengthOf newSize) >>= fun _ => pure (a : Int)) →
        Triple Exact (call segsz (.mremap oldAddress oldSize newSize (withoutMayMove flags) 0) >>= f)
          (fun _ => Exact) := by
      intro m f hm herror hok
      refine triple_exact fun bits host h => triple_call fun a hc => ?_
      cases a with
      | error e =>
        rw [herror]
        exact Triple.ite (fun hmay => triple_of_exact h (hm hmay)) (fun _ => triple_errnoResult h)
      | ok a =>
        obtain ⟨rfl, -, hold, hnew, happly⟩ := inPlace_of_consistent hc
        rw [happly, hok, hnew]
        exact triple_setPages fun _ => triple_pure (exactBits_grown h (by omega)) _
    have hmoves : isMayMove flags = true ∨ pagesLengthOf newSize ≠ pagesLengthOf oldSize →
        Triple Exact (moveMapping segsz oldAddress oldSize newSize flags) (fun _ => Exact) := by
      intro hcase
      apply triple_moveMapping
      rcases hkeep with hkeep | hkeep | ⟨-, hmay, heq⟩
      · exact .inl hkeep
      · exact .inr hkeep
      · rcases hcase with hcase | hcase
        · rw [hmay] at hcase
          cases hcase
        · exact absurd heq hcase
    by_cases heq : pagesLengthOf newSize = pagesLengthOf oldSize
    · have hzero : pagesLengthOf newSize - pagesLengthOf oldSize = 0 := by omega
      rw [hzero, canExtend, pure_bind, if_pos rfl]
      refine hextend _ _ (fun hmay => hmoves (.inl hmay)) (fun _ => ?_) (fun _ => ?_) <;> rfl
    · refine Triple.bind_reads (reads_canExtend _ _) (fun extend => ?_)
      exact Triple.ite (fun _ => hextend _ _ (fun hmay => hmoves (.inl hmay)) (fun _ => rfl) fun _ => rfl)
        (fun _ => hmoves (.inr heq))

/-! ## Shared memory -/

theorem triple_shmatFixed (shmflg : Nat) (hsize : ∀ n, segsz shmid = some n → n % 4096 = 0) :
    Triple Exact (shmatFixed segsz shmid shmaddr shmflg) (fun _ => Exact) := by
  refine triple_exact fun bits host h => triple_call fun a hc => ?_
  cases a with
  | error e =>
    refine Triple.bind (triple_errnoResult h) (fun r => Triple.pure _ (fun _ hs => hs))
  | ok a =>
    obtain ⟨hsome, ha, hend, -⟩ := hc
    obtain ⟨n, hn⟩ := Option.isSome_iff_exists.mp hsome
    have happly : host.apply segsz (.shmat shmid shmaddr shmflg) (.ok a) =
        host.map (a / 4096) (n / 4096) (fun _ => .segment (a / 4096 : Nat)) := by
      have hcount : pageCount n = n / 4096 := by
        have hmod := hsize n hn
        unfold pageCount
        omega
      change host.map (a / 4096) (pageCount ((segsz shmid).getD 0)) _ = _
      rw [hn, Option.getD_some, hcount]
    rw [happly]
    refine Triple.ite (fun hhigh => triple_pure ?_ _) (fun _ => ?_)
    · refine exactBits_of_high h (fun p hp => if_neg ?_)
      unfold topKey at hp
      omega
    · refine triple_modifyAlloc (fun _ => rfl) (triple_call fun b hb => ?_)
      cases b with
      | error e =>
        change segsz shmid = none at hb
        rw [hn] at hb
        cases hb
      | ok m =>
        obtain rfl : n = m := Option.some.inj (hn.symm.trans hb)
        exact triple_setPages fun _ => triple_pure (exactBits_map h _ _ _) _

theorem triple_shmatSearch (hn : segsz shmid = some n) (shmflg : Nat) (fuel : Nat) :
    ∀ (bottomPage : Nat) (wrapped : Bool),
      Triple Exact (shmatSearch segsz shmid (pagesLengthOf n) shmflg fuel bottomPage wrapped) (fun _ => Exact) := by
  induction fuel with
  | zero => exact fun _ _ => Triple.throw _
  | succ fuel ih =>
    intro bottomPage wrapped
    refine Triple.bind_reads (reads_findLowerPage _ _ _) ?_
    rintro ⟨bottomPage, lowerPage⟩
    refine Triple.ite (fun _ => Triple.pure _ (fun _ h => h)) (fun hlower => ?_)
    refine triple_exact fun bits host h => triple_call fun a hc => ?_
    cases a with
    | error e =>
      refine Triple.get (fun s hs => ?_)
      refine Triple.consequence (P := Exact) ?_ (fun s' heq => heq ▸ at_exact h hs) (fun _ _ h => h)
      refine Triple.ite (fun _ => ih _ _) (fun _ => Triple.ite (fun _ => ?_) (fun _ => ih _ _))
      refine Triple.bind (triple_exact fun bits host h => triple_errnoResult h) (fun r => Triple.pure _ (fun _ hs => hs))
    | ok a =>
      obtain ⟨-, ha, hend, haddr⟩ := hc
      refine triple_modifyAlloc (fun _ => rfl) (triple_setPages fun hbits => ?_)
      refine triple_modifyAlloc (fun _ => rfl) (triple_pure ?_ _)
      rw [hn, Option.getD_some] at hend
      rw [pagesLengthOf_eq (by omega)] at hbits ⊢
      have hpages : host.apply segsz (.shmat shmid (pageAddress lowerPage) shmflg) (.ok a) =
          host.map (a / 4096) (pageCount n) (fun _ => .segment (a / 4096 : Nat)) := by
        change host.map (a / 4096) (pageCount ((segsz shmid).getD 0)) _ = _
        rw [hn, Option.getD_some]
      rw [hpages]
      by_cases hpos : 0 < pageCount n
      · have hlow := hbits hpos
        unfold bitmapSize at hlow
        rw [pageAddress_of_lt (by omega)] at haddr
        have hpage : a / 4096 = lowerPage := by
          omega
        rw [hpage]
        exact exactBits_map h _ _ _
      · have hzero : pageCount n = 0 := by omega
        have hexact := exactBits_map h (a / 4096) 0 (fun _ => .segment (a / 4096 : Nat))
        rw [hzero, fill_zero]
        rwa [fill_zero] at hexact

theorem triple_shmat (shmflg : Nat) (hsize : shmaddr ≠ 0 → ∀ n, segsz shmid = some n → n % 4096 = 0) :
    Triple Exact (shmat segsz shmid shmaddr shmflg) (fun _ => Exact) := by
  refine Triple.ite (fun haddr => triple_shmatFixed shmflg (hsize haddr)) (fun _ => ?_)
  refine triple_exact fun bits host h => triple_call fun a hc => ?_
  cases a with
  | error e =>
    exact triple_pure h _
  | ok n =>
    refine Triple.get (fun s hs => ?_)
    have hexact : Exact s := at_exact h hs
    exact (triple_shmatSearch hc shmflg _ _ _).consequence (fun s' heq => heq ▸ hexact) (fun _ _ h => h)

/-- Outside of the reserved pages no page is of a segment attached at this address. -/
def NoneAttached (host : Host) (shmaddr : Nat) : Prop :=
  ∀ p, p < bitmapSize → host.pages p = some (.segment (shmaddr / 4096 : Nat)) → reserved p = true

theorem exactBits_detach (h : ExactBits bits host) (hnone : NoneAttached host shmaddr) :
    ExactBits bits (host.detach (shmaddr / 4096)) := by
  intro p hp
  rw [h p hp]
  unfold Host.detach
  dsimp only
  by_cases hseg : host.pages p = some (.segment (shmaddr / 4096 : Nat))
  · rw [hnone p hp hseg, Bool.true_or, Bool.true_or]
  · rw [if_neg hseg]

theorem triple_shmdt :
    Triple (fun s => Exact s ∧ NoneAttached s.host shmaddr) (shmdt segsz shmaddr) (fun _ => Exact) := by
  refine Triple.get (fun s hs => ?_)
  have hat : ∀ s', s' = s → At s.alloc.mappedPages s.host s' := fun s' heq => heq ▸ ⟨rfl, rfl⟩
  refine Triple.consequence (P := At s.alloc.mappedPages s.host) ?_ hat (fun _ _ h => h)
  cases s.alloc.pageToShm (shmaddr / 4096 % 2 ^ 32) with
  | none => exact triple_pure hs.1 _
  | some shmid =>
    refine triple_call fun a _ => triple_modifyAlloc (fun _ => rfl) ?_
    cases a with
    | error e =>
      exact triple_errnoResult hs.1
    | ok a => exact triple_pure (exactBits_detach hs.1 hs.2) _

/-! ## Runs -/

/-- The calls after which the bitmap is as exact as before. -/
def Step.Ok (step : Step) (s : AllocState) : Prop :=
  match step.op with
  | .mmap .. => True
  | .munmap addr length => addr + length < 2 ^ 64
  | .mremap oldAddress oldSize newSize flags _ => KeepsReserved oldAddress oldSize newSize flags
  | .shmat shmid shmaddr _ => shmaddr ≠ 0 → ∀ n, step.segsz shmid = some n → n % 4096 = 0
  | .shmdt shmaddr => NoneAttached s.host shmaddr

/-- Every call of a run is such a call. -/
def AllOk (s : AllocState) : List Step → Prop
  | [] => True
  | step :: steps => step.Ok s ∧ ∀ s', step.exec s = .ok s' → AllOk s' steps

theorem triple_ignore {P : AllocState → Prop} (h : Triple P m (fun _ => Exact)) :
    Triple P (do let _ ← m : M Unit) (fun _ => Exact) :=
  Triple.bind h (fun _ => Triple.pure _ (fun _ hs => hs))

theorem exec_exact {step : Step} {s' : AllocState} (hs : Exact s) (hok : step.Ok s) (h : step.exec s = .ok s') :
    Exact s' := by
  obtain ⟨op, segsz, answers⟩ := step
  have htriple : Triple (fun t => t = { s with answers := answers }) (op.exec segsz) (fun _ => Exact) := by
    have hstart : ∀ t, t = { s with answers := answers } → Exact t := by
      rintro t rfl
      exact hs
    cases op with
    | mmap addr length prot flags fd offset =>
      exact triple_ignore ((triple_mmap addr length prot flags fd offset).consequence hstart (fun _ _ h => h))
    | munmap addr length => exact triple_ignore ((triple_munmap hok).consequence hstart (fun _ _ h => h))
    | mremap oldAddress oldSize newSize flags newAddress =>
      exact triple_ignore ((triple_mremap newAddress hok).consequence hstart (fun _ _ h => h))
    | shmat shmid shmaddr shmflg => exact triple_ignore ((triple_shmat shmflg hok).consequence hstart (fun _ _ h => h))
    | shmdt shmaddr =>
      refine triple_ignore (triple_shmdt.consequence ?_ (fun _ _ h => h))
      rintro t rfl
      exact ⟨hs, hok⟩
  unfold Step.exec at h
  cases hrun : op.exec segsz { s with answers := answers } with
  | error e =>
    rw [hrun] at h
    cases h
  | ok x =>
    rw [hrun] at h
    cases h
    exact htriple _ x.1 x.2 rfl hrun

theorem init_exact : Exact init := fun _ _ => (Bool.or_false _).symm

theorem run_exact {s' : AllocState} (hs : Exact s) {steps : List Step} (hok : AllOk s steps)
    (h : run s steps = .ok s') : Exact s' := by
  induction steps generalizing s with
  | nil =>
    cases h
    exact hs
  | cons step steps ih =>
    unfold run at h
    cases hexec : step.exec s with
    | error e =>
      rw [hexec] at h
      cases h
    | ok t =>
      rw [hexec] at h
      exact ih (exec_exact hs hok.1 hexec) (hok.2 t hexec) h

/-- Whatever the kernel answers, the bits are exactly the 17 reserved pages and those that the guest has mapped through the
allocator. -/
theorem mappedPages_exact (steps : List Step) (hok : AllOk init steps) (s : AllocState) (h : run init steps = .ok s)
    (p : Nat) (hp : p < bitmapSize) :
    s.alloc.mappedPages p = true ↔ (p < 16 ∨ p = topKey) ∨ (s.host.pages p).isSome := by
  rw [run_exact init_exact hok h p hp]
  unfold reserved
  rw [Bool.or_eq_true, Bool.or_eq_true, decide_eq_true_iff, decide_eq_true_iff]

/-- The sizes of the segments for the runs below. -/
def oneSegment : Int → Option Nat := fun shmid => if shmid = 1 then some 0x1000 else none

/-- Two pages mapped, the first one unmapped again and the second one grown. -/
def grownSteps : List Step :=
  [⟨.mmap 0x20000 0x2000 3 0x32 (-1) 0, oneSegment, [.ok 0x20000]⟩, ⟨.munmap 0x20000 0x1000, oneSegment, [.ok 0]⟩,
   ⟨.mremap 0x21000 0x1000 0x2000 0 0, oneSegment, [.ok 0x21000]⟩]

theorem mappedPages_exact_grown :
    ∃ s, run init grownSteps = .ok s ∧
      (s.alloc.mappedPages 0x22 = true ↔ (0x22 < 16 ∨ 0x22 = topKey) ∨ (s.host.pages 0x22).isSome) := by
  obtain ⟨s, hs⟩ : ∃ s, run init grownSteps = .ok s := ⟨_, rfl⟩
  have hres : NoneReserved 0x21 1 := by
    intro p h1 h2
    obtain rfl : p = 0x21 := by omega
    decide
  have hend : 0x20000 + 0x1000 < 2 ^ 64 := by decide
  have hok : AllOk init grownSteps :=
    ⟨trivial, fun _ _ => ⟨hend, fun _ _ => ⟨.inr (.inl hres), fun _ _ => trivial⟩⟩⟩
  exact ⟨s, hs, mappedPages_exact grownSteps hok s hs 0x22 (by decide)⟩

/-- A segment attached and detached: its page stays taken. -/
theorem shmdt_keeps_bits :
    ∃ s, run init [⟨.shmat 1 0x20000 0, oneSegment, [.ok 0x20000, .ok 0x1000]⟩,
        ⟨.shmdt 0x20000, oneSegment, [.ok 0]⟩] = .ok s ∧
      ¬ (s.alloc.mappedPages 0x20 = true ↔ (0x20 < 16 ∨ 0x20 = topKey) ∨ (s.host.pages 0x20).isSome) :=
  ⟨_, rfl, by decide⟩

end FexEmu.LinuxSyscalls.MemAllocator32Bit
