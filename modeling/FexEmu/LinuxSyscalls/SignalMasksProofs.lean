import FexEmu.LinuxSyscalls.SignalMasks
/-!
# Signal masks, proofs

The slot for a suspend's mask holds the one of the last suspend that was called.
-/
namespace FexEmu.LinuxSyscalls.Signals
open ByteMemory
open BitVec (getLsbD_and eq_of_getLsbD_eq eq_of_getLsbD_eq_iff and_comm)

variable {required : Fin 65 → Bool} {t : ThreadState} {p : Posix} {set oldset mask current : BitVec 64} {how : Int}

/-! ## Bits of masks -/

theorem withoutRequired_bit (mask : BitVec 64) (i : Fin 64) :
    (withoutRequired required mask).getLsbD i = (!required i.succ && mask.getLsbD i) := by
  have hfold : ∀ (l : List (Fin 64)) (m : BitVec 64), (l.foldl (fun mask (i : Fin 64) =>
      if required i.succ then mask &&& ~~~(1#64 <<< i.val) else mask) m).getLsbD i =
        if i ∈ l then (!required i.succ && m.getLsbD i) else m.getLsbD i := by
    intro l
    induction l with
    | nil => intro m; simp
    | cons j l ih =>
      intro m
      have hround := @round_bit required 0#64 m i j
      simp only [BitVec.getLsbD_zero, Bool.false_eq_true, if_false, Bool.false_or] at hround
      rw [List.foldl_cons, ih, hround]
      by_cases hij : i = j
      · simp [hij]
      · simp [hij, List.mem_cons]
  rw [withoutRequired, hfold, if_pos (List.mem_finRange i)]

theorem ignored_bit (i : Fin 64) : ignoredSignalsMask.getLsbD i = !(decide (i = 8) || decide (i = 18)) := by
  revert i
  decide

/-- A mask without `SIGKILL` and `SIGSTOP`. -/
def Unblockable (mask : BitVec 64) : Prop := mask &&& ignoredSignalsMask = mask

theorem unblockable_iff : Unblockable mask ↔ mask.getLsbD 8 = false ∧ mask.getLsbD 18 = false := by
  constructor
  · intro h
    rw [← show mask &&& ignoredSignalsMask = mask from h]
    rw [getLsbD_and, getLsbD_and]
    exact ⟨by rw [show ignoredSignalsMask.getLsbD 8 = false by decide, Bool.and_false],
      by rw [show ignoredSignalsMask.getLsbD 18 = false by decide, Bool.and_false]⟩
  · rintro ⟨h8, h18⟩
    apply eq_of_getLsbD_eq
    intro i hi
    rw [getLsbD_and, ignored_bit ⟨i, hi⟩]
    by_cases hi8 : i = 8
    · subst hi8
      rw [h8, Bool.false_and]
    · by_cases hi18 : i = 18
      · subst hi18
        rw [h18, Bool.false_and]
      · simp [Fin.ext_iff, hi8, hi18]

theorem unblockable_and (mask : BitVec 64) : Unblockable (mask &&& ignoredSignalsMask) := by
  rw [Unblockable, BitVec.and_assoc, BitVec.and_self]

theorem Unblockable.blocked_withoutRequired (h : Unblockable mask) :
    blocked (withoutRequired required mask) = withoutRequired required mask := by
  apply eq_of_getLsbD_eq
  intro i hi
  have hbit := congrArg (fun m => BitVec.getLsbD m i) (show mask &&& ignoredSignalsMask = mask from h)
  simp only [getLsbD_and] at hbit
  rw [blocked, getLsbD_and, withoutRequired_bit mask ⟨i, hi⟩, Bool.and_assoc, hbit]

theorem changedMask_of_refused (h : refused how set = true) (mask value : BitVec 64) : changedMask how value mask = none := by
  simp only [refused, Bool.and_eq_true, decide_eq_true_eq] at h
  simp [changedMask, h]

theorem changedMask_eq (hset : set ≠ 0) (h : refused how set = false) (hmask : Unblockable mask) (value : BitVec 64) :
    changedMask how value mask = some (posixChange how value mask) := by
  have hand : mask &&& ignoredSignalsMask = mask := hmask
  unfold changedMask posixChange
  split_ifs with hblock hunblock hsetmask
  · congr 1
    rw [and_comm (mask ||| value), BitVec.and_or_distrib_left, and_comm _ mask, hand, and_comm value]
  · congr 1
    apply eq_of_getLsbD_eq
    intro i hi
    have hbit := congrArg (fun m => BitVec.getLsbD m i) hand
    simp only [getLsbD_and, BitVec.getLsbD_not, hi, decide_true, Bool.true_and] at hbit ⊢
    rw [← hbit]
    cases mask.getLsbD i <;> cases value.getLsbD i <;> cases ignoredSignalsMask.getLsbD i <;> rfl
  · rfl
  · rw [refused, decide_eq_true hset, decide_eq_true hblock, decide_eq_true hunblock, decide_eq_true hsetmask] at h
    exact absurd h (by decide)

theorem unblockable_posixChange (value : BitVec 64) : Unblockable (posixChange how value mask) := unblockable_and _

/-- Two masks are changed to one exactly where the change covers what they differ in. -/
theorem posixChange_eq_iff (h : refused how set = false) (hset : set ≠ 0) (hcurrent : Unblockable current)
    (hmask : Unblockable mask) (value : BitVec 64) : posixChange how value current = posixChange how value mask ↔
      (how ≠ SIG_SETMASK → (current ^^^ mask) &&& ~~~value = 0) := by
  have hbit {m : BitVec 64} (hm : Unblockable m) (i : Nat) : (m &&& ignoredSignalsMask).getLsbD i = m.getLsbD i := by
    rw [show m &&& ignoredSignalsMask = m from hm]
  unfold posixChange
  split_ifs with hblock hunblock
  · have hne : how ≠ SIG_SETMASK := by rw [hblock]; decide
    simp only [eq_of_getLsbD_eq_iff, hne, ne_eq, not_false_eq_true, forall_const]
    refine forall₂_congr fun i hi => ?_
    have hc := hbit hcurrent i
    have hm := hbit hmask i
    simp only [getLsbD_and, BitVec.getLsbD_or, BitVec.getLsbD_not, BitVec.getLsbD_xor, hi, decide_true,
      Bool.true_and] at hc hm ⊢
    revert hc hm
    cases current.getLsbD i <;> cases mask.getLsbD i <;> cases value.getLsbD i <;>
      cases ignoredSignalsMask.getLsbD i <;> simp
  · have hne : how ≠ SIG_SETMASK := by rw [hunblock]; decide
    simp only [eq_of_getLsbD_eq_iff, hne, ne_eq, not_false_eq_true, forall_const]
    refine forall₂_congr fun i hi => ?_
    have hc := hbit hcurrent i
    have hm := hbit hmask i
    simp only [getLsbD_and, BitVec.getLsbD_not, BitVec.getLsbD_xor, hi, decide_true,
      Bool.true_and] at hc hm ⊢
    revert hc hm
    cases current.getLsbD i <;> cases mask.getLsbD i <;> cases value.getLsbD i <;>
      cases ignoredSignalsMask.getLsbD i <;> simp
  · have hsetmask : how = SIG_SETMASK := by
      by_contra hne
      rw [refused, decide_eq_true hset, decide_eq_true hblock, decide_eq_true hunblock, decide_eq_true hne] at h
      exact absurd h (by decide)
    simp [hsetmask]

/-! ## The thread and POSIX -/

/-- The thread has `current` for the guest's mask, and the memory that POSIX defines. -/
structure Agrees (t : ThreadState) (p : Posix) (current : BitVec 64) : Prop where
  mask : t.currentSignalMask = current
  memory : t.memory = p.memory
  unblockable : Unblockable p.mask
  unblockable_current : Unblockable current

theorem Agrees.follows_iff (h : Agrees t p current) :
    Follows required t p ↔ current = p.mask ∧ t.hostMask = withoutRequired required p.mask := by
  constructor
  · intro hf
    exact ⟨h.mask.symm.trans hf.mask, by rw [hf.host, hf.mask]⟩
  · rintro ⟨hcurrent, hhost⟩
    have hmask : t.currentSignalMask = p.mask := h.mask.trans hcurrent
    exact ⟨hmask, hmask ▸ unblockable_iff.mp h.unblockable, by rw [hmask, hhost]⟩

theorem Agrees.wait (h : Agrees t p current) (set : BitVec 64) :
    Agrees (beginSuspend set t) (p.wait set) (p.wait set).mask := by
  refine ⟨?_, h.memory, unblockable_and _, unblockable_and _⟩
  rw [beginSuspend, Posix.wait, h.memory]

/-- What a call of `GuestSigProcMask` gives back and leaves. -/
structure Called (how : Int) (set oldset : BitVec 64) (required : Fin 65 → Bool) (t : ThreadState) (p : Posix)
    (condition : Prop) (hostMask : BitVec 64) : Prop where
  right_iff : Answers set oldset how t p (guestSigProcMask required how set oldset t) ∧
    Follows required (guestSigProcMask required how set oldset t).2 (p.sigProcMask how set oldset) ↔ condition
  agrees : condition → Agrees (guestSigProcMask required how set oldset t).2 (p.sigProcMask how set oldset)
    (p.sigProcMask how set oldset).mask
  slot : (guestSigProcMask required how set oldset t).2.previousSuspendMask = t.previousSuspendMask
  host : condition → (guestSigProcMask required how set oldset t).2.hostMask = hostMask

theorem sigProcMask_mask_of_kept (h : set = 0 ∨ refused how set = true) :
    (p.sigProcMask how set oldset).mask = p.mask := by
  unfold Posix.sigProcMask
  split_ifs with hrefused hset
  · rfl
  · rfl
  · exact absurd h (by simp only [hset, hrefused]; decide)

theorem read_storeOldSet (m : Memory) (value : BitVec 64) (h : oldset ≠ 0) :
    read (storeOldSet oldset value m) oldset 64 = value := by
  rw [storeOldSet, if_neg h, read_write _ (by norm_num)]

theorem storeOldSet_congr (m : Memory) (h : oldset ≠ 0 → current = mask) :
    storeOldSet oldset current m = storeOldSet oldset mask m := by
  unfold storeOldSet
  split_ifs with hnull
  · rfl
  · rw [h hnull]

/-- A call that leaves the mask alone is right where the guest's mask stands. -/
theorem Agrees.called_kept (h : Agrees t p current) (hkept : set = 0 ∨ refused how set = true) :
    Called how set oldset required t p (current = p.mask ∧ t.hostMask = withoutRequired required p.mask) t.hostMask := by
  have hmask : (p.sigProcMask how set oldset).mask = p.mask := sigProcMask_mask_of_kept hkept
  cases hrefused : refused how set with
  | true =>
    have hset : set ≠ 0 := by
      rintro rfl
      simp [refused] at hrefused
    have hrun : guestSigProcMask required how set oldset t = (-EINVAL, t) := by
      rw [guestSigProcMask, if_neg hset, changedMask_of_refused hrefused]
    have hposix : p.sigProcMask how set oldset = p := by simp [Posix.sigProcMask, hrefused]
    refine ⟨?_, ?_, by rw [hrun], fun _ => by rw [hrun]⟩
    · rw [hrun, hposix, h.follows_iff]
      refine and_iff_right ⟨by simp [hrefused], fun _ => rfl, fun h0 => ?_⟩
      simp [EINVAL] at h0
    · rintro ⟨hcurrent, -⟩
      rw [hrun, hposix, ← hcurrent]
      exact hcurrent ▸ h
  | false =>
    have hset : set = 0 := hkept.resolve_right (by simp [hrefused])
    have hrun : guestSigProcMask required how set oldset t =
        (0, { t with memory := storeOldSet oldset current t.memory }) := by
      rw [guestSigProcMask, if_pos hset, h.mask]
    have hposix : p.sigProcMask how set oldset = { p with memory := storeOldSet oldset p.mask p.memory } := by
      rw [Posix.sigProcMask, if_neg (by simp [hrefused]), if_pos hset]
    have hagrees : current = p.mask → Agrees { t with memory := storeOldSet oldset current t.memory }
        { p with memory := storeOldSet oldset p.mask p.memory } p.mask := by
      rintro hcurrent
      exact ⟨h.mask.trans hcurrent, by rw [hcurrent, h.memory], h.unblockable, h.unblockable⟩
    refine ⟨?_, ?_, by rw [hrun], fun _ => by rw [hrun]⟩
    · rw [hrun, hposix]
      constructor
      · rintro ⟨-, hf⟩
        exact ⟨h.mask.symm.trans hf.mask, hf.host.trans (by rw [hf.mask])⟩
      · rintro ⟨hcurrent, hhost⟩
        refine ⟨⟨by simp [hrefused], fun h0 => ?_, fun _ hne => ?_⟩, (hagrees hcurrent).follows_iff.mpr ⟨rfl, hhost⟩⟩
        · simp [EINVAL] at h0
        · rw [hcurrent, read_storeOldSet _ _ hne]
    · rintro ⟨hcurrent, -⟩
      rw [hrun, hposix]
      exact hagrees hcurrent

/-- A call that changes the mask is right where it covers what the masks differ in. -/
theorem Agrees.called_set (h : Agrees t p current) (hset : set ≠ 0) (hrefused : refused how set = false) :
    Called how set oldset required t p (Covers how set oldset p current)
      (withoutRequired required (p.sigProcMask how set oldset).mask) := by
  have hrun : guestSigProcMask required how set oldset t =
      (0, { t with
        currentSignalMask := posixChange how (read p.memory set 64) current
        hostMask := withoutRequired required (posixChange how (read p.memory set 64) current)
        memory := storeOldSet oldset current t.memory }) := by
    have hun : Unblockable t.currentSignalMask := by rw [h.mask]; exact h.unblockable_current
    rw [guestSigProcMask, if_neg hset, changedMask_eq hset hrefused hun, h.mask, h.memory]
    dsimp only
    rw [(unblockable_posixChange _).blocked_withoutRequired]
  have hposix : p.sigProcMask how set oldset =
      ⟨posixChange how (read p.memory set 64) p.mask, storeOldSet oldset p.mask p.memory⟩ := by
    rw [Posix.sigProcMask, if_neg (by simp [hrefused]), if_neg hset]
  have hmask := posixChange_eq_iff hrefused hset h.unblockable_current h.unblockable (read p.memory set 64)
  refine ⟨?_, ?_, by rw [hrun], ?_⟩
  · rw [hrun, hposix]
    constructor
    · rintro ⟨ha, hf⟩
      refine ⟨fun hne => ?_, hmask.mp hf.mask⟩
      have hold := ha.oldSet rfl hne
      rwa [read_storeOldSet _ _ hne] at hold
    · rintro ⟨hold, hcovers⟩
      refine ⟨⟨by simp [hrefused], fun h0 => ?_, fun _ hne => ?_⟩, hmask.mpr hcovers, ?_, ?_⟩
      · simp [EINVAL] at h0
      · rw [read_storeOldSet _ _ hne, hold hne]
      · exact unblockable_iff.mp (unblockable_posixChange _)
      · dsimp only
  · rintro ⟨hold, hcovers⟩
    rw [hrun, hposix]
    refine ⟨hmask.mpr hcovers, ?_, unblockable_posixChange _, unblockable_posixChange _⟩
    rw [storeOldSet_congr _ hold, h.memory]
  · rintro ⟨-, hcovers⟩
    rw [hrun, hposix, hmask.mpr hcovers]

/-! ## Runs -/

/-- A run is right exactly when it meets its condition, and then ends where POSIX does, with the slot at the last suspend. -/
structure Spec (t t' : ThreadState) (last : Option (BitVec 64)) (right meets behind : Prop) : Prop where
  right_iff : right ↔ meets
  behind : meets → behind
  slot : meets → t'.previousSuspendMask = last.getD t.previousSuspendMask

theorem getD_or (a b : Option (BitVec 64)) (c : BitVec 64) : (a.or b).getD c = a.getD (b.getD c) := by
  cases a with
  | none => rfl
  | some _ => rfl

section Resume
variable {t' : ThreadState} {p' : Posix} {host : BitVec 64} {last : Option (BitVec 64)}

theorem resume_mask (h : Agrees t p current)
    (hslot : t'.previousSuspendMask = last.getD (beginSuspend set t).previousSuspendMask) :
    (endSuspend host t').currentSignalMask = last.getD current := by
  have hbegin : (beginSuspend set t).previousSuspendMask = current := h.mask
  rw [endSuspend, hslot, hbegin]

/-- A suspend has the guest's mask back if that is in the slot. -/
theorem Agrees.resume (h : Agrees t p current) (hmemory : t'.memory = p'.memory)
    (hslot : t'.previousSuspendMask = last.getD (beginSuspend set t).previousSuspendMask) (hlast : last.getD current = p.mask) :
    Agrees (endSuspend host t') { p' with mask := p.mask } p.mask :=
  ⟨(resume_mask h hslot).trans hlast, hmemory, h.unblockable, h.unblockable⟩

end Resume

mutual

theorem Calls.spec : ∀ (calls : Calls) (t : ThreadState) (p : Posix) (current : BitVec 64), Agrees t p current →
    Spec t (calls.run required t) (calls.lastSuspended p current) (calls.Right required t p)
      (calls.Meets required p current t.hostMask) (Agrees (calls.run required t) (calls.posix p) (calls.left p current))
  | .done, t, p, current, h => ⟨Iff.rfl, fun _ => h, fun _ => rfl⟩
  | .write address value rest, t, p, current, h => by
    have hwrite : Agrees { t with memory := ByteMemory.write t.memory address value }
        { p with memory := ByteMemory.write p.memory address value } current :=
      ⟨h.mask, by simp [h.memory], h.unblockable, h.unblockable_current⟩
    have hrest := rest.spec _ _ _ hwrite
    exact ⟨hrest.right_iff, hrest.behind, hrest.slot⟩
  | .sigProcMask how set oldset rest, t, p, current, h => by
    -- the condition of the call, and the host's mask behind it
    have hcalled : ∃ condition hostMask, Called how set oldset required t p condition hostMask ∧
        ((Calls.sigProcMask how set oldset rest).Meets required p current t.hostMask ↔ condition ∧
          rest.Meets required (p.sigProcMask how set oldset) (p.sigProcMask how set oldset).mask hostMask) := by
      by_cases hkept : set = 0 ∨ refused how set = true
      · refine ⟨_, _, h.called_kept hkept, ?_⟩
        rw [Calls.Meets, if_pos hkept, sigProcMask_mask_of_kept hkept]
      · refine ⟨_, _, h.called_set (fun h0 => hkept (.inl h0)) (Bool.eq_false_iff.mpr fun hr => hkept (.inr hr)), ?_⟩
        rw [Calls.Meets, if_neg hkept]
    obtain ⟨condition, hostMask, hcall, hmeets⟩ := hcalled
    have hrest := fun hc => rest.spec _ _ _ (hcall.agrees hc)
    refine ⟨?_, fun hm => ?_, fun hm => ?_⟩
    · rw [Calls.Right, hmeets, ← and_assoc, hcall.right_iff]
      refine and_congr_right fun hc => ?_
      rw [(hrest hc).right_iff, hcall.host hc]
    · obtain ⟨hc, hm⟩ := hmeets.mp hm
      exact (hrest hc).behind (by rwa [hcall.host hc])
    · obtain ⟨hc, hm⟩ := hmeets.mp hm
      rw [Calls.run, (hrest hc).slot (by rwa [hcall.host hc]), hcall.slot, Calls.lastSuspended]
  | .sigSuspend set sigsetsize handlers rest, t, p, current, h => by
    by_cases hsize : 8 < sigsetsize
    · have hrest := fun hc : current = p.mask => rest.spec t p p.mask (hc ▸ h)
      refine ⟨?_, fun hm => ?_, fun hm => ?_⟩
      · rw [Calls.Right, if_pos hsize, Calls.Meets, if_pos hsize, h.follows_iff]
        exact and_congr_right fun hc => (hrest hc.1).right_iff
      · rw [Calls.Meets, if_pos hsize] at hm
        rw [Calls.run, if_pos hsize, Calls.posix, if_pos hsize, Calls.left, if_pos hsize]
        exact (hrest hm.1.1).behind hm.2
      · rw [Calls.Meets, if_pos hsize] at hm
        rw [Calls.run, if_pos hsize, Calls.lastSuspended, if_pos hsize]
        exact (hrest hm.1.1).slot hm.2
    · have hbody := handlers.spec _ _ _ (h.wait set)
      have hback := fun hm => @Agrees.resume _ _ _ _ _ _ t.hostMask _ h (hbody.behind hm) (hbody.slot hm)
      refine ⟨?_, fun hm => ?_, fun hm => ?_⟩
      · rw [Calls.Right, if_neg hsize, Calls.Meets, if_neg hsize, hbody.right_iff]
        refine and_congr_right fun hm => ?_
        constructor
        · rintro ⟨hfollows, hrest⟩
          have hlast := (resume_mask h (hbody.slot hm)).symm.trans hfollows.mask
          have hagrees := hback hm hlast
          exact ⟨⟨hlast, (hagrees.follows_iff.mp hfollows).2⟩, (rest.spec _ _ _ hagrees).right_iff.mp hrest⟩
        · rintro ⟨⟨hlast, hhost⟩, hrest⟩
          have hagrees := hback hm hlast
          exact ⟨hagrees.follows_iff.mpr ⟨rfl, hhost⟩, (rest.spec _ _ _ hagrees).right_iff.mpr hrest⟩
      · rw [Calls.Meets, if_neg hsize] at hm
        obtain ⟨hm, ⟨hlast, hhost⟩, hrest⟩ := hm
        rw [Calls.run, if_neg hsize, Calls.posix, if_neg hsize, Calls.left, if_neg hsize]
        exact (rest.spec _ _ _ (hback hm hlast)).behind hrest
      · rw [Calls.Meets, if_neg hsize] at hm
        obtain ⟨hm, ⟨hlast, hhost⟩, hrest⟩ := hm
        rw [Calls.run, if_neg hsize, Calls.lastSuspended, if_neg hsize, (rest.spec _ _ _ (hback hm hlast)).slot hrest,
          endSuspend, hbody.slot hm, beginSuspend, h.mask, getD_or, getD_or]
        rfl

theorem Handlers.spec : ∀ (handlers : Handlers) (t : ThreadState) (p : Posix) (current : BitVec 64), Agrees t p current →
    Spec t (handlers.run required t) (handlers.lastSuspended p current) (handlers.Right required t p)
      (handlers.Meets required p current) ((handlers.run required t).memory = (handlers.posix p).memory)
  | .done, t, p, current, h => ⟨Iff.rfl, fun _ => h.memory, fun _ => rfl⟩
  | .handle signal action body rest, t, p, current, h => by
    have hbody := body.spec { t with hostMask := blocked (handlerMask required signal action) } (p.enter signal action) current
      ⟨h.mask, h.memory, unblockable_and _, h.unblockable_current⟩
    have hback : body.Meets required (p.enter signal action) current (blocked (handlerMask required signal action)) →
        Agrees { body.run required { t with hostMask := blocked (handlerMask required signal action) } with
          hostMask := t.hostMask } { body.posix (p.enter signal action) with mask := p.mask }
          (body.left (p.enter signal action) current) := by
      intro hm
      have hend := hbody.behind hm
      exact ⟨hend.mask, hend.memory, h.unblockable, hend.unblockable_current⟩
    refine ⟨?_, fun hm => ?_, fun hm => ?_⟩
    · rw [Handlers.Right, Handlers.Meets, hbody.right_iff]
      exact and_congr_right fun hm => (rest.spec _ _ _ (hback hm)).right_iff
    · rw [Handlers.Meets] at hm
      exact (rest.spec _ _ _ (hback hm.1)).behind hm.2
    · rw [Handlers.Meets] at hm
      rw [Handlers.run, Handlers.lastSuspended, (rest.spec _ _ _ (hback hm.1)).slot hm.2, hbody.slot hm.1, getD_or]

end

/-- The masks of a thread follow POSIX through a run exactly when its calls meet their condition. -/
theorem masks_follow_iff (required : Fin 65 → Bool) (mask : BitVec 64) (memory : Memory) (calls : Calls) :
    calls.Right required (.registered mask memory) ⟨blocked mask, memory⟩ ↔
      calls.Meets required ⟨blocked mask, memory⟩ (blocked mask) (blocked mask) :=
  (calls.spec (.registered mask memory) ⟨blocked mask, memory⟩ (blocked mask)
    ⟨rfl, rfl, unblockable_and mask, unblockable_and mask⟩).right_iff

/-- The handlers have `SA_NODEFER` and block nothing. -/
def nestedSuspends : Calls :=
  .write 0x1000 2 (.sigProcMask SIG_SETMASK 0x1000 0 (.write 0x1000 0
    (.sigSuspend 0x1000 8 (.handle 9 ⟨0x4000, SA_NODEFER, 0, 0⟩
      (.write 0x1008 1 (.sigSuspend 0x1008 8 (.handle 11 ⟨0x4000, SA_NODEFER, 0, 0⟩ .done .done) .done)) .done) .done)))

/-- A handler asks for its mask, in which its own signal is blocked. -/
def askingHandler : Calls :=
  .sigSuspend 0x1000 8 (.handle 9 ⟨0x4000, 0, 0, 0⟩ (.sigProcMask SIG_BLOCK 0 0x1008 .done) .done) .done

/-- The outer suspend takes the mask of the inner one, and a handler is told the mask of the suspend. -/
theorem nestedSuspends_not_right :
    ¬nestedSuspends.Right (fun _ => false) (.registered 0 fun _ => 0) ⟨blocked 0, fun _ => 0⟩ ∧
    ¬askingHandler.Right (fun _ => false) (.registered 0 fun _ => 0) ⟨blocked 0, fun _ => 0⟩ := by
  constructor
  · intro h
    have := h.2.2.2.1.mask
    revert this
    decide +kernel
  · intro h
    have := h.1.1.2.1.mask
    revert this
    decide +kernel

end FexEmu.LinuxSyscalls.Signals
