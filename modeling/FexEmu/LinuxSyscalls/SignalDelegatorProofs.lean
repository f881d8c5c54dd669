import FexEmu.LinuxSyscalls.SignalDelegator
/-!
# The host mirrors the guest

An update is right but for the signals that the guest takes out of an action's mask: those stay.
-/
namespace FexEmu.LinuxSyscalls.Signals

open SignalDelegator ByteMemory

variable {isX86Host : Bool} {d : SignalDelegator}

section Modify
variable {signal : Fin 65} {f : SignalHandler → SignalHandler}

@[simp] theorem modify_self : (d.modify signal f).hostHandlers signal = f (d.hostHandlers signal) := by
  simp [SignalDelegator.modify]

@[simp] theorem modify_of_ne {j : Fin 65} (h : j ≠ signal) : (d.modify signal f).hostHandlers j = d.hostHandlers j := by
  simp [SignalDelegator.modify, h]

theorem modify_field {β : Type} (field : SignalHandler → β) (hf : ∀ h, field (f h) = field h) (j : Fin 65) :
    field ((d.modify signal f).hostHandlers j) = field (d.hostHandlers j) := by
  by_cases hj : j = signal
  · rw [hj, modify_self, hf]
  · rw [modify_of_ne hj]

end Modify

/-! ## The action of an update -/

theorem signal_bit (i k : Fin 64) : (1#64 <<< k.val).getLsbD i.val = decide (i = k) := by
  simp only [BitVec.getLsbD_shiftLeft, BitVec.getLsbD_one, i.isLt, decide_true, Fin.ext_iff]
  rcases Nat.lt_trichotomy i.val k.val with hlt | heq | hgt
  · simp [hlt, hlt.ne]
  · simp [heq]
  · have : i.val - k.val ≠ 0 := by omega
    simp [hgt.ne', this]

section Mask
variable {required : Fin 65 → Bool} {guestMask hostMask : BitVec 64}

theorem round_bit (m : BitVec 64) (i j : Fin 64) :
    (if required j.succ then m &&& ~~~(1#64 <<< j.val)
      else if guestMask.getLsbD j then m ||| 1#64 <<< j.val
      else m).getLsbD i =
    if i = j then (!required i.succ && (guestMask.getLsbD i || m.getLsbD i)) else m.getLsbD i := by
  by_cases hij : i = j
  · subst hij
    rw [if_pos rfl]
    split_ifs with hr hg
    · simp [hr]
    · simp [hr, hg]
    · rw [Bool.not_eq_true] at hr hg
      rw [hr, hg]
      rfl
  · split_ifs with hr hg
    · rw [BitVec.getLsbD_and, BitVec.getLsbD_not, signal_bit]
      simp [hij, i.isLt]
    · rw [BitVec.getLsbD_or, signal_bit]
      simp [hij]
    · rfl

theorem updateMask_bit (i : Fin 64) : (updateMask required guestMask hostMask).getLsbD i =
    (!required i.succ && (guestMask.getLsbD i || hostMask.getLsbD i)) := by
  have hfold : ∀ (l : List (Fin 64)) (m : BitVec 64), (l.foldl (fun mask (i : Fin 64) =>
      if required i.succ then mask &&& ~~~(1#64 <<< i.val)
      else if guestMask.getLsbD i then mask ||| 1#64 <<< i.val
      else mask) m).getLsbD i =
        if i ∈ l then (!required i.succ && (guestMask.getLsbD i || m.getLsbD i)) else m.getLsbD i := by
    intro l
    induction l with
    | nil => intro m; simp
    | cons j rest ih =>
      intro m
      rw [List.foldl_cons, ih, round_bit]
      by_cases hij : i = j
      · simp only [hij, List.mem_cons_self, if_true]
        cases required j.succ <;> cases guestMask.getLsbD j.val <;> simp
      · simp [hij]
  have := hfold (List.finRange 64) hostMask
  rw [if_pos (List.mem_finRange i)] at this
  exact this

end Mask

theorem checkAndAddFlags_guest (hostFlags guest flags : BitVec 64) :
    checkAndAddFlags hostFlags guest flags &&& flags = guest &&& flags := by
  unfold checkAndAddFlags
  split_ifs with h
  · ext i hi
    simp only [BitVec.getElem_and, BitVec.getElem_or, BitVec.getElem_not]
    cases flags[i] <;> simp
  · ext i hi
    have := congrArg (fun v : BitVec 64 => v[i]) (not_not.mp h)
    simp only [BitVec.getElem_and, BitVec.getElem_xor] at this ⊢
    revert this
    cases hostFlags[i] <;> cases guest[i] <;> cases flags[i] <;> simp

theorem updatedAction_flags (signal : Fin 65) : (d.updatedAction isX86Host signal).saFlags &&& guestFlags =
    (d.hostHandlers signal).guestAction.saFlags &&& guestFlags := by
  have hflags := checkAndAddFlags_guest (d.hostHandlers signal).hostAction.saFlags
    (d.hostHandlers signal).guestAction.saFlags guestFlags
  have hrestorer : SA_RESTORER &&& guestFlags = 0#64 := by decide
  simp only [updatedAction]
  split_ifs
  · rw [BitVec.and_or_distrib_right, hflags, hrestorer]
    exact BitVec.or_zero
  · exact hflags

theorem default_ne_ignored : SIG_DFL ≠ SIG_IGN := by decide

theorem updatedAction_ignored (signal : Fin 65) : (d.updatedAction isX86Host signal).handler = .SIG_IGN ↔
    (d.hostHandlers signal).guestAction.handler = SIG_IGN ∧ (d.hostHandlers signal).required = false := by
  simp only [updatedAction]
  split_ifs with hdfl hign
  · simp [hdfl.1, default_ne_ignored]
  · simp [hign]
  · simp [hign]

theorem updatedAction_default (signal : Fin 65) : (d.updatedAction isX86Host signal).handler = .SIG_DFL ↔
    (d.hostHandlers signal).guestAction.handler = SIG_DFL ∧ (d.hostHandlers signal).required = false := by
  simp only [updatedAction]
  split_ifs with hdfl hign
  · simp [hdfl]
  · simp [hdfl]
  · simp [hdfl]

/-! ## Updates -/

theorem Mirrors.congr {d' : SignalDelegator} {signal : Fin 64}
    (hhost : (d'.hostHandlers signal.succ).hostAction = (d.hostHandlers signal.succ).hostAction)
    (hguest : (d'.hostHandlers signal.succ).guestAction = (d.hostHandlers signal.succ).guestAction)
    (hrequired : ∀ j, (d'.hostHandlers j).required = (d.hostHandlers j).required) (h : Mirrors d signal) :
    Mirrors d' signal := by
  refine ⟨fun i => ?_, ?_, ?_, ?_⟩
  · rw [hhost, hguest, hrequired]
    exact h.mask i
  · rw [hhost, hguest]
    exact h.flags
  · rw [hhost, hguest, hrequired]
    exact h.ignored
  · rw [hhost, hguest, hrequired]
    exact h.default

/-- The handler of a signal has the action of an update. -/
structure Thunked (d d' : SignalDelegator) (signal : Fin 65) : Prop where
  others : ∀ j ≠ signal, d'.hostHandlers j = d.hostHandlers j
  installed : (d'.hostHandlers signal).installed = true
  required : (d'.hostHandlers signal).required = (d.hostHandlers signal).required
  guest : (d'.hostHandlers signal).guestAction = (d.hostHandlers signal).guestAction
  mask : ∀ i : Fin 64, (d'.hostHandlers signal).hostAction.saMask.getLsbD i = (!(d.hostHandlers i.succ).required &&
    ((d.hostHandlers signal).guestAction.saMask.getLsbD i || (d.hostHandlers signal).hostAction.saMask.getLsbD i))
  flags : (d'.hostHandlers signal).hostAction.saFlags &&& guestFlags =
    (d.hostHandlers signal).guestAction.saFlags &&& guestFlags
  ignored : (d'.hostHandlers signal).hostAction.handler = .SIG_IGN ↔
    (d.hostHandlers signal).guestAction.handler = SIG_IGN ∧ (d.hostHandlers signal).required = false
  default : (d'.hostHandlers signal).hostAction.handler = .SIG_DFL ↔
    (d.hostHandlers signal).guestAction.handler = SIG_DFL ∧ (d.hostHandlers signal).required = false

namespace Thunked

variable {d' : SignalDelegator} {signal : Fin 65} (h : Thunked d d' signal)
include h

theorem required_eq (j : Fin 65) : (d'.hostHandlers j).required = (d.hostHandlers j).required := by
  by_cases hj : j = signal
  · rw [hj, h.required]
  · rw [h.others j hj]

/-- The mask is right unless a signal was taken out of it. -/
theorem mirrors_thunked_iff {i : Fin 64} (hi : i.succ = signal) : Mirrors d' i ↔
    ∀ j : Fin 64, (d.hostHandlers signal).hostAction.saMask.getLsbD j = true → (d.hostHandlers j.succ).required = false →
      (d.hostHandlers signal).guestAction.saMask.getLsbD j = true := by
  subst hi
  constructor
  · intro hm j hhost hreq
    have := hm.mask j
    rw [h.mask, h.guest, h.required_eq, hreq, hhost] at this
    simpa using this.symm
  · intro hsub
    refine ⟨fun j => ?_, ?_, ?_, ?_⟩
    · rw [h.mask, h.guest, h.required_eq]
      cases hreq : (d.hostHandlers j.succ).required
      · cases hhost : (d.hostHandlers i.succ).hostAction.saMask.getLsbD j.val
        · simp
        · rw [hsub j hhost hreq]
          rfl
      · simp
    · rw [h.flags, h.guest]
    · rw [h.ignored, h.guest, h.required]
    · rw [h.default, h.guest, h.required]

theorem mirrors_other_iff {i : Fin 64} (hi : i.succ ≠ signal) : Mirrors d' i ↔ Mirrors d i := by
  have hsame := h.others i.succ hi
  constructor
  · exact Mirrors.congr (by rw [hsame]) (by rw [hsame]) fun j => (h.required_eq j).symm
  · exact Mirrors.congr (by rw [hsame]) (by rw [hsame]) h.required_eq

end Thunked

theorem updateHostThunk_thunked {signal : Fin 65} (hinstalled : (d.hostHandlers signal).installed = true) :
    Thunked d (d.updateHostThunk isX86Host signal) signal where
  others j hj := modify_of_ne hj
  installed := by simp only [updateHostThunk, modify_self, hinstalled]
  required := by simp only [updateHostThunk, modify_self]
  guest := by simp only [updateHostThunk, modify_self]
  mask i := by
    simp only [updateHostThunk, modify_self, updatedAction]
    exact updateMask_bit i
  flags := by
    simp only [updateHostThunk, modify_self]
    exact updatedAction_flags signal
  ignored := by
    simp only [updateHostThunk, modify_self]
    exact updatedAction_ignored signal
  default := by
    simp only [updateHostThunk, modify_self]
    exact updatedAction_default signal

theorem installHostThunk_thunked {signal : Fin 65} (hinstalled : (d.hostHandlers signal).installed = false) :
    (d.installHostThunk isX86Host signal).1 = true ∧ Thunked d (d.installHostThunk isX86Host signal).2 signal := by
  -- the default flags first, then the update
  set d₁ := d.modify signal fun handler =>
    { handler with hostAction := { handler.hostAction with saFlags := SA_SIGINFO ||| SA_ONSTACK } } with hd₁
  have hself : d₁.hostHandlers signal = { d.hostHandlers signal with
      hostAction := { (d.hostHandlers signal).hostAction with saFlags := SA_SIGINFO ||| SA_ONSTACK } } := modify_self
  have hrequired : ∀ j, (d₁.hostHandlers j).required = (d.hostHandlers j).required := modify_field _ fun _ => rfl
  have hresult : d.installHostThunk isX86Host signal = (true, (d₁.updateHostThunk isX86Host signal).modify signal fun handler =>
      { handler with installed := true }) := by
    rw [installHostThunk, if_neg (by rw [hinstalled]; simp)]
  have hhost : (((d₁.updateHostThunk isX86Host signal).modify signal fun handler =>
      { handler with installed := true }).hostHandlers signal).hostAction = d₁.updatedAction isX86Host signal := by
    simp [updateHostThunk, modify_self]
  rw [hresult]
  refine ⟨rfl, ?_⟩
  constructor
  · intro j hj
    rw [modify_of_ne hj, updateHostThunk, modify_of_ne hj, hd₁, modify_of_ne hj]
  · simp [modify_self]
  · simp [updateHostThunk, modify_self, hself]
  · simp [updateHostThunk, modify_self, hself]
  · intro i
    rw [hhost, updatedAction, updateMask_bit, hrequired, hself]
  · rw [hhost, updatedAction_flags, hself]
  · rw [hhost, updatedAction_ignored, hself]
  · rw [hhost, updatedAction_default, hself]

/-! ## One call -/

/-- An action that was never installed masks nothing. -/
def Fresh (d : SignalDelegator) : Prop :=
  ∀ j, (d.hostHandlers j).installed = false → (d.hostHandlers j).hostAction.saMask = 0#64

theorem setGuestAction_thunked (signal : Fin 65) (action : GuestSigAction) :
    Thunked (d.modify signal fun handler => { handler with guestAction := action })
      (d.setGuestAction isX86Host signal action) signal := by
  rw [setGuestAction]
  cases hinstalled : (d.hostHandlers signal).installed with
  | true =>
    have hinstalled' : ((d.modify signal fun handler => { handler with guestAction := action }).hostHandlers signal).installed =
        true := by rw [modify_self, hinstalled]
    simp only [installHostThunk, hinstalled', if_true]
    exact updateHostThunk_thunked hinstalled'
  | false =>
    have hinstalled' : ((d.modify signal fun handler => { handler with guestAction := action }).hostHandlers signal).installed =
        false := by rw [modify_self, hinstalled]
    obtain ⟨htrue, hthunked⟩ := @installHostThunk_thunked isX86Host _ signal hinstalled'
    simp only [htrue, if_true]
    exact hthunked

theorem setGuestAction_mirrors_iff (hm : MirrorsAll d) (hfresh : Fresh d) (signal : Fin 65) (action : GuestSigAction) :
    MirrorsAll (d.setGuestAction isX86Host signal action) ↔
      ∀ i : Fin 64, i.succ = signal → (d.hostHandlers signal).installed = true →
        ∀ j : Fin 64, (d.hostHandlers signal).guestAction.saMask.getLsbD j = true → (d.hostHandlers j.succ).required = false →
          action.saMask.getLsbD j = true := by
  have hthunked := @setGuestAction_thunked isX86Host d signal action
  have hrequired : ∀ j, ((d.modify signal fun handler => { handler with guestAction := action }).hostHandlers j).required =
      (d.hostHandlers j).required := modify_field _ fun _ => rfl
  constructor
  · rintro h i rfl hinstalled j hguest hreq
    have hhost : ((d.modify i.succ fun handler => { handler with guestAction := action }).hostHandlers
        i.succ).hostAction.saMask.getLsbD j = true := by
      rw [modify_self, (hm i hinstalled).mask, hguest, hreq]
      rfl
    have hbit := (hthunked.mirrors_thunked_iff rfl).mp (h i hthunked.installed) j hhost (by rw [hrequired, hreq])
    rwa [modify_self] at hbit
  · intro h i hinstalled
    by_cases hi : i.succ = signal
    · rw [hthunked.mirrors_thunked_iff hi]
      intro j hhost hreq
      rw [modify_self] at hhost ⊢
      rw [hrequired] at hreq
      cases hold : (d.hostHandlers signal).installed with
      | true =>
        subst hi
        rw [(hm i hold).mask, Bool.and_eq_true] at hhost
        exact h i rfl hold j hhost.1 hreq
      | false =>
        rw [hfresh signal hold] at hhost
        simp at hhost
    · rw [hthunked.mirrors_other_iff hi]
      rw [hthunked.others i.succ hi, modify_of_ne hi] at hinstalled
      exact (hm i hinstalled).congr (by rw [modify_of_ne hi]) (by rw [modify_of_ne hi]) hrequired

/-- A change of what is required reaches only an action that is installed by it. -/
theorem requiredChange_mirrors_iff (hm : MirrorsAll d) {signal : Fin 64} {required : Bool}
    (hne : required ≠ (d.hostHandlers signal.succ).required) {i : Fin 64} (hinstalled : (d.hostHandlers i.succ).installed = true) :
    Mirrors (d.modify signal.succ fun handler => { handler with required := required }) i ↔
      (d.hostHandlers i.succ).guestAction.saMask.getLsbD signal = false ∧
      (i = signal → (d.hostHandlers signal.succ).guestAction.handler ≠ SIG_DFL ∧
        (d.hostHandlers signal.succ).guestAction.handler ≠ SIG_IGN) := by
  set d' := d.modify signal.succ fun handler => { handler with required := required } with hd'
  have hold := hm i hinstalled
  have hhost : ∀ j, (d'.hostHandlers j).hostAction = (d.hostHandlers j).hostAction := modify_field _ fun _ => rfl
  have hguest : ∀ j, (d'.hostHandlers j).guestAction = (d.hostHandlers j).guestAction := modify_field _ fun _ => rfl
  have hself : (d'.hostHandlers signal.succ).required = required := by rw [hd', modify_self]
  have hother : ∀ j, j ≠ signal → (d'.hostHandlers j.succ).required = (d.hostHandlers j.succ).required := by
    intro j hj
    rw [hd', modify_of_ne (fun h => hj (Fin.succ_injective _ h))]
  have hnot : required = !(d.hostHandlers signal.succ).required := by
    revert hne
    cases required <;> cases (d.hostHandlers signal.succ).required <;> simp
  constructor
  · intro h
    constructor
    · have h1 := h.mask signal
      rw [hhost, hguest, hself, hold.mask, hnot] at h1
      revert h1
      cases (d.hostHandlers i.succ).guestAction.saMask.getLsbD signal.val <;>
        cases (d.hostHandlers signal.succ).required <;> simp
    · rintro rfl
      constructor
      · intro hdfl
        have h1 := h.default
        rw [hhost, hguest, hself, hold.default, hdfl, hnot] at h1
        revert h1
        cases (d.hostHandlers i.succ).required <;> simp
      · intro hign
        have h1 := h.ignored
        rw [hhost, hguest, hself, hold.ignored, hign, hnot] at h1
        revert h1
        cases (d.hostHandlers i.succ).required <;> simp
  · rintro ⟨hbit, hhandler⟩
    refine ⟨fun j => ?_, ?_, ?_, ?_⟩
    · rw [hhost, hguest, hold.mask]
      by_cases hj : j = signal
      · rw [hj, hbit]
        rfl
      · rw [hother j hj]
    · rw [hhost, hguest, hold.flags]
    · rw [hhost, hguest, hold.ignored]
      by_cases hi : i = signal
      · have := (hhandler hi).2
        rw [hi]
        simp [this]
      · rw [hother i hi]
    · rw [hhost, hguest, hold.default]
      by_cases hi : i = signal
      · have := (hhandler hi).1
        rw [hi]
        simp [this]
      · rw [hother i hi]

theorem registerHostSignalHandler_cases (signal : Fin 65) (required : Bool) :
    ((d.hostHandlers signal).installed = true ∧ d.registerHostSignalHandler isX86Host signal required =
      d.modify signal fun handler => { handler with required := required }) ∨
    ((d.hostHandlers signal).installed = false ∧ Thunked (d.modify signal fun handler => { handler with required := required })
      (d.registerHostSignalHandler isX86Host signal required) signal) := by
  cases hinstalled : (d.hostHandlers signal).installed with
  | true =>
    refine .inl ⟨rfl, ?_⟩
    rw [registerHostSignalHandler, installHostThunk, if_pos (by rw [modify_self, hinstalled])]
  | false => exact .inr ⟨rfl, (installHostThunk_thunked (by rw [modify_self, hinstalled])).2⟩

theorem registerHost_mirrors_iff (hfresh : Fresh d) (signal : Fin 64) (required : Bool) :
    MirrorsAll (d.registerHostSignalHandler isX86Host signal.succ required) ↔
      ∀ i : Fin 64, (d.hostHandlers i.succ).installed = true →
        Mirrors (d.modify signal.succ fun handler => { handler with required := required }) i := by
  have hsame : ∀ i : Fin 64, ((d.modify signal.succ fun handler => { handler with required := required }).hostHandlers
      i.succ).installed = (d.hostHandlers i.succ).installed := by
    intro i
    apply modify_field
    exact fun _ => rfl
  obtain ⟨-, heq⟩ | ⟨hinstalled, hthunked⟩ := @registerHostSignalHandler_cases isX86Host d signal.succ required
  · rw [heq]
    exact forall_congr' fun i => by rw [hsame i]
  · have hother : ∀ i : Fin 64, i ≠ signal → i.succ ≠ signal.succ := fun i hi h => hi (Fin.succ_injective _ h)
    constructor
    · intro h i hi
      have hne : i ≠ signal := by
        rintro rfl
        rw [hinstalled] at hi
        cases hi
      rw [← hthunked.mirrors_other_iff (hother i hne)]
      exact h i (by rw [hthunked.others _ (hother i hne), hsame, hi])
    · intro h i hi
      by_cases hne : i = signal
      · subst hne
        rw [hthunked.mirrors_thunked_iff rfl]
        intro j hhost
        rw [modify_self, hfresh _ hinstalled] at hhost
        simp at hhost
      · rw [hthunked.mirrors_other_iff (hother i hne)]
        rw [hthunked.others _ (hother i hne), hsame] at hi
        exact h i hi

theorem registerHost_meets_iff (hm : MirrorsAll d) (hfresh : Fresh d) (signal : Fin 64) (required : Bool) :
    MirrorsAll (d.registerHostSignalHandler isX86Host signal.succ required) ↔ (Call.host signal required).Meets d := by
  rw [registerHost_mirrors_iff hfresh, Call.Meets]
  by_cases hreq : required = (d.hostHandlers signal.succ).required
  · refine iff_of_true (fun i hi => ?_) (.inl hreq)
    have hsame : ∀ j, (d.modify signal.succ fun handler => { handler with required := required }).hostHandlers j =
        d.hostHandlers j := by
      intro j
      by_cases hj : j = signal.succ
      · rw [hj, modify_self, hreq]
      · rw [modify_of_ne hj]
    exact (hm i hi).congr (by rw [hsame]) (by rw [hsame]) fun j => by rw [hsame]
  · constructor
    · intro h
      refine .inr ⟨fun i hi => ((requiredChange_mirrors_iff hm hreq hi).mp (h i hi)).1, fun hi => ?_⟩
      exact ((requiredChange_mirrors_iff hm hreq hi).mp (h signal hi)).2 rfl
    · rintro (h | ⟨hbits, hhandler⟩) i hi
      · exact absurd h hreq
      · rw [requiredChange_mirrors_iff hm hreq hi]
        refine ⟨hbits i hi, ?_⟩
        rintro rfl
        exact hhandler hi

/-! ## Answers -/

section Guest
variable (signal : Int) (m : Memory) (action oldAction : BitVec 64)

theorem registerGuest_cases :
    (outOfRange signal ∧ d.registerGuestSignalHandler isX86Host signal m action oldAction = (⟨-EINVAL, none⟩, d)) ∨
    ∃ j : Fin 65, signal = j ∧
      ((action = 0 ∧ d.registerGuestSignalHandler isX86Host signal m action oldAction =
        (⟨0, if oldAction = 0 then none else some (d.hostHandlers j).guestAction⟩, d)) ∨
      (action ≠ 0 ∧ (j = SIGKILL ∨ j = SIGSTOP) ∧ d.registerGuestSignalHandler isX86Host signal m action oldAction =
        (⟨-EINVAL, if oldAction = 0 then none else some (d.hostHandlers j).guestAction⟩, d)) ∨
      (action ≠ 0 ∧ ¬(j = SIGKILL ∨ j = SIGSTOP) ∧ d.registerGuestSignalHandler isX86Host signal m action oldAction =
        (⟨0, if oldAction = 0 then none else some (d.hostHandlers j).guestAction⟩,
          d.setGuestAction isX86Host j (.load (d.oldStored j m oldAction) action)))) := by
  unfold registerGuestSignalHandler
  by_cases hrange : outOfRange signal
  · rw [if_pos hrange]
    exact .inl ⟨hrange, rfl⟩
  · rw [if_neg hrange]
    have hle : 0 ≤ signal ∧ signal ≤ 64 := by
      simp only [outOfRange, MAX_SIGNALS] at hrange
      omega
    have hval : (Fin.ofNat 65 signal.toNat).val = signal.toNat := Nat.mod_eq_of_lt (by omega)
    refine .inr ⟨Fin.ofNat 65 signal.toNat, by rw [hval]; omega, ?_⟩
    by_cases hnull : action = 0
    · exact .inl ⟨hnull, if_pos hnull⟩
    · by_cases hkill : Fin.ofNat 65 signal.toNat = SIGKILL ∨ Fin.ofNat 65 signal.toNat = SIGSTOP
      · exact .inr (.inl ⟨hnull, hkill, (if_neg hnull).trans (if_pos hkill)⟩)
      · exact .inr (.inr ⟨hnull, hkill, (if_neg hnull).trans (if_neg hkill)⟩)

theorem kill_or_stop {signal : Int} {j : Fin 65} (h : signal = j) : j = SIGKILL ∨ j = SIGSTOP ↔ signal = 9 ∨ signal = 19 := by
  have h9 : j = SIGKILL ↔ j.val = 9 := Fin.ext_iff
  have h19 : j = SIGSTOP ↔ j.val = 19 := Fin.ext_iff
  omega

section Answered
variable {signal m action oldAction}

theorem answered_of_error (heq : d.registerGuestSignalHandler isX86Host signal m action oldAction = (⟨-EINVAL, none⟩, d))
    (herr : IsError signal action) : Answered isX86Host d signal m action oldAction := by
  have hEINVAL : -EINVAL ≠ 0 := by decide
  refine ⟨.inr (by rw [heq]), ?_, fun _ => heq, fun h => ?_, fun h => ?_⟩
  · rw [heq]
    exact iff_of_true rfl herr
  · rw [heq] at h
    exact absurd h hEINVAL
  · rw [heq] at h
    exact absurd h hEINVAL

/-- A call that succeeds is right if it is not to be refused and sets the action that the guest passes. -/
theorem answered_iff_of_success {j : Fin 65} {d' : SignalDelegator} (hj : signal = j)
    (heq : d.registerGuestSignalHandler isX86Host signal m action oldAction =
      (⟨0, if oldAction = 0 then none else some (d.hostHandlers j).guestAction⟩, d')) :
    Answered isX86Host d signal m action oldAction ↔
      ¬IsError signal action ∧ (action ≠ 0 → (d'.hostHandlers j).guestAction = .load m action) := by
  have hEINVAL : 0 ≠ -EINVAL := by decide
  have hindex : ∀ i : Fin 65, signal = i → i = j := fun i hi => Fin.ext (by omega)
  constructor
  · intro h
    refine ⟨fun herr => ?_, fun hnot => ?_⟩
    · have := h.errors.mpr herr
      rw [heq] at this
      exact hEINVAL this
    · have hset := h.set (by rw [heq]) hnot j hj
      rwa [heq] at hset
  · rintro ⟨herr, hset⟩
    refine ⟨.inl (by rw [heq]), ?_, fun h => ?_, fun _ i hi => ?_, fun _ hnot i hi => ?_⟩
    · rw [heq]
      exact iff_of_false hEINVAL herr
    · rw [heq] at h
      exact absurd h hEINVAL
    · rw [heq, hindex i hi]
    · rw [heq, hindex i hi]
      exact hset hnot

end Answered

/-- A call of the guest is right in its answer but for signal 0, for the old action of a failed attempt, and for an old action
that is stored over the new one. -/
theorem answered_iff : Answered isX86Host d signal m action oldAction ↔
    signal ≠ 0 ∧ (action ≠ 0 → (signal = 9 ∨ signal = 19 → oldAction = 0) ∧
      ∀ i : Fin 64, signal = (i.val : Int) + 1 → signal ≠ 9 → signal ≠ 19 → KeepsAction d i.succ m action oldAction) := by
  obtain ⟨hrange, heq⟩ | ⟨j, hj, ⟨hnull, heq⟩ | ⟨hnull, hkill, heq⟩ | ⟨hnull, hkill, heq⟩⟩ :=
    @registerGuest_cases isX86Host d signal m action oldAction
  · have hout : signal < 0 ∨ 64 < signal := hrange
    have herr : IsError signal action := by
      unfold IsError
      omega
    exact iff_of_true (answered_of_error heq herr) ⟨by omega, fun _ => ⟨fun h => by omega, fun i hi => by omega⟩⟩
  · have herr : IsError signal action ↔ signal = 0 := by
      simp only [IsError, hnull, ne_eq, not_true_eq_false, false_and, or_false]
      omega
    rw [answered_iff_of_success hj heq, herr]
    exact and_congr_right fun _ => iff_of_true (fun hnot => absurd hnull hnot) fun hnot => absurd hnull hnot
  · rw [kill_or_stop hj] at hkill
    constructor
    · intro h
      have hnothing := h.nothing (by rw [heq])
      rw [heq] at hnothing
      have hold := congrArg (fun r => r.1.oldAction) hnothing
      refine ⟨by omega, fun _ => ⟨fun _ => ?_, fun _ _ h9 h19 => absurd hkill (not_or.mpr ⟨h9, h19⟩)⟩⟩
      by_contra hne
      simp only [if_neg hne] at hold
      cases hold
    · rintro ⟨-, h⟩
      rw [if_pos ((h hnull).1 hkill)] at heq
      exact answered_of_error heq (.inr (.inr ⟨hnull, hkill⟩))
  · have hguest := (@setGuestAction_thunked isX86Host d j (.load (d.oldStored j m oldAction) action)).guest
    rw [modify_self] at hguest
    rw [kill_or_stop hj] at hkill
    have herr : IsError signal action ↔ signal = 0 := by
      simp only [IsError, ne_eq, hnull, not_false_eq_true, true_and]
      omega
    rw [answered_iff_of_success hj heq, herr, hguest]
    refine and_congr_right fun h0 => forall_congr' fun _ => ⟨fun hset => ⟨fun h => absurd h hkill, fun i hi _ _ => ?_⟩, ?_⟩
    · have hij : j = i.succ := Fin.ext (by rw [Fin.val_succ]; omega)
      rwa [KeepsAction, ← hij]
    · rintro ⟨-, h⟩
      obtain ⟨i, rfl⟩ := Fin.exists_succ_eq_of_ne_zero (fun hzero : j = 0 => h0 (by rw [hj, hzero]; rfl))
      exact h i (by rw [hj, Fin.val_succ]; omega) (fun h9 => hkill (.inl h9)) fun h19 => hkill (.inr h19)

end Guest

/-! ## All runs -/

theorem Thunked.fresh {d' : SignalDelegator} {signal : Fin 65} {f : SignalHandler → SignalHandler} (hfresh : Fresh d)
    (h : Thunked (d.modify signal f) d' signal) : Fresh d' := by
  intro j hj
  have hne : j ≠ signal := by
    rintro rfl
    rw [h.installed] at hj
    cases hj
  rw [h.others j hne, modify_of_ne hne] at hj ⊢
  exact hfresh j hj

theorem Call.run_fresh (hfresh : Fresh d) (call : Call) : Fresh (call.run isX86Host d) := by
  cases call with
  | guest signal m action oldAction =>
    rw [Call.run]
    obtain ⟨-, heq⟩ | ⟨j, -, ⟨-, heq⟩ | ⟨-, -, heq⟩ | ⟨-, -, heq⟩⟩ :=
      @registerGuest_cases isX86Host d signal m action oldAction
    · rw [heq]
      exact hfresh
    · rw [heq]
      exact hfresh
    · rw [heq]
      exact hfresh
    · rw [heq]
      exact (setGuestAction_thunked j _).fresh hfresh
  | host signal required =>
    rw [Call.run]
    obtain ⟨-, heq⟩ | ⟨-, hthunked⟩ := @registerHostSignalHandler_cases isX86Host d signal.succ required
    · intro j hj
      rw [heq] at hj ⊢
      by_cases hne : j = signal.succ
      · subst hne
        rw [modify_self] at hj ⊢
        exact hfresh _ hj
      · rw [modify_of_ne hne] at hj ⊢
        exact hfresh _ hj
    · exact hthunked.fresh hfresh

/-- One call is answered and keeps the mirror exactly under its condition. -/
theorem call_iff (hm : MirrorsAll d) (hfresh : Fresh d) (call : Call) :
    call.Answered isX86Host d ∧ MirrorsAll (call.run isX86Host d) ↔ call.Meets d := by
  cases call with
  | host signal required =>
    rw [Call.Answered, true_and, Call.run]
    exact registerHost_meets_iff hm hfresh signal required
  | guest signal m action oldAction =>
    rw [Call.Answered, answered_iff, Call.run, Call.Meets]
    obtain ⟨hrange, heq⟩ | ⟨j, hj, ⟨hnull, heq⟩ | ⟨hnull, hkill, heq⟩ | ⟨hnull, hkill, heq⟩⟩ :=
      @registerGuest_cases isX86Host d signal m action oldAction
    · have hout : signal < 0 ∨ 64 < signal := hrange
      rw [heq]
      exact iff_of_true ⟨⟨by omega, fun _ => ⟨fun h => by omega, fun i hi => by omega⟩⟩, hm⟩
        ⟨by omega, fun _ => ⟨fun h => by omega, fun i hi => by omega⟩⟩
    · rw [heq]
      constructor
      · rintro ⟨⟨h0, -⟩, -⟩
        exact ⟨h0, fun hnot => absurd hnull hnot⟩
      · rintro ⟨h0, -⟩
        exact ⟨⟨h0, fun hnot => absurd hnull hnot⟩, hm⟩
    · rw [kill_or_stop hj] at hkill
      rw [heq]
      constructor
      · rintro ⟨⟨h0, h⟩, -⟩
        exact ⟨h0, fun _ => ⟨(h hnull).1, fun _ _ h9 h19 => absurd hkill (not_or.mpr ⟨h9, h19⟩)⟩⟩
      · rintro ⟨h0, h⟩
        exact ⟨⟨h0, fun _ => ⟨(h hnull).1, fun _ _ h9 h19 => absurd hkill (not_or.mpr ⟨h9, h19⟩)⟩⟩, hm⟩
    · rw [kill_or_stop hj] at hkill
      rw [heq, setGuestAction_mirrors_iff hm hfresh]
      have h9 : signal ≠ 9 := fun h9 => hkill (.inl h9)
      have h19 : signal ≠ 19 := fun h19 => hkill (.inr h19)
      have hindex : ∀ i : Fin 64, i.succ = j ↔ signal = (i.val : Int) + 1 := by
        intro i
        rw [Fin.ext_iff, Fin.val_succ]
        omega
      constructor
      · rintro ⟨⟨h0, h⟩, hmask⟩
        refine ⟨h0, fun _ => ⟨(h hnull).1, fun i hi _ _ => ?_⟩⟩
        have hkeeps := (h hnull).2 i hi h9 h19
        obtain rfl := (hindex i).mpr hi
        rw [hkeeps] at hmask
        exact ⟨hkeeps, hmask i rfl⟩
      · rintro ⟨h0, h⟩
        refine ⟨⟨h0, fun _ => ⟨(h hnull).1, fun i hi _ _ => ((h hnull).2 i hi h9 h19).1⟩⟩, fun i hij hinstalled => ?_⟩
        subst hij
        obtain ⟨hkeeps, hmask⟩ := (h hnull).2 i ((hindex i).mp rfl) h9 h19
        rw [hkeeps]
        exact hmask hinstalled

theorem right_iff (calls : List Call) : ∀ {d : SignalDelegator}, MirrorsAll d → Fresh d →
    (Right isX86Host d calls ↔ AllMeet isX86Host d calls) := by
  induction calls with
  | nil => intro d hm _; exact iff_of_true hm trivial
  | cons call rest ih =>
    intro d hm hfresh
    have hcall := @call_iff isX86Host d hm hfresh call
    have hfresh' : Fresh (call.run isX86Host d) := call.run_fresh hfresh
    constructor
    · rintro ⟨-, hanswered, hrest⟩
      have hm' : MirrorsAll (call.run isX86Host d) := by
        cases rest with
        | nil => exact hrest
        | cons _ _ => exact hrest.1
      exact ⟨hcall.mp ⟨hanswered, hm'⟩, (ih hm' hfresh').mp hrest⟩
    · rintro ⟨hmeets, hrest⟩
      obtain ⟨hanswered, hm'⟩ := hcall.mpr hmeets
      exact ⟨hm, hanswered, (ih hm' hfresh').mpr hrest⟩

theorem initial_fresh : Fresh SignalDelegator.initial := fun _ _ => rfl

theorem initial_mirrors : MirrorsAll SignalDelegator.initial := by
  intro signal _
  refine ⟨fun i => ?_, rfl, ?_, ?_⟩
  · simp [SignalDelegator.initial]
  · simp [SignalDelegator.initial, default_ne_ignored]
  · simp [SignalDelegator.initial]

/-- A run of registrations mirrors the guest at every step exactly when each of its calls meets its condition. -/
theorem actions_mirror_iff (isX86Host : Bool) (calls : List Call) :
    Right isX86Host .initial calls ↔ AllMeet isX86Host .initial calls :=
  right_iff calls initial_mirrors initial_fresh

/-! ## Actions in memory -/

theorem load_store (action : GuestSigAction) (m : Memory) (p : BitVec 64) : GuestSigAction.load (action.store m p) p = action := by
  have apart (c d : BitVec 64) (h : 8 ≤ (d - c).toNat ∧ 8 ≤ (c - d).toNat) : Apart (p + c) 8 (p + d) 8 :=
    (apart_offset c d).mpr h
  unfold GuestSigAction.load GuestSigAction.store
  rw [read_write_apart _ (by simpa using apart 24 0 (by decide)) (by decide),
    read_write_apart _ (by simpa using apart 16 0 (by decide)) (by decide),
    read_write_apart _ (by simpa using apart 8 0 (by decide)) (by decide), read_write _ (by decide),
    read_write_apart _ (apart 24 8 (by decide)) (by decide), read_write_apart _ (apart 16 8 (by decide)) (by decide),
    read_write _ (by decide), read_write_apart _ (apart 24 16 (by decide)) (by decide), read_write _ (by decide),
    read_write _ (by decide)]

/-- With one pointer for both, the old action is set again. -/
theorem keepsAction_one_pointer_iff (signal : Fin 65) (m : Memory) (p : BitVec 64) (h : p ≠ 0) :
    KeepsAction d signal m p p ↔ (d.hostHandlers signal).guestAction = .load m p := by
  rw [KeepsAction, oldStored, if_neg h, load_store]

/-- An action stands at `0x100`. -/
def actionAt (action : GuestSigAction) : Memory := action.store (fun _ => 0) 0x100

theorem registered_at (action : GuestSigAction) :
    (d.registerGuestSignalHandler isX86Host 10 (actionAt action) 0x100 0).2 = d.setGuestAction isX86Host 10 action := by
  have ten : Fin.ofNat 65 (10 : Int).toNat = 10 := rfl
  rw [registerGuestSignalHandler, if_neg (by decide), ten, if_neg (by decide), if_neg (by decide)]
  simp only [oldStored, if_true, actionAt, load_store]

/-- A handler for `SIGUSR1` that masks `SIGUSR2`, then one that does not. -/
def unmaskingCalls : List Call :=
  [.guest 10 (actionAt ⟨0x1000, 0, 0, 0x800⟩) 0x100 0, .guest 10 (actionAt ⟨0x1000, 0, 0, 0⟩) 0x100 0]

/-- The host still masks what the guest no longer does, `SIG_IGN` stays for a signal that becomes required, signal 0 is taken,
and an action is lost to the old one at the same place. -/
theorem actions_not_mirrored :
    ¬Right false .initial unmaskingCalls ∧
    ¬Right false .initial [.guest 10 (actionAt ⟨SIG_IGN, 0, 0, 0⟩) 0x100 0, .host 9 true] ∧
    ¬Right false .initial [.guest 0 (fun _ => 0) 0 0] ∧
    ¬Right false .initial [.guest 10 (actionAt ⟨0x1000, 0, 0, 0⟩) 0x100 0x100] := by
  refine ⟨fun h => ?_, fun h => ?_, fun h => ?_, fun h => ?_⟩
  · have installed := h.2.2.2.2 9
    simp only [Call.run] at installed
    rw [registered_at, registered_at] at installed
    have := (installed (by decide)).mask 11
    revert this
    decide
  · have installed := h.2.2.2.2 9
    simp only [Call.run] at installed
    rw [registered_at] at installed
    have := (installed (by decide)).ignored.mp (by decide)
    revert this
    decide
  · have := h.2.1.errors.mpr (.inl (by decide))
    revert this
    decide
  · have kept := ((answered_iff _ _ _ _).mp h.2.1).2 (by decide)
    have := (keepsAction_one_pointer_iff 10 _ _ (by decide)).mp (kept.2 9 (by decide) (by decide) (by decide))
    rw [actionAt, load_store] at this
    revert this
    decide

end FexEmu.LinuxSyscalls.Signals
