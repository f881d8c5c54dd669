import FexEmu.Utils.Allocator64Runs
/-!
# Host calls of the 64-bit allocator

`Mmap` with its calls of `::mmap`, and when one that fails has mapped nothing.
-/
namespace FexEmu.Allocator64

/-! ## Calls -/

/-- A call of `::mmap` at a fixed address. -/
structure HostCall where
  addr : Nat
  error : Option Nat
deriving DecidableEq, Repr

abbrev Trace := List HostCall

def Trace.mapped (t : Trace) : List Nat := (t.filter (·.error.isNone)).map (·.addr)

section Traced
variable (outcome : Nat → Nat → Option Nat) (length : Nat)

/-- The next call. Its outcome may depend on how many there were. -/
def Trace.ask (t : Trace) (addr : Nat) : Trace := t ++ [⟨addr, outcome t.length addr⟩]

def tracedFits (r : LiveVMARegion) (startingPosition : Option Nat) (t : Trace) (allocatedOffset : Nat) :
    Trace × Nat × Fits :=
  let page := allocatedPage r length startingPosition
  if page = 0 then (t, allocatedOffset, .none)
  else
    let offset := r.slabInfo.base + page * pageSize
    (t.ask outcome offset, offset, (outcome t.length offset).elim .placed .failed)

def tracedLive : List LiveVMARegion → Nat → Trace → Nat → Trace × Nat × Option Nat
  | [], _, t, allocatedOffset => (t, allocatedOffset, none)
  | r :: rest, i, t, allocatedOffset =>
    match tracedFits outcome length r none t allocatedOffset with
    | (t, offset, .placed) => (t, offset, some i)
    | (t, offset, _) => tracedLive rest (i + 1) t offset

/-- The first reserved region that is large enough is made active. -/
def activateReserved (s : Allocator) : Option Allocator :=
  let lengthPlusManagedData := (length + sizeOfLiveRegion length) % 2 ^ 64
  (s.reservedRegions.findIdx? (fun r => lengthPlusManagedData ≤ r.regionSize)).bind fun j =>
    s.reservedRegions[j]?.map (s.makeRegionActive j)

def tracedAgain : Nat → Allocator → Trace → Nat → Allocator × Trace × Nat × Option Nat
  | 0, s, t, allocatedOffset => (s, t, allocatedOffset, none)
  | fuel + 1, s, t, allocatedOffset =>
    match tracedLive outcome length s.liveRegions 0 t allocatedOffset with
    | (t, offset, some i) => (s, t, offset, some i)
    | (t, offset, none) =>
      match activateReserved length s with
      | none => (s, t, offset, none)
      | some s => tracedAgain fuel s t offset

def tracedFixed (c : MmapCall) (s : Allocator) : Option Nat → Allocator × Trace × Except Error Nat
  | none => (s, [], .error .ENOMEM)
  | some i =>
    match s.liveRegions[i]? with
    | none => (s, [], .error .ENOMEM)
    | some r =>
      if c.mapFixedNoReplace then
        let (t, fits) := tracedFits outcome length r (some c.addr) [] 0
        if fits = (c.addr, .placed) then (s.track i c.addr length, t, .ok c.addr) else (s, t, .error .EEXIST)
      else
        let t := Trace.ask outcome [] c.addr
        match outcome 0 c.addr with
        | some errno => (s, t, .error (.kernel errno))
        | none => (s.track i c.addr length, t, .ok c.addr)

def tracedHint (c : MmapCall) (s : Allocator) : Option Nat → Trace × Nat × Option Nat
  | none => ([], 0, none)
  | some i =>
    match s.liveRegions[i]? with
    | none => ([], 0, none)
    | some r =>
      match tracedFits outcome length r (some c.addr) [] 0 with
      | (t, offset, .placed) => if offset = c.addr then (t, offset, some i) else (t, offset, none)
      | (t, offset, _) => (t, offset, none)

def tracedAnywhere (c : MmapCall) (s : Allocator) (i : Option Nat) : Allocator × Trace × Except Error Nat :=
  match tracedHint outcome length c s i with
  | (t, offset, some i) => ((finishMmap length (s, offset, some i)).1, t, (finishMmap length (s, offset, some i)).2)
  | (t, offset, none) =>
    let (s, t, placed) := tracedAgain outcome length (s.reservedRegions.length + 1) s t offset
    ((finishMmap length (s, placed)).1, t, (finishMmap length (s, placed)).2)

end Traced

/-- `Mmap`. A call that is handed to the kernel is the only one. -/
def tracedMmap (outcome : Nat → Nat → Option Nat) (s : Allocator) (c : MmapCall) : Allocator × Trace × Result :=
  if c.addr ≠ 0 ∧ c.addr < LOWER_BOUND then
    match c.kernel.mmap with
    | .ok addr => (s, [⟨addr, none⟩], .handed (.ok addr))
    | .error errno => (s, [⟨c.addr, some errno⟩], .handed (.error errno))
  else if c.addr % pageSize ≠ 0 then (s, [], .error .EINVAL)
  else if c.fd ≠ -1 ∧ c.offset % pageSize ≠ 0 then (s, [], .error .EINVAL)
  else if 2 ^ 64 ≤ c.addr + c.length then (s, [], .error .EOVERFLOW)
  else
    let length := alignUp c.length pageSize
    let found := c.lookup s
    let result :=
      if c.fixed then tracedFixed outcome length c found.1 found.2 else tracedAnywhere outcome length c found.1 found.2
    (result.1, result.2.1, .ofExcept result.2.2)

/-! ## The same without the calls -/

section Refines
variable (k : Kernel) (length : Nat)

/-- The answers of a kernel that only looks at the mapping. -/
abbrev Kernel.outcome : Nat → Nat → Option Nat := fun _ addr => k.mmapFixed addr length

theorem tracedFits_eq (r : LiveVMARegion) (startingPosition : Option Nat) (t : Trace) (allocatedOffset : Nat) :
    (tracedFits (k.outcome length) length r startingPosition t allocatedOffset).2 =
      checkIfRangeFits k r length startingPosition allocatedOffset := by
  unfold tracedFits checkIfRangeFits
  dsimp only
  by_cases hpage : allocatedPage r length startingPosition = 0
  · rw [if_pos hpage, if_pos hpage]
  · rw [if_neg hpage, if_neg hpage]
    unfold Kernel.outcome
    cases k.mmapFixed (r.slabInfo.base + allocatedPage r length startingPosition * pageSize) length <;> rfl

theorem tracedLive_eq (l : List LiveVMARegion) (i : Nat) (t : Trace) (allocatedOffset : Nat) :
    (tracedLive (k.outcome length) length l i t allocatedOffset).2 = placeLive k length l i allocatedOffset := by
  induction l generalizing i t allocatedOffset with
  | nil => rfl
  | cons r rest ih =>
    rw [tracedLive, placeLive, ← tracedFits_eq k length r none t allocatedOffset]
    rcases tracedFits (k.outcome length) length r none t allocatedOffset with ⟨t', offset, fits⟩
    cases fits with
    | placed => rfl
    | none | failed _ => exact ih _ _ _

theorem placeAgain_none {s : Allocator} {fuel allocatedOffset offset : Nat}
    (h : placeLive k length s.liveRegions 0 allocatedOffset = (offset, none)) :
    placeAgain k length (fuel + 1) s allocatedOffset =
      (activateReserved length s).elim (s, offset, none) fun s' => placeAgain k length fuel s' offset := by
  rw [placeAgain, h]
  unfold activateReserved
  dsimp only
  cases s.reservedRegions.findIdx? (fun r => (length + sizeOfLiveRegion length) % 2 ^ 64 ≤ r.regionSize) with
  | none => rfl
  | some j =>
    dsimp only [Option.bind_some]
    cases s.reservedRegions[j]? <;> rfl

theorem tracedAgain_eq (fuel : Nat) (s : Allocator) (t : Trace) (allocatedOffset : Nat) :
    ((tracedAgain (k.outcome length) length fuel s t allocatedOffset).1,
      (tracedAgain (k.outcome length) length fuel s t allocatedOffset).2.2) =
      placeAgain k length fuel s allocatedOffset := by
  induction fuel generalizing s t allocatedOffset with
  | zero => rfl
  | succ fuel ih =>
    have hlive := tracedLive_eq k length s.liveRegions 0 t allocatedOffset
    rw [tracedAgain]
    rcases htraced : tracedLive (k.outcome length) length s.liveRegions 0 t allocatedOffset with ⟨t', offset, i⟩
    rw [htraced] at hlive
    cases i with
    | some i =>
      rw [placeAgain, ← hlive]
    | none =>
      rw [placeAgain_none k length hlive.symm]
      cases activateReserved length s with
      | none => rfl
      | some s' => exact ih _ _ _

theorem tracedFixed_eq (c : MmapCall) (s : Allocator) (i : Option Nat) :
    ((tracedFixed (c.kernel.outcome length) length c s i).1, (tracedFixed (c.kernel.outcome length) length c s i).2.2) =
      mmapFixed c s length i := by
  unfold tracedFixed mmapFixed
  cases i with
  | none => rfl
  | some i =>
    dsimp only
    cases s.liveRegions[i]? with
    | none => rfl
    | some r =>
      dsimp only
      rw [← tracedFits_eq c.kernel length r (some c.addr) [] 0]
      split
      · split <;> rfl
      · unfold Kernel.outcome
        cases c.kernel.mmapFixed c.addr length <;> rfl

theorem tracedHint_eq (c : MmapCall) (s : Allocator) (i : Option Nat) :
    (tracedHint (c.kernel.outcome length) length c s i).2 = tryHint c s length i := by
  unfold tracedHint tryHint
  cases i with
  | none => rfl
  | some i =>
    dsimp only
    cases s.liveRegions[i]? with
    | none => rfl
    | some r =>
      dsimp only
      rw [← tracedFits_eq c.kernel length r (some c.addr) [] 0]
      rcases tracedFits (c.kernel.outcome length) length r (some c.addr) [] 0 with ⟨t, offset, fits⟩
      cases fits with
      | placed =>
        dsimp only
        split <;> rfl
      | none | failed _ => rfl

theorem tracedAnywhere_eq (c : MmapCall) (s : Allocator) (i : Option Nat) :
    ((tracedAnywhere (c.kernel.outcome length) length c s i).1,
      (tracedAnywhere (c.kernel.outcome length) length c s i).2.2) = mmapAnywhere c s length i := by
  unfold tracedAnywhere mmapAnywhere
  rw [← tracedHint_eq]
  rcases tracedHint (c.kernel.outcome length) length c s i with ⟨t, offset, placed⟩
  cases placed with
  | some i => rfl
  | none =>
    dsimp only
    rw [← tracedAgain_eq c.kernel length _ s t offset]

/-- With the answers of a kernel that only looks at the mapping, `Mmap` does what it does without the trace. -/
theorem tracedMmap_eq (s : Allocator) (c : MmapCall) :
    ((tracedMmap (c.kernel.outcome (alignUp c.length pageSize)) s c).1,
      (tracedMmap (c.kernel.outcome (alignUp c.length pageSize)) s c).2.2) = mmap s c := by
  unfold tracedMmap mmap
  split
  · cases c.kernel.mmap <;> rfl
  · split
    · rfl
    · split
      · rfl
      · split
        · rfl
        · dsimp only
          cases c.fixed with
          | true => rw [if_pos rfl, if_pos rfl, ← tracedFixed_eq]
          | false => rw [if_neg Bool.false_ne_true, if_neg Bool.false_ne_true, ← tracedAnywhere_eq]

end Refines

/-! ## Places -/

/-- Where a region has room, as the search sees it. -/
def LiveVMARegion.place (r : LiveVMARegion) (length : Nat) (startingPosition : Option Nat) : Option Nat :=
  if allocatedPage r length startingPosition = 0 then none
  else some (r.slabInfo.base + allocatedPage r length startingPosition * pageSize)

def places (length : Nat) : Nat → Allocator → List Nat
  | 0, _ => []
  | fuel + 1, s =>
    s.liveRegions.filterMap (·.place length none) ++ (activateReserved length s).elim [] (places length fuel)

/-- One of the places is granted, if those before it are asked for first. -/
def Granted (outcome : Nat → Nat → Option Nat) (asked : Nat) (l : List Nat) : Prop :=
  ∃ j a, l[j]? = some a ∧ outcome (asked + j) a = none

section Places
variable (outcome : Nat → Nat → Option Nat) (length : Nat)

/-- The calls for a list of places, up to the first that is granted. -/
def askAll : List Nat → Trace → Nat → Trace × Nat × Bool
  | [], t, offset => (t, offset, false)
  | a :: rest, t, _ => if outcome t.length a = none then (t.ask outcome a, a, true) else askAll rest (t.ask outcome a) a

theorem askAll_append (l l' : List Nat) (t : Trace) (offset : Nat) :
    askAll outcome (l ++ l') t offset =
      if (askAll outcome l t offset).2.2 then askAll outcome l t offset
      else askAll outcome l' (askAll outcome l t offset).1 (askAll outcome l t offset).2.1 := by
  induction l generalizing t offset with
  | nil => rfl
  | cons a rest ih =>
    rw [List.cons_append, askAll, askAll]
    split
    · rfl
    · exact ih _ _

theorem tracedLive_asks (l : List LiveVMARegion) (i : Nat) (t : Trace) (offset : Nat) :
    ((tracedLive outcome length l i t offset).1, (tracedLive outcome length l i t offset).2.1,
      (tracedLive outcome length l i t offset).2.2.isSome) =
      askAll outcome (l.filterMap (·.place length none)) t offset := by
  induction l generalizing i t offset with
  | nil => rfl
  | cons r rest ih =>
    rw [tracedLive]
    unfold tracedFits
    dsimp only
    by_cases hpage : allocatedPage r length none = 0
    · have hplace : r.place length none = none := if_pos hpage
      have hcons : (r :: rest).filterMap (·.place length none) = rest.filterMap (·.place length none) :=
        List.filterMap_cons_none hplace
      rw [if_pos hpage, hcons]
      exact ih _ _ _
    · have hplace : r.place length none = some (r.slabInfo.base + allocatedPage r length none * pageSize) := if_neg hpage
      have hcons : (r :: rest).filterMap (·.place length none) = _ :: rest.filterMap (·.place length none) :=
        List.filterMap_cons_some hplace
      rw [if_neg hpage, hcons, askAll]
      cases houtcome : outcome t.length (r.slabInfo.base + allocatedPage r length none * pageSize) with
      | none => rfl
      | some errno => exact ih _ _ _

theorem tracedAgain_asks (fuel : Nat) (s : Allocator) (t : Trace) (offset : Nat) :
    ((tracedAgain outcome length fuel s t offset).2.1, (tracedAgain outcome length fuel s t offset).2.2.1,
      (tracedAgain outcome length fuel s t offset).2.2.2.isSome) = askAll outcome (places length fuel s) t offset := by
  induction fuel generalizing s t offset with
  | zero => rfl
  | succ fuel ih =>
    have hlive := tracedLive_asks outcome length s.liveRegions 0 t offset
    rw [tracedAgain, places, askAll_append, ← hlive]
    rcases tracedLive outcome length s.liveRegions 0 t offset with ⟨t', offset', i⟩
    cases i with
    | some i => rfl
    | none =>
      dsimp only [Option.isSome_none]
      cases activateReserved length s with
      | none => rfl
      | some s' => exact ih _ _ _

theorem askAll_granted (l : List Nat) (t : Trace) (offset : Nat) (h : Granted outcome t.length l) :
    (askAll outcome l t offset).2.2 = true ∧
      (askAll outcome l t offset).1.getLast? = some ⟨(askAll outcome l t offset).2.1, none⟩ ∧
      Trace.mapped (askAll outcome l t offset).1 = t.mapped ++ [(askAll outcome l t offset).2.1] := by
  induction l generalizing t offset with
  | nil =>
    obtain ⟨j, a, hj, -⟩ := h
    cases hj
  | cons a rest ih =>
    rw [askAll]
    split
    case isTrue ha =>
      refine ⟨rfl, ?_, ?_⟩
      · rw [Trace.ask, List.getLast?_append_of_ne_nil _ (by simp), ha]
        rfl
      · unfold Trace.mapped Trace.ask
        rw [List.filter_append, List.map_append, ha]
        rfl
    case isFalse ha =>
      have hrest : Granted outcome (t.ask outcome a).length rest := by
        obtain ⟨j, b, hj, hb⟩ := h
        cases j with
        | zero =>
          cases hj
          exact absurd hb ha
        | succ j =>
          refine ⟨j, b, hj, ?_⟩
          rw [Trace.ask, List.length_append, List.length_singleton, Nat.add_assoc, Nat.add_comm 1 j]
          exact hb
      obtain ⟨hsome, hlast, hmapped⟩ := ih (t.ask outcome a) a hrest
      refine ⟨hsome, hlast, hmapped.trans ?_⟩
      congr 1
      unfold Trace.mapped Trace.ask
      rw [List.filter_append, List.map_append]
      cases houtcome : outcome t.length a with
      | none => exact absurd houtcome ha
      | some errno => exact List.append_nil _

theorem askAll_denied (l : List Nat) (t : Trace) (offset : Nat) (h : ¬ Granted outcome t.length l) :
    (askAll outcome l t offset).2.2 = false ∧ Trace.mapped (askAll outcome l t offset).1 = t.mapped ∧
      (l = [] → (askAll outcome l t offset).1 = t ∧ (askAll outcome l t offset).2.1 = offset) ∧
      (l ≠ [] → (askAll outcome l t offset).2.1 ∈ l ∧
        ∃ errno, (askAll outcome l t offset).1.getLast? = some ⟨(askAll outcome l t offset).2.1, some errno⟩) := by
  induction l generalizing t offset with
  | nil => exact ⟨rfl, rfl, fun _ => ⟨rfl, rfl⟩, fun hne => absurd rfl hne⟩
  | cons a rest ih =>
    have ha : outcome t.length a ≠ none := fun ha => h ⟨0, a, rfl, ha⟩
    have hrest : ¬ Granted outcome (t.ask outcome a).length rest := by
      rintro ⟨j, b, hj, hb⟩
      refine h ⟨j + 1, b, hj, ?_⟩
      rw [Trace.ask, List.length_append, List.length_singleton, Nat.add_assoc, Nat.add_comm 1 j] at hb
      exact hb
    obtain ⟨hsome, hmapped, hnil, hcons⟩ := ih (t.ask outcome a) a hrest
    obtain ⟨errno, herrno⟩ := Option.ne_none_iff_exists'.1 ha
    rw [askAll, if_neg ha]
    refine ⟨hsome, hmapped.trans ?_, fun hne => absurd hne (List.cons_ne_nil _ _), fun _ => ?_⟩
    · unfold Trace.mapped Trace.ask
      rw [List.filter_append, List.map_append, herrno]
      exact List.append_nil _
    · by_cases hempty : rest = []
      · obtain ⟨htrace, hoffset⟩ := hnil hempty
        rw [htrace, hoffset]
        refine ⟨List.mem_cons_self, errno, ?_⟩
        rw [Trace.ask, List.getLast?_append_of_ne_nil _ (by simp), herrno]
        rfl
      · obtain ⟨hmem, hlast⟩ := hcons hempty
        exact ⟨List.mem_cons_of_mem _ hmem, hlast⟩

theorem activateReserved_activates {s s' : Allocator} (h : activateReserved length s = some s') : Activates s s' := by
  obtain ⟨j, -, hj⟩ := Option.bind_eq_some_iff.1 h
  obtain ⟨r, hr, rfl⟩ := Option.map_eq_some_iff.1 hj
  exact .step hr (.refl _)

theorem tracedAgain_activates (fuel : Nat) (s : Allocator) (t : Trace) (offset : Nat) :
    Activates s (tracedAgain outcome length fuel s t offset).1 := by
  induction fuel generalizing s t offset with
  | zero => exact .refl s
  | succ fuel ih =>
    rw [tracedAgain]
    rcases tracedLive outcome length s.liveRegions 0 t offset with ⟨t', offset', i⟩
    cases i with
    | some i => exact .refl s
    | none =>
      cases hactive : activateReserved length s with
      | none => exact .refl s
      | some s' => exact (activateReserved_activates length hactive).trans (ih s' t' offset')

theorem place_pos {r : LiveVMARegion} {startingPosition : Option Nat} {a : Nat}
    (h : r.place length startingPosition = some a) : a ≠ 0 := by
  unfold LiveVMARegion.place at h
  split at h
  case isTrue => cases h
  case isFalse hpage =>
    cases h
    unfold pageSize
    omega

theorem mem_places_pos (fuel : Nat) (s : Allocator) : ∀ a ∈ places length fuel s, a ≠ 0 := by
  induction fuel generalizing s with
  | zero => simp [places]
  | succ fuel ih =>
    intro a ha
    rcases List.mem_append.1 ha with ha | ha
    · obtain ⟨r, -, hr⟩ := List.mem_filterMap.1 ha
      exact place_pos length hr
    · cases hactive : activateReserved length s with
      | none =>
        rw [hactive] at ha
        cases ha
      | some s' =>
        rw [hactive] at ha
        exact ih s' a ha

end Places

/-! ## Failing calls -/

/-- `MAP_FAILED` or a negative errno. -/
def Result.isError : Result → Bool
  | .error _ | .handed (.error _) => true
  | .ok _ | .handed (.ok _) => false

def Result.addr : Result → Option Nat
  | .ok addr | .handed (.ok addr) => some addr
  | .error _ | .handed (.error _) => none

/-- A page of the range is used. -/
def MmapCall.Occupied (c : MmapCall) (r : LiveVMARegion) : Prop :=
  ∃ i < alignUp c.length pageSize / pageSize, r.usedPages.get ((c.addr - r.slabInfo.base) / pageSize + i) = true

/-- A `Mmap` that fails maps nothing and changes no region, and one that succeeds makes one mapping where it returns. It
fails if its last call does, or if a range that it must not replace is used. -/
structure Clean (s : Allocator) (c : MmapCall) (s' : Allocator) (t : Trace) (result : Result) : Prop where
  failed : result.isError = true → t.mapped = [] ∧ Activates s s'
  succeeded : ∀ addr, result.addr = some addr → t.mapped = [addr]
  placement : ∀ addr errno, t.getLast? = some ⟨addr, some errno⟩ → result.isError = true
  occupied : c.Served → c.mapFixedNoReplace = true → ∀ r, c.region s = some r → c.Occupied r → result.isError = true

def MmapCall.hintPlace (c : MmapCall) (s : Allocator) : Option Nat :=
  (c.region s).bind (·.place (alignUp c.length pageSize) (some c.addr))

/-- The places that a call asks for behind its address. -/
def MmapCall.places (c : MmapCall) (s : Allocator) : List Nat :=
  Allocator64.places (alignUp c.length pageSize) ((c.lookup s).1.reservedRegions.length + 1) (c.lookup s).1

/-- Nothing is mapped where a call does not want it, and the last place that is asked for is granted. -/
structure MmapCall.NoStray (c : MmapCall) (outcome : Nat → Nat → Option Nat) (s : Allocator) : Prop where
  noReplace : c.mapFixedNoReplace = true → ∀ a, c.hintPlace s = some a → a ≠ c.addr → outcome 0 a ≠ none
  unhinted : c.fixed = false → c.hintPlace s = none → c.places s = [] ∨ Granted outcome 0 (c.places s)
  hintGranted : c.fixed = false → ∀ a, c.hintPlace s = some a → outcome 0 a = none → a = c.addr ∨ c.places s = []
  hintDenied : c.fixed = false → ∀ a, c.hintPlace s = some a → outcome 0 a ≠ none → Granted outcome 1 (c.places s)

section Again
variable {outcome : Nat → Nat → Option Nat} {length fuel offset : Nat} {s : Allocator} {t : Trace}

theorem tracedAgain_granted (h : Granted outcome t.length (places length fuel s)) :
    ∃ s' t' a i, tracedAgain outcome length fuel s t offset = (s', t', a, some i) ∧ t'.getLast? = some ⟨a, none⟩ ∧
      Trace.mapped t' = t.mapped ++ [a] := by
  have hasks := tracedAgain_asks outcome length fuel s t offset
  obtain ⟨hsome, hlast, hmapped⟩ := askAll_granted outcome (places length fuel s) t offset h
  rw [← hasks] at hsome hlast hmapped
  obtain ⟨i, hi⟩ := Option.isSome_iff_exists.1 hsome
  exact ⟨_, _, _, i, Prod.ext rfl (Prod.ext rfl (Prod.ext rfl hi)), hlast, hmapped⟩

theorem tracedAgain_denied (h : ¬ Granted outcome t.length (places length fuel s)) (hne : places length fuel s ≠ []) :
    ∃ s' t' a errno, tracedAgain outcome length fuel s t offset = (s', t', a, none) ∧ a ≠ 0 ∧
      t'.getLast? = some ⟨a, some errno⟩ := by
  have hasks := tracedAgain_asks outcome length fuel s t offset
  obtain ⟨hsome, -, -, hcons⟩ := askAll_denied outcome (places length fuel s) t offset h
  obtain ⟨hmem, errno, hlast⟩ := hcons hne
  have hpos := mem_places_pos length fuel s _ hmem
  rw [← hasks] at hsome hlast hpos
  exact ⟨_, _, _, errno,
    Prod.ext rfl (Prod.ext rfl (Prod.ext rfl (Option.isNone_iff_eq_none.1 (Option.isSome_eq_false_iff.1 hsome)))),
    hpos, hlast⟩

theorem tracedAgain_nothing (h : places length fuel s = []) :
    ∃ s', Activates s s' ∧ tracedAgain outcome length fuel s t offset = (s', t, offset, none) := by
  have hasks := tracedAgain_asks outcome length fuel s t offset
  rw [h, askAll] at hasks
  have htrace := congrArg Prod.fst hasks
  have hoffset := congrArg (·.2.1) hasks
  have hsome := congrArg (·.2.2) hasks
  refine ⟨_, tracedAgain_activates outcome length fuel s t offset, Prod.ext rfl (Prod.ext htrace (Prod.ext hoffset ?_))⟩
  exact Option.isNone_iff_eq_none.1 (Option.isSome_eq_false_iff.1 hsome)

end Again

section Clean
variable {outcome : Nat → Nat → Option Nat} {s s' : Allocator} {c : MmapCall} {t : Trace}

theorem clean_error (h : Activates s s') (ht : t.mapped = []) (e : Error) : Clean s c s' t (.error e) where
  failed := fun _ => ⟨ht, h⟩
  succeeded := fun _ h => by cases h
  placement := fun _ _ _ => rfl
  occupied := fun _ _ _ _ _ => rfl

theorem clean_ok {addr : Nat} (ht : t.mapped = [addr]) (hlast : t.getLast? = some ⟨addr, none⟩)
    (hfree : c.mapFixedNoReplace = true → ∀ r, c.region s = some r → ¬ c.Occupied r) : Clean s c s' t (.ok addr) where
  failed := fun h => by cases h
  succeeded := fun _ h => by
    cases h
    exact ht
  placement := fun _ _ h => by
    rw [hlast] at h
    cases h
  occupied := fun _ hflag r hr hused => absurd hused (hfree hflag r hr)

theorem mapped_failed {addr errno : Nat} : Trace.mapped [⟨addr, some errno⟩] = [] := rfl

theorem mapped_granted {addr : Nat} : Trace.mapped [⟨addr, none⟩] = [addr] := rfl

theorem allocatedPage_free {r : LiveVMARegion} {length : Nat} {startingPosition : Option Nat}
    (h : allocatedPage r length startingPosition ≠ 0) : ∀ i < length / pageSize,
    r.usedPages.get (allocatedPage r length startingPosition + i) = false := by
  intro i hi
  unfold allocatedPage at h ⊢
  dsimp only at h ⊢
  split at h
  case isFalse => exact absurd rfl h
  case isTrue hlength =>
    rw [if_pos hlength]
    split at h
    case isTrue hback =>
      rw [if_pos hback]
      obtain ⟨-, -, hfree⟩ := forwardScan_spec _ h
      exact hfree _ (Nat.le_add_right _ _) (by omega)
    case isFalse hback =>
      rw [if_neg hback]
      obtain ⟨-, hfree, -⟩ := backwardScan_spec _ h
      exact hfree _ (Nat.le_add_right _ _) (by omega)

theorem not_occupied {r : LiveVMARegion} (h : r.place (alignUp c.length pageSize) (some c.addr) = some c.addr) :
    ¬ c.Occupied r := by
  rintro ⟨i, hi, hused⟩
  unfold LiveVMARegion.place at h
  split at h
  case isTrue => cases h
  case isFalse hpage =>
    have haddr := Option.some_inj.1 h
    have hdiv : (c.addr - r.slabInfo.base) / pageSize = allocatedPage r (alignUp c.length pageSize) (some c.addr) := by
      unfold pageSize at *
      omega
    rw [hdiv, allocatedPage_free hpage i hi] at hused
    cases hused

theorem tracedFits_place (r : LiveVMARegion) (length : Nat) (startingPosition : Option Nat) (t : Trace) (offset : Nat) :
    tracedFits outcome length r startingPosition t offset =
      (r.place length startingPosition).elim (t, offset, .none) fun a =>
        (t.ask outcome a, a, (outcome t.length a).elim .placed .failed) := by
  unfold tracedFits LiveVMARegion.place
  dsimp only
  split <;> rfl

theorem ask_first {addr : Nat} {error : Option Nat} (h : outcome 0 addr = error) :
    Trace.ask outcome [] addr = [⟨addr, error⟩] := by
  rw [← h]
  rfl

/-- What a placement leaves, with the error that it may have. -/
abbrev CleanEnd (s : Allocator) (c : MmapCall) (e : Allocator × Trace × Except Error Nat) : Prop :=
  Clean s c e.1 e.2.1 (.ofExcept e.2.2)

theorem tracedFixed_clean (hfixed : c.fixed = true) :
    CleanEnd s c (tracedFixed outcome (alignUp c.length pageSize) c (c.lookup s).1 (c.lookup s).2) ↔
      c.NoStray outcome s := by
  obtain ⟨hactive, hregion⟩ := @lookup_spec s c
  have hnot : c.fixed = false → False := fun h => by
    rw [hfixed] at h
    cases h
  have hiff : c.NoStray outcome s ↔
      (c.mapFixedNoReplace = true → ∀ a, c.hintPlace s = some a → a ≠ c.addr → outcome 0 a ≠ none) :=
    ⟨fun h => h.noReplace, fun h => ⟨h, fun h => (hnot h).elim, fun h => (hnot h).elim, fun h => (hnot h).elim⟩⟩
  rw [hiff]
  cases hfound : (c.lookup s).2 with
  | none =>
    have hplace : c.hintPlace s = none := by
      rw [MmapCall.hintPlace, MmapCall.region, hfound]
      rfl
    refine ⟨fun _ _ a ha => ?_, fun _ => clean_error hactive rfl .ENOMEM⟩
    rw [hplace] at ha
    cases ha
  | some i =>
    obtain ⟨r, hr, hreg⟩ := hregion i hfound
    have hplace : c.hintPlace s = r.place (alignUp c.length pageSize) (some c.addr) := by
      rw [MmapCall.hintPlace, hreg]
      rfl
    rw [hplace]
    -- MAP_FIXED alone replaces what is there, so only the host can refuse
    by_cases hflag : c.mapFixedNoReplace = true
    · cases hroom : r.place (alignUp c.length pageSize) (some c.addr) with
      | none =>
        have hend : tracedFixed outcome (alignUp c.length pageSize) c (c.lookup s).1 (some i) =
            ((c.lookup s).1, [], .error .EEXIST) := by
          simp [tracedFixed, hr, hflag, tracedFits_place, hroom]
        rw [hend]
        exact ⟨fun _ _ a ha => (by cases ha), fun _ => clean_error hactive rfl .EEXIST⟩
      | some a =>
        cases houtcome : outcome 0 a with
        | some errno =>
          have hend : tracedFixed outcome (alignUp c.length pageSize) c (c.lookup s).1 (some i) =
              ((c.lookup s).1, [⟨a, some errno⟩], .error .EEXIST) := by
            simp [tracedFixed, hr, hflag, tracedFits_place, hroom, houtcome, ask_first houtcome]
          rw [hend]
          refine ⟨fun _ _ b hb _ => ?_, fun _ => clean_error hactive mapped_failed .EEXIST⟩
          cases hb
          rw [houtcome]
          exact Option.some_ne_none errno
        | none =>
          -- a mapping elsewhere is reported as EEXIST and stays
          by_cases ha : a = c.addr
          · subst ha
            have hend : tracedFixed outcome (alignUp c.length pageSize) c (c.lookup s).1 (some i) =
                ((c.lookup s).1.track i c.addr (alignUp c.length pageSize), [⟨c.addr, none⟩], .ok c.addr) := by
              simp [tracedFixed, hr, hflag, tracedFits_place, hroom, houtcome, ask_first houtcome]
            rw [hend]
            refine ⟨fun _ _ b hb hne => ?_, fun _ => clean_ok mapped_granted rfl fun _ r' hr' => ?_⟩
            · cases hb
              exact absurd rfl hne
            · obtain rfl : r = r' := Option.some_inj.1 (hreg.symm.trans hr')
              exact not_occupied hroom
          · have hend : tracedFixed outcome (alignUp c.length pageSize) c (c.lookup s).1 (some i) =
                ((c.lookup s).1, [⟨a, none⟩], .error .EEXIST) := by
              simp [tracedFixed, hr, hflag, tracedFits_place, hroom, houtcome, ask_first houtcome, ha]
            rw [hend]
            constructor
            · intro hclean
              have hmapped := (hclean.failed rfl).1
              cases hmapped
            · intro hdenied
              exact absurd houtcome (hdenied hflag a rfl ha)
    · refine ⟨fun _ h => absurd h hflag, fun _ => ?_⟩
      cases houtcome : outcome 0 c.addr with
      | none =>
        have hend : tracedFixed outcome (alignUp c.length pageSize) c (c.lookup s).1 (some i) =
            ((c.lookup s).1.track i c.addr (alignUp c.length pageSize), [⟨c.addr, none⟩], .ok c.addr) := by
          simp [tracedFixed, hr, hflag, houtcome, ask_first houtcome]
        rw [hend]
        exact clean_ok mapped_granted rfl fun h => absurd h hflag
      | some errno =>
        have hend : tracedFixed outcome (alignUp c.length pageSize) c (c.lookup s).1 (some i) =
            ((c.lookup s).1, [⟨c.addr, some errno⟩], .error (.kernel errno)) := by
          simp [tracedFixed, hr, hflag, houtcome, ask_first houtcome]
        rw [hend]
        exact clean_error hactive mapped_failed (.kernel errno)

theorem again_clean {s₁ : Allocator} {offset fuel : Nat} (hactive : Activates s s₁) (hflag : c.mapFixedNoReplace = false)
    (ht : t = [] ∧ offset = 0 ∨ ∃ error, t = [⟨offset, error⟩] ∧ offset ≠ 0) :
    CleanEnd s c
        ((finishMmap (alignUp c.length pageSize) ((tracedAgain outcome (alignUp c.length pageSize) fuel s₁ t offset).1,
            (tracedAgain outcome (alignUp c.length pageSize) fuel s₁ t offset).2.2)).1,
          (tracedAgain outcome (alignUp c.length pageSize) fuel s₁ t offset).2.1,
          (finishMmap (alignUp c.length pageSize) ((tracedAgain outcome (alignUp c.length pageSize) fuel s₁ t offset).1,
            (tracedAgain outcome (alignUp c.length pageSize) fuel s₁ t offset).2.2)).2) ↔
      (t.mapped = [] ∧ Granted outcome t.length (places (alignUp c.length pageSize) fuel s₁)) ∨
        (places (alignUp c.length pageSize) fuel s₁ = [] ∧ (t = [] ∨ t = [⟨offset, none⟩])) := by
  have hfree : ∀ {p : Prop}, c.mapFixedNoReplace = true → p := fun h => by
    rw [hflag] at h
    cases h
  -- the search ends with a place that the host grants, with no place at all, or with the last one denied
  by_cases hgranted : Granted outcome t.length (places (alignUp c.length pageSize) fuel s₁)
  · obtain ⟨s', t', a, i, hend, hlast, hmapped⟩ := @tracedAgain_granted outcome _ fuel offset s₁ t hgranted
    rw [hend]
    constructor
    · intro hclean
      have hone := hclean.succeeded a rfl
      rw [hmapped] at hone
      exact .inl ⟨by simpa using hone, hgranted⟩
    · rintro (⟨hnone, -⟩ | ⟨hnothing, -⟩)
      · refine clean_ok ?_ hlast hfree
        rw [hmapped, hnone]
        rfl
      · obtain ⟨j, b, hj, -⟩ := hgranted
        rw [hnothing] at hj
        cases hj
  · by_cases hnothing : places (alignUp c.length pageSize) fuel s₁ = []
    · obtain ⟨s', hactive', hend⟩ := @tracedAgain_nothing outcome _ fuel offset s₁ t hnothing
      rw [hend]
      rcases ht with ⟨rfl, rfl⟩ | ⟨error, rfl, hne⟩
      · exact ⟨fun _ => .inr ⟨hnothing, .inl rfl⟩, fun _ => clean_error (hactive.trans hactive') rfl .ENOMEM⟩
      · have hfinish : finishMmap (alignUp c.length pageSize) (s', offset, none) = (s', .ok offset) := by
          rw [finishMmap, if_neg hne]
        rw [hfinish]
        cases error with
        | none => exact ⟨fun _ => .inr ⟨hnothing, .inr rfl⟩, fun _ => clean_ok mapped_granted rfl hfree⟩
        | some errno =>
          constructor
          · intro hclean
            have herror := hclean.placement offset errno rfl
            cases herror
          · rintro (⟨-, h⟩ | ⟨-, h | h⟩)
            · exact absurd h hgranted
            · cases h
            · cases h
    · obtain ⟨s', t', a, errno, hend, hne, hlast⟩ := @tracedAgain_denied outcome _ fuel offset s₁ t hgranted hnothing
      have hfinish : finishMmap (alignUp c.length pageSize) (s', a, none) = (s', .ok a) := by
        rw [finishMmap, if_neg hne]
      rw [hend]
      constructor
      · intro hclean
        rw [hfinish] at hclean
        have herror := hclean.placement a errno hlast
        cases herror
      · rintro (⟨-, h⟩ | ⟨h, -⟩)
        · exact absurd h hgranted
        · exact absurd h hnothing

theorem tracedAnywhere_clean (hfixed : c.fixed = false) :
    CleanEnd s c (tracedAnywhere outcome (alignUp c.length pageSize) c (c.lookup s).1 (c.lookup s).2) ↔
      c.NoStray outcome s := by
  obtain ⟨hactive, hregion⟩ := @lookup_spec s c
  have hflag : c.mapFixedNoReplace = false := by
    exact (Bool.or_eq_false_iff.1 hfixed).2
  have hnot : ∀ {p : Prop}, c.mapFixedNoReplace = true → p := fun h => by
    rw [hflag] at h
    cases h
  have hagain : ∀ {t : Trace} {offset : Nat}, _ → _ :=
    fun {t offset} => @again_clean outcome s c t _ offset ((c.lookup s).1.reservedRegions.length + 1) hactive hflag
  -- without room at the hint the first call is the one of the search
  cases hplace : c.hintPlace s with
  | none =>
    have hhint : tracedHint outcome (alignUp c.length pageSize) c (c.lookup s).1 (c.lookup s).2 = ([], 0, none) := by
      cases hfound : (c.lookup s).2 with
      | none => rfl
      | some i =>
        obtain ⟨r, hr, hreg⟩ := hregion i hfound
        rw [MmapCall.hintPlace, hreg, Option.bind_some] at hplace
        simp [tracedHint, hr, tracedFits_place, hplace]
    have hiff : c.NoStray outcome s ↔ c.places s = [] ∨ Granted outcome 0 (c.places s) := by
      refine ⟨fun h => h.unhinted hfixed hplace, fun h => ⟨hnot, fun _ _ => h, fun _ a ha => ?_, fun _ a ha => ?_⟩⟩ <;>
        · rw [hplace] at ha
          cases ha
    unfold tracedAnywhere
    rw [hhint, hiff]
    refine (hagain (.inl ⟨rfl, rfl⟩)).trans ⟨?_, ?_⟩
    · rintro (⟨-, h⟩ | ⟨h, -⟩)
      · exact .inr h
      · exact .inl h
    · rintro (h | h)
      · exact .inr ⟨h, .inl rfl⟩
      · exact .inl ⟨rfl, h⟩
  | some a =>
    obtain ⟨i, r, hfound, hr, hroom⟩ : ∃ i r, (c.lookup s).2 = some i ∧ (c.lookup s).1.liveRegions[i]? = some r ∧
        r.place (alignUp c.length pageSize) (some c.addr) = some a := by
      cases hfound : (c.lookup s).2 with
      | none =>
        rw [MmapCall.hintPlace, MmapCall.region, hfound] at hplace
        cases hplace
      | some i =>
        obtain ⟨r, hr, hreg⟩ := hregion i hfound
        rw [MmapCall.hintPlace, hreg, Option.bind_some] at hplace
        exact ⟨i, r, rfl, hr, hplace⟩
    have hpos := place_pos _ hroom
    have hiff : c.NoStray outcome s ↔ (outcome 0 a = none → a = c.addr ∨ c.places s = []) ∧
        (outcome 0 a ≠ none → Granted outcome 1 (c.places s)) := by
      refine ⟨fun h => ⟨h.hintGranted hfixed a hplace, h.hintDenied hfixed a hplace⟩,
        fun h => ⟨hnot, fun _ hnone => ?_, fun _ b hb => ?_, fun _ b hb => ?_⟩⟩
      · rw [hplace] at hnone
        cases hnone
      · rw [hplace] at hb
        cases hb
        exact h.1
      · rw [hplace] at hb
        cases hb
        exact h.2
    rw [hiff]
    unfold tracedAnywhere
    -- the place at the hint is asked for first; what the host answers decides where the search goes on
    cases houtcome : outcome 0 a with
    | some errno =>
      have hhint : tracedHint outcome (alignUp c.length pageSize) c (c.lookup s).1 (c.lookup s).2 =
          ([⟨a, some errno⟩], a, none) := by
        simp [tracedHint, hfound, hr, tracedFits_place, hroom, houtcome, ask_first houtcome]
      rw [hhint]
      refine (hagain (.inr ⟨some errno, rfl, hpos⟩)).trans ⟨?_, ?_⟩
      · rintro (⟨-, h⟩ | ⟨-, h | h⟩)
        · exact ⟨fun h' => (by cases h'), fun _ => h⟩
        · cases h
        · cases h
      · rintro ⟨-, h⟩
        exact .inl ⟨mapped_failed, h (Option.some_ne_none errno)⟩
    | none =>
      by_cases ha : a = c.addr
      · have hhint : tracedHint outcome (alignUp c.length pageSize) c (c.lookup s).1 (c.lookup s).2 =
            ([⟨a, none⟩], a, some i) := by
          subst ha
          simp [tracedHint, hfound, hr, tracedFits_place, hroom, houtcome, ask_first houtcome]
        rw [hhint]
        exact ⟨fun _ => ⟨fun _ => .inl ha, fun h => absurd rfl h⟩, fun _ => clean_ok mapped_granted rfl hnot⟩
      · have hhint : tracedHint outcome (alignUp c.length pageSize) c (c.lookup s).1 (c.lookup s).2 =
            ([⟨a, none⟩], a, none) := by
          simp [tracedHint, hfound, hr, tracedFits_place, hroom, houtcome, ask_first houtcome, ha]
        rw [hhint]
        refine (hagain (.inr ⟨none, rfl, hpos⟩)).trans ⟨?_, ?_⟩
        · rintro (⟨h, -⟩ | ⟨h, -⟩)
          · cases h
          · exact ⟨fun _ => .inr h, fun h' => absurd rfl h'⟩
        · rintro ⟨h, -⟩
          rcases h rfl with h | h
          · exact absurd h ha
          · exact .inr ⟨h, .inr rfl⟩

/-- A `Mmap` has no effect where it fails, and makes the mapping that it returns else, exactly if it has nothing mapped where
it does not want it. -/
theorem mmap_clean_iff (outcome : Nat → Nat → Option Nat) (s : Allocator) (c : MmapCall) :
    Clean s c (tracedMmap outcome s c).1 (tracedMmap outcome s c).2.1 (tracedMmap outcome s c).2.2 ↔
      (c.Served → c.NoStray outcome s) := by
  by_cases hserved : c.Served
  · obtain ⟨h1, h2, h3, h4⟩ := id hserved
    have hend : tracedMmap outcome s c =
        if c.fixed then
          let e := tracedFixed outcome (alignUp c.length pageSize) c (c.lookup s).1 (c.lookup s).2
          (e.1, e.2.1, .ofExcept e.2.2)
        else
          let e := tracedAnywhere outcome (alignUp c.length pageSize) c (c.lookup s).1 (c.lookup s).2
          (e.1, e.2.1, .ofExcept e.2.2) := by
      unfold tracedMmap
      rw [if_neg h1, if_neg (not_not_intro h2), if_neg h3, if_neg (by omega)]
      cases c.fixed <;> rfl
    rw [hend]
    cases hfixed : c.fixed with
    | true => exact (tracedFixed_clean hfixed).trans ⟨fun h _ => h, fun h => h hserved⟩
    | false => exact (tracedAnywhere_clean hfixed).trans ⟨fun h _ => h, fun h => h hserved⟩
  · refine ⟨fun _ h => absurd h hserved, fun _ => ?_⟩
    unfold tracedMmap
    split
    case isTrue =>
      cases c.kernel.mmap with
      | ok addr => exact ⟨fun h => (by cases h), fun _ h => (by cases h; rfl), fun _ _ h => (by cases h),
          fun h => absurd h hserved⟩
      | error errno => exact ⟨fun _ => ⟨rfl, .refl s⟩, fun _ h => (by cases h), fun _ _ _ => rfl, fun _ _ _ _ _ => rfl⟩
    case isFalse h1 =>
      split
      case isTrue => exact clean_error (.refl s) rfl .EINVAL
      case isFalse h2 =>
        split
        case isTrue => exact clean_error (.refl s) rfl .EINVAL
        case isFalse h3 =>
          rw [if_pos]
          · exact clean_error (.refl s) rfl .EOVERFLOW
          · by_contra h4
            exact hserved ⟨h1, not_not.1 h2, h3, by omega⟩

end Clean

/-- A page that is used, and must not be replaced. -/
def usedPage : MmapCall := { anywhere 0x1000 with addr := 0x100002000, mapFixedNoReplace := true }

/-- The search maps a free page of the region before the call fails with `EEXIST`. -/
theorem usedPage_stray : ¬ Clean afterMmap.allocator usedPage (tracedMmap (fun _ _ => none) afterMmap.allocator usedPage).1
    (tracedMmap (fun _ _ => none) afterMmap.allocator usedPage).2.1
    (tracedMmap (fun _ _ => none) afterMmap.allocator usedPage).2.2 := by
  intro hclean
  have hresult : (tracedMmap (fun _ _ => none) afterMmap.allocator usedPage).2.2 = .error .EEXIST := by decide
  have htrace : (tracedMmap (fun _ _ => none) afterMmap.allocator usedPage).2.1.mapped = [0x100004000] := by decide
  rw [(hclean.failed (congrArg Result.isError hresult)).1] at htrace
  cases htrace

end FexEmu.Allocator64
